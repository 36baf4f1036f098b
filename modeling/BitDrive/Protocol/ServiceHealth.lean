import BitDrive.Protocol.ServiceChannels

set_option autoImplicit false

namespace BitDrive

structure RegisteredService.Coherent (service : RegisteredService) (serviceId : String) : Prop where
  info : service.info.serviceId = serviceId
  capability : service.capability.serviceId = serviceId
  healthy : service.healthy = service.info.healthy
  channelId : service.channelId = channelIdOrZero service.info.channelId
  version : service.info.version = service.capability.version

def RegisteredService.unhealthy (service : RegisteredService) : RegisteredService :=
  { service with healthy := false, info := { service.info with healthy := false } }

def RegisteredService.Overdue (service : RegisteredService) (timeout now : Nat) : Prop :=
  service.healthy = true ∧ service.lastHeartbeat + timeout < now

namespace ServiceRegistry

def Coherent (registry : ServiceRegistry) : Prop :=
  ∀ serviceId service, registry.services.lookup serviceId = some service →
    service.Coherent serviceId

theorem Coherent.insert {registry : ServiceRegistry} (coherent : registry.Coherent)
    (serviceId : String) (service : RegisteredService) (entry : service.Coherent serviceId)
    (eventTx : Option (List ServiceEvent)) :
    Coherent { services := registry.services.insert serviceId service, eventTx := eventTx } := by
  intro other found present
  by_cases same : other = serviceId
  next =>
    subst same
    rw [Finmap.lookup_insert, Option.some.injEq] at present
    rwa [← present]
  next =>
    rw [Finmap.lookup_insert_of_ne _ same] at present
    exact coherent other found present

theorem Coherent.erase {registry : ServiceRegistry} (coherent : registry.Coherent)
    (serviceId : String) (eventTx : Option (List ServiceEvent)) :
    Coherent { services := registry.services.erase serviceId, eventTx := eventTx } := by
  intro other found present
  by_cases same : other = serviceId
  next =>
    subst same
    simp at present
  next =>
    rw [Finmap.lookup_erase_ne same] at present
    exact coherent other found present

theorem registeredService_coherent (capability : RegisteredCapability)
    (channelConfig : ChannelConfig) (registeredAt lastHeartbeat now : Nat) :
    (registeredService capability channelConfig registeredAt lastHeartbeat now).Coherent
      capability.serviceId where
  info := rfl
  capability := rfl
  healthy := rfl
  channelId := rfl
  version := rfl

theorem registerService_coherent (registry : ServiceRegistry) (coherent : registry.Coherent)
    (request : ServiceRegisterRequest) (registeredAt lastHeartbeat now : Nat) :
    (registry.registerService request registeredAt lastHeartbeat now).2.Coherent := by
  cases described : request.capability with
  | none => simpa only [registerService, described] using coherent
  | some capability =>
    cases configured : request.channelConfig with
    | none => simpa only [registerService, described, configured] using coherent
    | some channelConfig =>
      simp only [registerService, described, configured]
      split
      next => exact coherent
      next => exact coherent.insert _ _ (registeredService_coherent capability channelConfig _ _ _) _

theorem unregisterService_coherent (registry : ServiceRegistry) (coherent : registry.Coherent)
    (request : ServiceUnregisterRequest) :
    (registry.unregisterService request).2.Coherent := by
  rw [unregisterService]
  split <;> exact coherent.erase request.serviceId _

theorem handleHeartbeat_coherent (registry : ServiceRegistry) (coherent : registry.Coherent)
    (heartbeat : ServiceHeartbeat) (now lastHeartbeat : Nat) :
    (registry.handleHeartbeat heartbeat now lastHeartbeat).2.Coherent := by
  cases known : registry.services.lookup heartbeat.serviceId with
  | none => simpa only [handleHeartbeat, known] using coherent
  | some service =>
    have entry := coherent heartbeat.serviceId service known
    have beaten : RegisteredService.Coherent { service with
        lastHeartbeat := now
        healthy := heartbeat.healthy
        info := { service.info with
          healthy := heartbeat.healthy
          lastHeartbeat := some (timestamp lastHeartbeat) } } heartbeat.serviceId :=
      ⟨entry.info, entry.capability, rfl, entry.channelId, entry.version⟩
    simp only [handleHeartbeat, known]
    split <;> exact coherent.insert _ _ beaten _

theorem markUnhealthy_coherent (registry : ServiceRegistry) (coherent : registry.Coherent)
    (serviceId : String) : (registry.markUnhealthy serviceId).Coherent := by
  cases known : registry.services.lookup serviceId with
  | none => simpa only [markUnhealthy, known] using coherent
  | some service =>
    have entry := coherent serviceId service known
    have marked : service.unhealthy.Coherent serviceId :=
      ⟨entry.info, entry.capability, rfl, entry.channelId, entry.version⟩
    simp only [markUnhealthy, known]
    exact coherent.insert serviceId _ marked _

theorem checkHealth_coherent (registry : ServiceRegistry) (coherent : registry.Coherent)
    (order : Table.Order String) (timeout now : Nat) :
    (registry.checkHealth order timeout now).2.Coherent := by
  rw [checkHealth]
  generalize registry.unhealthyIds order timeout now = serviceIds
  induction serviceIds generalizing registry with
  | nil => exact coherent
  | cons serviceId serviceIds ih =>
    exact ih (registry.markUnhealthy serviceId) (registry.markUnhealthy_coherent coherent serviceId)

theorem call_coherent (registry : ServiceRegistry) (coherent : registry.Coherent)
    (action : RegistryCall) : (registry.call action).Coherent := by
  cases action with
  | registerService request registeredAt lastHeartbeat now =>
    exact registry.registerService_coherent coherent request registeredAt lastHeartbeat now
  | unregisterService request => exact registry.unregisterService_coherent coherent request
  | handleHeartbeat heartbeat now lastHeartbeat =>
    exact registry.handleHeartbeat_coherent coherent heartbeat now lastHeartbeat
  | checkHealth order timeout now => exact registry.checkHealth_coherent coherent order timeout now

theorem calls_coherent (registry : ServiceRegistry) (coherent : registry.Coherent)
    (history : List RegistryCall) : (history.foldl call registry).Coherent := by
  induction history generalizing registry with
  | nil => exact coherent
  | cons action history ih =>
    exact ih (registry.call action) (registry.call_coherent coherent action)

theorem registerService_known (registry : ServiceRegistry) (request : ServiceRegisterRequest)
    (capability : RegisteredCapability) (registeredAt lastHeartbeat now : Nat)
    (described : request.capability = some capability)
    (known : capability.serviceId ∈ registry.services) :
    (registry.registerService request registeredAt lastHeartbeat now).2 = registry := by
  cases configured : request.channelConfig with
  | none => simp only [registerService, described, configured]
  | some channelConfig => simp only [registerService, described, configured, known, if_true]

structure Swept (registry : ServiceRegistry) (order : Table.Order String) (timeout now : Nat) :
    Prop where
  found : ∀ serviceId, serviceId ∈ (registry.checkHealth order timeout now).1 ↔
    ∃ service, registry.services.lookup serviceId = some service ∧ service.Overdue timeout now
  once : (registry.checkHealth order timeout now).1.Nodup
  marked : ∀ serviceId,
    (registry.checkHealth order timeout now).2.services.lookup serviceId =
      if serviceId ∈ (registry.checkHealth order timeout now).1 then
        (registry.services.lookup serviceId).map RegisteredService.unhealthy
      else registry.services.lookup serviceId
  settled : ∀ again : Table.Order String,
    ((registry.checkHealth order timeout now).2.checkHealth again timeout now).1 = []

theorem mem_unhealthyIds (registry : ServiceRegistry) (order : Table.Order String)
    (timeout now : Nat) (serviceId : String) :
    serviceId ∈ registry.unhealthyIds order timeout now ↔
      ∃ service, registry.services.lookup serviceId = some service ∧
        service.Overdue timeout now := by
  have older (service : RegisteredService) :
      timeout < now - service.lastHeartbeat ↔ service.lastHeartbeat + timeout < now := by
    omega
  rw [unhealthyIds, List.mem_filter, order.mem_list, Finmap.mem_keys, ← Finmap.lookup_isSome]
  cases registry.services.lookup serviceId with
  | none => simp
  | some service => simp [RegisteredService.Overdue, older]

theorem markUnhealthy_lookup (registry : ServiceRegistry) (serviceId other : String) :
    (registry.markUnhealthy serviceId).services.lookup other =
      if other = serviceId then (registry.services.lookup other).map RegisteredService.unhealthy
      else registry.services.lookup other := by
  cases known : registry.services.lookup serviceId with
  | none =>
    simp only [markUnhealthy, known]
    split
    next same => rw [same, known, Option.map_none]
    next => rfl
  | some service =>
    simp only [markUnhealthy, known, trySend]
    split
    next same =>
      subst same
      rw [Finmap.lookup_insert, known]
      rfl
    next different => exact Finmap.lookup_insert_of_ne _ different

theorem markAll_lookup (registry : ServiceRegistry) (serviceIds : List String) (other : String) :
    (serviceIds.foldl markUnhealthy registry).services.lookup other =
      if other ∈ serviceIds then
        (registry.services.lookup other).map RegisteredService.unhealthy
      else registry.services.lookup other := by
  have twice : RegisteredService.unhealthy ∘ RegisteredService.unhealthy =
      RegisteredService.unhealthy := rfl
  induction serviceIds generalizing registry with
  | nil => simp
  | cons serviceId serviceIds ih =>
    rw [List.foldl_cons, ih, markUnhealthy_lookup]
    by_cases here : other = serviceId
    next =>
      simp only [here, if_true, List.mem_cons, true_or, Option.map_map, twice, ite_self]
    next => simp only [here, if_false, List.mem_cons, false_or]

theorem checkHealth_swept (registry : ServiceRegistry) (order : Table.Order String)
    (timeout now : Nat) : registry.Swept order timeout now where
  found := registry.mem_unhealthyIds order timeout now
  once := (order.nodup registry.services.keys).filter _
  marked := registry.markAll_lookup (registry.unhealthyIds order timeout now)
  settled := by
    intro again
    apply List.eq_nil_iff_forall_not_mem.mpr
    intro serviceId member
    have ⟨service, present, healthy, older⟩ :=
      (mem_unhealthyIds _ again timeout now serviceId).mp member
    have marked := registry.markAll_lookup (registry.unhealthyIds order timeout now) serviceId
    have same : some service = if serviceId ∈ registry.unhealthyIds order timeout now then
        (registry.services.lookup serviceId).map RegisteredService.unhealthy
        else registry.services.lookup serviceId :=
      present.symm.trans marked
    split at same
    next =>
      have ⟨before, _, made⟩ := Option.map_eq_some_iff.mp same.symm
      rw [← made] at healthy
      cases healthy
    next unmarked =>
      exact unmarked ((registry.mem_unhealthyIds order timeout now serviceId).mpr
        ⟨service, same.symm, healthy, older⟩)

theorem registry_coherent (eventTx : Option (List ServiceEvent)) (history : List RegistryCall) :
    let registry := history.foldl call { new with eventTx := eventTx }
    registry.Coherent ∧
      (∀ request capability registeredAt lastHeartbeat now,
        request.capability = some capability → capability.serviceId ∈ registry.services →
          (registry.registerService request registeredAt lastHeartbeat now).2 = registry) ∧
      ∀ order timeout now, registry.Swept order timeout now := by
  have start : Coherent { new with eventTx := eventTx } := by
    intro serviceId service present
    simp [new] at present
  refine ⟨calls_coherent _ start history, ?_, ?_⟩
  next =>
    intro request capability registeredAt lastHeartbeat now described known
    exact registerService_known _ request capability registeredAt lastHeartbeat now described known
  next => exact fun order timeout now => checkHealth_swept _ order timeout now

end ServiceRegistry

end BitDrive
