import BitDrive.Protocol.ServiceHealth
import BitDrive.Shared.Keyed
import BitDrive.Shared.Lifetime

set_option autoImplicit false

namespace BitDrive

structure ServiceDiscoverRequest where
  serviceId : String
  version : UInt32
  includeInactive : Bool
  deriving DecidableEq, Repr

structure ServiceDiscoverResponse where
  result : Int32
  services : List ServiceInfo
  errorMessage : String

instance (service : RegisteredService) (timeout now : Nat) :
    Decidable (service.Overdue timeout now) :=
  inferInstanceAs (Decidable (_ ∧ _))

namespace ServiceRegistry

def getService (registry : ServiceRegistry) (serviceId : String) : Option ServiceInfo :=
  (registry.services.lookup serviceId).map RegisteredService.info

def listServices (registry : ServiceRegistry) (order : Table.Order String) : List ServiceInfo :=
  (order.list registry.services.keys).filterMap registry.getService

-- One round of the loop: each `continue` leaves the service out.
def discovered (request : ServiceDiscoverRequest) (info : ServiceInfo) : Option ServiceInfo :=
  if request.serviceId ≠ "" ∧ info.serviceId ≠ request.serviceId then none
  else if 0 < request.version ∧ info.version ≠ request.version then none
  else if request.includeInactive = false ∧ info.active = false then none
  else some info

def discoverServices (registry : ServiceRegistry) (order : Table.Order String)
    (request : ServiceDiscoverRequest) : Except ProtocolError ServiceDiscoverResponse :=
  .ok
    { result := ResultCode.success.toI32
      services := (registry.listServices order).filterMap (discovered request)
      errorMessage := "" }

def registeredAs (serviceId : String) : RegistryCall → Option RegisteredService
  | .registerService request registeredAt lastHeartbeat now =>
    request.capability.bind fun capability => request.channelConfig.bind fun channelConfig =>
      if capability.serviceId = serviceId then
        some (registeredService capability channelConfig registeredAt lastHeartbeat now)
      else none
  | _ => none

end ServiceRegistry

namespace RegisteredService

def beaten (service : RegisteredService) (healthy : Bool) (now lastHeartbeat : Nat) :
    RegisteredService :=
  { service with
    lastHeartbeat := now
    healthy := healthy
    info := { service.info with
      healthy := healthy
      lastHeartbeat := some (timestamp lastHeartbeat) } }

def evolve (serviceId : String) (service : RegisteredService) :
    RegistryCall → Option RegisteredService
  | .registerService .. => some service
  | .unregisterService request => if request.serviceId = serviceId then none else some service
  | .handleHeartbeat heartbeat now lastHeartbeat =>
    some (if heartbeat.serviceId = serviceId then
      service.beaten heartbeat.healthy now lastHeartbeat else service)
  | .checkHealth _ timeout now =>
    some (if service.Overdue timeout now then service.unhealthy else service)

theorem evolve_active (serviceId : String) (service next : RegisteredService)
    (action : RegistryCall) (evolved : service.evolve serviceId action = some next) :
    next.info.active = service.info.active := by
  cases action with
  | registerService => rw [Option.some.inj evolved]
  | unregisterService request =>
    rw [evolve] at evolved
    split at evolved
    next => cases evolved
    next => rw [Option.some.inj evolved]
  | handleHeartbeat heartbeat now lastHeartbeat =>
    obtain rfl := Option.some.inj evolved
    split <;> rfl
  | checkHealth order timeout now =>
    obtain rfl := Option.some.inj evolved
    split <;> rfl

theorem foldlM_evolve_active (serviceId : String) (history : List RegistryCall)
    (service final : RegisteredService)
    (lived : history.foldlM (evolve serviceId) service = some final) :
    final.info.active = service.info.active := by
  induction history generalizing service with
  | nil =>
    obtain rfl := Option.some.inj lived
    rfl
  | cons action history ih =>
    rw [List.foldlM_cons] at lived
    obtain ⟨next, evolved, rest⟩ := Option.bind_eq_some_iff.mp lived
    exact (ih next rest).trans (evolve_active serviceId service next action evolved)

end RegisteredService

namespace ServiceRegistry

theorem registerService_lookup (registry : ServiceRegistry) (request : ServiceRegisterRequest)
    (registeredAt lastHeartbeat now : Nat) (serviceId : String) :
    (registry.registerService request registeredAt lastHeartbeat now).2.services.lookup serviceId =
      (registry.services.lookup serviceId).elim
        (registeredAs serviceId (.registerService request registeredAt lastHeartbeat now)) some := by
  cases described : request.capability with
  | none =>
    simp only [registerService, registeredAs, described]
    cases registry.services.lookup serviceId <;> rfl
  | some capability =>
    cases configured : request.channelConfig with
    | none =>
      simp only [registerService, registeredAs, described, configured]
      cases registry.services.lookup serviceId <;> rfl
    | some channelConfig =>
      simp only [registerService, registeredAs, described, configured, Option.bind_some]
      by_cases here : capability.serviceId = serviceId
      next =>
        subst here
        cases present : registry.services.lookup capability.serviceId with
        | none =>
          rw [if_neg (Finmap.lookup_eq_none.mp present), if_pos rfl]
          exact Finmap.lookup_insert _
        | some service =>
          rw [if_pos (Finmap.mem_of_lookup_eq_some present)]
          exact present
      next =>
        have kept : registry.services.lookup serviceId = (registry.services.lookup serviceId).elim
            none some := by
          cases registry.services.lookup serviceId <;> rfl
        rw [if_neg here, ← kept]
        split
        next => rfl
        next => exact Finmap.lookup_insert_of_ne _ fun same => here same.symm

theorem unregisterService_lookup (registry : ServiceRegistry) (request : ServiceUnregisterRequest)
    (serviceId : String) :
    (registry.unregisterService request).2.services.lookup serviceId =
      if request.serviceId = serviceId then none else registry.services.lookup serviceId := by
  have erased : (registry.unregisterService request).2.services =
      registry.services.erase request.serviceId := by
    rw [unregisterService]
    split <;> rfl
  rw [erased]
  split
  next here => rw [← here, Finmap.lookup_erase]
  next elsewhere => exact Finmap.lookup_erase_ne fun same => elsewhere same.symm

theorem handleHeartbeat_lookup (registry : ServiceRegistry) (heartbeat : ServiceHeartbeat)
    (now lastHeartbeat : Nat) (serviceId : String) :
    (registry.handleHeartbeat heartbeat now lastHeartbeat).2.services.lookup serviceId =
      (registry.services.lookup serviceId).map fun service =>
        if heartbeat.serviceId = serviceId then
          service.beaten heartbeat.healthy now lastHeartbeat else service := by
  cases known : registry.services.lookup heartbeat.serviceId with
  | none =>
    simp only [handleHeartbeat, known]
    by_cases here : heartbeat.serviceId = serviceId
    next => rw [← here, known, Option.map_none]
    next => simp [here]
  | some service =>
    have written : (registry.handleHeartbeat heartbeat now lastHeartbeat).2.services =
        registry.services.insert heartbeat.serviceId
          (service.beaten heartbeat.healthy now lastHeartbeat) := by
      simp only [handleHeartbeat, known]
      split <;> rfl
    rw [written]
    by_cases here : heartbeat.serviceId = serviceId
    next =>
      subst here
      rw [Finmap.lookup_insert, known, Option.map_some, if_pos rfl]
    next =>
      rw [Finmap.lookup_insert_of_ne _ fun same => here same.symm]
      simp [here]

theorem checkHealth_lookup (registry : ServiceRegistry) (order : Table.Order String)
    (timeout now : Nat) (serviceId : String) :
    (registry.checkHealth order timeout now).2.services.lookup serviceId =
      (registry.services.lookup serviceId).map fun service =>
        if service.Overdue timeout now then service.unhealthy else service := by
  have swept := registry.checkHealth_swept order timeout now
  rw [swept.marked serviceId]
  cases present : registry.services.lookup serviceId with
  | none => simp
  | some service =>
    have found : serviceId ∈ (registry.checkHealth order timeout now).1 ↔
        service.Overdue timeout now := by
      rw [swept.found, present]
      simp
    simp only [found, Option.map_some]
    split <;> rfl

theorem entry_governs (serviceId : String) (registry : ServiceRegistry) (action : RegistryCall) :
    Lifetime.Governs call (fun registry => registry.services.lookup serviceId)
      (fun _ => registeredAs serviceId) (RegisteredService.evolve serviceId) registry action := by
  rw [Lifetime.Governs]
  cases action with
  | registerService request registeredAt lastHeartbeat now =>
    exact registry.registerService_lookup request registeredAt lastHeartbeat now serviceId
  | unregisterService request =>
    rw [call, unregisterService_lookup]
    cases registry.services.lookup serviceId with
    | none => exact ite_self none
    | some service => rfl
  | handleHeartbeat heartbeat now lastHeartbeat =>
    rw [call, handleHeartbeat_lookup]
    cases registry.services.lookup serviceId <;> rfl
  | checkHealth order timeout now =>
    rw [call, checkHealth_lookup]
    cases registry.services.lookup serviceId <;> rfl

theorem registeredAs_eq (serviceId : String) (action : RegistryCall) (service : RegisteredService)
    (registered : registeredAs serviceId action = some service) :
    service.info.serviceId = serviceId ∧ service.info.active = true := by
  cases action with
  | registerService request registeredAt lastHeartbeat now =>
    obtain ⟨capability, _, configured⟩ := Option.bind_eq_some_iff.mp registered
    obtain ⟨channelConfig, _, made⟩ := Option.bind_eq_some_iff.mp configured
    split at made
    next here =>
      obtain rfl := Option.some.inj made
      exact ⟨here, rfl⟩
    next => cases made
  | unregisterService | handleHeartbeat | checkHealth => cases registered

section

variable (eventTx : Option (List ServiceEvent))

def after (history : List RegistryCall) : ServiceRegistry :=
  history.foldl call { new with eventTx := eventTx }

theorem lookup_iff (history : List RegistryCall) (serviceId : String)
    (service : RegisteredService) :
    (after eventTx history).services.lookup serviceId = some service ↔
      ∃ before registration since first, history = before ++ registration :: since ∧
        (after eventTx before).services.lookup serviceId = none ∧
        registeredAs serviceId registration = some first ∧
        since.foldlM (RegisteredService.evolve serviceId) first = some service := by
  have absent : (after eventTx []).services.lookup serviceId = none := Finmap.lookup_empty serviceId
  have lives := Lifetime.view_eq_some_iff { new with eventTx := eventTx } absent
    (fun before => entry_governs serviceId (after eventTx before)) history service
  refine lives.trans ?_
  constructor
  next =>
    rintro ⟨before, registration, since, first, split, absent, born, lived⟩
    exact ⟨before, registration, since, first, split, absent, born, lived⟩
  next =>
    rintro ⟨before, registration, since, first, split, absent, born, lived⟩
    exact ⟨before, registration, since, first, split, absent, born, lived⟩

-- No call clears the flag that a registration sets.
theorem entry_active (history : List RegistryCall) (serviceId : String)
    (service : RegisteredService)
    (present : (after eventTx history).services.lookup serviceId = some service) :
    service.info.active = true := by
  obtain ⟨_, registration, since, first, _, _, born, lived⟩ :=
    (lookup_iff eventTx history serviceId service).mp present
  have kept := RegisteredService.foldlM_evolve_active serviceId since first service lived
  exact kept.trans (registeredAs_eq serviceId registration first born).2

theorem getService_named (history : List RegistryCall) (serviceId : String) (info : ServiceInfo)
    (present : (after eventTx history).getService serviceId = some info) :
    info.serviceId = serviceId ∧ info.active = true := by
  obtain ⟨service, found, rfl⟩ := Option.map_eq_some_iff.mp present
  have coherent : (after eventTx history).Coherent := (registry_coherent eventTx history).1
  exact ⟨(coherent serviceId service found).info,
    entry_active eventTx history serviceId service found⟩

theorem mem_listServices (history : List RegistryCall) (order : Table.Order String)
    (info : ServiceInfo) :
    info ∈ (after eventTx history).listServices order ↔
      (after eventTx history).getService info.serviceId = some info := by
  rw [listServices, List.mem_filterMap]
  constructor
  next =>
    rintro ⟨serviceId, _, present⟩
    rwa [(getService_named eventTx history serviceId info present).1]
  next =>
    intro present
    obtain ⟨service, found, _⟩ := Option.map_eq_some_iff.mp present
    exact ⟨info.serviceId, (order.mem_list _ _).mpr (Finmap.mem_of_lookup_eq_some found), present⟩

theorem listServices_nodup (history : List RegistryCall) (order : Table.Order String) :
    (((after eventTx history).listServices order).map ServiceInfo.serviceId).Nodup := by
  rw [listServices, List.map_filterMap]
  refine (order.nodup _).filterMap ?_
  intro first second serviceId one two
  obtain ⟨left, found, rfl⟩ := Option.map_eq_some_iff.mp one
  obtain ⟨right, known, same⟩ := Option.map_eq_some_iff.mp two
  rw [← (getService_named eventTx history first left found).1, ← same,
    (getService_named eventTx history second right known).1]

end

theorem discovered_eq (request : ServiceDiscoverRequest) (info found : ServiceInfo)
    (active : info.active = true) :
    discovered request info = some found ↔ info = found ∧
      (request.serviceId = "" ∨ info.serviceId = request.serviceId) ∧
      (request.version = 0 ∨ info.version = request.version) := by
  have version : ¬ 0 < request.version ↔ request.version = 0 := by
    rw [UInt32.lt_iff_toNat_lt, ← UInt32.toNat_inj]
    simp
  rw [discovered]
  split
  next other =>
    refine iff_of_false (by simp) fun selected => ?_
    exact selected.2.1.elim other.1 other.2
  next named =>
    split
    next other =>
      refine iff_of_false (by simp) fun selected => ?_
      exact selected.2.2.elim (fun zero => version.mpr zero other.1) other.2
    next versioned =>
      rw [if_neg (by simp [active]), Option.some.injEq]
      refine (and_iff_left ⟨?_, ?_⟩).symm
      next =>
        by_contra neither
        exact named (not_or.mp neither)
      next =>
        by_contra neither
        obtain ⟨positive, different⟩ := not_or.mp neither
        exact versioned ⟨not_not.mp fun zero => positive (version.mp zero), different⟩

theorem discovered_keeps (request : ServiceDiscoverRequest) (info : ServiceInfo) :
    discovered request info = none ∨ discovered request info = some info := by
  rw [discovered]
  split
  next => exact .inl rfl
  next =>
    split
    next => exact .inl rfl
    next => exact ite_eq_or_eq _ none (some info)

theorem service_directory_iff (eventTx : Option (List ServiceEvent)) (history : List RegistryCall)
    (order : Table.Order String) :
    (∀ serviceId info, (after eventTx history).getService serviceId = some info ↔
      ∃ before registration since first service, history = before ++ registration :: since ∧
        (after eventTx before).getService serviceId = none ∧
        registeredAs serviceId registration = some first ∧
        since.foldlM (RegisteredService.evolve serviceId) first = some service ∧
        service.info = info) ∧
    ∀ request, ∃ response,
      (after eventTx history).discoverServices order request = .ok response ∧
      (response.services.map ServiceInfo.serviceId).Nodup ∧
      ∀ info, info ∈ response.services ↔
        (after eventTx history).getService info.serviceId = some info ∧
        (request.serviceId = "" ∨ info.serviceId = request.serviceId) ∧
        (request.version = 0 ∨ info.version = request.version) := by
  constructor
  next =>
    intro serviceId info
    rw [getService, Option.map_eq_some_iff]
    simp only [lookup_iff, getService, Option.map_eq_none_iff]
    constructor
    next =>
      rintro ⟨service, ⟨before, registration, since, first, split, absent, born, lived⟩, rfl⟩
      exact ⟨before, registration, since, first, service, split, absent, born, lived, rfl⟩
    next =>
      rintro ⟨before, registration, since, first, service, split, absent, born, lived, rfl⟩
      exact ⟨service, ⟨before, registration, since, first, split, absent, born, lived⟩, rfl⟩
  next =>
    intro request
    have active (info : ServiceInfo) (listed : info ∈ (after eventTx history).listServices order) :
        info.active = true :=
      (getService_named eventTx history _ info
        ((mem_listServices eventTx history order info).mp listed)).2
    refine ⟨_, rfl, ?_, fun info => ?_⟩
    next =>
      have selected := Keyed.filterMap_sublist _ (discovered_keeps request)
        ((after eventTx history).listServices order)
      exact (listServices_nodup eventTx history order).sublist (selected.map ServiceInfo.serviceId)
    next =>
      rw [List.mem_filterMap, ← mem_listServices eventTx history order info]
      constructor
      next =>
        rintro ⟨found, listed, selected⟩
        obtain ⟨rfl, fits⟩ := (discovered_eq request found info (active found listed)).mp selected
        exact ⟨listed, fits⟩
      next =>
        rintro ⟨listed, fits⟩
        exact ⟨info, listed, (discovered_eq request info info (active info listed)).mpr ⟨rfl, fits⟩⟩

end ServiceRegistry

end BitDrive
