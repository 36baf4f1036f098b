import BitDrive.Protocol.ServiceChannels

set_option autoImplicit false

namespace BitDrive

def ServiceEvent.apply (view : String → Option Bool) : ServiceEvent → String → Option Bool
  | .registered serviceId => Function.update view serviceId (some true)
  | .unregistered serviceId => Function.update view serviceId none
  | .healthChanged serviceId healthy =>
    Function.update view serviceId ((view serviceId).map fun _ => healthy)
  | .heartbeatMissed _ => view

def replay (events : List ServiceEvent) : String → Option Bool :=
  events.foldl ServiceEvent.apply fun _ => none

namespace ServiceRegistry

def health (registry : ServiceRegistry) (serviceId : String) : Option Bool :=
  (registry.services.lookup serviceId).map RegisteredService.healthy

def Faithful (registry : ServiceRegistry) : Prop :=
  ∃ events, registry.eventTx = some events ∧ replay events = registry.health

def Announces (registry : ServiceRegistry) : RegistryCall → Prop
  | .handleHeartbeat heartbeat _ _ =>
    heartbeat.healthy = true → registry.health heartbeat.serviceId ≠ some false
  | _ => True

theorem health_insert (registry : ServiceRegistry) (serviceId : String)
    (service : RegisteredService) :
    { registry with services := registry.services.insert serviceId service }.health =
      Function.update registry.health serviceId (some service.healthy) := by
  have changed := Table.lookup_insert registry.services serviceId service
  exact (congrArg (Option.map RegisteredService.healthy ∘ ·) changed).trans
    (Function.comp_update _ _ _ _)

theorem health_erase (registry : ServiceRegistry) (serviceId : String) :
    { registry with services := registry.services.erase serviceId }.health =
      Function.update registry.health serviceId none := by
  have changed := Table.lookup_erase registry.services serviceId
  exact (congrArg (Option.map RegisteredService.healthy ∘ ·) changed).trans
    (Function.comp_update _ _ _ _)

@[simp] theorem health_trySend (registry : ServiceRegistry) (event : ServiceEvent) :
    (registry.trySend event).health = registry.health := rfl

theorem Faithful.announced {registry : ServiceRegistry} (faithful : registry.Faithful)
    (changed : ServiceRegistry) (event : ServiceEvent)
    (events : changed.eventTx = registry.eventTx)
    (effect : changed.health = event.apply registry.health) :
    (changed.trySend event).Faithful := by
  have ⟨sent, known, same⟩ := faithful
  have told : (changed.trySend event).eventTx = some (sent ++ [event]) := by
    simp [trySend, events, known]
  have replayed : replay (sent ++ [event]) = (changed.trySend event).health := by
    rw [replay, List.foldl_append, ← replay, same, health_trySend, effect]
    rfl
  exact ⟨sent ++ [event], told, replayed⟩

theorem Faithful.silent_iff {registry : ServiceRegistry} (faithful : registry.Faithful)
    (changed : ServiceRegistry) (events : changed.eventTx = registry.eventTx) :
    changed.Faithful ↔ changed.health = registry.health := by
  have ⟨sent, known, same⟩ := faithful
  constructor
  next =>
    intro ⟨others, told, agrees⟩
    rw [events, known] at told
    cases told
    exact agrees.symm.trans same
  next =>
    intro kept
    exact ⟨sent, events.trans known, same.trans kept.symm⟩

theorem registerService_faithful (registry : ServiceRegistry) (faithful : registry.Faithful)
    (request : ServiceRegisterRequest) (registeredAt lastHeartbeat now : Nat) :
    (registry.registerService request registeredAt lastHeartbeat now).2.Faithful := by
  cases described : request.capability with
  | none => simpa only [registerService, described] using faithful
  | some capability =>
    cases configured : request.channelConfig with
    | none => simpa only [registerService, described, configured] using faithful
    | some channelConfig =>
      simp only [registerService, described, configured]
      split
      next => exact faithful
      next =>
        exact faithful.announced _ (.registered capability.serviceId) rfl
          (registry.health_insert capability.serviceId _)

theorem unregisterService_faithful (registry : ServiceRegistry) (faithful : registry.Faithful)
    (request : ServiceUnregisterRequest) :
    (registry.unregisterService request).2.Faithful := by
  let removed := { registry with services := registry.services.erase request.serviceId }
  have announced := faithful.announced removed (.unregistered request.serviceId) rfl
    (registry.health_erase request.serviceId)
  rw [unregisterService]
  split <;> exact announced

theorem handleHeartbeat_faithful_iff (registry : ServiceRegistry) (faithful : registry.Faithful)
    (heartbeat : ServiceHeartbeat) (now lastHeartbeat : Nat) :
    (registry.handleHeartbeat heartbeat now lastHeartbeat).2.Faithful ↔
      registry.Announces (.handleHeartbeat heartbeat now lastHeartbeat) := by
  cases known : registry.services.lookup heartbeat.serviceId with
  | none =>
    have absent : registry.health heartbeat.serviceId = none := by simp [health, known]
    simp only [handleHeartbeat, known, Announces, absent]
    exact iff_of_true faithful (by simp)
  | some service =>
    have held : registry.health heartbeat.serviceId = some service.healthy := by
      simp [health, known]
    let beaten := { service with
      lastHeartbeat := now
      healthy := heartbeat.healthy
      info := { service.info with
        healthy := heartbeat.healthy
        lastHeartbeat := some (timestamp lastHeartbeat) } }
    let updated :=
      { registry with services := registry.services.insert heartbeat.serviceId beaten }
    have effect : updated.health =
        Function.update registry.health heartbeat.serviceId (some heartbeat.healthy) :=
      registry.health_insert heartbeat.serviceId beaten
    have step : (registry.handleHeartbeat heartbeat now lastHeartbeat).2 =
        if heartbeat.healthy then updated
        else updated.trySend (.healthChanged heartbeat.serviceId false) := by
      simp only [handleHeartbeat, known, updated, beaten]
    rw [step, Announces, held]
    by_cases healthy : heartbeat.healthy = true
    next =>
      -- Nothing is announced, so the flag has to be what it was.
      rw [if_pos healthy, faithful.silent_iff updated rfl, effect, healthy,
        Function.update_eq_self_iff, held]
      simp
    next =>
      have applied : updated.health =
          (ServiceEvent.healthChanged heartbeat.serviceId false).apply registry.health := by
        rw [effect, ServiceEvent.apply, held, (Bool.not_eq_true _).mp healthy]
        rfl
      have announced := faithful.announced updated (.healthChanged heartbeat.serviceId false) rfl
        applied
      rw [if_neg healthy]
      exact iff_of_true announced fun reported => absurd reported healthy

theorem markUnhealthy_faithful (registry : ServiceRegistry) (faithful : registry.Faithful)
    (serviceId : String) : (registry.markUnhealthy serviceId).Faithful := by
  cases known : registry.services.lookup serviceId with
  | none => simpa only [markUnhealthy, known] using faithful
  | some service =>
    simp only [markUnhealthy, known]
    have held : registry.health serviceId = some service.healthy := by simp [health, known]
    refine faithful.announced _ (.healthChanged serviceId false) rfl ?_
    rw [health_insert, ServiceEvent.apply, held]
    rfl

theorem checkHealth_faithful (registry : ServiceRegistry) (faithful : registry.Faithful)
    (order : Table.Order String) (timeout now : Nat) :
    (registry.checkHealth order timeout now).2.Faithful := by
  rw [checkHealth]
  generalize registry.unhealthyIds order timeout now = serviceIds
  induction serviceIds generalizing registry with
  | nil => exact faithful
  | cons serviceId serviceIds ih =>
    exact ih (registry.markUnhealthy serviceId) (registry.markUnhealthy_faithful faithful serviceId)

theorem call_faithful_iff (registry : ServiceRegistry) (action : RegistryCall)
    (faithful : registry.Faithful) :
    (registry.call action).Faithful ↔ registry.Announces action := by
  cases action with
  | registerService request registeredAt lastHeartbeat now =>
    exact iff_of_true
      (registry.registerService_faithful faithful request registeredAt lastHeartbeat now) trivial
  | unregisterService request =>
    exact iff_of_true (registry.unregisterService_faithful faithful request) trivial
  | handleHeartbeat heartbeat now lastHeartbeat =>
    exact registry.handleHeartbeat_faithful_iff faithful heartbeat now lastHeartbeat
  | checkHealth order timeout now =>
    exact iff_of_true (registry.checkHealth_faithful faithful order timeout now) trivial

theorem event_stream_faithful_iff (history : List RegistryCall) :
    (∀ before, before <+: history → (before.foldl call new.setEventSender).Faithful) ↔
      Run.Each call Announces new.setEventSender history :=
  Run.reached_iff call Faithful Announces call_faithful_iff new.setEventSender history
    ⟨[], rfl, rfl⟩

theorem recovery_not_announced :
    ¬ ([defaultRegistration "bpl.shell", .handleHeartbeat ⟨"bpl.shell", false⟩ 1 1,
      .handleHeartbeat ⟨"bpl.shell", true⟩ 2 2].foldl call new.setEventSender).Faithful := by
  intro ⟨events, sent, same⟩
  cases sent
  have views := congrFun same "bpl.shell"
  exact absurd views (by decide)

end ServiceRegistry

end BitDrive
