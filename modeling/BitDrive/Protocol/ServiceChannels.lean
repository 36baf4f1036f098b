import BitDrive.Protocol.Registry
import BitDrive.Shared.Run

set_option autoImplicit false

namespace BitDrive

inductive RegistryCall where
  | registerService (request : ServiceRegisterRequest) (registeredAt lastHeartbeat now : Nat)
  | unregisterService (request : ServiceUnregisterRequest)
  | handleHeartbeat (heartbeat : ServiceHeartbeat) (now lastHeartbeat : Nat)
  | checkHealth (order : Table.Order String) (timeout now : Nat)

namespace ServiceRegistry

def call (registry : ServiceRegistry) : RegistryCall → ServiceRegistry
  | .registerService request registeredAt lastHeartbeat now =>
    (registry.registerService request registeredAt lastHeartbeat now).2
  | .unregisterService request => (registry.unregisterService request).2
  | .handleHeartbeat heartbeat now lastHeartbeat =>
    (registry.handleHeartbeat heartbeat now lastHeartbeat).2
  | .checkHealth order timeout now => (registry.checkHealth order timeout now).2

structure Mapped (registry : ServiceRegistry) : Prop where
  unshared : Table.Unshared registry.getChannelId
  apart : ∀ serviceId, registry.getChannelId serviceId ≠ some controlChannelId

def Assigns (registry : ServiceRegistry) : RegistryCall → Prop
  | .registerService request registeredAt lastHeartbeat now =>
    ∀ response, (registry.registerService request registeredAt lastHeartbeat now).1 = .ok response →
      response.result = ResultCode.success.toI32 →
      ∃ channel, response.assignedChannel = some channel ∧
        ∀ serviceId, registry.getChannelId serviceId ≠ some channel.value
  | _ => True

def MapsTo (registry : ServiceRegistry) (action : RegistryCall) : Prop :=
  registry.Assigns action ∧ (registry.call action).Mapped

def Requests (registry : ServiceRegistry) : RegistryCall → Prop
  | .registerService request _ _ _ =>
    ∀ capability channelConfig, request.capability = some capability →
      request.channelConfig = some channelConfig →
      registry.getChannelId capability.serviceId = none →
      ∃ channel, channelConfig.channelId = some channel ∧ channel.value ≠ controlChannelId ∧
        ∀ serviceId, registry.getChannelId serviceId ≠ some channel.value
  | _ => True

theorem new_mapped : new.Mapped where
  unshared := by intro first second channel held; simp at held
  apart := by simp

theorem Mapped.of_eq (registry next : ServiceRegistry) (mapped : registry.Mapped)
    (same : next.getChannelId = registry.getChannelId) : next.Mapped where
  unshared := same ▸ mapped.unshared
  apart := same ▸ mapped.apart

theorem Mapped.of_erase (registry next : ServiceRegistry) (mapped : registry.Mapped)
    (serviceId : String)
    (erased : next.getChannelId = Function.update registry.getChannelId serviceId none) :
    next.Mapped where
  unshared := by
    rw [erased]
    exact Table.unshared_update_none _ serviceId mapped.unshared
  apart := by
    intro other
    by_cases same : other = serviceId
    next => simp [erased, same]
    next => simpa [erased, Function.update_of_ne same] using mapped.apart other

theorem mapped_insert_iff (registry next : ServiceRegistry) (mapped : registry.Mapped)
    (serviceId : String) (channelId : UInt32) (absent : registry.getChannelId serviceId = none)
    (inserted : next.getChannelId =
      Function.update registry.getChannelId serviceId (some channelId)) :
    next.Mapped ↔ channelId ≠ controlChannelId ∧
      ∀ other, registry.getChannelId other ≠ some channelId := by
  have fresh := Table.unshared_update_some registry.getChannelId serviceId channelId absent
  constructor
  next =>
    intro after
    have own : next.getChannelId serviceId = some channelId := by simp [inserted]
    have split := fresh.mp (inserted ▸ after.unshared)
    exact ⟨fun zero => after.apart serviceId (zero ▸ own), split.2⟩
  next =>
    intro ⟨nonzero, free⟩
    constructor
    next =>
      rw [inserted]
      exact fresh.mpr ⟨mapped.unshared, free⟩
    next =>
      intro other
      by_cases same : other = serviceId
      next => simpa [inserted, same] using nonzero
      next => simpa [inserted, Function.update_of_ne same] using mapped.apart other

theorem registerService_mapsTo_iff (registry : ServiceRegistry) (mapped : registry.Mapped)
    (request : ServiceRegisterRequest) (registeredAt lastHeartbeat now : Nat) :
    registry.MapsTo (.registerService request registeredAt lastHeartbeat now) ↔
      registry.Requests (.registerService request registeredAt lastHeartbeat now) := by
  have spec := registry.registerService_registers request registeredAt lastHeartbeat now
  simp only [MapsTo, Assigns, call, Requests]
  cases result : registry.registerService request registeredAt lastHeartbeat now with
  | mk outcome next =>
    rw [result] at spec
    cases spec with
    | invalid error missing =>
      refine iff_of_true ⟨by simp, mapped⟩ ?_
      intro capability channelConfig described configured
      cases missing with
      | inl absent => simp [absent] at described
      | inr absent => simp [absent] at configured
    | present response capability described known refused =>
      refine iff_of_true ⟨?_, mapped⟩ ?_
      · intro answer same succeeded
        cases same
        exact absurd (refused.symm.trans succeeded) (by decide)
      · intro other channelConfig requested _ absent
        obtain rfl : capability = other := Option.some.inj (described.symm.trans requested)
        exact absurd absent known
    | registered response next capability channelConfig described configured absent succeeded
        assigned inserted =>
      rw [registry.mapped_insert_iff next mapped capability.serviceId _ absent inserted]
      constructor
      next =>
        intro ⟨assigns, nonzero, free⟩ other config requested offered _
        obtain rfl : channelConfig = config := Option.some.inj (configured.symm.trans offered)
        have ⟨channel, named, _⟩ := assigns response rfl succeeded
        rw [assigned] at named
        simp only [named, channelIdOrZero, Option.elim_some] at nonzero free
        exact ⟨channel, named, nonzero, free⟩
      next =>
        intro requests
        have ⟨channel, named, nonzero, free⟩ :=
          requests capability channelConfig described configured absent
        simp only [named, channelIdOrZero, Option.elim_some]
        refine ⟨?_, nonzero, free⟩
        intro answer same _
        cases same
        exact ⟨channel, assigned.trans named, free⟩

theorem mapsTo_iff (registry : ServiceRegistry) (action : RegistryCall) (mapped : registry.Mapped) :
    registry.MapsTo action ↔ registry.Requests action := by
  cases action with
  | registerService request registeredAt lastHeartbeat now =>
    exact registry.registerService_mapsTo_iff mapped request registeredAt lastHeartbeat now
  | unregisterService request =>
    have erased := registry.unregisterService_getChannelId request
    exact iff_of_true ⟨trivial, mapped.of_erase registry _ request.serviceId erased⟩ trivial
  | handleHeartbeat heartbeat now lastHeartbeat =>
    have same := registry.handleHeartbeat_getChannelId heartbeat now lastHeartbeat
    exact iff_of_true ⟨trivial, mapped.of_eq registry _ same⟩ trivial
  | checkHealth order timeout now =>
    have same := registry.checkHealth_getChannelId order timeout now
    exact iff_of_true ⟨trivial, mapped.of_eq registry _ same⟩ trivial

theorem service_channels_iff (history : List RegistryCall) :
    ((∀ before, before <+: history → (before.foldl call new).Mapped) ∧
        Run.Each call Assigns new history) ↔
      Run.Each call Requests new history := by
  have kept (registry : ServiceRegistry) (action : RegistryCall) (_ : registry.Mapped)
      (maps : registry.MapsTo action) : (registry.call action).Mapped := maps.2
  calc ((∀ before, before <+: history → (before.foldl call new).Mapped) ∧
        Run.Each call Assigns new history) ↔ Run.Each call MapsTo new history := by
        rw [and_comm]
        exact (Run.each_and_reached call Assigns Mapped new history new_mapped).symm
    _ ↔ Run.Each call Requests new history :=
        Run.each_congr call Mapped MapsTo Requests kept mapsTo_iff new history new_mapped

def defaultRegistration (serviceId : String) : RegistryCall :=
  .registerService
    { capability := some
        { serviceId := serviceId
          version := 1
          required := false
          metadata := fun _ => none
          name := ""
          description := ""
          featureFlags := 0 }
      channelConfig := some (defaultChannelConfig serviceId .data .normal) } 0 0 0

theorem default_channels_shared :
    ¬ ([defaultRegistration "bpl.filesystem", defaultRegistration "bpl.clipboard"].foldl
      call new).Mapped := by
  intro mapped
  exact absurd (mapped.unshared "bpl.filesystem" "bpl.clipboard" 0 rfl rfl) (by decide)

end ServiceRegistry

end BitDrive
