import BitDrive.Protocol.Capability
import BitDrive.Protocol.Mux
import BitDrive.Shared.Table

set_option autoImplicit false

namespace BitDrive

structure Timestamp where
  value : Int64
  deriving DecidableEq, Repr

structure RegisteredCapability extends ServiceCapability where
  name : String
  description : String
  featureFlags : UInt64

structure ServiceInfo where
  serviceId : String
  version : UInt32
  name : String
  description : String
  channelId : Option ChannelId
  channelType : Int32
  active : Bool
  healthy : Bool
  registeredAt : Option Timestamp
  lastHeartbeat : Option Timestamp
  metadata : String → Option String
  featureFlags : UInt64

structure RegisteredService where
  info : ServiceInfo
  capability : RegisteredCapability
  channelId : UInt32
  lastHeartbeat : Nat
  healthy : Bool

inductive ServiceEvent where
  | registered (serviceId : String)
  | unregistered (serviceId : String)
  | healthChanged (serviceId : String) (healthy : Bool)
  | heartbeatMissed (serviceId : String)
  deriving DecidableEq, Repr

structure ServiceRegisterRequest where
  capability : Option RegisteredCapability
  channelConfig : Option ChannelConfig

structure ServiceRegisterResponse where
  result : Int32
  assignedChannel : Option ChannelId
  errorMessage : String
  deriving DecidableEq, Repr

structure ServiceUnregisterRequest where
  serviceId : String
  deriving DecidableEq, Repr

structure ServiceUnregisterResponse where
  result : Int32
  errorMessage : String
  deriving DecidableEq, Repr

structure ServiceHeartbeat where
  serviceId : String
  healthy : Bool
  deriving DecidableEq, Repr

structure ServiceHeartbeatResponse where
  result : Int32
  acknowledge : Bool
  deriving DecidableEq, Repr

structure ServiceRegistry where
  services : Table String RegisteredService
  -- The events offered to the queue; whether it takes them is ignored.
  eventTx : Option (List ServiceEvent)

def timestamp (millis : Nat) : Timestamp := ⟨Int64.ofNat millis⟩

namespace ServiceRegistry

def new : ServiceRegistry where
  services := ∅
  eventTx := none

def setEventSender (registry : ServiceRegistry) : ServiceRegistry :=
  { registry with eventTx := some [] }

def trySend (registry : ServiceRegistry) (event : ServiceEvent) : ServiceRegistry :=
  { registry with eventTx := registry.eventTx.map (· ++ [event]) }

def getChannelId (registry : ServiceRegistry) (serviceId : String) : Option UInt32 :=
  (registry.services.lookup serviceId).map RegisteredService.channelId

def registeredService (capability : RegisteredCapability) (channelConfig : ChannelConfig)
    (registeredAt lastHeartbeat now : Nat) : RegisteredService where
  info :=
    { serviceId := capability.serviceId
      version := capability.version
      name := capability.name
      description := capability.description
      channelId := channelConfig.channelId
      channelType := channelConfig.type
      active := true
      healthy := true
      registeredAt := some (timestamp registeredAt)
      lastHeartbeat := some (timestamp lastHeartbeat)
      metadata := capability.metadata
      featureFlags := capability.featureFlags }
  capability := capability
  channelId := channelIdOrZero channelConfig.channelId
  lastHeartbeat := now
  healthy := true

def registerService (registry : ServiceRegistry) (request : ServiceRegisterRequest)
    (registeredAt lastHeartbeat now : Nat) :
    Except ProtocolError ServiceRegisterResponse × ServiceRegistry :=
  match request.capability with
  | none => (.error (.invalidServiceConfig "Missing capability"), registry)
  | some capability =>
    match request.channelConfig with
    | none => (.error (.invalidServiceConfig "Missing channel config"), registry)
    | some channelConfig =>
      let serviceId := capability.serviceId
      if serviceId ∈ registry.services then
        (.ok
          { result := ResultCode.errorGeneric.toI32
            assignedChannel := some ⟨0⟩
            errorMessage := "Service already registered" }, registry)
      else
        let service := registeredService capability channelConfig registeredAt lastHeartbeat now
        let inserted := { registry with services := registry.services.insert serviceId service }
        (.ok
          { result := ResultCode.success.toI32
            assignedChannel := channelConfig.channelId
            errorMessage := "" }, inserted.trySend (.registered serviceId))

def unregisterService (registry : ServiceRegistry) (request : ServiceUnregisterRequest) :
    Except ProtocolError ServiceUnregisterResponse × ServiceRegistry :=
  let removed := { registry with services := registry.services.erase request.serviceId }
  let notified := removed.trySend (.unregistered request.serviceId)
  if request.serviceId ∈ registry.services then
    (.ok { result := ResultCode.success.toI32, errorMessage := "" }, notified)
  else
    (.ok { result := ResultCode.errorNotFound.toI32, errorMessage := "Service not found" },
      notified)

def handleHeartbeat (registry : ServiceRegistry) (heartbeat : ServiceHeartbeat)
    (now lastHeartbeat : Nat) :
    Except ProtocolError ServiceHeartbeatResponse × ServiceRegistry :=
  match registry.services.lookup heartbeat.serviceId with
  | some service =>
    let service := { service with
      lastHeartbeat := now
      healthy := heartbeat.healthy
      info := { service.info with
        healthy := heartbeat.healthy
        lastHeartbeat := some (timestamp lastHeartbeat) } }
    let updated :=
      { registry with services := registry.services.insert heartbeat.serviceId service }
    (.ok { result := ResultCode.success.toI32, acknowledge := true },
      if heartbeat.healthy then updated
      else updated.trySend (.healthChanged heartbeat.serviceId false))
  | none => (.ok { result := ResultCode.errorNotFound.toI32, acknowledge := false }, registry)

def markUnhealthy (registry : ServiceRegistry) (serviceId : String) : ServiceRegistry :=
  match registry.services.lookup serviceId with
  | some service =>
    let service :=
      { service with healthy := false, info := { service.info with healthy := false } }
    { registry with services := registry.services.insert serviceId service }.trySend
      (.healthChanged serviceId false)
  | none => registry

-- `duration_since` saturates at zero, as subtraction on `Nat` does.
def unhealthyIds (registry : ServiceRegistry) (order : Table.Order String) (timeout now : Nat) :
    List String :=
  (order.list registry.services.keys).filter fun serviceId =>
    (registry.services.lookup serviceId).any fun service =>
      service.healthy && decide (timeout < now - service.lastHeartbeat)

def checkHealth (registry : ServiceRegistry) (order : Table.Order String) (timeout now : Nat) :
    List String × ServiceRegistry :=
  let unhealthy := registry.unhealthyIds order timeout now
  (unhealthy, unhealthy.foldl markUnhealthy registry)

@[simp] theorem getChannelId_new (serviceId : String) : new.getChannelId serviceId = none := rfl

@[simp] theorem getChannelId_trySend (registry : ServiceRegistry) (event : ServiceEvent) :
    (registry.trySend event).getChannelId = registry.getChannelId := rfl

theorem getChannelId_eq_none (registry : ServiceRegistry) (serviceId : String) :
    registry.getChannelId serviceId = none ↔ serviceId ∉ registry.services := by
  simp [getChannelId, Finmap.lookup_eq_none]

theorem getChannelId_insert (registry : ServiceRegistry) (serviceId : String)
    (service : RegisteredService) :
    { registry with services := registry.services.insert serviceId service }.getChannelId =
      Function.update registry.getChannelId serviceId (some service.channelId) := by
  have changed := Table.lookup_insert registry.services serviceId service
  exact (congrArg (Option.map RegisteredService.channelId ∘ ·) changed).trans
    (Function.comp_update _ _ _ _)

theorem getChannelId_erase (registry : ServiceRegistry) (serviceId : String) :
    { registry with services := registry.services.erase serviceId }.getChannelId =
      Function.update registry.getChannelId serviceId none := by
  have changed := Table.lookup_erase registry.services serviceId
  exact (congrArg (Option.map RegisteredService.channelId ∘ ·) changed).trans
    (Function.comp_update _ _ _ _)

theorem getChannelId_rewrite (registry : ServiceRegistry) (serviceId : String)
    (service written : RegisteredService)
    (known : registry.services.lookup serviceId = some service)
    (kept : written.channelId = service.channelId) :
    { registry with services := registry.services.insert serviceId written }.getChannelId =
      registry.getChannelId := by
  have held : registry.getChannelId serviceId = some written.channelId := by
    simp [getChannelId, known, kept]
  rw [getChannelId_insert, ← held, Function.update_eq_self]

inductive Registers (registry : ServiceRegistry) (request : ServiceRegisterRequest) :
    Except ProtocolError ServiceRegisterResponse × ServiceRegistry → Prop where
  | invalid (error : ProtocolError)
      (missing : request.capability = none ∨ request.channelConfig = none) :
      Registers registry request (.error error, registry)
  | present (response : ServiceRegisterResponse) (capability : RegisteredCapability)
      (described : request.capability = some capability)
      (known : registry.getChannelId capability.serviceId ≠ none)
      (refused : response.result = ResultCode.errorGeneric.toI32) :
      Registers registry request (.ok response, registry)
  | registered (response : ServiceRegisterResponse) (next : ServiceRegistry)
      (capability : RegisteredCapability) (channelConfig : ChannelConfig)
      (described : request.capability = some capability)
      (configured : request.channelConfig = some channelConfig)
      (absent : registry.getChannelId capability.serviceId = none)
      (succeeded : response.result = ResultCode.success.toI32)
      (assigned : response.assignedChannel = channelConfig.channelId)
      (mapped : next.getChannelId = Function.update registry.getChannelId capability.serviceId
        (some (channelIdOrZero channelConfig.channelId))) :
      Registers registry request (.ok response, next)

theorem registerService_registers (registry : ServiceRegistry) (request : ServiceRegisterRequest)
    (registeredAt lastHeartbeat now : Nat) :
    registry.Registers request
      (registry.registerService request registeredAt lastHeartbeat now) := by
  cases described : request.capability with
  | none =>
    simp only [registerService, described]
    exact .invalid _ (.inl described)
  | some capability =>
    cases configured : request.channelConfig with
    | none =>
      simp only [registerService, described, configured]
      exact .invalid _ (.inr configured)
    | some channelConfig =>
      simp only [registerService, described, configured]
      split
      next known =>
        refine .present _ capability described ?_ rfl
        intro absent
        exact (registry.getChannelId_eq_none capability.serviceId).mp absent known
      next absent =>
        refine .registered _ _ capability channelConfig described configured
          ((registry.getChannelId_eq_none capability.serviceId).mpr absent) rfl rfl ?_
        exact registry.getChannelId_insert capability.serviceId
          (registeredService capability channelConfig registeredAt lastHeartbeat now)

theorem unregisterService_getChannelId (registry : ServiceRegistry)
    (request : ServiceUnregisterRequest) :
    (registry.unregisterService request).2.getChannelId =
      Function.update registry.getChannelId request.serviceId none := by
  rw [← getChannelId_erase, unregisterService]
  split <;> rfl

theorem handleHeartbeat_getChannelId (registry : ServiceRegistry) (heartbeat : ServiceHeartbeat)
    (now lastHeartbeat : Nat) :
    (registry.handleHeartbeat heartbeat now lastHeartbeat).2.getChannelId =
      registry.getChannelId := by
  cases known : registry.services.lookup heartbeat.serviceId with
  | none => simp only [handleHeartbeat, known]
  | some service =>
    simp only [handleHeartbeat, known]
    split
    next => exact registry.getChannelId_rewrite heartbeat.serviceId service _ known rfl
    next =>
      rw [getChannelId_trySend]
      exact registry.getChannelId_rewrite heartbeat.serviceId service _ known rfl

theorem markUnhealthy_getChannelId (registry : ServiceRegistry) (serviceId : String) :
    (registry.markUnhealthy serviceId).getChannelId = registry.getChannelId := by
  cases known : registry.services.lookup serviceId with
  | none => simp only [markUnhealthy, known]
  | some service =>
    simp only [markUnhealthy, known, getChannelId_trySend]
    exact registry.getChannelId_rewrite serviceId service _ known rfl

theorem checkHealth_getChannelId (registry : ServiceRegistry) (order : Table.Order String)
    (timeout now : Nat) :
    (registry.checkHealth order timeout now).2.getChannelId = registry.getChannelId := by
  have marked (serviceIds : List String) (registry : ServiceRegistry) :
      (serviceIds.foldl markUnhealthy registry).getChannelId = registry.getChannelId := by
    induction serviceIds generalizing registry with
    | nil => rfl
    | cons serviceId serviceIds ih =>
      exact (ih (registry.markUnhealthy serviceId)).trans
        (registry.markUnhealthy_getChannelId serviceId)
  exact marked _ registry

end ServiceRegistry

end BitDrive
