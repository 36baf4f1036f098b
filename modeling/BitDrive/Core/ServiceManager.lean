import BitDrive.Protocol.Capability
import BitDrive.Protocol.ErrorText
import BitDrive.Shared.Table

set_option autoImplicit false

namespace BitDrive.Core

open ByteLayout

structure SessionId where
  value : Bytes
  deriving DecidableEq, Repr

structure DeviceId where
  value : Bytes
  deriving DecidableEq, Repr

structure ServiceRequest where
  serviceId : String
  channelId : UInt32
  requestId : UInt64
  payload : Bytes
  metadata : String → Option String

structure ServiceResponse where
  requestId : UInt64
  result : Int32
  payload : Bytes
  errorMessage : String
  metadata : String → Option String

def ServiceResponse.success (requestId : UInt64) (payload : Bytes) : ServiceResponse where
  requestId := requestId
  result := ResultCode.success.toI32
  payload := payload
  errorMessage := ""
  metadata := fun _ => none

def ServiceResponse.error (requestId : UInt64) (code : Int32) (message : String) :
    ServiceResponse where
  requestId := requestId
  result := code
  payload := []
  errorMessage := message
  metadata := fun _ => none

inductive ServiceEvent where
  | sessionOpened (sessionId : SessionId)
  | sessionClosed (sessionId : SessionId)
  | capabilitiesNegotiated (capabilities : List NegotiatedCapability)
  | channelOpened (channelId : ChannelId)
  | channelClosed (channelId : ChannelId)
  | peerConfigChanged (config : String)
  | deviceConnected (deviceId : DeviceId)
  | deviceDisconnected (deviceId : DeviceId)

class Service (S : Type) (Context : outParam Type) where
  serviceId : S → String
  init : S → Context → Except ProtocolError Unit × S
  start : S → Except ProtocolError Unit × S
  stop : S → Except ProtocolError Unit × S
  handleRequest : S → ServiceRequest → Except ProtocolError ServiceResponse × S
  handleEvent : S → ServiceEvent → Except ProtocolError Unit × S

-- A service behind a pointer: method calls change the service and keep the address.
structure Boxed (S : Type) where
  address : Nat
  service : S
  deriving DecidableEq

-- A call that does not come to its `Ok` returns an error, or waits for ever.
inductive Halt where
  | failed (error : ProtocolError)
  | blocked

structure ServiceManager (S Context : Type) where
  services : Table String (Boxed S)
  context : Option Context
  running : Bool

namespace ServiceManager

variable {S Context : Type}

def new : ServiceManager S Context where
  services := ∅
  context := none
  running := false

def setContext (manager : ServiceManager S Context) (context : Context) :
    ServiceManager S Context :=
  { manager with context := some context }

def take (manager : ServiceManager S Context) (serviceId : String) :
    Option (Boxed S) × ServiceManager S Context :=
  (manager.services.lookup serviceId,
    { manager with services := manager.services.erase serviceId })

def putBack (manager : ServiceManager S Context) (serviceId : String) (service : Boxed S) :
    ServiceManager S Context :=
  { manager with services := manager.services.insert serviceId service }

def visit {ε : Type} (manager : ServiceManager S Context) (order : Table.Order String)
    (work : String → Boxed S → Except ε (Option (Boxed S))) :
    Except ε Unit × ServiceManager S Context :=
  let visited := Table.visit work (order.list manager.services.keys) manager.services
  (visited.1, { manager with services := visited.2 })

def listServices (manager : ServiceManager S Context) (order : Table.Order String) : List String :=
  order.list manager.services.keys

def isRunning (manager : ServiceManager S Context) : Bool := manager.running

variable [Service S Context]

def registerService (manager : ServiceManager S Context) (service : Boxed S) :
    Except ProtocolError Unit × ServiceManager S Context :=
  let serviceId := Service.serviceId service.service
  if serviceId ∈ manager.services then
    (.error (.serviceAlreadyRegistered serviceId), manager)
  else (.ok (), manager.putBack serviceId service)

def unregisterService (manager : ServiceManager S Context) (serviceId : String) :
    Except ProtocolError Unit × ServiceManager S Context :=
  match manager.take serviceId with
  | (some _, removed) => (.ok (), removed)
  | (none, removed) => (.error (.serviceNotRegistered serviceId), removed)

-- The guard of the `if let` that took the service out lives until the end of its body, so the
-- `services.write()` that is to put the service back waits for it for ever.
def callLocked (quoted : String → String) (call : String) (id : String)
    (called : Except ProtocolError Unit × S) : Except Halt (Option (Boxed S)) :=
  match called with
  | (.ok (), _) => .error .blocked
  | (.error failure, _) =>
    .error (.failed (.config s!"Failed to {call} {id}: {failure.display quoted}"))

def initAll (quoted : String → String) (order : Table.Order String)
    (manager : ServiceManager S Context) : Except Halt Unit × ServiceManager S Context :=
  match manager.context with
  | none => (.error (.failed (.config "Service context not set")), manager)
  | some context =>
    manager.visit order fun id boxed =>
      callLocked quoted "init" id (Service.init boxed.service context)

def startAll (quoted : String → String) (order : Table.Order String)
    (manager : ServiceManager S Context) : Except Halt Unit × ServiceManager S Context :=
  { manager with running := true }.visit order fun id boxed =>
    callLocked quoted "start" id (Service.start boxed.service)

-- No service is put back, whatever its `stop` returns.
def stopAll (order : Table.Order String) (manager : ServiceManager S Context) :
    Except ProtocolError Unit × ServiceManager S Context :=
  { manager with running := false }.visit order fun _ boxed =>
    let (_, _stopped) := Service.stop boxed.service
    .ok none

def notFound (request : ServiceRequest) : ServiceResponse :=
  .error request.requestId ResultCode.errorNotFound.toI32
    s!"Service not found: {request.serviceId}"

def handleRequest (manager : ServiceManager S Context) (request : ServiceRequest) :
    Except ProtocolError ServiceResponse × ServiceManager S Context :=
  match manager.take request.serviceId with
  | (some boxed, taken) =>
    let (result, service) := Service.handleRequest boxed.service request
    (result, taken.putBack request.serviceId { boxed with service := service })
  | (none, taken) => (.ok (notFound request), taken)

-- The failures of the services are only logged.
def broadcastEvent (order : Table.Order String) (manager : ServiceManager S Context)
    (event : ServiceEvent) : Except ProtocolError Unit × ServiceManager S Context :=
  manager.visit order fun _ boxed =>
    let (_, service) := Service.handleEvent boxed.service event
    .ok (some { boxed with service := service })

end ServiceManager

structure TestService where
  serviceId : String
  deriving DecidableEq

instance : Service TestService Unit where
  serviceId := TestService.serviceId
  init service _ := (.ok (), service)
  start service := (.ok (), service)
  stop service := (.ok (), service)
  handleRequest service request :=
    (.ok (.success request.requestId [0x4F, 0x4B]), service)
  handleEvent service _ := (.ok (), service)

def testManager : ServiceManager TestService Unit :=
  (ServiceManager.new.registerService ⟨0, ⟨"test.service"⟩⟩).2

end BitDrive.Core
