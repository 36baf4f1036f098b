import BitDrive.Shared.ByteLayout
import BitDrive.Shared.Outcome

set_option autoImplicit false

namespace BitDrive

open ByteLayout

def protocolVersion : UInt32 := 0x00010000
def magicNumber : UInt32 := 0x42504C01
def controlChannelId : UInt32 := 0
def maxChannels : UInt32 := 16
def defaultWindowSize : UInt32 := 65536
def defaultMaxFrameSize : UInt32 := 16384
def maxFramePayloadSize : Nat := 16384

inductive ProtocolError where
  | io (message : String)
  | protocol (message : String)
  | bluetooth (message : String)
  | invalidFrame (message : String)
  | invalidHeader (message : String)
  | checksumMismatch (expected actual : UInt32)
  | frameTooLarge (size max : Nat)
  | payloadTooLarge (size max : Nat)
  | invalidMagic (expected actual : UInt32)
  | unsupportedVersion (version : UInt32)
  | unknownFrameType (type : UInt8)
  | sequenceMismatch (expected actual : UInt64)
  | replayDetected (sequence : UInt64)
  | decryptionFailed (message : String)
  | authenticationFailed (message : String)
  | authTimeout
  | sessionNotFound (sessionId : Bytes)
  | sessionExists (sessionId : Bytes)
  | sessionClosed (reason : String)
  | sessionStateError (expected actual : String)
  | channelNotFound (channelId : UInt32)
  | channelClosed (channelId : UInt32)
  | channelWindowExhausted (channelId : UInt32)
  | flowControl (message : String)
  | capabilityNegotiation (message : String)
  | capabilityNotSupported (serviceId : String)
  | requiredCapabilityMissing (serviceId : String)
  | serviceNotFound (serviceId : String)
  | serviceAlreadyRegistered (serviceId : String)
  | serviceNotRegistered (serviceId : String)
  | invalidServiceConfig (message : String)
  | keyDerivation (message : String)
  | encryption (message : String)
  | decryption (message : String)
  | invalidKeyLength (expected actual : Nat)
  | invalidNonceLength (expected actual : Nat)
  | invalidAuthTagLength (expected actual : Nat)
  | config (message : String)
  | database (message : String)
  | serialization (message : String)
  | deserialization (message : String)
  | timeout (message : String)
  | cancelled
  | notConnected
  | alreadyConnected
  | peerDisconnected
  | bufferOverflow
  | invalidArgument (message : String)
  | internal (message : String)
  deriving DecidableEq, Repr

def ProtocolError.isFatal : ProtocolError → Bool
  | authenticationFailed _ | decryptionFailed _ | replayDetected _ | sequenceMismatch _ _
  | checksumMismatch _ _ | invalidMagic _ _ | keyDerivation _ => true
  | _ => false

inductive FrameType where
  | data
  | dataFragment
  | dataEnd
  | control
  | sessionOpen
  | sessionOpenAck
  | sessionClose
  | sessionCloseAck
  | keepalive
  | keepaliveAck
  | capabilityNegotiate
  | capabilityAck
  | authChallenge
  | authResponse
  | authSuccess
  | authFailure
  | authKeyConfirm
  | channelOpen
  | channelOpenAck
  | channelClose
  | channelCloseAck
  | flowControl
  | serviceRegister
  | serviceUnregister
  | serviceDiscover
  | serviceDiscoverResp
  | error
  deriving DecidableEq, Repr

namespace FrameType

def toI32 : FrameType → Int32
  | data => 0
  | dataFragment => 1
  | dataEnd => 2
  | control => 10
  | sessionOpen => 20
  | sessionOpenAck => 21
  | sessionClose => 22
  | sessionCloseAck => 23
  | keepalive => 30
  | keepaliveAck => 31
  | capabilityNegotiate => 40
  | capabilityAck => 41
  | authChallenge => 50
  | authResponse => 51
  | authSuccess => 52
  | authFailure => 53
  | authKeyConfirm => 54
  | channelOpen => 60
  | channelOpenAck => 61
  | channelClose => 62
  | channelCloseAck => 63
  | flowControl => 70
  | serviceRegister => 80
  | serviceUnregister => 81
  | serviceDiscover => 82
  | serviceDiscoverResp => 83
  | error => 255

def all : List FrameType :=
  [data, dataFragment, dataEnd, control, sessionOpen, sessionOpenAck, sessionClose,
    sessionCloseAck, keepalive, keepaliveAck, capabilityNegotiate, capabilityAck,
    authChallenge, authResponse, authSuccess, authFailure, authKeyConfirm, channelOpen,
    channelOpenAck, channelClose, channelCloseAck, flowControl, serviceRegister,
    serviceUnregister, serviceDiscover, serviceDiscoverResp, error]

def tryFrom (value : Int32) : Option FrameType :=
  all.find? fun frameType => frameType.toI32 = value

@[simp] theorem tryFrom_toI32 (frameType : FrameType) :
    tryFrom frameType.toI32 = some frameType := by
  cases frameType <;> rfl

theorem toI32_of_tryFrom (value : Int32) (frameType : FrameType)
    (found : tryFrom value = some frameType) : frameType.toI32 = value := by
  simpa using List.find?_some found

end FrameType

-- Rust's `value as u8` on an `i32`: the low byte.
def asU8 (value : Int32) : UInt8 := value.toUInt32.toUInt8

-- Rust's `value as i32` on a `u8`: zero extension.
def asI32 (value : UInt8) : Int32 := value.toUInt32.toInt32

@[simp] theorem asU8_asI32 (value : UInt8) : asU8 (asI32 value) = value := by
  simp [asU8, asI32]

@[simp] theorem asI32_asU8_toI32 (frameType : FrameType) :
    asI32 (asU8 frameType.toI32) = frameType.toI32 := by
  cases frameType <;> decide

inductive ResultCode where
  | success
  | errorGeneric
  | errorInvalidArgument
  | errorNotFound
  | errorPermissionDenied
  | errorNotConnected
  | errorSessionClosed
  | errorChannelClosed
  | errorAuthFailed
  | errorCapabilityMismatch
  | errorProtocolVersion
  | errorSequenceMismatch
  | errorReplayDetected
  | errorDecryptionFailed
  | errorBufferTooSmall
  | errorTimeout
  | errorCancelled
  | errorBusy
  | errorUnsupported
  | errorConflict
  | errorQuotaExceeded
  | errorIo
  deriving DecidableEq, Repr

def ResultCode.toI32 (code : ResultCode) : Int32 := Int32.ofNat code.ctorIdx

structure ChannelId where
  value : UInt32
  deriving DecidableEq, Repr

structure SequenceNumber where
  value : UInt64
  deriving DecidableEq, Repr

structure FrameFlags where
  isFragment : Bool := false
  isLastFragment : Bool := false
  encrypted : Bool := false
  authenticated : Bool := false
  compressed : Bool := false
  priority : Bool := false
  ackRequired : Bool := false
  resetSequence : Bool := false
  retransmission : Bool := false
  deriving DecidableEq, Repr

structure FrameHeader where
  magic : UInt32
  version : UInt32
  type : Int32
  flags : Option FrameFlags
  channelId : Option ChannelId
  sequence : Option SequenceNumber
  payloadLength : UInt32
  headerCrc : UInt32
  deriving DecidableEq, Repr

structure Frame where
  header : FrameHeader
  payload : Bytes
  authTag : Bytes
  deriving DecidableEq, Repr

end BitDrive
