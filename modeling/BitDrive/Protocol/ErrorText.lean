import BitDrive.Protocol.Types

set_option autoImplicit false

namespace BitDrive

open ByteLayout

def hexadecimal (value : UInt32) : String :=
  "0x" ++ String.ofList ((List.range 8).reverse.map fun place =>
    Nat.digitChar (value.toNat / 16 ^ place % 16))

def byteList (bytes : Bytes) : String :=
  "[" ++ ", ".intercalate (bytes.map toString) ++ "]"

-- `quoted` is Rust's `{:?}` of a string.
def ProtocolError.display (quoted : String → String) : ProtocolError → String
  | io message => s!"IO error: {message}"
  | protocol message => s!"Protocol error: {message}"
  | bluetooth message => s!"Bluetooth error: {message}"
  | invalidFrame message => s!"Invalid frame: {message}"
  | invalidHeader message => s!"Invalid frame header: {message}"
  | checksumMismatch expected actual =>
    s!"Checksum mismatch: expected {hexadecimal expected}, got {hexadecimal actual}"
  | frameTooLarge size max => s!"Frame too large: {size} bytes (max {max})"
  | payloadTooLarge size max => s!"Payload too large: {size} bytes (max {max})"
  | invalidMagic expected actual =>
    s!"Invalid magic number: expected {hexadecimal expected}, got {hexadecimal actual}"
  | unsupportedVersion version => s!"Unsupported protocol version: {hexadecimal version}"
  | unknownFrameType type => s!"Unknown frame type: {type}"
  | sequenceMismatch expected actual =>
    s!"Sequence number mismatch: expected {expected}, got {actual}"
  | replayDetected sequence => s!"Replay attack detected: sequence {sequence} already processed"
  | decryptionFailed message => s!"Decryption failed: {message}"
  | authenticationFailed message => s!"Authentication failed: {message}"
  | authTimeout => "Authentication timeout"
  | sessionNotFound sessionId => s!"Session not found: {byteList sessionId}"
  | sessionExists sessionId => s!"Session already exists: {byteList sessionId}"
  | sessionClosed reason => s!"Session closed: {reason}"
  | sessionStateError expected actual =>
    s!"Session state error: expected {quoted expected}, got {quoted actual}"
  | channelNotFound channelId => s!"Channel not found: {channelId}"
  | channelClosed channelId => s!"Channel closed: {channelId}"
  | channelWindowExhausted channelId => s!"Channel window exhausted: {channelId}"
  | flowControl message => s!"Flow control error: {message}"
  | capabilityNegotiation message => s!"Capability negotiation failed: {message}"
  | capabilityNotSupported serviceId => s!"Capability not supported: {serviceId}"
  | requiredCapabilityMissing serviceId => s!"Required capability missing: {serviceId}"
  | serviceNotFound serviceId => s!"Service not found: {serviceId}"
  | serviceAlreadyRegistered serviceId => s!"Service already registered: {serviceId}"
  | serviceNotRegistered serviceId => s!"Service not registered: {serviceId}"
  | invalidServiceConfig message => s!"Invalid service configuration: {message}"
  | keyDerivation message => s!"Key derivation failed: {message}"
  | encryption message => s!"Encryption failed: {message}"
  | decryption message => s!"Decryption failed: {message}"
  | invalidKeyLength expected actual =>
    s!"Invalid key length: expected {expected}, got {actual}"
  | invalidNonceLength expected actual =>
    s!"Invalid nonce length: expected {expected}, got {actual}"
  | invalidAuthTagLength expected actual =>
    s!"Invalid auth tag length: expected {expected}, got {actual}"
  | config message => s!"Configuration error: {message}"
  | database message => s!"Database error: {message}"
  | serialization message => s!"Serialization error: {message}"
  | deserialization message => s!"Deserialization error: {message}"
  | timeout message => s!"Timeout: {message}"
  | cancelled => "Cancelled"
  | notConnected => "Not connected"
  | alreadyConnected => "Already connected"
  | peerDisconnected => "Peer disconnected"
  | bufferOverflow => "Buffer overflow"
  | invalidArgument message => s!"Invalid argument: {message}"
  | internal message => s!"Internal error: {message}"

end BitDrive
