import BitDrive.Protocol.FrameFormat

set_option autoImplicit false

namespace BitDrive

open ByteLayout

structure KeepAlive where
  timestamp : Option Int64
  sequence : UInt32
  deriving DecidableEq, Repr

-- Protobuf messages stand for their encodings; encoding into a growing buffer cannot fail.
structure Message where
  encoded : Bytes
  deriving DecidableEq, Repr

variable (crc32fast : Bytes → UInt32) (encodeKeepAlive : KeepAlive → Bytes)

def buildControlFrame (frameType : FrameType) (payload : Message) (channelId : UInt32)
    (sequence : UInt64) : Frame where
  header :=
    { magic := magicNumber
      version := 0x00010000
      type := frameType.toI32
      flags := some { authenticated := true, ackRequired := true }
      channelId := some ⟨channelId⟩
      sequence := some ⟨sequence⟩
      payloadLength := UInt32.ofNat payload.encoded.length
      headerCrc := 0 }
  payload := payload.encoded
  authTag := []

def buildSessionOpenRequest (request : Message) (sequence : UInt64) : Frame :=
  buildControlFrame .sessionOpen request controlChannelId sequence

def buildSessionOpenResponse (response : Message) (sequence : UInt64) : Frame :=
  buildControlFrame .sessionOpenAck response controlChannelId sequence

def buildKeepalive (sequence : UInt64) (timestamp : UInt64) : Frame :=
  let keepalive : KeepAlive :=
    { timestamp := some timestamp.toInt64
      sequence := sequence.toUInt32 }
  buildControlFrame .keepalive ⟨encodeKeepAlive keepalive⟩ controlChannelId sequence

def buildCapabilityNegotiate (request : Message) (sequence : UInt64) : Frame :=
  buildControlFrame .capabilityNegotiate request controlChannelId sequence

def buildAuthChallenge (challenge : Message) (sequence : UInt64) : Frame :=
  buildControlFrame .authChallenge challenge controlChannelId sequence

def buildAuthResponse (response : Message) (sequence : UInt64) : Frame :=
  buildControlFrame .authResponse response controlChannelId sequence

def buildChannelOpenRequest (request : Message) (sequence : UInt64) : Frame :=
  buildControlFrame .channelOpen request controlChannelId sequence

def buildFlowControlUpdate (update : Message) (sequence : UInt64) : Frame :=
  buildControlFrame .flowControl update controlChannelId sequence

structure ProtocolCodec where
  frameCodec : FrameCodec
  rxBuffer : Bytes
  deriving DecidableEq

namespace ProtocolCodec

def new : ProtocolCodec where
  frameCodec := FrameCodec.new defaultMaxFrameSize.toNat
  rxBuffer := []

def encodeBuilt (codec : ProtocolCodec) (build : UInt64 → Frame) :
    Outcome ProtocolError Bytes × ProtocolCodec :=
  let numbered := codec.frameCodec.nextTxSequence
  let encoded := numbered.2.encode crc32fast (build numbered.1)
  (encoded.1, { codec with frameCodec := encoded.2 })

def encodeSessionOpenRequest (codec : ProtocolCodec) (request : Message) :=
  codec.encodeBuilt crc32fast (buildSessionOpenRequest request)

def encodeSessionOpenResponse (codec : ProtocolCodec) (response : Message) :=
  codec.encodeBuilt crc32fast (buildSessionOpenResponse response)

def encodeKeepalive (codec : ProtocolCodec) (timestamp : UInt64) :=
  codec.encodeBuilt crc32fast fun sequence => buildKeepalive encodeKeepAlive sequence timestamp

def encodeCapabilityNegotiate (codec : ProtocolCodec) (request : Message) :=
  codec.encodeBuilt crc32fast (buildCapabilityNegotiate request)

def encodeAuthChallenge (codec : ProtocolCodec) (challenge : Message) :=
  codec.encodeBuilt crc32fast (buildAuthChallenge challenge)

def encodeAuthResponse (codec : ProtocolCodec) (response : Message) :=
  codec.encodeBuilt crc32fast (buildAuthResponse response)

def encodeChannelOpenRequest (codec : ProtocolCodec) (request : Message) :=
  codec.encodeBuilt crc32fast (buildChannelOpenRequest request)

def encodeFlowControlUpdate (codec : ProtocolCodec) (update : Message) :=
  codec.encodeBuilt crc32fast (buildFlowControlUpdate update)

def encodeControlFrame (codec : ProtocolCodec) (frameType : FrameType) (payload : Message)
    (channelId : UInt32) :=
  codec.encodeBuilt crc32fast (buildControlFrame frameType payload channelId)

def decodeLoop (codec : FrameCodec) (rxBuffer : Bytes) (frames : List Frame) :
    Outcome ProtocolError (List Frame) × FrameCodec × Bytes :=
  match _known : codec.decode crc32fast rxBuffer with
  | (.error abort, codec, rxBuffer) => (.error abort, codec, rxBuffer)
  | (.ok none, codec, rxBuffer) => (.ok frames, codec, rxBuffer)
  | (.ok (some frame), codec, rest) =>
    match codec.reassembleFragment frame with
    | (.error abort, codec) => (.error abort, codec, rest)
    | (.ok none, codec) => decodeLoop codec rest frames
    | (.ok (some reassembled), codec) => decodeLoop codec rest (frames ++ [reassembled])
termination_by rxBuffer.length
decreasing_by all_goals
  obtain ⟨wire, found, _⟩ := decode_some crc32fast _ _ _ _ _ _known
  exact scanHead_rest_length crc32fast _ _ _ found

-- An early return drops the frames collected so far, not what they did to the codec.
def decode (codec : ProtocolCodec) (data : Bytes) :
    Outcome ProtocolError (List Frame) × ProtocolCodec :=
  let looped := decodeLoop crc32fast codec.frameCodec (codec.rxBuffer ++ data) []
  (looped.1, ⟨looped.2.1, looped.2.2⟩)

def reset (codec : ProtocolCodec) : ProtocolCodec where
  frameCodec := codec.frameCodec.resetSequences
  rxBuffer := []

def setRxSequence (codec : ProtocolCodec) (sequence : UInt64) : ProtocolCodec :=
  { codec with frameCodec := { codec.frameCodec with rxSequence := sequence } }

end ProtocolCodec

inductive EncodeCall where
  | sessionOpenRequest (request : Message)
  | sessionOpenResponse (response : Message)
  | keepalive (timestamp : UInt64)
  | capabilityNegotiate (request : Message)
  | authChallenge (challenge : Message)
  | authResponse (response : Message)
  | channelOpenRequest (request : Message)
  | flowControlUpdate (update : Message)
  | controlFrame (frameType : FrameType) (payload : Message) (channelId : UInt32)

def EncodeCall.run (codec : ProtocolCodec) :
    EncodeCall → Outcome ProtocolError Bytes × ProtocolCodec
  | .sessionOpenRequest request => codec.encodeSessionOpenRequest crc32fast request
  | .sessionOpenResponse response => codec.encodeSessionOpenResponse crc32fast response
  | .keepalive timestamp => codec.encodeKeepalive crc32fast encodeKeepAlive timestamp
  | .capabilityNegotiate request => codec.encodeCapabilityNegotiate crc32fast request
  | .authChallenge challenge => codec.encodeAuthChallenge crc32fast challenge
  | .authResponse response => codec.encodeAuthResponse crc32fast response
  | .channelOpenRequest request => codec.encodeChannelOpenRequest crc32fast request
  | .flowControlUpdate update => codec.encodeFlowControlUpdate crc32fast update
  | .controlFrame frameType payload channelId =>
    codec.encodeControlFrame crc32fast frameType payload channelId

def EncodeCall.build : EncodeCall → UInt64 → Frame
  | .sessionOpenRequest request => buildSessionOpenRequest request
  | .sessionOpenResponse response => buildSessionOpenResponse response
  | .keepalive timestamp => fun sequence => buildKeepalive encodeKeepAlive sequence timestamp
  | .capabilityNegotiate request => buildCapabilityNegotiate request
  | .authChallenge challenge => buildAuthChallenge challenge
  | .authResponse response => buildAuthResponse response
  | .channelOpenRequest request => buildChannelOpenRequest request
  | .flowControlUpdate update => buildFlowControlUpdate update
  | .controlFrame frameType payload channelId => buildControlFrame frameType payload channelId

theorem EncodeCall.run_eq (codec : ProtocolCodec) (call : EncodeCall) :
    call.run crc32fast encodeKeepAlive codec =
      codec.encodeBuilt crc32fast (call.build encodeKeepAlive) := by
  cases call <;> rfl

end BitDrive
