import BitDrive.Protocol.Types

set_option autoImplicit false

namespace BitDrive

open ByteLayout

structure FrameFragment where
  header : FrameHeader
  payload : Bytes
  fragmentIndex : UInt32
  totalFragments : UInt32
  -- The entry is made after its channel id was unwrapped.
  hasChannel : header.channelId.isSome = true
  deriving DecidableEq

def FrameFragment.channel (fragment : FrameFragment) : UInt32 :=
  (fragment.header.channelId.get fragment.hasChannel).value

structure FrameCodec where
  maxPayloadSize : Nat
  rxSequence : UInt64
  txSequence : UInt64
  rxFragments : List FrameFragment
  txFragments : List FrameFragment
  -- `new` clamps the field and nothing assigns it afterwards.
  maxPayloadSize_le : maxPayloadSize ≤ maxFramePayloadSize
  deriving DecidableEq

def byteAt (buf : Bytes) (index : Nat) : UInt8 := Layout.u8.get (buf.drop index)
def u32At (buf : Bytes) (index : Nat) : UInt32 := Layout.u32.get (buf.drop index)
def u64At (buf : Bytes) (index : Nat) : UInt64 := Layout.u64.get (buf.drop index)

def flagBit (position : UInt8) : UInt8 := 1 <<< position

def packFlags (flags : FrameFlags) : UInt8 :=
  (if flags.isFragment then flagBit 0 else 0) |||
  (if flags.isLastFragment then flagBit 1 else 0) |||
  (if flags.encrypted then flagBit 2 else 0) |||
  (if flags.authenticated then flagBit 3 else 0) |||
  (if flags.compressed then flagBit 4 else 0) |||
  (if flags.priority then flagBit 5 else 0) |||
  (if flags.ackRequired then flagBit 6 else 0) |||
  (if flags.resetSequence then flagBit 7 else 0)

def unpackFlags (byte : UInt8) : FrameFlags where
  isFragment := byte &&& flagBit 0 != 0
  isLastFragment := byte &&& flagBit 1 != 0
  encrypted := byte &&& flagBit 2 != 0
  authenticated := byte &&& flagBit 3 != 0
  compressed := byte &&& flagBit 4 != 0
  priority := byte &&& flagBit 5 != 0
  ackRequired := byte &&& flagBit 6 != 0
  resetSequence := byte &&& flagBit 7 != 0
  retransmission := false

def chunks (size : Nat) (payload : Bytes) : List Bytes :=
  (List.range ((payload.length + size - 1) / size)).map fun index =>
    (payload.drop (index * size)).take size

-- The checksum crate is a parameter: any function of the hashed bytes.
variable (crc32fast : Bytes → UInt32)

def calculateHeaderCrc (header : FrameHeader) : Outcome ProtocolError UInt32 := do
  let flags ← Outcome.unwrap header.flags
  let channelId ← Outcome.unwrap header.channelId
  let sequence ← Outcome.unwrap header.sequence
  return crc32fast
    (Layout.u32.put header.magic ++ Layout.u32.put header.version ++
      Layout.u8.put (asU8 header.type) ++ Layout.u8.put (packFlags flags) ++
      Layout.u32.put channelId.value ++ Layout.u64.put sequence.value ++
      Layout.u32.put header.payloadLength)

def calculateHeaderCrcRaw (headerBytes : Bytes) : UInt32 :=
  crc32fast (headerBytes.take 26)

namespace FrameCodec

def new (maxPayloadSize : Nat) : FrameCodec where
  maxPayloadSize := min maxPayloadSize maxFramePayloadSize
  rxSequence := 0
  txSequence := 0
  rxFragments := []
  txFragments := []
  maxPayloadSize_le := Nat.min_le_right _ _

def default : FrameCodec := new defaultMaxFrameSize.toNat

def nextTxSequence (codec : FrameCodec) : UInt64 × FrameCodec :=
  (codec.txSequence, { codec with txSequence := codec.txSequence + 1 })

def resetSequences (codec : FrameCodec) : FrameCodec :=
  { codec with rxSequence := 0, txSequence := 0 }

def encode (codec : FrameCodec) (frame : Frame) :
    Outcome ProtocolError Bytes × FrameCodec :=
  let header := { frame.header with
    sequence := some ⟨codec.txSequence⟩
    payloadLength := UInt32.ofNat frame.payload.length }
  let bytes := do
    let headerCrc ← calculateHeaderCrc crc32fast header
    let flags ← Outcome.unwrap header.flags
    return Layout.u32.put magicNumber ++ Layout.u32.put header.version ++
      Layout.u8.put (asU8 header.type) ++ Layout.u8.put (packFlags flags) ++
      Layout.u32.put (header.channelId.elim 0 (·.value)) ++
      Layout.u64.put (header.sequence.elim 0 (·.value)) ++
      Layout.u32.put header.payloadLength ++ Layout.u32.put headerCrc ++
      frame.payload ++ frame.authTag
  (bytes, { codec with txSequence := codec.txSequence + 1 })

def minFrameSize : Nat := 30 + 16

def decode (codec : FrameCodec) (buf : Bytes) :
    Outcome ProtocolError (Option Frame) × FrameCodec × Bytes :=
  if buf.length < minFrameSize then (.ok none, codec, buf)
  else
    let magic := u32At buf 0
    if magic ≠ magicNumber then
      (.error (.err (.invalidMagic magicNumber magic)), codec, buf)
    else
      let version := u32At buf 4
      match FrameType.tryFrom (asI32 (byteAt buf 8)) with
      | none => (.error (.err (.unknownFrameType (byteAt buf 8))), codec, buf)
      | some frameType =>
        let flagsByte := byteAt buf 9
        let channelId := u32At buf 10
        let sequence := u64At buf 14
        let payloadLength := u32At buf 22
        let headerCrc := u32At buf 26
        let totalSize := 30 + payloadLength.toNat + 16
        if buf.length < totalSize then (.ok none, codec, buf)
        else
          let calcCrc := calculateHeaderCrcRaw crc32fast (buf.take 30)
          if calcCrc ≠ headerCrc then
            (.error (.err (.checksumMismatch headerCrc calcCrc)), codec, buf)
          else
            let payloadEnd := 30 + payloadLength.toNat
            let payload := (buf.take payloadEnd).drop 30
            let authTag := (buf.take (payloadEnd + 16)).drop payloadEnd
            -- The bytes are gone from here on, also when the number is refused.
            let buf := buf.drop totalSize
            if sequence < codec.rxSequence then
              (.error (.err (.replayDetected sequence)), codec, buf)
            else
              let header : FrameHeader :=
                { magic := magic
                  version := version
                  type := frameType.toI32
                  flags := some (unpackFlags flagsByte)
                  channelId := some ⟨channelId⟩
                  sequence := some ⟨sequence⟩
                  payloadLength := payloadLength
                  headerCrc := headerCrc }
              (.ok (some ⟨header, payload, authTag⟩), { codec with rxSequence := sequence }, buf)

def encodeFragmentLoop (frameType : FrameType) (channelId : UInt32) (flags : FrameFlags)
    (totalFragments : Nat) : Nat → FrameCodec → List Bytes → List Frame × FrameCodec
  | _, codec, [] => ([], codec)
  | index, codec, chunk :: rest =>
    let fragFlags := { flags with
      isFragment := true
      isLastFragment := index == totalFragments - 1 }
    let frame : Frame :=
      { header :=
          { magic := magicNumber
            version := 0x00010000
            type := frameType.toI32
            flags := some fragFlags
            channelId := some ⟨channelId⟩
            sequence := some ⟨codec.txSequence⟩
            payloadLength := UInt32.ofNat chunk.length
            headerCrc := 0 }
        payload := chunk
        authTag := [] }
    let next := encodeFragmentLoop frameType channelId flags totalFragments (index + 1)
      { codec with txSequence := codec.txSequence + 1 } rest
    (frame :: next.1, next.2)

def encodeFragment (codec : FrameCodec) (frameType : FrameType) (channelId : UInt32)
    (payload : Bytes) (flags : FrameFlags) : Outcome ProtocolError (List Frame) × FrameCodec :=
  if payload.length ≤ codec.maxPayloadSize then
    let frame : Frame :=
      { header :=
          { magic := magicNumber
            version := 0x00010000
            type := frameType.toI32
            flags := some flags
            channelId := some ⟨channelId⟩
            sequence := some ⟨codec.txSequence⟩
            payloadLength := UInt32.ofNat payload.length
            headerCrc := 0 }
        payload := payload
        authTag := [] }
    -- The bytes are thrown away, the sequence number they used up is not given back.
    let encoded := codec.encode crc32fast frame
    (encoded.1.map fun _ => [frame], encoded.2)
  else if codec.maxPayloadSize = 0 then
    (.error .panic, codec)
  else
    let totalFragments := (payload.length + codec.maxPayloadSize - 1) / codec.maxPayloadSize
    let frames := encodeFragmentLoop frameType channelId flags totalFragments 0 codec
      (chunks codec.maxPayloadSize payload)
    (.ok frames.1, frames.2)

def reassembleFragment (codec : FrameCodec) (frame : Frame) :
    Outcome ProtocolError (Option Frame) × FrameCodec :=
  match frame.header.flags with
  | none => (.error .panic, codec)
  | some flags =>
    if !flags.isFragment then (.ok (some frame), codec)
    else
      match known : frame.header.channelId, frame.header.sequence with
      | some channelId, some _ =>
        -- The key names the channel only; the sequence number is not compared.
        match codec.rxFragments.findFinIdx? (fun fragment => fragment.channel = channelId.value) with
        | some index =>
          let entry := codec.rxFragments.get index
          let fragment := { entry with payload := entry.payload ++ frame.payload }
          if flags.isLastFragment then
            let complete := { fragment.header with
              payloadLength := UInt32.ofNat fragment.payload.length
              flags := some {} }
            (.ok (some ⟨complete, fragment.payload, frame.authTag⟩),
              { codec with rxFragments := codec.rxFragments.eraseIdx index })
          else (.ok none, { codec with rxFragments := codec.rxFragments.set index fragment })
        | none =>
          let fragment : FrameFragment :=
            { header := frame.header
              payload := frame.payload
              fragmentIndex := 0
              totalFragments := 0
              hasChannel := by simp [known] }
          (.ok none, { codec with rxFragments := codec.rxFragments ++ [fragment] })
      | _, _ => (.error .panic, codec)

end FrameCodec

end BitDrive
