import BitDrive.Protocol.Frame
import Mathlib.Logic.Function.Iterate

set_option autoImplicit false

namespace BitDrive.Android

open ByteLayout

inductive Exception where
  | codecException (message : String)
  | serializationException
  | negativeArraySize
  | indexOutOfBounds
  deriving DecidableEq, Repr

structure ChannelId where
  value : Int32
  deriving DecidableEq, Repr

structure FrameFlags where
  isFragment : Bool := false
  isLastFragment : Bool := false
  encrypted : Bool := false
  authenticated : Bool := false
  compressed : Bool := false
  priority : Bool := false
  ackRequired : Bool := false
  reserved : Bool := false
  deriving DecidableEq, Repr

structure FrameHeader where
  magic : UInt32 := magicNumber
  version : UInt32 := protocolVersion
  type : FrameType := .data
  flags : FrameFlags := {}
  channelId : ChannelId := ⟨0⟩
  sequence : Int64 := 0
  payloadLength : Int32 := 0
  headerCrc : UInt32 := 0
  deriving DecidableEq, Repr

structure Frame where
  header : FrameHeader
  payload : Bytes
  authTag : Bytes := []
  deriving DecidableEq, Repr

structure Library where
  fromInts : UInt8 → UInt8 → UInt8 → UInt8 → UInt32
  encodeFrame : Frame → Bytes
  encodeHeader : FrameHeader → Bytes
  decodeFrame : Bytes → Except Exception Frame

-- `b.toUInt()` extends the sign of the byte; the shift throws those bits away.
def crc32cShift (crc : UInt32) : UInt32 :=
  if crc &&& 0x80000000 ≠ 0 then (crc <<< 1) ^^^ 0x1EDC6F41 else crc <<< 1

def crc32cByte (crc : UInt32) (b : UInt8) : UInt32 :=
  crc32cShift^[8] (crc ^^^ (b.toInt8.toInt32.toUInt32 <<< 24))

def crc32c (data : Bytes) : UInt32 :=
  ~~~ data.foldl crc32cByte 0xFFFFFFFF

def calculateHeaderCrc (library : Library) (header : FrameHeader) : UInt32 :=
  crc32c (library.encodeHeader { header with headerCrc := 0 })

structure FragmentBuffer where
  chunks : List Bytes
  received : Int32
  lastFragment : Bool
  deriving DecidableEq, Repr

namespace FragmentBuffer

-- The expected size is not kept.
def new (_expectedSize : Int32) : FragmentBuffer where
  chunks := []
  received := 0
  lastFragment := false

def addFragment (buffer : FragmentBuffer) (data : Bytes) (isLast : Bool) : FragmentBuffer where
  chunks := buffer.chunks ++ [data]
  received := buffer.received + Int32.ofNat data.length
  lastFragment := isLast || buffer.lastFragment

def totalSize (buffer : FragmentBuffer) : Int32 := buffer.received

end FragmentBuffer

-- `source.copyInto(destination, offset)`: all of `source` goes into `destination`.
def copyInto (source destination : Bytes) (offset : Int32) : Except Exception Bytes :=
  if offset < 0 ∨ offset.toInt + source.length > destination.length then .error .indexOutOfBounds
  else .ok (destination.take offset.toInt.toNat ++ source ++
    destination.drop (offset.toInt.toNat + source.length))

def copyChunks (result : Bytes) : Int32 → List Bytes → Except Exception (List Bytes)
  | _, [] => .ok []
  | pos, chunk :: chunks => do
    let copied ← copyInto result chunk pos
    let rest ← copyChunks result (pos + Int32.ofNat chunk.length) chunks
    return copied :: rest

-- The chunks are written to, `result` is only read from.
def FragmentBuffer.getData (buffer : FragmentBuffer) :
    Except Exception (Bytes × FragmentBuffer) :=
  if buffer.received < 0 then .error .negativeArraySize
  else do
    let result := List.replicate buffer.received.toInt.toNat 0
    let chunks ← copyChunks result 0 buffer.chunks
    return (result, { buffer with chunks := chunks })

structure FrameCodec where
  rxSequence : Int64
  txSequence : Int64
  fragmentBuffers : Int64 → Option FragmentBuffer

namespace FrameCodec

def new : FrameCodec where
  rxSequence := 0
  txSequence := 0
  fragmentBuffers := fun _ => none

def encode (library : Library) (codec : FrameCodec) (frame : Frame) : Bytes × FrameCodec :=
  let header := { frame.header with
    sequence := codec.txSequence
    payloadLength := Int32.ofNat frame.payload.length }
  let header := { header with headerCrc := calculateHeaderCrc library header }
  (library.encodeFrame { frame with header := header },
    { codec with txSequence := codec.txSequence + 1 })

def decode (library : Library) (codec : FrameCodec) (data : Bytes) :
    Except Exception (Option Frame) × FrameCodec :=
  if data.length < 30 + 16 then (.ok none, codec)
  else
    let magic := library.fromInts (byteAt data 0) (byteAt data 1) (byteAt data 2) (byteAt data 3)
    if magic ≠ magicNumber then
      (.error (.codecException s!"Invalid magic number: {magic}"), codec)
    else
      match library.decodeFrame data with
      | .error exception => (.error exception, codec)
      | .ok frame =>
        let expectedCrc := calculateHeaderCrc library { frame.header with headerCrc := 0 }
        if frame.header.headerCrc ≠ expectedCrc then
          (.error (.codecException "Header CRC mismatch"), codec)
        else if frame.header.sequence ≤ codec.rxSequence then
          (.error (.codecException "Replay detected or out of order sequence"), codec)
        else (.ok (some frame), { codec with rxSequence := frame.header.sequence })

-- `(channelId.value.toLong() shl 32) or sequence`
def fragmentKey (header : FrameHeader) : Int64 :=
  (header.channelId.value.toInt64 <<< 32) ||| header.sequence

def addFragment (codec : FrameCodec) (frame : Frame) :
    Except Exception (Option Frame) × FrameCodec :=
  let flags := frame.header.flags
  if !flags.isFragment then (.ok (some frame), codec)
  else
    let key := fragmentKey frame.header
    let buffer := (codec.fragmentBuffers key).getD (FragmentBuffer.new frame.header.payloadLength)
    let buffer := buffer.addFragment frame.payload flags.isLastFragment
    if flags.isLastFragment then
      let removed := { codec with
        fragmentBuffers := Function.update codec.fragmentBuffers key none }
      match buffer.getData with
      | .error exception => (.error exception, removed)
      | .ok (payload, _) =>
        (.ok (some
          { header := { frame.header with payloadLength := buffer.totalSize, flags := {} }
            payload := payload
            authTag := frame.authTag }), removed)
    else
      (.ok none, { codec with
        fragmentBuffers := Function.update codec.fragmentBuffers key (some buffer) })

end FrameCodec

end BitDrive.Android
