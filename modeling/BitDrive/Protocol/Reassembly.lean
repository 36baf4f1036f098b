import BitDrive.Protocol.Receive
import BitDrive.Shared.Interleave
import BitDrive.Shared.Keyed

set_option autoImplicit false

namespace BitDrive

open ByteLayout Interleave

structure Delivery where
  type : Int32
  channelId : Option ChannelId
  payload : Bytes
  deriving DecidableEq

def Frame.delivery (frame : Frame) : Delivery where
  type := frame.header.type
  channelId := frame.header.channelId
  payload := frame.payload

structure Part where
  type : Int32
  channelId : UInt32
  isFragment : Bool
  isLastFragment : Bool
  payload : Bytes

structure Pending where
  type : Int32
  payload : Bytes

def collect (pending : Option Pending) (part : Part) : Option Delivery × Option Pending :=
  if part.isFragment then
    match pending with
    | none => (none, some ⟨part.type, part.payload⟩)
    | some known =>
      if part.isLastFragment then
        (some ⟨known.type, some ⟨part.channelId⟩, known.payload ++ part.payload⟩, none)
      else (none, some ⟨known.type, known.payload ++ part.payload⟩)
  else (some ⟨part.type, some ⟨part.channelId⟩, part.payload⟩, pending)

def WireFrame.part (wire : WireFrame) : Part where
  type := wire.type.toI32
  channelId := wire.channelId
  isFragment := (unpackFlags wire.flags).isFragment
  isLastFragment := (unpackFlags wire.flags).isLastFragment
  payload := wire.payload

def FrameFragment.pending (entry : FrameFragment) : Pending where
  type := entry.header.type
  payload := entry.payload

def FrameCodec.pending (codec : FrameCodec) (channelId : UInt32) : Option Pending :=
  (Keyed.lookup FrameFragment.channel codec.rxFragments channelId).map FrameFragment.pending

def FrameCodec.OnePerChannel (codec : FrameCodec) : Prop :=
  Keyed.Distinct FrameFragment.channel codec.rxFragments

theorem FrameCodec.pending_update (codec next : FrameCodec) (channelId : UInt32)
    (entry : Option FrameFragment)
    (moved : Keyed.lookup FrameFragment.channel next.rxFragments =
      Function.update (Keyed.lookup FrameFragment.channel codec.rxFragments) channelId entry) :
    next.pending = Function.update codec.pending channelId (entry.map FrameFragment.pending) := by
  funext other
  by_cases same : other = channelId
  · subst same
    simp [pending, moved]
  · simp [pending, moved, Function.update_of_ne same]

theorem FrameCodec.pending_entry (codec : FrameCodec) (distinct : codec.OnePerChannel)
    (channelId : UInt32) (index : Fin codec.rxFragments.length)
    (found : (codec.rxFragments.get index).channel = channelId) :
    codec.pending channelId = some (FrameFragment.pending (codec.rxFragments.get index)) := by
  have known := Keyed.lookup_getElem FrameFragment.channel codec.rxFragments distinct index
    index.isLt
  rw [pending, ← found]
  exact congrArg (Option.map _) known

theorem FrameFragment.header_channelId (entry : FrameFragment) :
    entry.header.channelId = some ⟨entry.channel⟩ := by
  obtain ⟨channelId, named⟩ := Option.isSome_iff_exists.mp entry.hasChannel
  simp [channel, named]

section

variable (crc32fast : Bytes → UInt32)

theorem Reassembles.collect (codec next : FrameCodec) (wire : WireFrame) (value : Option Frame)
    (distinct : codec.OnePerChannel) (outcome : Reassembles crc32fast codec wire value next) :
    next.OnePerChannel ∧
      value.map Frame.delivery = (collect (codec.pending wire.channelId) wire.part).1 ∧
      next.pending = Function.update codec.pending wire.channelId
        (collect (codec.pending wire.channelId) wire.part).2 := by
  cases outcome with
  | whole single =>
    refine ⟨distinct, ?_, ?_⟩
    · simp [BitDrive.collect, WireFrame.part, single, Frame.delivery, WireFrame.frame]
    · simp [BitDrive.collect, WireFrame.part, single]
  | first fragment absent =>
    have missing : codec.pending wire.channelId = none := by
      simp [FrameCodec.pending, Keyed.lookup_eq_none _ _ _ absent]
    have moved := Keyed.lookup_concat FrameFragment.channel codec.rxFragments
      (FrameFragment.first crc32fast wire) absent
    refine ⟨Keyed.distinct_concat _ _ distinct _ absent, ?_, ?_⟩
    · simp [BitDrive.collect, missing, WireFrame.part, fragment]
    · rw [codec.pending_update _ _ _ moved, FrameFragment.first_channel]
      simp [BitDrive.collect, missing, WireFrame.part, fragment, FrameFragment.pending,
        FrameFragment.first, WireFrame.frame]
  | more fragment unfinished index found =>
    have entry := codec.pending_entry distinct wire.channelId index found
    have moved := Keyed.lookup_set FrameFragment.channel codec.rxFragments distinct index
      index.isLt ((codec.rxFragments.get index).extend wire) rfl
    refine ⟨Keyed.distinct_set _ _ distinct _ index.isLt _ rfl, ?_, ?_⟩
    · simp [BitDrive.collect, entry, WireFrame.part, fragment, unfinished]
    · rw [codec.pending_update _ _ _ moved, FrameFragment.extend_channel, found]
      simp [BitDrive.collect, entry, WireFrame.part, fragment, unfinished, FrameFragment.pending,
        FrameFragment.extend]
  | last fragment closed index found =>
    have entry := codec.pending_entry distinct wire.channelId index found
    have moved := Keyed.lookup_eraseIdx FrameFragment.channel codec.rxFragments distinct index
      index.isLt
    refine ⟨Keyed.distinct_eraseIdx _ _ distinct _, ?_, ?_⟩
    · have header := (codec.rxFragments.get index).header_channelId
      rw [found] at header
      simp [BitDrive.collect, entry, WireFrame.part, fragment, closed, Frame.delivery,
        FrameFragment.complete, FrameFragment.pending]
      simpa using header
    · rw [← List.get_eq_getElem, found] at moved
      rw [codec.pending_update _ _ _ moved]
      simp [BitDrive.collect, entry, WireFrame.part, fragment, closed]

theorem wires_stream (codec : FrameCodec) (wires : List WireFrame) (distinct : codec.OnePerChannel)
    (fresh : ∀ wire ∈ wires, codec.rxSequence ≤ wire.sequence)
    (ordered : wires.Pairwise fun earlier later => earlier.sequence ≤ later.sequence) :
    ∃ values last,
      (codecDecoder crc32fast).Stream codec (wires.map (WireFrame.bytes crc32fast)).flatten
        values last ∧
      values.map (Option.map Frame.delivery) =
        (runKeyed Part.channelId collect codec.pending (wires.map WireFrame.part)).1 ∧
      last.pending =
        (runKeyed Part.channelId collect codec.pending (wires.map WireFrame.part)).2 := by
  induction wires generalizing codec with
  | nil => exact ⟨[], codec, .nil codec, rfl, rfl⟩
  | cons wire wires ih =>
    obtain ⟨later, rest⟩ := List.pairwise_cons.mp ordered
    obtain ⟨value, next, reassembled, outcome⟩ :=
      reassemble_wire crc32fast { codec with rxSequence := wire.sequence } wire
    have token := codecDecoder_token crc32fast codec wire value next (fresh wire (by simp))
      reassembled
    -- Only the number differs from `codec`, and reassembly does not read it.
    obtain ⟨one, produced, moved⟩ := outcome.collect crc32fast
      { codec with rxSequence := wire.sequence } next wire value distinct
    have number : next.rxSequence = wire.sequence := outcome.rxSequence
    obtain ⟨values, last, stream, outputs, pending⟩ := ih next one
      (fun other member => by rw [number]; exact later other member) rest
    change next.pending = Function.update codec.pending wire.channelId
      (BitDrive.collect (codec.pending wire.channelId) wire.part).2 at moved
    refine ⟨value :: values, last, .cons token stream, ?_, ?_⟩
    · rw [List.map_cons, produced, outputs, moved]
      rfl
    · rw [pending, moved]
      rfl

end

end BitDrive
