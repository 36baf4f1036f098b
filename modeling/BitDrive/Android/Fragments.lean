import BitDrive.Android.FrameCodec
import BitDrive.Protocol.Fragmentation
import BitDrive.Shared.Crc

set_option autoImplicit false

namespace BitDrive.Android

open ByteLayout

structure Corresponds (frame : BitDrive.Frame) (received : Frame) : Prop where
  type : frame.header.type = received.header.type.toI32
  isFragment : frame.header.flags.map (·.isFragment) = some received.header.flags.isFragment
  isLastFragment :
    frame.header.flags.map (·.isLastFragment) = some received.header.flags.isLastFragment
  channelId : frame.header.channelId = some ⟨received.header.channelId.value.toUInt32⟩
  sequence : frame.header.sequence = some ⟨received.header.sequence.toUInt64⟩
  payloadLength : frame.header.payloadLength = received.header.payloadLength.toUInt32
  payload : frame.payload = received.payload

namespace FrameCodec

def addFragments (codec : FrameCodec) :
    List Frame → List (Except Exception (Option Frame)) × FrameCodec
  | [] => ([], codec)
  | frame :: frames =>
    let added := codec.addFragment frame
    let rest := added.2.addFragments frames
    (added.1 :: rest.1, rest.2)

end FrameCodec

def Reassembled (payload : Bytes)
    (added : List (Except Exception (Option Frame)) × FrameCodec) : Prop :=
  (∃ pending frame, added.1 = List.replicate pending (.ok none) ++ [.ok (some frame)] ∧
      frame.payload = payload ∧ frame.header.payloadLength.toInt = (payload.length : Int)) ∧
    ∀ key, added.2.fragmentBuffers key = none

theorem addFragment_pending (codec : FrameCodec) (frame : Frame)
    (fragment : frame.header.flags.isFragment = true)
    (unfinished : frame.header.flags.isLastFragment = false) :
    ∃ buffer, (codec.addFragment frame).2.fragmentBuffers =
      Function.update codec.fragmentBuffers (FrameCodec.fragmentKey frame.header) (some buffer) := by
  simp only [FrameCodec.addFragment, fragment, unfinished, Bool.not_true, Bool.false_eq_true,
    if_false]
  exact ⟨_, rfl⟩

-- Whether `getData` throws or not, the key is gone by then.
theorem addFragment_last (codec : FrameCodec) (frame : Frame)
    (fragment : frame.header.flags.isFragment = true)
    (closed : frame.header.flags.isLastFragment = true) :
    (codec.addFragment frame).2.fragmentBuffers =
      Function.update codec.fragmentBuffers (FrameCodec.fragmentKey frame.header) none := by
  simp only [FrameCodec.addFragment, fragment, closed, Bool.not_true, Bool.false_eq_true, if_true,
    if_false]
  split <;> rfl

theorem fragmentKey_lowBit (header : FrameHeader) :
    (FrameCodec.fragmentKey header).toBitVec.getLsbD 0 = header.sequence.toBitVec.getLsbD 0 := by
  simp [FrameCodec.fragmentKey]

theorem successor_lowBit (sequence : UInt64) :
    (sequence + 1).toBitVec.getLsbD 0 = !sequence.toBitVec.getLsbD 0 := by
  have sum : (sequence.toNat + 1) % 2 ^ 64 % 2 = (sequence.toNat + 1) % 2 :=
    Nat.mod_mod_of_dvd _ (by decide)
  rw [BitVec.getLsbD, BitVec.getLsbD, Nat.testBit_zero, Nat.testBit_zero]
  change decide ((sequence + 1).toNat % 2 = 1) = !decide (sequence.toNat % 2 = 1)
  rw [UInt64.toNat_add, UInt64.toNat_one, sum]
  rcases Nat.mod_two_eq_zero_or_one sequence.toNat with even | odd
  next => simp [Nat.add_mod, even]
  next => simp [Nat.add_mod, odd]

theorem fragmentKey_ne (first second : FrameHeader)
    (successive : second.sequence.toUInt64 = first.sequence.toUInt64 + 1) :
    FrameCodec.fragmentKey first ≠ FrameCodec.fragmentKey second := by
  intro same
  have bits : second.sequence.toUInt64.toBitVec.getLsbD 0 =
      first.sequence.toUInt64.toBitVec.getLsbD 0 := by
    change second.sequence.toBitVec.getLsbD 0 = first.sequence.toBitVec.getLsbD 0
    rw [← fragmentKey_lowBit, ← fragmentKey_lowBit, same]
  rw [successive, successor_lowBit] at bits
  exact absurd bits (by simp)

theorem Corresponds.fragment {frame : BitDrive.Frame} {received : Frame} {channelId : UInt32}
    {sequence : UInt64} {chunk : Bytes} {closed : Bool} (corresponding : Corresponds frame received)
    (carried : frame.IsFragment channelId sequence chunk closed) :
    received.header.flags.isFragment = true ∧ received.header.flags.isLastFragment = closed ∧
      received.header.sequence.toUInt64 = sequence := by
  have ⟨flags, flagged, fragment, last⟩ := carried.flags
  have isFragment := corresponding.isFragment
  have isLastFragment := corresponding.isLastFragment
  have numbered := corresponding.sequence
  rw [flagged, Option.map_some, Option.some.injEq] at isFragment isLastFragment
  rw [carried.sequence, Option.some.injEq] at numbered
  exact ⟨isFragment.symm.trans fragment, isLastFragment.symm.trans last,
    (congrArg SequenceNumber.value numbered).symm⟩

theorem addFragments_left (channelId : UInt32) (sequence : UInt64) (parts : List Bytes)
    (frames : List BitDrive.Frame) (received : List Frame) (codec : FrameCodec)
    (fragments : Fragments channelId sequence parts frames) (several : 2 ≤ parts.length)
    (corresponding : List.Forall₂ Corresponds frames received) :
    ∃ key, (codec.addFragments received).2.fragmentBuffers key ≠ none := by
  induction fragments generalizing received codec with
  | last sequence chunk frame carried => simp at several
  | more sequence chunk parts frame frames carried rest ih =>
    cases corresponding with
    | @cons _ before _ later head tail =>
      rw [FrameCodec.addFragments]
      by_cases more : 2 ≤ parts.length
      case pos => exact ih later (codec.addFragment before).2 more tail
      cases rest with
      | more _ _ parts _ frames _ rest =>
        cases rest <;> simp at more
      | last _ last lastFrame lastCarried =>
        cases tail with
        | @cons _ final _ none second done =>
          cases done
          have first := head.fragment carried
          have final_facts := second.fragment lastCarried
          have ⟨buffer, kept⟩ := addFragment_pending codec before first.1 first.2.1
          have removed := addFragment_last (codec.addFragment before).2 final final_facts.1
            final_facts.2.1
          have distinct := fragmentKey_ne before.header final.header (by
            rw [first.2.2, final_facts.2.2])
          refine ⟨FrameCodec.fragmentKey before.header, ?_⟩
          simp only [FrameCodec.addFragments, removed, kept]
          rw [Function.update_of_ne distinct, Function.update_self]
          exact Option.some_ne_none buffer

theorem never_reassembled (crc32fast : Bytes → UInt32) (sender next : BitDrive.FrameCodec)
    (frameType : FrameType) (channelId : UInt32) (payload : Bytes) (flags : BitDrive.FrameFlags)
    (frames : List BitDrive.Frame) (received : List Frame)
    (positive : 1 ≤ sender.maxPayloadSize) (long : sender.maxPayloadSize < payload.length)
    (encoded : sender.encodeFragment crc32fast frameType channelId payload flags =
      (.ok frames, next))
    (corresponding : List.Forall₂ Corresponds frames received) :
    ¬ Reassembled payload (FrameCodec.new.addFragments received) := by
  intro reassembled
  have fragments := encodeFragment_fragments crc32fast sender next frameType channelId payload
    flags frames positive long encoded
  have several := chunks_several sender.maxPayloadSize payload positive long
  have ⟨key, left⟩ := addFragments_left channelId _ _ frames received FrameCodec.new fragments
    several corresponding
  exact left (reassembled.2 key)

def sentFragment (sequence : UInt64) (byte : UInt8) (closed : Bool) : BitDrive.Frame where
  header :=
    { magic := magicNumber
      version := protocolVersion
      type := FrameType.data.toI32
      flags := some { isFragment := true, isLastFragment := closed }
      channelId := some ⟨1⟩
      sequence := some ⟨sequence⟩
      payloadLength := 1
      headerCrc := 0 }
  payload := [byte]
  authTag := []

def receivedFragment (sequence : Int64) (byte : UInt8) (closed : Bool) : Frame where
  header :=
    { flags := { isFragment := true, isLastFragment := closed }
      channelId := ⟨1⟩
      sequence := sequence
      payloadLength := 1 }
  payload := [byte]

theorem two_fragments_correspond :
    List.Forall₂ Corresponds [sentFragment 0 1 false, sentFragment 1 2 true]
      [receivedFragment 0 1 false, receivedFragment 1 2 true] :=
  .cons ⟨rfl, rfl, rfl, rfl, rfl, rfl, rfl⟩ (.cons ⟨rfl, rfl, rfl, rfl, rfl, rfl, rfl⟩ .nil)

theorem never_reassembled_two :
    ¬ Reassembled [1, 2]
      (FrameCodec.new.addFragments [receivedFragment 0 1 false, receivedFragment 1 2 true]) :=
  never_reassembled Crc.ieee (BitDrive.FrameCodec.new 1) _ .data 1 [1, 2] {} _ _ (by decide)
    (by decide) rfl two_fragments_correspond

theorem two_fragments_lost :
    ((BitDrive.FrameCodec.new 1).encodeFragment Crc.ieee .data 1 [1, 2] {}).1 =
        .ok [sentFragment 0 1 false, sentFragment 1 2 true] ∧
      ¬ Reassembled [1, 2]
        (FrameCodec.new.addFragments [receivedFragment 0 1 false, receivedFragment 1 2 true]) := by
  refine ⟨rfl, fun reassembled => ?_⟩
  have left : (FrameCodec.new.addFragments [receivedFragment 0 1 false,
      receivedFragment 1 2 true]).2.fragmentBuffers ((1 : Int64) <<< 32) ≠ none := by decide
  exact left (reassembled.2 ((1 : Int64) <<< 32))

theorem getData_zeros (buffer next : FragmentBuffer) (data : Bytes)
    (got : buffer.getData = .ok (data, next)) : ∃ size, data = List.replicate size 0 := by
  rw [FragmentBuffer.getData] at got
  split at got
  next => contradiction
  next =>
    cases copied : copyChunks (List.replicate buffer.received.toInt.toNat 0) 0 buffer.chunks with
    | error exception =>
      simp only [copied, bind, Except.bind] at got
      contradiction
    | ok chunks =>
      simp only [copied, bind, Except.bind, pure, Except.pure, Except.ok.injEq,
        Prod.mk.injEq] at got
      exact ⟨_, got.1.symm⟩

theorem addFragment_zeros (codec : FrameCodec) (frame complete : Frame)
    (fragment : frame.header.flags.isFragment = true)
    (added : (codec.addFragment frame).1 = .ok (some complete)) :
    ∃ size, complete.payload = List.replicate size 0 := by
  simp only [FrameCodec.addFragment, fragment, Bool.not_true, Bool.false_eq_true, if_false] at added
  split at added
  next =>
    split at added
    next => contradiction
    next payload next got =>
      have same := Option.some.inj (Except.ok.inj added)
      rw [← same]
      exact getData_zeros _ next payload got
  next => cases added

end BitDrive.Android
