import BitDrive.Android.FrameCodec
import BitDrive.Protocol.Replay
import Mathlib.Tactic.IntervalCases

set_option autoImplicit false

namespace BitDrive

open ByteLayout

def passed {ε α : Type} : Except ε (Option α) → Bool
  | .ok (some _) => true
  | _ => false

def FrameCodec.verdicts (crc32fast : Bytes → UInt32) (codec : FrameCodec) : List Bytes → List Bool
  | [] => []
  | buf :: bufs =>
    let decoded := codec.decode crc32fast buf
    passed decoded.1 :: verdicts crc32fast decoded.2.1 bufs

namespace Android

def FrameCodec.verdicts (library : Library) (codec : FrameCodec) : List Bytes → List Bool
  | [] => []
  | data :: datas =>
    let decoded := codec.decode library data
    passed decoded.1 :: verdicts library decoded.2 datas

def Presents (library : Library) (data : Bytes) (number : Nat) : Prop :=
  ∃ frame, 30 + 16 ≤ data.length ∧
    library.fromInts (byteAt data 0) (byteAt data 1) (byteAt data 2) (byteAt data 3) =
      magicNumber ∧
    library.decodeFrame data = .ok frame ∧
    frame.header.headerCrc = calculateHeaderCrc library { frame.header with headerCrc := 0 } ∧
    frame.header.sequence.toInt = number

theorem decode_presents (library : Library) (codec : FrameCodec) (data : Bytes) (number mark : Nat)
    (presented : Presents library data number) (marked : codec.rxSequence.toInt = mark) :
    passed (codec.decode library data).1 = decide (mark < number) ∧
      (codec.decode library data).2.rxSequence.toInt =
        ((if mark < number then number else mark : Nat) : Int) := by
  have ⟨frame, long, magic, decoded, crc, numbered⟩ := presented
  have refused : frame.header.sequence ≤ codec.rxSequence ↔ ¬ mark < number := by
    simp only [Int64.le_iff_toInt_le, numbered, marked, Int.ofNat_le, Nat.not_lt]
  simp only [FrameCodec.decode, if_neg (Nat.not_lt.mpr long), magic, decoded]
  simp only [ne_eq, not_true_eq_false, if_false, crc]
  by_cases above : mark < number
  next => simp [refused, above, passed, numbered]
  next => simp [refused, above, passed, marked]

theorem verdicts_numbers (library : Library) (codec : FrameCodec) (mark : Nat)
    (datas : List Bytes) (numbers : List Nat)
    (presented : List.Forall₂ (Presents library) datas numbers)
    (marked : codec.rxSequence.toInt = mark) :
    codec.verdicts library datas = HighWater.verdicts (· < ·) mark numbers := by
  induction presented generalizing codec mark with
  | nil => rfl
  | cons head tail ih =>
    have step := decode_presents library codec _ _ mark head marked
    simp only [FrameCodec.verdicts, HighWater.verdicts, step.1, ih _ _ step.2]

end Android

theorem decode_presents (crc32fast : Bytes → UInt32) (codec : FrameCodec) (buf : Bytes)
    (number : Nat) (presented : Presents crc32fast buf number) :
    passed (codec.decode crc32fast buf).1 = decide (codec.rxSequence.toNat ≤ number) ∧
      (codec.decode crc32fast buf).2.1.rxSequence.toNat =
        if codec.rxSequence.toNat ≤ number then number else codec.rxSequence.toNat := by
  have ⟨wire, rest, whole, numbered⟩ := presented
  have refused : wire.sequence < codec.rxSequence ↔ ¬ codec.rxSequence.toNat ≤ number := by
    simp only [UInt64.lt_iff_toNat_lt, numbered, Nat.not_le]
  simp only [whole, decode_eq, scanHead_bytes]
  by_cases reached : codec.rxSequence.toNat ≤ number
  next => simp [refused, reached, passed, numbered]
  next => simp [refused, reached, passed]

theorem verdicts_numbers (crc32fast : Bytes → UInt32) (codec : FrameCodec)
    (bufs : List Bytes) (numbers : List Nat)
    (presented : List.Forall₂ (Presents crc32fast) bufs numbers) :
    codec.verdicts crc32fast bufs =
      HighWater.verdicts (· ≤ ·) codec.rxSequence.toNat numbers := by
  induction presented generalizing codec with
  | nil => rfl
  | cons head tail ih =>
    have step := decode_presents crc32fast codec _ _ head
    simp only [FrameCodec.verdicts, HighWater.verdicts, step.1, ih, step.2]

theorem range_isChain_le (n : Nat) : (0 :: List.range n).IsChain (· ≤ ·) :=
  (List.pairwise_cons.mpr ⟨fun _ _ => Nat.zero_le _, List.pairwise_le_range⟩).isChain

namespace Android

theorem filters_agree_iff (crc32fast : Bytes → UInt32) (library : Library)
    (maxPayloadSize : Nat) :
    (∀ numbers bufs datas, List.Forall₂ (BitDrive.Presents crc32fast) bufs numbers →
      List.Forall₂ (Presents library) datas numbers →
      ((BitDrive.FrameCodec.new maxPayloadSize).verdicts crc32fast bufs =
          FrameCodec.new.verdicts library datas ↔
        ∀ before number after, numbers = before ++ number :: after →
          number ≠ before.foldl max 0)) ∧
    ∀ n bufs datas, List.Forall₂ (BitDrive.Presents crc32fast) bufs (List.range (n + 1)) →
      List.Forall₂ (Presents library) datas (List.range (n + 1)) →
      (∀ verdict ∈ (BitDrive.FrameCodec.new maxPayloadSize).verdicts crc32fast bufs,
        verdict = true) ∧
      ¬ ∀ verdict ∈ FrameCodec.new.verdicts library datas, verdict = true := by
  constructor
  next =>
    intro numbers bufs datas sent received
    rw [BitDrive.verdicts_numbers crc32fast _ bufs numbers sent,
      verdicts_numbers library _ 0 datas numbers received rfl]
    exact HighWater.verdicts_eq_iff 0 numbers
  next =>
    intro n bufs datas sent received
    rw [BitDrive.verdicts_numbers crc32fast _ bufs _ sent,
      verdicts_numbers library _ 0 datas _ received rfl,
      HighWater.verdicts_all_iff, HighWater.verdicts_all_iff]
    refine ⟨range_isChain_le (n + 1), fun increasing => ?_⟩
    simp only [List.range_succ_eq_map, List.isChain_cons_cons] at increasing
    exact absurd increasing.1 (Nat.lt_irrefl 0)

def testLibrary : Library where
  fromInts := fun a b c d => u32At [a, b, c, d] 0
  encodeHeader := fun header => Layout.u32.put header.magic ++
    Layout.u64.put header.sequence.toUInt64 ++ Layout.u32.put header.payloadLength.toUInt32
  encodeFrame := fun frame => Layout.u32.put frame.header.magic ++
    Layout.u64.put frame.header.sequence.toUInt64 ++
    Layout.u32.put frame.header.payloadLength.toUInt32 ++ Layout.u32.put frame.header.headerCrc ++
    frame.payload ++ frame.authTag
  decodeFrame := fun data => .ok
    { header :=
        { magic := u32At data 0
          sequence := (u64At data 4).toInt64
          payloadLength := (u32At data 12).toInt32
          headerCrc := u32At data 16 }
      payload := (data.drop 20).take (u32At data 12).toNat
      authTag := data.drop (20 + (u32At data 12).toNat) }

def numbered (number : Nat) : Bytes :=
  ({ FrameCodec.new with txSequence := Int64.ofNat number }.encode testLibrary
    { header := {}, payload := List.replicate 10 0x74, authTag := List.replicate 16 0 }).1

theorem numbered_presents (number : Nat) (small : number < 5) :
    Presents testLibrary (numbered number) number := by
  interval_cases number
  all_goals
    exact ⟨_, by decide +kernel, by decide +kernel, rfl, by decide +kernel, by decide +kernel⟩

theorem filters_agree_iff_numbered :
    ((BitDrive.FrameCodec.new 16384).verdicts Crc.ieee ([1, 3, 1, 2, 4].map BitDrive.numbered) =
        FrameCodec.new.verdicts testLibrary ([1, 3, 1, 2, 4].map numbered) ↔
      ∀ before number after, [1, 3, 1, 2, 4] = before ++ number :: after →
        number ≠ before.foldl max 0) ∧
    (∀ verdict ∈ (BitDrive.FrameCodec.new 16384).verdicts Crc.ieee
      ([0, 1, 2].map BitDrive.numbered), verdict = true) ∧
    ¬ ∀ verdict ∈ FrameCodec.new.verdicts testLibrary ([0, 1, 2].map numbered),
      verdict = true := by
  have sent (number : Nat) (small : number < 5) :
      BitDrive.Presents Crc.ieee (BitDrive.numbered number) number :=
    BitDrive.numbered_presents number (Nat.lt_trans small (by decide))
  have received := numbered_presents
  obtain ⟨agree, split⟩ := filters_agree_iff Crc.ieee testLibrary 16384
  refine ⟨agree [1, 3, 1, 2, 4] _ _ ?_ ?_, split 2 _ _ ?_ ?_⟩
  next => simp [List.forall₂_cons, sent]
  next => simp [List.forall₂_cons, received]
  next => simp [List.range_succ, List.forall₂_cons, sent]
  next => simp [List.range_succ, List.forall₂_cons, received]

theorem first_frame_splits_filters :
    BitDrive.Presents Crc.ieee (BitDrive.numbered 0) 0 ∧ Presents testLibrary (numbered 0) 0 ∧
      (BitDrive.FrameCodec.new 16384).verdicts Crc.ieee [BitDrive.numbered 0] = [true] ∧
      FrameCodec.new.verdicts testLibrary [numbered 0] = [false] := by
  have sent := BitDrive.numbered_presents 0 (by decide)
  have received := numbered_presents 0 (by decide)
  refine ⟨sent, received, ?_, ?_⟩
  next => rw [BitDrive.verdicts_numbers _ _ _ _ (.cons sent .nil)]; rfl
  next => rw [verdicts_numbers _ _ 0 _ _ (.cons received .nil) rfl]; rfl

end Android

end BitDrive
