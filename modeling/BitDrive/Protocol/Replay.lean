import BitDrive.Protocol.FrameFormat
import BitDrive.Shared.HighWater
import Mathlib.Data.Nat.Basic

set_option autoImplicit false

namespace BitDrive

open ByteLayout

def FrameCodec.JustStarted (codec : FrameCodec) : Prop :=
  (∃ maxPayloadSize, codec = FrameCodec.new maxPayloadSize) ∨
    ∃ used : FrameCodec, codec = used.resetSequences

theorem FrameCodec.JustStarted.rxSequence (codec : FrameCodec) (started : codec.JustStarted) :
    codec.rxSequence = 0 := by
  rcases started with ⟨maxPayloadSize, rfl⟩ | ⟨used, rfl⟩ <;> rfl

section

variable (crc32fast : Bytes → UInt32)

structure Accepted where
  frame : Frame
  consumed : Bytes

def Accepted.number (accepted : Accepted) : Nat :=
  accepted.frame.header.sequence.elim 0 (·.value.toNat)

def FrameCodec.decodeEach (codec : FrameCodec) : List Bytes → List Accepted
  | [] => []
  | buf :: bufs =>
    match codec.decode crc32fast buf with
    | (.ok (some frame), next, rest) =>
      ⟨frame, buf.take (buf.length - rest.length)⟩ :: next.decodeEach bufs
    | (_, next, _) => next.decodeEach bufs

def FrameCodec.ReplayProtected (codec : FrameCodec) (bufs : List Bytes) : Prop :=
  (codec.decodeEach crc32fast bufs).Pairwise fun earlier later =>
    earlier.number < later.number ∧ later.consumed ≠ earlier.consumed

def Presents (buf : Bytes) (number : Nat) : Prop :=
  ∃ (wire : WireFrame) (rest : Bytes),
    buf = wire.bytes crc32fast ++ rest ∧ wire.sequence.toNat = number

def frontNumber (buf : Bytes) : Option Nat :=
  match scanHead crc32fast buf with
  | .frame wire _ => some wire.sequence.toNat
  | _ => none

theorem frontNumber_eq_some (buf : Bytes) (number : Nat) :
    frontNumber crc32fast buf = some number ↔ Presents crc32fast buf number := by
  constructor
  · intro known
    rw [frontNumber] at known
    split at known
    next wire rest found =>
      exact ⟨wire, rest, scanHead_frame crc32fast buf wire rest found, Option.some.inj known⟩
    next => contradiction
  · rintro ⟨wire, rest, rfl, rfl⟩
    simp [frontNumber, scanHead_bytes]

theorem decodeEach_numbers (codec : FrameCodec) (bufs : List Bytes) :
    (codec.decodeEach crc32fast bufs).map Accepted.number =
      HighWater.admitted (frontNumber crc32fast) codec.rxSequence.toNat bufs := by
  induction bufs generalizing codec with
  | nil => rfl
  | cons buf bufs ih =>
    rw [FrameCodec.decodeEach, HighWater.admitted, decode_eq, frontNumber]
    cases found : scanHead crc32fast buf with
    | incomplete => exact ih codec
    | malformed error => exact ih codec
    | frame wire rest =>
      simp only [← UInt64.lt_iff_toNat_lt]
      by_cases old : wire.sequence < codec.rxSequence
      · rw [if_pos old, if_pos old]
        exact ih codec
      · rw [if_neg old, if_neg old]
        exact congrArg _ (ih { codec with rxSequence := wire.sequence })

theorem decodeEach_consumed (codec : FrameCodec) (bufs : List Bytes) :
    ∀ accepted ∈ codec.decodeEach crc32fast bufs,
      frontNumber crc32fast accepted.consumed = some accepted.number := by
  induction bufs generalizing codec with
  | nil => simp [FrameCodec.decodeEach]
  | cons buf bufs ih =>
    intro accepted member
    rw [FrameCodec.decodeEach] at member
    split at member
    next frame next rest decoded =>
      rcases List.mem_cons.mp member with rfl | later
      · obtain ⟨wire, found, rfl, _, _⟩ := decode_some crc32fast codec next buf rest frame decoded
        have whole := scanHead_frame crc32fast buf wire rest found
        have taken : buf.take (buf.length - rest.length) = wire.bytes crc32fast := by
          rw [whole, List.length_append, Nat.add_sub_cancel, List.take_left]
        rw [frontNumber_eq_some, taken]
        exact ⟨wire, [], by simp, rfl⟩
      · exact ih next accepted later
    next => exact ih _ accepted member

theorem replayProtected_numbers (codec : FrameCodec) (bufs : List Bytes) :
    codec.ReplayProtected crc32fast bufs ↔
      ((codec.decodeEach crc32fast bufs).map Accepted.number).Pairwise (· < ·) := by
  rw [List.pairwise_map, FrameCodec.ReplayProtected]
  constructor
  · exact List.Pairwise.imp And.left
  · intro increasing
    apply List.Pairwise.imp_of_mem _ increasing
    intro earlier later first second below
    refine ⟨below, fun same => ?_⟩
    have number := decodeEach_consumed crc32fast codec bufs later second
    rw [same, decodeEach_consumed crc32fast codec bufs earlier first] at number
    exact absurd (Option.some.inj number) (Nat.ne_of_lt below)

theorem replay_protected_iff (codec : FrameCodec) (started : codec.JustStarted)
    (bufs : List Bytes) :
    codec.ReplayProtected crc32fast bufs ↔
      ∀ before buf after, bufs = before ++ buf :: after → ∀ number, Presents crc32fast buf number →
        (∃ earlier ∈ before, Presents crc32fast earlier number) →
        ∃ earlier ∈ before, ∃ higher, Presents crc32fast earlier higher ∧ number < higher := by
  rw [replayProtected_numbers, decodeEach_numbers, started.rxSequence,
    HighWater.admitted_iff _ (UInt64.toNat 0) bufs fun value => Nat.zero_le value]
  simp only [HighWater.TopUnrepeated, List.nil_append, List.mem_filterMap, frontNumber_eq_some]
  constructor
  · intro unrepeated before buf after split number presented seen
    obtain ⟨higher, ⟨earlier, member, known⟩, above⟩ :=
      unrepeated before buf after split number presented seen
    exact ⟨earlier, member, higher, known, above⟩
  · intro unrepeated before buf after split number presented seen
    obtain ⟨earlier, member, higher, known, above⟩ :=
      unrepeated before buf after split number presented seen
    exact ⟨higher, ⟨earlier, member, known⟩, above⟩

end

def numbered (number : Nat) : Bytes :=
  WireFrame.bytes Crc.ieee { testWire with sequence := UInt64.ofNat number }

theorem numbered_presents (number : Nat) (small : number < 2 ^ 64) :
    Presents Crc.ieee (numbered number) number :=
  ⟨{ testWire with sequence := UInt64.ofNat number }, [], by rw [numbered, List.append_nil],
    UInt64.toNat_ofNat_of_lt' small⟩

theorem replay_protected_iff_numbered :
    FrameCodec.default.ReplayProtected Crc.ieee ([1, 4, 1, 2, 4].map numbered) ↔
      ∀ before buf after, [1, 4, 1, 2, 4].map numbered = before ++ buf :: after →
        ∀ number, Presents Crc.ieee buf number →
        (∃ earlier ∈ before, Presents Crc.ieee earlier number) →
        ∃ earlier ∈ before, ∃ higher, Presents Crc.ieee earlier higher ∧ number < higher :=
  replay_protected_iff Crc.ieee FrameCodec.default (.inl ⟨_, rfl⟩) ([1, 4, 1, 2, 4].map numbered)

example : (FrameCodec.default.decodeEach Crc.ieee ([1, 4, 1, 2, 4].map numbered)).map
    Accepted.number = [1, 4, 4] := by
  decide +kernel

theorem testWire_accepted_twice :
    FrameCodec.default.JustStarted ∧
      ¬ FrameCodec.default.ReplayProtected Crc.ieee
        [testWire.bytes Crc.ieee, testWire.bytes Crc.ieee] := by
  refine ⟨.inl ⟨_, rfl⟩, ?_⟩
  rw [replayProtected_numbers]
  decide +kernel

end BitDrive
