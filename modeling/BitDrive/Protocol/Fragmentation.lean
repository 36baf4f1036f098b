import BitDrive.Protocol.Frame

set_option autoImplicit false

namespace BitDrive

open ByteLayout

theorem chunks_length (size : Nat) (payload : Bytes) :
    (chunks size payload).length = (payload.length + size - 1) / size := by
  simp [chunks]

theorem chunks_flatten (size : Nat) (payload : Bytes) (positive : 0 < size) :
    (chunks size payload).flatten = payload := by
  have front (count : Nat) : ((List.range count).map fun index =>
      (payload.drop (index * size)).take size).flatten = payload.take (count * size) := by
    induction count with
    | zero => simp
    | succ count ih => simp [List.range_succ, ih, Nat.succ_mul, List.take_add]
  rw [chunks, front]
  apply List.take_of_length_le
  have rounded := Nat.div_add_mod (payload.length + size - 1) size
  have below := Nat.mod_lt (payload.length + size - 1) positive
  rw [Nat.mul_comm] at rounded
  omega

theorem chunks_bound (size : Nat) (payload chunk : Bytes) (member : chunk ∈ chunks size payload) :
    chunk.length ≤ size := by
  obtain ⟨index, _, rfl⟩ := List.mem_map.mp member
  exact List.length_take_le _ _

theorem chunks_several (size : Nat) (payload : Bytes) (positive : 0 < size)
    (long : size < payload.length) : 2 ≤ (chunks size payload).length := by
  rw [chunks_length, Nat.le_div_iff_mul_le positive]
  omega

structure Frame.IsFragment (frame : Frame) (channelId : UInt32) (sequence : UInt64)
    (chunk : Bytes) (closed : Bool) : Prop where
  flags : ∃ flags, frame.header.flags = some flags ∧ flags.isFragment = true ∧
    flags.isLastFragment = closed
  channelId : frame.header.channelId = some ⟨channelId⟩
  sequence : frame.header.sequence = some ⟨sequence⟩
  payload : frame.payload = chunk

inductive Fragments (channelId : UInt32) : UInt64 → List Bytes → List Frame → Prop where
  | last (sequence : UInt64) (chunk : Bytes) (frame : Frame)
      (carried : frame.IsFragment channelId sequence chunk true) :
      Fragments channelId sequence [chunk] [frame]
  | more (sequence : UInt64) (chunk : Bytes) (chunks : List Bytes) (frame : Frame)
      (frames : List Frame) (carried : frame.IsFragment channelId sequence chunk false)
      (rest : Fragments channelId (sequence + 1) chunks frames) :
      Fragments channelId sequence (chunk :: chunks) (frame :: frames)

theorem Fragments.payload {channelId : UInt32} {sequence : UInt64} {parts : List Bytes}
    {frames : List Frame} (fragments : Fragments channelId sequence parts frames) :
    frames.flatMap Frame.payload = parts.flatten := by
  induction fragments with
  | last sequence chunk frame carried => simp [carried.payload]
  | more sequence chunk parts frame frames carried rest ih =>
    rw [List.flatMap_cons, ih, carried.payload, List.flatten_cons]

theorem Fragments.split {channelId : UInt32} {sequence : UInt64} {parts : List Bytes}
    {frames : List Frame} (fragments : Fragments channelId sequence parts frames) :
    ∃ front final, frames = front ++ [final] ∧ front.length + 1 = parts.length ∧
      (∀ frame ∈ front, ∃ number chunk, frame.IsFragment channelId number chunk false) ∧
      ∃ number chunk, final.IsFragment channelId number chunk true := by
  induction fragments with
  | last sequence chunk frame carried => exact ⟨[], frame, rfl, rfl, by simp, _, _, carried⟩
  | more sequence chunk parts frame frames carried rest ih =>
    have ⟨front, final, whole, count, unfinished, closed⟩ := ih
    refine ⟨frame :: front, final, by rw [whole, List.cons_append], ?_, ?_, closed⟩
    next => rw [List.length_cons, List.length_cons, count]
    next => exact List.forall_mem_cons.mpr ⟨⟨_, _, carried⟩, unfinished⟩

theorem encodeFragmentLoop_fragments (frameType : FrameType) (channelId : UInt32)
    (flags : FrameFlags) (total index : Nat) (codec : FrameCodec) (parts : List Bytes)
    (present : parts ≠ []) (count : index + parts.length = total) :
    Fragments channelId codec.txSequence parts
      (FrameCodec.encodeFragmentLoop frameType channelId flags total index codec parts).1 := by
  induction parts generalizing index codec with
  | nil => contradiction
  | cons chunk parts ih =>
    cases parts with
    | nil =>
      have closed : (index == total - 1) = true := by
        simp only [List.length_cons, List.length_nil] at count
        simp only [beq_iff_eq]
        omega
      exact .last _ _ _ ⟨⟨_, rfl, rfl, closed⟩, rfl, rfl, rfl⟩
    | cons next parts =>
      have unfinished : (index == total - 1) = false := by
        simp only [List.length_cons] at count
        simp only [beq_eq_false_iff_ne, ne_eq]
        omega
      have rest := ih (index + 1) { codec with txSequence := codec.txSequence + 1 } (by simp)
        (by simpa [Nat.add_assoc, Nat.add_comm 1] using count)
      exact .more _ _ _ _ _ ⟨⟨_, rfl, rfl, unfinished⟩, rfl, rfl, rfl⟩ rest

theorem encodeFragmentLoop_maxPayloadSize (frameType : FrameType) (channelId : UInt32)
    (flags : FrameFlags) (total index : Nat) (codec : FrameCodec) (parts : List Bytes) :
    (FrameCodec.encodeFragmentLoop frameType channelId flags total index codec
      parts).2.maxPayloadSize = codec.maxPayloadSize := by
  induction parts generalizing index codec with
  | nil => rfl
  | cons chunk parts ih => exact ih (index + 1) { codec with txSequence := codec.txSequence + 1 }

variable (crc32fast : Bytes → UInt32)

theorem encode_ok (codec : FrameCodec) (frame : Frame) (flags : FrameFlags) (channelId : ChannelId)
    (flagged : frame.header.flags = some flags) (channelled : frame.header.channelId = some channelId) :
    ∃ bytes, codec.encode crc32fast frame =
      (.ok bytes, { codec with txSequence := codec.txSequence + 1 }) := by
  simp only [FrameCodec.encode, calculateHeaderCrc, flagged, channelled, Outcome.unwrap_some]
  exact ⟨_, rfl⟩

def singleFrame (frameType : FrameType) (channelId : UInt32) (sequence : UInt64) (payload : Bytes)
    (flags : FrameFlags) : Frame where
  header :=
    { magic := magicNumber
      version := 0x00010000
      type := frameType.toI32
      flags := some flags
      channelId := some ⟨channelId⟩
      sequence := some ⟨sequence⟩
      payloadLength := UInt32.ofNat payload.length
      headerCrc := 0 }
  payload := payload
  authTag := []

theorem encodeFragment_short (codec : FrameCodec) (frameType : FrameType) (channelId : UInt32)
    (payload : Bytes) (flags : FrameFlags) (short : payload.length ≤ codec.maxPayloadSize) :
    codec.encodeFragment crc32fast frameType channelId payload flags =
      (.ok [singleFrame frameType channelId codec.txSequence payload flags],
        { codec with txSequence := codec.txSequence + 1 }) := by
  let frame := singleFrame frameType channelId codec.txSequence payload flags
  have ⟨bytes, encoded⟩ := encode_ok crc32fast codec frame flags ⟨channelId⟩ rfl rfl
  rw [FrameCodec.encodeFragment, if_pos short]
  change (Except.map _ (codec.encode crc32fast frame).1, (codec.encode crc32fast frame).2) = _
  rw [encoded]
  rfl

theorem encodeFragment_long (codec : FrameCodec) (frameType : FrameType) (channelId : UInt32)
    (payload : Bytes) (flags : FrameFlags) (positive : 0 < codec.maxPayloadSize)
    (long : codec.maxPayloadSize < payload.length) :
    let parts := chunks codec.maxPayloadSize payload
    let split := FrameCodec.encodeFragmentLoop frameType channelId flags parts.length 0 codec parts
    codec.encodeFragment crc32fast frameType channelId payload flags = (.ok split.1, split.2) := by
  have short : ¬ payload.length ≤ codec.maxPayloadSize := Nat.not_le.mpr long
  simp only [FrameCodec.encodeFragment, if_neg short, if_neg (Nat.ne_of_gt positive), chunks_length]

structure Addressed (channelId : UInt32) (frame : Frame) (flags : FrameFlags) : Prop where
  flags : frame.header.flags = some flags
  channelId : frame.header.channelId = some ⟨channelId⟩
  sequence : ∃ sequence, frame.header.sequence = some sequence

theorem Frame.IsFragment.addressed {frame : Frame} {channelId : UInt32} {sequence : UInt64}
    {chunk : Bytes} {closed : Bool} (carried : frame.IsFragment channelId sequence chunk closed) :
    ∃ flags, Addressed channelId frame flags := by
  have ⟨flags, flagged, _⟩ := carried.flags
  exact ⟨flags, flagged, carried.channelId, ⟨sequence⟩, carried.sequence⟩

inductive Encodes (codec : FrameCodec) (channelId : UInt32) (payload : Bytes) (flags : FrameFlags) :
    List Frame → Prop where
  | whole (frame : Frame) (short : payload.length ≤ codec.maxPayloadSize)
      (addressed : Addressed channelId frame flags) (carried : frame.payload = payload) :
      Encodes codec channelId payload flags [frame]
  | split (frames : List Frame) (long : codec.maxPayloadSize < payload.length)
      (fragments : Fragments channelId codec.txSequence (chunks codec.maxPayloadSize payload) frames) :
      Encodes codec channelId payload flags frames

theorem encodeFragment_encodes (codec : FrameCodec) (frameType : FrameType) (channelId : UInt32)
    (payload : Bytes) (flags : FrameFlags) (positive : 0 < codec.maxPayloadSize) :
    ∃ frames next, codec.encodeFragment crc32fast frameType channelId payload flags =
        (.ok frames, next) ∧
      next.maxPayloadSize = codec.maxPayloadSize ∧
      Encodes codec channelId payload flags frames := by
  by_cases short : payload.length ≤ codec.maxPayloadSize
  next =>
    have single := encodeFragment_short crc32fast codec frameType channelId payload flags short
    exact ⟨_, _, single, rfl, .whole _ short ⟨rfl, rfl, _, rfl⟩ rfl⟩
  next =>
    have long := Nat.lt_of_not_le short
    have several := chunks_several codec.maxPayloadSize payload positive long
    have present : chunks codec.maxPayloadSize payload ≠ [] :=
      List.ne_nil_of_length_pos (Nat.lt_of_lt_of_le Nat.zero_lt_two several)
    have split := encodeFragment_long crc32fast codec frameType channelId payload flags positive long
    exact ⟨_, _, split, encodeFragmentLoop_maxPayloadSize _ _ _ _ 0 codec _,
      .split _ long (encodeFragmentLoop_fragments _ _ _ _ 0 codec _ present (Nat.zero_add _))⟩

theorem encodeFragment_fragments (codec next : FrameCodec) (frameType : FrameType)
    (channelId : UInt32) (payload : Bytes) (flags : FrameFlags) (frames : List Frame)
    (positive : 1 ≤ codec.maxPayloadSize) (long : codec.maxPayloadSize < payload.length)
    (encoded : codec.encodeFragment crc32fast frameType channelId payload flags =
      (.ok frames, next)) :
    Fragments channelId codec.txSequence (chunks codec.maxPayloadSize payload) frames := by
  have ⟨made, _, same, _, encodes⟩ :=
    encodeFragment_encodes crc32fast codec frameType channelId payload flags positive
  rw [encoded] at same
  cases same
  cases encodes with
  | whole frame short => exact absurd long (Nat.not_lt.mpr short)
  | split frames _ fragments => exact fragments

end BitDrive
