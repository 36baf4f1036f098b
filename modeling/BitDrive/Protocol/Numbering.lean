import BitDrive.Protocol.Codec
import BitDrive.Protocol.Fragmentation

set_option autoImplicit false

namespace BitDrive

open ByteLayout

structure Produced where
  built : UInt64
  result : Outcome ProtocolError Bytes

def wireSequence (bytes : Bytes) : UInt64 := u64At bytes 14

def fragmentCount (maxPayloadSize length : Nat) : Nat :=
  if length ≤ maxPayloadSize then 1 else (length + maxPayloadSize - 1) / maxPayloadSize

section

variable (crc32fast : Bytes → UInt32) (encodeKeepAlive : KeepAlive → Bytes)

def ProtocolCodec.produce (codec : ProtocolCodec) : List EncodeCall → List Produced
  | [] => []
  | call :: calls =>
    let encoded := call.run crc32fast encodeKeepAlive codec
    ⟨codec.frameCodec.nextTxSequence.1, encoded.1⟩ :: encoded.2.produce calls

def FrameCodec.encodeEach (codec : FrameCodec) : List Frame → List (Outcome ProtocolError Bytes)
  | [] => []
  | frame :: frames =>
    let encoded := codec.encode crc32fast frame
    encoded.1 :: encoded.2.encodeEach frames

structure Produced.NumberedBy (produced : Produced) (index : Nat) (call : EncodeCall)
    (bytes : Bytes) : Prop where
  result : produced.result = .ok bytes
  place : wireSequence bytes = UInt64.ofNat index
  built : produced.built = wireSequence bytes
  keepalive : ∀ timestamp, call = .keepalive timestamp →
    bytes.drop 30 = encodeKeepAlive ⟨some timestamp.toInt64, (wireSequence bytes).toUInt32⟩

def Numbered (calls : List EncodeCall) : Prop :=
  ∀ index call (produced : Produced), calls[index]? = some call →
    (ProtocolCodec.new.produce crc32fast encodeKeepAlive calls)[index]? = some produced →
    ∃ bytes, produced.NumberedBy encodeKeepAlive index call bytes

def SentAsNumbered (codec : FrameCodec) (frameType : FrameType) (channelId : UInt32)
    (payload : Bytes) (flags : FrameFlags) : Prop :=
  ∃ frames next, codec.encodeFragment crc32fast frameType channelId payload flags =
      (.ok frames, next) ∧
    ∀ (index : Nat) (frame : Frame), frames[index]? = some frame →
      ∃ bytes, (next.encodeEach crc32fast frames)[index]? = some (.ok bytes) ∧
        frame.header.sequence = some ⟨wireSequence bytes⟩

theorem encode_numbers (codec : FrameCodec) (frame : Frame) (flags : FrameFlags)
    (channelId : ChannelId) (flagged : frame.header.flags = some flags)
    (channelled : frame.header.channelId = some channelId) :
    ∃ bytes, codec.encode crc32fast frame =
        (.ok bytes, { codec with txSequence := codec.txSequence + 1 }) ∧
      wireSequence bytes = codec.txSequence := by
  have encoded := encode_eq crc32fast codec frame flags channelId flagged channelled
  rw [List.append_assoc] at encoded
  generalize Layout.u32.put (crc32fast _) ++ (frame.payload ++ frame.authTag) = tail at encoded
  have read := checkedLayout.get_put (frame.written flags channelId codec.txSequence) tail
  rw [checkedLayout_get] at read
  have number := congrArg RawHeader.sequence read
  exact ⟨_, encoded, number⟩

theorem EncodeCall.build_header (call : EncodeCall) (sequence : UInt64) :
    ∃ flags channelId, (call.build encodeKeepAlive sequence).header.flags = some flags ∧
      (call.build encodeKeepAlive sequence).header.channelId = some channelId := by
  cases call <;> exact ⟨_, _, rfl, rfl⟩

theorem EncodeCall.run_numbers (codec : ProtocolCodec) (call : EncodeCall) :
    ∃ bytes, (call.run crc32fast encodeKeepAlive codec).1 = .ok bytes ∧
      (call.run crc32fast encodeKeepAlive codec).2.frameCodec.txSequence =
        codec.frameCodec.txSequence + 2 ∧
      wireSequence bytes = codec.frameCodec.txSequence + 1 := by
  have ⟨flags, channelId, flagged, channelled⟩ :=
    call.build_header encodeKeepAlive codec.frameCodec.nextTxSequence.1
  have ⟨bytes, encoded, number⟩ := encode_numbers crc32fast codec.frameCodec.nextTxSequence.2 _
    flags channelId flagged channelled
  have twice : codec.frameCodec.nextTxSequence.2.txSequence + 1 =
      codec.frameCodec.txSequence + 2 := by
    simp only [FrameCodec.nextTxSequence, UInt64.add_assoc]
    rfl
  rw [call.run_eq, ProtocolCodec.encodeBuilt, encoded]
  exact ⟨bytes, rfl, twice, number⟩

-- Two numbers for each call: the frame is built with the first and carries the second.
theorem produce_numbers (codec : ProtocolCodec) (calls : List EncodeCall) (index : Nat)
    (inside : index < calls.length) :
    ∃ bytes, (codec.produce crc32fast encodeKeepAlive calls)[index]? =
        some ⟨codec.frameCodec.txSequence + UInt64.ofNat (2 * index), .ok bytes⟩ ∧
      wireSequence bytes = codec.frameCodec.txSequence + UInt64.ofNat (2 * index) + 1 := by
  induction calls generalizing codec index with
  | nil => contradiction
  | cons call calls ih =>
    have ⟨bytes, produced, later, number⟩ := call.run_numbers crc32fast encodeKeepAlive codec
    cases index with
    | zero =>
      have first : (codec.produce crc32fast encodeKeepAlive (call :: calls))[0]? =
          some ⟨codec.frameCodec.txSequence + UInt64.ofNat (2 * 0), .ok bytes⟩ := by
        simp [ProtocolCodec.produce, produced, FrameCodec.nextTxSequence]
      exact ⟨bytes, first, by simpa using number⟩
    | succ index =>
      have sum (start : UInt64) :
          start + 2 + UInt64.ofNat (2 * index) = start + UInt64.ofNat (2 * (index + 1)) := by
        rw [Nat.mul_succ, UInt64.ofNat_add, UInt64.add_assoc, UInt64.add_comm 2]
        rfl
      have rest := ih (call.run crc32fast encodeKeepAlive codec).2 index
        (Nat.lt_of_succ_lt_succ inside)
      rw [later, sum] at rest
      exact rest

theorem numbered_iff (calls : List EncodeCall) :
    Numbered crc32fast encodeKeepAlive calls ↔ calls = [] := by
  constructor
  next =>
    intro numbered
    by_contra present
    have inside : 0 < calls.length := List.length_pos_iff.mpr present
    have ⟨bytes, produced, number⟩ :=
      produce_numbers crc32fast encodeKeepAlive ProtocolCodec.new calls 0 inside
    have ⟨written, same⟩ := numbered 0 _ _ (List.getElem?_eq_getElem inside) produced
    have one : bytes = written := Except.ok.inj same.result
    have zero := same.place
    rw [← one, number] at zero
    contradiction
  next =>
    intro empty index call produced known
    simp [empty] at known

theorem ofNat_succ (start : UInt64) (count : Nat) :
    start + 1 + UInt64.ofNat count = start + UInt64.ofNat (count + 1) := by
  rw [UInt64.ofNat_add, UInt64.add_assoc, UInt64.add_comm 1]
  rfl

theorem ofNat_eq_zero_iff (count : Nat) : UInt64.ofNat count = 0 ↔ 2 ^ 64 ∣ count := by
  rw [← UInt64.toNat_inj, UInt64.toNat_ofNat', Nat.dvd_iff_mod_eq_zero]
  rfl

theorem encodeEach_numbers (codec : FrameCodec) (frames : List Frame)
    (complete : ∀ frame ∈ frames, ∃ flags channelId, frame.header.flags = some flags ∧
      frame.header.channelId = some channelId)
    (index : Nat) (inside : index < frames.length) :
    ∃ bytes, (codec.encodeEach crc32fast frames)[index]? = some (.ok bytes) ∧
      wireSequence bytes = codec.txSequence + UInt64.ofNat index := by
  induction frames generalizing codec index with
  | nil => contradiction
  | cons frame frames ih =>
    have ⟨⟨flags, channelId, flagged, channelled⟩, others⟩ := List.forall_mem_cons.mp complete
    have ⟨bytes, encoded, number⟩ :=
      encode_numbers crc32fast codec frame flags channelId flagged channelled
    simp only [FrameCodec.encodeEach, encoded]
    cases index with
    | zero => exact ⟨bytes, rfl, by simpa using number⟩
    | succ index =>
      have rest := ih { codec with txSequence := codec.txSequence + 1 } others index
        (Nat.lt_of_succ_lt_succ inside)
      rw [ofNat_succ] at rest
      exact rest

theorem encodeFragmentLoop_txSequence (frameType : FrameType) (channelId : UInt32)
    (flags : FrameFlags) (total index : Nat) (codec : FrameCodec) (parts : List Bytes) :
    (FrameCodec.encodeFragmentLoop frameType channelId flags total index codec
      parts).2.txSequence = codec.txSequence + UInt64.ofNat parts.length := by
  induction parts generalizing index codec with
  | nil => exact (UInt64.add_zero _).symm
  | cons chunk parts ih =>
    rw [List.length_cons, ← ofNat_succ]
    exact ih (index + 1) { codec with txSequence := codec.txSequence + 1 }

structure Frame.HasNumber (frame : Frame) (sequence : UInt64) : Prop where
  complete : ∃ flags channelId, frame.header.flags = some flags ∧
    frame.header.channelId = some channelId
  sequence : frame.header.sequence = some ⟨sequence⟩

theorem Fragments.numbers {channelId : UInt32} {sequence : UInt64} {parts : List Bytes}
    {frames : List Frame} (fragments : Fragments channelId sequence parts frames) :
    frames.length = parts.length ∧ ∀ (index : Nat) (frame : Frame), frames[index]? = some frame →
      frame.HasNumber (sequence + UInt64.ofNat index) := by
  induction fragments with
  | last sequence chunk frame carried =>
    have ⟨⟨flags, flagged, _⟩, channelled, number, _⟩ := carried
    constructor
    next => rfl
    next =>
      intro index other known
      cases index with
      | zero =>
        cases known
        exact ⟨⟨flags, ⟨channelId⟩, flagged, channelled⟩, by simpa using number⟩
      | succ index => simp at known
  | more sequence chunk parts frame frames carried rest ih =>
    have ⟨⟨flags, flagged, _⟩, channelled, number, _⟩ := carried
    have ⟨count, numbers⟩ := ih
    constructor
    next => rw [List.length_cons, List.length_cons, count]
    next =>
      intro index other known
      cases index with
      | zero =>
        cases known
        exact ⟨⟨flags, ⟨channelId⟩, flagged, channelled⟩, by simpa using number⟩
      | succ index =>
        rw [← ofNat_succ]
        exact numbers index other known

theorem encodeFragment_numbers (codec : FrameCodec) (frameType : FrameType) (channelId : UInt32)
    (payload : Bytes) (flags : FrameFlags)
    (possible : 0 < fragmentCount codec.maxPayloadSize payload.length) :
    ∃ frames next, codec.encodeFragment crc32fast frameType channelId payload flags =
        (.ok frames, next) ∧
      frames.length = fragmentCount codec.maxPayloadSize payload.length ∧
      next.txSequence = codec.txSequence + UInt64.ofNat frames.length ∧
      ∀ (index : Nat) (frame : Frame), frames[index]? = some frame →
        frame.HasNumber (codec.txSequence + UInt64.ofNat index) := by
  rw [fragmentCount] at possible ⊢
  by_cases short : payload.length ≤ codec.maxPayloadSize
  next =>
    have single := encodeFragment_short crc32fast codec frameType channelId payload flags short
    let frame := singleFrame frameType channelId codec.txSequence payload flags
    have numbers (index : Nat) (other : Frame) (known : [frame][index]? = some other) :
        other.HasNumber (codec.txSequence + UInt64.ofNat index) := by
      cases index with
      | zero =>
        cases known
        exact ⟨⟨flags, ⟨channelId⟩, rfl, rfl⟩, by simp [frame, singleFrame]⟩
      | succ index => simp at known
    exact ⟨[frame], _, single, by simp [short], rfl, numbers⟩
  next =>
    rw [if_neg short] at possible ⊢
    have positive : 0 < codec.maxPayloadSize := by
      by_contra zero
      simp [Nat.eq_zero_of_not_pos zero] at possible
    have long := Nat.lt_of_not_le short
    have split :=
      encodeFragment_long crc32fast codec frameType channelId payload flags positive long
    have several := chunks_several codec.maxPayloadSize payload positive long
    have present : chunks codec.maxPayloadSize payload ≠ [] :=
      List.ne_nil_of_length_pos (Nat.lt_of_lt_of_le Nat.zero_lt_two several)
    have ⟨count, numbers⟩ := (encodeFragmentLoop_fragments frameType channelId flags _ 0 codec _
      present (Nat.zero_add _)).numbers
    exact ⟨_, _, split, by rw [count, chunks_length],
      by rw [encodeFragmentLoop_txSequence, count], numbers⟩

theorem encodeFragment_impossible (codec : FrameCodec) (frameType : FrameType)
    (channelId : UInt32) (payload : Bytes) (flags : FrameFlags)
    (impossible : fragmentCount codec.maxPayloadSize payload.length = 0) :
    codec.encodeFragment crc32fast frameType channelId payload flags = (.error .panic, codec) := by
  rw [fragmentCount] at impossible
  have short : ¬ payload.length ≤ codec.maxPayloadSize := by
    intro short
    rw [if_pos short] at impossible
    contradiction
  rw [if_neg short] at impossible
  have zero : codec.maxPayloadSize = 0 := by
    by_contra nonzero
    exact Nat.ne_of_gt (Nat.div_pos (by omega) (Nat.pos_of_ne_zero nonzero)) impossible
  rw [FrameCodec.encodeFragment, if_neg short, if_pos zero]

theorem sent_as_numbered_iff (codec : FrameCodec) (frameType : FrameType) (channelId : UInt32)
    (payload : Bytes) (flags : FrameFlags) :
    SentAsNumbered crc32fast codec frameType channelId payload flags ↔
      0 < fragmentCount codec.maxPayloadSize payload.length ∧
        2 ^ 64 ∣ fragmentCount codec.maxPayloadSize payload.length := by
  by_cases possible : 0 < fragmentCount codec.maxPayloadSize payload.length
  next =>
    have ⟨frames, next, encoded, count, later, numbers⟩ :=
      encodeFragment_numbers crc32fast codec frameType channelId payload flags possible
    have complete : ∀ frame ∈ frames, ∃ flags channelId, frame.header.flags = some flags ∧
        frame.header.channelId = some channelId := by
      intro frame member
      have ⟨index, known⟩ := List.getElem?_of_mem member
      exact (numbers index frame known).complete
    have written := encodeEach_numbers crc32fast next frames complete
    rw [and_iff_right possible, ← ofNat_eq_zero_iff, ← count]
    constructor
    next =>
      intro ⟨sent, after, same, agrees⟩
      rw [encoded] at same
      cases same
      have first : 0 < frames.length := count ▸ possible
      have known := List.getElem?_eq_getElem first
      have ⟨bytes, out, number⟩ := agrees 0 _ known
      have ⟨others, out', number'⟩ := written 0 first
      rw [out] at out'
      cases out'
      have own := (numbers 0 _ known).sequence
      rw [number, number', later] at own
      simpa using own
    next =>
      intro wrapped
      have agrees (index : Nat) (frame : Frame) (known : frames[index]? = some frame) :
          ∃ bytes, (next.encodeEach crc32fast frames)[index]? = some (.ok bytes) ∧
            frame.header.sequence = some ⟨wireSequence bytes⟩ := by
        have ⟨inside, _⟩ := List.getElem?_eq_some_iff.mp known
        have ⟨bytes, out, number⟩ := written index inside
        rw [later, wrapped, UInt64.add_zero] at number
        exact ⟨bytes, out, by rw [number, (numbers index frame known).sequence]⟩
      exact ⟨frames, next, encoded, agrees⟩
  next =>
    have panics := encodeFragment_impossible crc32fast codec frameType channelId payload flags
      (Nat.eq_zero_of_not_pos possible)
    have nothing : ¬ SentAsNumbered crc32fast codec frameType channelId payload flags := by
      intro ⟨frames, next, encoded, _⟩
      rw [panics] at encoded
      simp at encoded
    exact iff_of_false nothing fun both => possible both.1

theorem frame_numbers_iff (calls : List EncodeCall) (codec : FrameCodec) (frameType : FrameType)
    (channelId : UInt32) (payload : Bytes) (flags : FrameFlags) :
    (Numbered crc32fast encodeKeepAlive calls ↔ calls = []) ∧
      (SentAsNumbered crc32fast codec frameType channelId payload flags ↔
        0 < fragmentCount codec.maxPayloadSize payload.length ∧
          2 ^ 64 ∣ fragmentCount codec.maxPayloadSize payload.length) :=
  ⟨numbered_iff crc32fast encodeKeepAlive calls,
    sent_as_numbered_iff crc32fast codec frameType channelId payload flags⟩

end

theorem first_frame_misnumbered :
    ¬ Numbered Crc.ieee (fun _ => []) [.sessionOpenRequest ⟨[]⟩] ∧
      ¬ SentAsNumbered Crc.ieee (FrameCodec.new 1) .data 1 [7, 8] {} := by
  constructor
  next =>
    intro numbered
    exact absurd ((numbered_iff _ _ _).mp numbered) (List.cons_ne_nil _ _)
  next =>
    intro sent
    exact absurd ((sent_as_numbered_iff _ _ _ _ _ _).mp sent).2 (by decide)

end BitDrive
