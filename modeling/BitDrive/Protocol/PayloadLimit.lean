import BitDrive.Protocol.Receive

set_option autoImplicit false

namespace BitDrive

open ByteLayout

variable (crc32fast : Bytes → UInt32)

structure Oversized (limit : Nat) (codec : FrameCodec) (buf : Bytes) : Prop where
  long : 30 + limit + 16 ≤ buf.length
  magic : u32At buf 0 = magicNumber
  known : (FrameType.tryFrom (asI32 (byteAt buf 8))).isSome
  declared : limit < (u32At buf 22).toNat
  accepted : buf.length < 30 + (u32At buf 22).toNat + 16 ∨
    crc32fast (buf.take 26) = u32At buf 26 ∧ codec.rxSequence ≤ u64At buf 14

def Waits (codec : FrameCodec) (buf : Bytes) : Prop :=
  codec.decode crc32fast buf = (.ok none, codec, buf)

def Cuts (codec : FrameCodec) (buf : Bytes) (frame : Frame) : Prop :=
  ∃ next rest, codec.decode crc32fast buf = (.ok (some frame), next, rest)

theorem scanHead_incomplete_iff (buf : Bytes) :
    scanHead crc32fast buf = .incomplete ↔ buf.length < 46 ∨
      u32At buf 0 = magicNumber ∧ (FrameType.tryFrom (asI32 (byteAt buf 8))).isSome ∧
        buf.length < 30 + (u32At buf 22).toNat + 16 := by
  by_cases short : buf.length < 46
  case pos => simp [scanHead_short, short]
  by_cases magic : u32At buf 0 = magicNumber
  case neg => simp [scanHead, FrameCodec.minFrameSize, short, magic, checkedLayout_get]
  cases known : FrameType.tryFrom (asI32 (byteAt buf 8)) with
  | none => simp [scanHead, FrameCodec.minFrameSize, short, magic, known, checkedLayout_get]
  | some type =>
    by_cases enough : buf.length < 30 + (u32At buf 22).toNat + 16
    case pos =>
      simp [scanHead, FrameCodec.minFrameSize, short, magic, known, enough, checkedLayout_get]
    simp only [scanHead, FrameCodec.minFrameSize, short, magic, known, enough, checkedLayout_get,
      ne_eq, not_true_eq_false, if_false, dite_false, false_or, and_false, iff_false]
    split <;> simp

theorem scanHead_complete (buf : Bytes) (magic : u32At buf 0 = magicNumber)
    (known : (FrameType.tryFrom (asI32 (byteAt buf 8))).isSome)
    (enough : 30 + (u32At buf 22).toNat + 16 ≤ buf.length)
    (crc : crc32fast (buf.take 26) = u32At buf 26) :
    ∃ wire rest, scanHead crc32fast buf = .frame wire rest := by
  have ⟨type, typed⟩ := Option.isSome_iff_exists.mp known
  have long : ¬ buf.length < 30 + 16 := by omega
  simp [scanHead, FrameCodec.minFrameSize, checkedLayout_get, long, magic, typed,
    Nat.not_lt.mpr enough, crc]

structure Fields (buf : Bytes) (wire : WireFrame) : Prop where
  magic : u32At buf 0 = magicNumber
  known : (FrameType.tryFrom (asI32 (byteAt buf 8))).isSome
  sequence : u64At buf 14 = wire.sequence
  payloadLength : (u32At buf 22).toNat = wire.payload.length
  crc : crc32fast (buf.take 26) = u32At buf 26
  long : 30 + wire.payload.length + 16 ≤ buf.length

theorem scanHead_fields (buf : Bytes) (wire : WireFrame) (rest : Bytes)
    (found : scanHead crc32fast buf = .frame wire rest) : Fields crc32fast buf wire := by
  have whole := scanHead_frame crc32fast buf wire rest found
  have header := scanHead_header crc32fast buf wire rest found
  rw [checkedLayout_get] at header
  have ⟨magic, _, type, _, _, sequence, length⟩ := RawHeader.mk.inj header
  refine ⟨magic, ?_, sequence, ?_, ?_, ?_⟩
  next => rw [type, asI32_asU8_toI32, FrameType.tryFrom_toI32]; rfl
  next => simp only [length, wire.payloadLength_toNat]
  next =>
    have start := wire.head_checked crc32fast (wire.payload ++ wire.authTag ++ rest)
    have split : buf = wire.head crc32fast ++ (wire.payload ++ wire.authTag ++ rest) := by
      rw [whole]
      simp [WireFrame.bytes]
    rw [scanHead_crc crc32fast buf wire rest found, split, start]
    rfl
  next => rw [whole, List.length_append, wire.bytes_length]; omega

theorem waits_iff (codec : FrameCodec) (buf : Bytes) :
    Waits crc32fast codec buf ↔ scanHead crc32fast buf = .incomplete := by
  simp only [Waits, decode_eq]
  cases scanHead crc32fast buf with
  | incomplete => simp
  | malformed error => simp
  | frame wire rest =>
    simp only [reduceCtorEq, iff_false]
    split <;> simp

theorem cuts_iff (codec : FrameCodec) (buf : Bytes) (frame : Frame) :
    Cuts crc32fast codec buf frame ↔ ∃ wire rest, scanHead crc32fast buf = .frame wire rest ∧
      codec.rxSequence ≤ wire.sequence ∧ frame = wire.frame crc32fast := by
  constructor
  next =>
    intro ⟨next, rest, decoded⟩
    have ⟨wire, found, same, fresh, _⟩ := decode_some crc32fast codec next buf rest frame decoded
    exact ⟨wire, rest, found, fresh, same⟩
  next =>
    intro ⟨wire, rest, found, fresh, same⟩
    refine ⟨{ codec with rxSequence := wire.sequence }, rest, ?_⟩
    simp only [decode_eq, found, same]
    exact if_neg (UInt64.not_lt.mpr fresh)

theorem oversized_iff (limit : Nat) (codec : FrameCodec) (buf : Bytes) :
    Oversized crc32fast limit codec buf ↔
      (Waits crc32fast codec buf ∧ 30 + limit + 16 ≤ buf.length) ∨
        ∃ frame, Cuts crc32fast codec buf frame ∧ limit < frame.payload.length := by
  simp only [waits_iff, cuts_iff, scanHead_incomplete_iff]
  constructor
  next =>
    intro oversized
    by_cases missing : buf.length < 30 + (u32At buf 22).toNat + 16
    next => exact .inl ⟨.inr ⟨oversized.magic, oversized.known, missing⟩, oversized.long⟩
    next =>
      have ⟨crc, fresh⟩ := oversized.accepted.resolve_left missing
      have ⟨wire, rest, found⟩ := scanHead_complete crc32fast buf oversized.magic oversized.known
        (Nat.not_lt.mp missing) crc
      have fields := scanHead_fields crc32fast buf wire rest found
      exact .inr ⟨_, ⟨wire, rest, found, fields.sequence ▸ fresh, rfl⟩,
        fields.payloadLength ▸ oversized.declared⟩
  next =>
    intro broken
    rcases broken with ⟨waits, long⟩ | ⟨frame, ⟨wire, rest, found, fresh, same⟩, large⟩
    next =>
      have ⟨magic, known, waiting⟩ := waits.resolve_left (by omega)
      exact ⟨long, magic, known, by omega, .inl waiting⟩
    next =>
      have fields := scanHead_fields crc32fast buf wire rest found
      rw [same] at large
      have declared : limit < (u32At buf 22).toNat := fields.payloadLength ▸ large
      have long := fields.long
      rw [← fields.payloadLength] at long
      exact ⟨by omega, fields.magic, fields.known, declared, .inr ⟨fields.crc, fields.sequence ▸ fresh⟩⟩

inductive Meets : FrameCodec → Bytes → FrameCodec → Bytes → Prop where
  | here (codec : FrameCodec) (buf : Bytes) : Meets codec buf codec buf
  | after (codec taken next last : FrameCodec) (buf rest left : Bytes) (frame : Frame)
      (value : Option Frame)
      (decoded : codec.decode crc32fast buf = (.ok (some frame), taken, rest))
      (reassembled : taken.reassembleFragment frame = (.ok value, next))
      (later : Meets next rest last left) : Meets codec buf last left

theorem decodeLoop_stops (codec last : FrameCodec) (buf left : Bytes) (frames delivered : List Frame)
    (looped : ProtocolCodec.decodeLoop crc32fast codec buf frames = (.ok delivered, last, left)) :
    Meets crc32fast codec buf last left ∧ Waits crc32fast last left := by
  induction codec, buf, frames using ProtocolCodec.decodeLoop.induct crc32fast with
  | case1 codec buf frames abort next rest decoded =>
    rw [ProtocolCodec.decodeLoop_error _ _ _ _ _ _ _ decoded] at looped
    cases looped
  | case2 codec buf frames next rest decoded =>
    obtain ⟨sameCodec, sameBuf⟩ := decode_none crc32fast codec next buf rest decoded
    rw [ProtocolCodec.decodeLoop_none _ _ _ _ _ _ decoded] at looped
    cases looped
    simp only [sameCodec, sameBuf] at decoded ⊢
    exact ⟨.here _ _, decoded⟩
  | case3 codec buf frames frame middle rest decoded abort next failed =>
    simp only [ProtocolCodec.decodeLoop_some _ _ _ _ _ _ _ decoded, failed] at looped
    cases looped
  | case4 codec buf frames frame middle rest decoded next pending ih =>
    simp only [ProtocolCodec.decodeLoop_some _ _ _ _ _ _ _ decoded, pending] at looped
    have stopped := ih (by simpa using looped)
    exact ⟨.after _ _ _ _ _ _ _ _ _ decoded pending stopped.1, stopped.2⟩
  | case5 codec buf frames frame middle rest decoded value next completed ih =>
    simp only [ProtocolCodec.decodeLoop_some _ _ _ _ _ _ _ decoded, completed] at looped
    have stopped := ih (by simpa using looped)
    exact ⟨.after _ _ _ _ _ _ _ _ _ decoded completed stopped.1, stopped.2⟩

theorem decodeLoop_waits (codec last : FrameCodec) (buf left : Bytes) (frames : List Frame)
    (met : Meets crc32fast codec buf last left) (waits : Waits crc32fast last left) :
    ∃ delivered, ProtocolCodec.decodeLoop crc32fast codec buf frames = (.ok delivered, last, left) := by
  induction met generalizing frames with
  | here codec buf => exact ⟨frames, ProtocolCodec.decodeLoop_none _ _ _ _ _ _ waits⟩
  | after codec taken next last buf rest left frame value decoded reassembled later ih =>
    have ⟨delivered, looped⟩ := ih (frames ++ value.toList) waits
    refine ⟨delivered, ?_⟩
    simp only [ProtocolCodec.decodeLoop_some _ _ _ _ _ _ _ decoded, reassembled]
    exact looped

structure KeepsLimit (limit : Nat) (codec : ProtocolCodec) (data : Bytes) : Prop where
  cut : ∀ front buf frame,
    Meets crc32fast codec.frameCodec (codec.rxBuffer ++ data) front buf →
      Cuts crc32fast front buf frame → frame.payload.length ≤ limit
  buffered : ∀ frames, (codec.decode crc32fast data).1 = .ok frames →
    (codec.decode crc32fast data).2.rxBuffer.length < 30 + limit + 16

theorem keepsLimit_iff (limit : Nat) (codec : ProtocolCodec) (data : Bytes) :
    KeepsLimit crc32fast limit codec data ↔
      ∀ front buf, Meets crc32fast codec.frameCodec (codec.rxBuffer ++ data) front buf →
        ¬ Oversized crc32fast limit front buf := by
  constructor
  next =>
    intro keeps front buf met oversized
    rcases (oversized_iff crc32fast limit front buf).mp oversized with
      ⟨waits, long⟩ | ⟨frame, cut, large⟩
    next =>
      have ⟨delivered, looped⟩ := decodeLoop_waits crc32fast _ _ _ _ [] met waits
      have decoded : codec.decode crc32fast data = (.ok delivered, ⟨front, buf⟩) := by
        simp only [ProtocolCodec.decode, looped]
      have bounded := keeps.buffered delivered (by rw [decoded])
      rw [decoded] at bounded
      exact absurd long (Nat.not_le.mpr bounded)
    next => exact absurd large (Nat.not_lt.mpr (keeps.cut front buf frame met cut))
  next =>
    intro small
    constructor
    next =>
      intro front buf frame met cut
      apply Nat.not_lt.mp
      intro large
      exact small front buf met ((oversized_iff _ _ _ _).mpr (.inr ⟨frame, cut, large⟩))
    next =>
      intro frames decoded
      apply Nat.not_le.mp
      intro long
      have looped : ProtocolCodec.decodeLoop crc32fast codec.frameCodec (codec.rxBuffer ++ data) [] =
          (.ok frames, (codec.decode crc32fast data).2.frameCodec,
            (codec.decode crc32fast data).2.rxBuffer) := by
        rw [← decoded]
        rfl
      have stopped := decodeLoop_stops crc32fast _ _ _ _ _ _ looped
      exact small _ _ stopped.1 ((oversized_iff _ _ _ _).mpr (.inl ⟨stopped.2, long⟩))

theorem encode_ok_iff (codec : FrameCodec) (frame : Frame) :
    (∃ bytes, (codec.encode crc32fast frame).1 = .ok bytes) ↔
      frame.header.flags ≠ none ∧ frame.header.channelId ≠ none := by
  constructor
  next =>
    intro ⟨bytes, encoded⟩
    have ⟨flags, channelId, flagged, channelled⟩ :=
      encode_present crc32fast codec frame bytes encoded
    simp [flagged, channelled]
  next =>
    intro ⟨flagsPresent, channelPresent⟩
    have ⟨flags, flagged⟩ := Option.ne_none_iff_exists'.mp flagsPresent
    have ⟨channelId, channelled⟩ := Option.ne_none_iff_exists'.mp channelPresent
    rw [encode_eq crc32fast codec frame flags channelId flagged channelled]
    exact ⟨_, rfl⟩

theorem payload_limit_iff :
    (∀ (codec : FrameCodec) (frame : Frame),
      ((∃ bytes, (codec.encode crc32fast frame).1 = .ok bytes) →
          frame.payload.length ≤ codec.maxPayloadSize) ↔
        frame.payload.length ≤ codec.maxPayloadSize ∨ frame.header.flags = none ∨
          frame.header.channelId = none) ∧
    ∀ (codec : ProtocolCodec) (chunks : List Bytes),
      (∀ before data after, chunks = before ++ data :: after →
        KeepsLimit crc32fast codec.frameCodec.maxPayloadSize (codec.fed crc32fast before) data) ↔
      ∀ before data after, chunks = before ++ data :: after → ∀ front buf,
        Meets crc32fast (codec.fed crc32fast before).frameCodec
          ((codec.fed crc32fast before).rxBuffer ++ data) front buf →
        ¬ Oversized crc32fast codec.frameCodec.maxPayloadSize front buf := by
  constructor
  next =>
    intro codec frame
    rw [encode_ok_iff]
    constructor
    next =>
      intro bounded
      by_cases flags : frame.header.flags = none
      next => exact .inr (.inl flags)
      by_cases channelId : frame.header.channelId = none
      next => exact .inr (.inr channelId)
      next => exact .inl (bounded ⟨flags, channelId⟩)
    next =>
      intro harmless encodes
      exact harmless.resolve_right fun missing => missing.elim encodes.1 encodes.2
  next =>
    intro codec chunks
    have each (before : List Bytes) (data : Bytes) := keepsLimit_iff crc32fast
      codec.frameCodec.maxPayloadSize (codec.fed crc32fast before) data
    constructor
    next =>
      intro keeps before data after split
      exact (each before data).mp (keeps before data after split)
    next =>
      intro small before data after split
      exact (each before data).mpr (small before data after split)

def greedyHeader : Bytes :=
  Layout.u32.put magicNumber ++ Layout.u32.put protocolVersion ++ [0, 0] ++ Layout.u32.put 1 ++
    Layout.u64.put 0 ++ Layout.u32.put 0xFFFFFFFF ++ Layout.u32.put 0

theorem payload_limit_not_kept :
    (∃ bytes, ((FrameCodec.new 1).encode Crc.ieee (testWire.frame Crc.ieee)).1 = .ok bytes) ∧
      (FrameCodec.new 1).maxPayloadSize < (testWire.frame Crc.ieee).payload.length ∧
      ¬ KeepsLimit Crc.ieee ProtocolCodec.new.frameCodec.maxPayloadSize ProtocolCodec.new
        (greedyHeader ++ List.replicate 16400 0) := by
  refine ⟨(encode_ok_iff _ _ _).mpr ⟨Option.some_ne_none _, Option.some_ne_none _⟩, by decide, ?_⟩
  rw [keepsLimit_iff]
  intro small
  have size : (ProtocolCodec.new.rxBuffer ++ (greedyHeader ++ List.replicate 16400 0)).length =
      16430 := by
    simp only [List.length_append, List.length_append, List.length_replicate]
    rfl
  have declared : (u32At (ProtocolCodec.new.rxBuffer ++ (greedyHeader ++ List.replicate 16400 0))
      22).toNat = 4294967295 := by decide +kernel
  refine small _ _ (.here _ _) ⟨?_, by decide +kernel, by decide +kernel, ?_, .inl ?_⟩
  next => rw [size]; decide
  next => rw [declared]; decide
  next => rw [size, declared]; decide

end BitDrive
