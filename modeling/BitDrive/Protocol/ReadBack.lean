import BitDrive.Protocol.HeaderErrors

set_option autoImplicit false

namespace BitDrive

open ByteLayout

structure Frame.ReadAs (frame decoded : Frame) : Prop where
  type : decoded.header.type = frame.header.type
  version : decoded.header.version = frame.header.version
  flags : decoded.header.flags.map packFlags = frame.header.flags.map packFlags
  channelId : decoded.header.channelId.elim 0 (·.value) =
    frame.header.channelId.elim 0 (·.value)
  payload : decoded.payload = frame.payload

structure FrameCodec.ReadsBack (sender : FrameCodec) (frame : Frame) : Prop where
  quiet : (sender.encode Crc.ieee frame).1 ≠ .error .panic
  read : ∀ bytes, (sender.encode Crc.ieee frame).1 = .ok bytes →
    ∀ receiver : FrameCodec, receiver.rxSequence ≤ sender.txSequence →
      ∃ decoded, (receiver.decode Crc.ieee bytes).1 = .ok (some decoded) ∧ frame.ReadAs decoded
  refused : ∀ error, (sender.encode Crc.ieee frame).1 = .error (.err error) →
    (sender.encode Crc.ieee frame).2.txSequence = sender.txSequence

structure FrameHeader.Complete (header : FrameHeader) : Prop where
  flags : header.flags ≠ none
  channelId : header.channelId ≠ none
  type : FrameType.tryFrom header.type ≠ none
  magic : header.magic = magicNumber

theorem checkedLayout_magic (header : RawHeader) :
    ∃ tail, ∀ magic, checkedLayout.put { header with magic := magic } =
      Layout.u32.put magic ++ tail := by
  refine ⟨Layout.u32.put header.version ++ (Layout.u8.put header.type ++
    (Layout.u8.put header.flags ++ (Layout.u32.put header.channelId ++
      (Layout.u64.put header.sequence ++ Layout.u32.put header.payloadLength)))), ?_⟩
  intro magic
  simp only [← List.append_assoc]
  rfl

namespace FrameCodec

variable {sender : FrameCodec} {frame : Frame}

theorem ReadsBack.present (reads : sender.ReadsBack frame) :
    frame.header.flags ≠ none ∧ frame.header.channelId ≠ none := by
  constructor
  next =>
    intro absent
    exact reads.quiet (encode_panics Crc.ieee sender frame (.inl absent))
  next =>
    intro absent
    exact reads.quiet (encode_panics Crc.ieee sender frame (.inr absent))

theorem ReadsBack.decoded (reads : sender.ReadsBack frame) :
    ∃ flags channelId decoded next rest,
      frame.header.flags = some flags ∧ frame.header.channelId = some channelId ∧
      FrameCodec.default.decode Crc.ieee
        (checkedLayout.put (frame.written flags channelId sender.txSequence) ++
          Layout.u32.put (Crc.ieee (checkedLayout.put
            { frame.written flags channelId sender.txSequence with
              magic := frame.header.magic })) ++ (frame.payload ++ frame.authTag)) =
        (.ok (some decoded), next, rest) ∧
      frame.ReadAs decoded := by
  have ⟨flagsPresent, channelPresent⟩ := reads.present
  have ⟨flags, flagged⟩ := Option.ne_none_iff_exists'.mp flagsPresent
  have ⟨channelId, channelled⟩ := Option.ne_none_iff_exists'.mp channelPresent
  have encoded := encode_eq Crc.ieee sender frame flags channelId flagged channelled
  have ⟨decoded, accepted, same⟩ := reads.read _ (congrArg Prod.fst encoded) FrameCodec.default
    UInt64.zero_le
  exact ⟨flags, channelId, decoded, _, _, flagged, channelled, Prod.ext accepted rfl, same⟩

theorem ReadsBack.type (reads : sender.ReadsBack frame) :
    FrameType.tryFrom frame.header.type ≠ none := by
  have ⟨flags, channelId, decoded, next, rest, _, _, accepted, same⟩ := reads.decoded
  have ⟨wire, _, known, _⟩ := decode_some Crc.ieee _ _ _ _ _ accepted
  have type : wire.type.toI32 = frame.header.type := by
    rw [← same.type, known]
    rfl
  rw [← type, FrameType.tryFrom_toI32]
  exact Option.some_ne_none _

theorem ReadsBack.magic (reads : sender.ReadsBack frame) :
    frame.header.magic = magicNumber := by
  obtain ⟨flags, channelId, decoded, next, rest, _, _, accepted, _⟩ := reads.decoded
  have right := decode_checked Crc.ieee _ _ _ _ _ accepted
  have front : (checkedLayout.put (frame.written flags channelId sender.txSequence)).length = 26 :=
    checkedLayout.put_length _
  rw [List.append_assoc, List.take_left' front, u32At, List.drop_left' front, Layout.get_put]
    at right
  obtain ⟨tail, split⟩ := checkedLayout_magic (frame.written flags channelId sender.txSequence)
  have equal : Crc.ieee (Layout.u32.put magicNumber ++ tail) =
      Crc.ieee (Layout.u32.put frame.header.magic ++ tail) := by
    rw [← split, ← split]
    exact right
  have four (value : UInt32) : (Layout.u32.put value).length = 4 := Layout.u32.put_length value
  have same := Crc.checksum_front_inj 0xEDB88320 (by decide) _ _ tail
    ((four magicNumber).trans (four _).symm) (four magicNumber).le equal
  exact (Layout.u32.put_injective _ _ same).symm

theorem ReadsBack.complete (reads : sender.ReadsBack frame) : frame.header.Complete :=
  ⟨reads.present.1, reads.present.2, reads.type, reads.magic⟩

theorem readsBack_of_complete (sender : FrameCodec) (frame : Frame)
    (complete : frame.header.Complete) (payload_lt : frame.payload.length < 2 ^ 32)
    (authTag_length : frame.authTag.length = 16) : sender.ReadsBack frame := by
  have ⟨flags, flagged⟩ := Option.ne_none_iff_exists'.mp complete.flags
  have ⟨channelId, channelled⟩ := Option.ne_none_iff_exists'.mp complete.channelId
  have ⟨type, known⟩ := Option.ne_none_iff_exists'.mp complete.type
  have typed := (FrameType.toI32_of_tryFrom _ type known).symm
  have ⟨wire, carries, number, _⟩ := frame.carries_exists type flags channelId sender.txSequence
    complete.magic typed flagged channelled payload_lt authTag_length
  have encoded := encode_carries Crc.ieee sender frame wire carries number.symm
  constructor
  next =>
    rw [encoded]
    intro panics
    cases panics
  next =>
    intro bytes written receiver fresh
    rw [encoded] at written
    have same := Except.ok.inj written
    subst same
    have decoded := decode_bytes Crc.ieee receiver wire [] (number ▸ fresh)
    rw [List.append_nil] at decoded
    refine ⟨wire.frame Crc.ieee, by rw [decoded], ?_⟩
    constructor
    next => exact carries.type.symm
    next => exact carries.version.symm
    next => rw [carries.flags, ← (wire.frame_carries Crc.ieee).flags]
    next => rw [carries.channelId]; rfl
    next => exact carries.payload.symm
  next =>
    rw [encoded]
    intro error failed
    cases failed

theorem reads_back_iff (sender : FrameCodec) (frame : Frame)
    (payload_lt : frame.payload.length < 2 ^ 32) (authTag_length : frame.authTag.length = 16) :
    sender.ReadsBack frame ↔ frame.header.Complete := by
  constructor
  next => exact ReadsBack.complete
  next =>
    intro complete
    exact readsBack_of_complete sender frame complete payload_lt authTag_length

end FrameCodec

theorem reads_back_iff_testWire :
    FrameCodec.default.ReadsBack (testWire.frame Crc.ieee) ↔
      (testWire.frame Crc.ieee).header.Complete :=
  FrameCodec.reads_back_iff FrameCodec.default (testWire.frame Crc.ieee) (by decide) (by decide)

def withHeader (change : FrameHeader → FrameHeader) : Frame :=
  { testWire.frame Crc.ieee with header := change (testWire.frame Crc.ieee).header }

theorem incomplete_header_not_read_back :
    ¬ FrameCodec.default.ReadsBack (withHeader fun header => { header with channelId := none }) ∧
    ¬ FrameCodec.default.ReadsBack (withHeader fun header => { header with magic := 0 }) ∧
    ¬ FrameCodec.default.ReadsBack (withHeader fun header => { header with type := 276 }) := by
  refine ⟨?_, ?_, ?_⟩
  next =>
    intro reads
    exact reads.complete.channelId rfl
  next =>
    intro reads
    exact absurd reads.complete.magic (by decide)
  next =>
    intro reads
    exact reads.complete.type rfl

end BitDrive
