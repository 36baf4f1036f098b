import BitDrive.Protocol.Frame
import BitDrive.Shared.Crc

set_option autoImplicit false

namespace BitDrive

open ByteLayout

structure RawHeader where
  magic : UInt32
  version : UInt32
  type : UInt8
  flags : UInt8
  channelId : UInt32
  sequence : UInt64
  payloadLength : UInt32

def checkedLayout : Layout RawHeader :=
  ((((((Layout.u32.pair Layout.u32).pair Layout.u8).pair Layout.u8).pair Layout.u32).pair
    Layout.u64).pair Layout.u32).transport
    { toFun := fun ((((((magic, version), type), flags), channelId), sequence), payloadLength) =>
        ⟨magic, version, type, flags, channelId, sequence, payloadLength⟩
      invFun := fun header =>
        ((((((header.magic, header.version), header.type), header.flags), header.channelId),
          header.sequence), header.payloadLength)
      left_inv := fun _ => rfl
      right_inv := fun _ => rfl }

theorem checkedLayout_get (buf : Bytes) :
    checkedLayout.get buf =
      ⟨u32At buf 0, u32At buf 4, byteAt buf 8, byteAt buf 9, u32At buf 10, u64At buf 14,
        u32At buf 22⟩ := rfl

structure WireFrame where
  version : UInt32
  type : FrameType
  flags : UInt8
  channelId : UInt32
  sequence : UInt64
  payload : Bytes
  authTag : Bytes
  payload_lt : payload.length < 2 ^ 32
  authTag_length : authTag.length = 16

namespace WireFrame

variable (crc32fast : Bytes → UInt32)

def rawHeader (wire : WireFrame) : RawHeader where
  magic := magicNumber
  version := wire.version
  type := asU8 wire.type.toI32
  flags := wire.flags
  channelId := wire.channelId
  sequence := wire.sequence
  payloadLength := UInt32.ofNat wire.payload.length

def headerCrc (wire : WireFrame) : UInt32 :=
  crc32fast (checkedLayout.put wire.rawHeader)

def head (wire : WireFrame) : Bytes :=
  checkedLayout.put wire.rawHeader ++ Layout.u32.put (wire.headerCrc crc32fast)

def bytes (wire : WireFrame) : Bytes :=
  wire.head crc32fast ++ wire.payload ++ wire.authTag

def frame (wire : WireFrame) : Frame where
  header :=
    { magic := magicNumber
      version := wire.version
      type := wire.type.toI32
      flags := some (unpackFlags wire.flags)
      channelId := some ⟨wire.channelId⟩
      sequence := some ⟨wire.sequence⟩
      payloadLength := UInt32.ofNat wire.payload.length
      headerCrc := wire.headerCrc crc32fast }
  payload := wire.payload
  authTag := wire.authTag

theorem payloadLength_toNat (wire : WireFrame) :
    (UInt32.ofNat wire.payload.length).toNat = wire.payload.length :=
  UInt32.toNat_ofNat_of_lt' wire.payload_lt

@[simp] theorem head_length (wire : WireFrame) : (wire.head crc32fast).length = 30 := by
  have crc : (Layout.u32.put (wire.headerCrc crc32fast)).length = 4 := Layout.u32.put_length _
  have checked : (checkedLayout.put wire.rawHeader).length = 26 := checkedLayout.put_length _
  rw [head, List.length_append, crc, checked]

@[simp] theorem bytes_length (wire : WireFrame) :
    (wire.bytes crc32fast).length = 30 + wire.payload.length + 16 := by
  simp only [bytes, List.length_append, head_length, wire.authTag_length]

theorem head_header (wire : WireFrame) (tail : Bytes) :
    checkedLayout.get (wire.head crc32fast ++ tail) = wire.rawHeader := by
  rw [head, List.append_assoc, Layout.get_put]

theorem head_checked (wire : WireFrame) (tail : Bytes) :
    (wire.head crc32fast ++ tail).take 26 = checkedLayout.put wire.rawHeader := by
  rw [head, List.append_assoc]
  exact List.take_left' (checkedLayout.put_length wire.rawHeader)

theorem head_crc (wire : WireFrame) (tail : Bytes) :
    u32At (wire.head crc32fast ++ tail) 26 = wire.headerCrc crc32fast := by
  have skip : (wire.head crc32fast ++ tail).drop 26 =
      Layout.u32.put (wire.headerCrc crc32fast) ++ tail := by
    rw [head, List.append_assoc]
    exact List.drop_left' (checkedLayout.put_length wire.rawHeader)
  rw [u32At, skip, Layout.get_put]

theorem bytes_payload (wire : WireFrame) (rest : Bytes) :
    ((wire.bytes crc32fast ++ rest).take (30 + wire.payload.length)).drop 30 = wire.payload := by
  have split : wire.bytes crc32fast ++ rest =
      wire.head crc32fast ++ (wire.payload ++ (wire.authTag ++ rest)) := by simp [bytes]
  rw [split, ← wire.head_length crc32fast, List.take_length_add_append, List.drop_left,
    List.take_left]

theorem bytes_authTag (wire : WireFrame) (rest : Bytes) :
    ((wire.bytes crc32fast ++ rest).take (30 + wire.payload.length + 16)).drop
      (30 + wire.payload.length) = wire.authTag := by
  have before : (wire.head crc32fast ++ wire.payload).length = 30 + wire.payload.length := by
    rw [List.length_append, head_length]
  rw [List.take_left' (wire.bytes_length crc32fast), bytes, ← before, List.drop_left]

end WireFrame

inductive Head where
  | incomplete
  | malformed (error : ProtocolError)
  | frame (wire : WireFrame) (rest : Bytes)

section

variable (crc32fast : Bytes → UInt32)

theorem scanned_payload_lt (buf : Bytes) (header : RawHeader) :
    ((buf.take (30 + header.payloadLength.toNat)).drop 30).length < 2 ^ 32 := by
  have bound := header.payloadLength.toNat_lt
  simp only [List.length_drop, List.length_take]
  omega

theorem scanned_authTag_length (buf : Bytes) (payloadEnd : Nat)
    (enough : ¬ buf.length < payloadEnd + 16) :
    ((buf.take (payloadEnd + 16)).drop payloadEnd).length = 16 := by
  simp only [List.length_drop, List.length_take]
  omega

def scanHead (buf : Bytes) : Head :=
  if buf.length < FrameCodec.minFrameSize then .incomplete
  else
    let header := checkedLayout.get buf
    if header.magic ≠ magicNumber then .malformed (.invalidMagic magicNumber header.magic)
    else
      match FrameType.tryFrom (asI32 header.type) with
      | none => .malformed (.unknownFrameType header.type)
      | some type =>
        let payloadEnd := 30 + header.payloadLength.toNat
        if enough : buf.length < payloadEnd + 16 then .incomplete
        else if crc32fast (buf.take 26) ≠ u32At buf 26 then
          .malformed (.checksumMismatch (u32At buf 26) (crc32fast (buf.take 26)))
        else
          .frame
            { version := header.version
              type := type
              flags := header.flags
              channelId := header.channelId
              sequence := header.sequence
              payload := (buf.take payloadEnd).drop 30
              authTag := (buf.take (payloadEnd + 16)).drop payloadEnd
              payload_lt := scanned_payload_lt buf header
              authTag_length := scanned_authTag_length buf payloadEnd enough }
            (buf.drop (payloadEnd + 16))

theorem take_append_slice (buf : Bytes) (start stop : Nat) (ordered : start ≤ stop) :
    buf.take start ++ (buf.take stop).drop start = buf.take stop := by
  conv_rhs => rw [← List.take_append_drop start (buf.take stop)]
  rw [List.take_take, Nat.min_eq_left ordered]

theorem scanHead_short (buf : Bytes) (short : buf.length < 46) :
    scanHead crc32fast buf = .incomplete := by
  simp [scanHead, FrameCodec.minFrameSize, short]

theorem scanHead_bytes (wire : WireFrame) (rest : Bytes) :
    scanHead crc32fast (wire.bytes crc32fast ++ rest) = .frame wire rest := by
  have total := wire.bytes_length crc32fast
  have split : wire.bytes crc32fast ++ rest =
      wire.head crc32fast ++ (wire.payload ++ wire.authTag ++ rest) := by simp [WireFrame.bytes]
  have header : checkedLayout.get (wire.bytes crc32fast ++ rest) = wire.rawHeader := by
    rw [split, wire.head_header]
  have checked : (wire.bytes crc32fast ++ rest).take 26 = checkedLayout.put wire.rawHeader := by
    rw [split, wire.head_checked]
  have crc : u32At (wire.bytes crc32fast ++ rest) 26 = wire.headerCrc crc32fast := by
    rw [split, wire.head_crc]
  have after : (wire.bytes crc32fast ++ rest).drop (30 + wire.payload.length + 16) = rest :=
    List.drop_left' total
  have long : ¬ (wire.bytes crc32fast ++ rest).length < FrameCodec.minFrameSize := by
    rw [List.length_append, total, FrameCodec.minFrameSize]; omega
  have enough : ¬ (wire.bytes crc32fast ++ rest).length < 30 + wire.payload.length + 16 := by
    rw [List.length_append, total]; omega
  simp only [scanHead, if_neg long, header, WireFrame.rawHeader, ne_eq, not_true_eq_false,
    if_false, asI32_asU8_toI32, FrameType.tryFrom_toI32, wire.payloadLength_toNat,
    dif_neg enough, checked, crc, WireFrame.headerCrc, wire.bytes_payload, wire.bytes_authTag,
    after]

theorem scanHead_partial_frame (wire : WireFrame) (part missing : Bytes)
    (split : part ++ missing = wire.bytes crc32fast) (absent : missing ≠ []) :
    scanHead crc32fast part = .incomplete := by
  have total := wire.bytes_length crc32fast
  have lost := List.length_pos_iff.mpr absent
  rw [← split, List.length_append] at total
  by_cases short : part.length < 46
  · exact scanHead_short crc32fast part short
  · obtain ⟨tail, whole⟩ : ∃ tail, part = wire.head crc32fast ++ tail := by
      have start : wire.head crc32fast <+: part := by
        have front : wire.head crc32fast <+: wire.bytes crc32fast := by simp [WireFrame.bytes]
        have back : part <+: wire.bytes crc32fast := ⟨missing, split⟩
        exact List.prefix_of_prefix_length_le front back (by rw [wire.head_length]; omega)
      exact start.imp fun _ same => same.symm
    have header : checkedLayout.get part = wire.rawHeader := by
      rw [whole, wire.head_header]
    have long : ¬ part.length < FrameCodec.minFrameSize := short
    have enough : part.length < 30 + wire.payload.length + 16 := by omega
    simp only [scanHead, if_neg long, header, WireFrame.rawHeader, ne_eq, not_true_eq_false,
      if_false, asI32_asU8_toI32, FrameType.tryFrom_toI32, wire.payloadLength_toNat,
      dif_pos enough]

theorem scanHead_frame (buf : Bytes) (wire : WireFrame) (rest : Bytes)
    (found : scanHead crc32fast buf = .frame wire rest) :
    buf = wire.bytes crc32fast ++ rest := by
  unfold scanHead at found
  split at found
  next => contradiction
  next long =>
    simp only [ne_eq, ite_not, FrameCodec.minFrameSize] at found long
    split at found
    next magic =>
      split at found
      next => contradiction
      next type known =>
        split at found
        next => contradiction
        next enough =>
          split at found
          next crc =>
            obtain ⟨rfl, rfl⟩ := Head.frame.inj found
            have size : 26 ≤ buf.length := by omega
            have payloadSize : ((buf.take (30 + (checkedLayout.get buf).payloadLength.toNat)).drop
                30).length = (checkedLayout.get buf).payloadLength.toNat := by
              simp only [List.length_drop, List.length_take]
              omega
            have typeByte : asU8 type.toI32 = (checkedLayout.get buf).type := by
              rw [FrameType.toI32_of_tryFrom _ _ known, asU8_asI32]
            have crcBytes : Layout.u32.put (u32At buf 26) = (buf.drop 26).take 4 := by
              apply Layout.u32.put_get
              simp only [Layout.u32, Layout.unsigned, List.length_drop]
              omega
            have checked : checkedLayout.put (checkedLayout.get buf) = buf.take 26 :=
              checkedLayout.put_get buf size
            simp only [WireFrame.bytes, WireFrame.head, WireFrame.headerCrc, WireFrame.rawHeader,
              payloadSize, UInt32.ofNat_toNat, typeByte, ← magic]
            change buf = checkedLayout.put (checkedLayout.get buf) ++
              Layout.u32.put (crc32fast (checkedLayout.put (checkedLayout.get buf))) ++ _ ++ _ ++ _
            rw [checked, crc, crcBytes, ← List.take_add, take_append_slice _ _ _ (by omega),
              take_append_slice _ _ _ (by omega), List.take_append_drop]
          next => contradiction
    next => contradiction

theorem scanHead_header (buf : Bytes) (wire : WireFrame) (rest : Bytes)
    (found : scanHead crc32fast buf = .frame wire rest) :
    checkedLayout.get buf = wire.rawHeader := by
  rw [scanHead_frame crc32fast buf wire rest found, WireFrame.bytes, List.append_assoc,
    List.append_assoc, wire.head_header]

theorem scanHead_crc (buf : Bytes) (wire : WireFrame) (rest : Bytes)
    (found : scanHead crc32fast buf = .frame wire rest) :
    u32At buf 26 = wire.headerCrc crc32fast := by
  rw [scanHead_frame crc32fast buf wire rest found, WireFrame.bytes, List.append_assoc,
    List.append_assoc, wire.head_crc]

theorem scanHead_rest_length (buf : Bytes) (wire : WireFrame) (rest : Bytes)
    (found : scanHead crc32fast buf = .frame wire rest) : rest.length < buf.length := by
  rw [scanHead_frame crc32fast buf wire rest found, List.length_append, wire.bytes_length]
  omega

theorem decode_eq (codec : FrameCodec) (buf : Bytes) :
    codec.decode crc32fast buf =
      match scanHead crc32fast buf with
      | .incomplete => (.ok none, codec, buf)
      | .malformed error => (.error (.err error), codec, buf)
      | .frame wire rest =>
        if wire.sequence < codec.rxSequence then
          (.error (.err (.replayDetected wire.sequence)), codec, rest)
        else
          (.ok (some (wire.frame crc32fast)), { codec with rxSequence := wire.sequence }, rest) := by
  by_cases short : buf.length < FrameCodec.minFrameSize
  case pos => simp [FrameCodec.decode, scanHead, short]
  by_cases magic : u32At buf 0 = magicNumber
  case neg => simp [FrameCodec.decode, scanHead, short, magic, checkedLayout_get]
  cases known : FrameType.tryFrom (asI32 (byteAt buf 8)) with
  | none => simp [FrameCodec.decode, scanHead, short, magic, known, checkedLayout_get]
  | some type =>
    by_cases enough : buf.length < 30 + (u32At buf 22).toNat + 16
    case pos => simp [FrameCodec.decode, scanHead, short, magic, known, enough, checkedLayout_get]
    by_cases crc : crc32fast (buf.take 26) = u32At buf 26
    case neg =>
      simp [FrameCodec.decode, scanHead, short, magic, known, enough, crc, checkedLayout_get,
        calculateHeaderCrcRaw, List.take_take]
    cases found : scanHead crc32fast buf with
    | incomplete => simp [scanHead, short, magic, known, enough, crc, checkedLayout_get] at found
    | malformed error => simp [scanHead, short, magic, known, enough, crc, checkedLayout_get] at found
    | frame wire rest =>
      have header := scanHead_header crc32fast buf wire rest found
      have headerCrc := scanHead_crc crc32fast buf wire rest found
      simp only [scanHead, short, if_false, checkedLayout_get, magic, ne_eq, not_true_eq_false,
        known, enough, dite_false, crc, Head.frame.injEq] at found
      obtain ⟨rfl, rfl⟩ := found
      have length := congrArg RawHeader.payloadLength header
      simp only [checkedLayout_get, WireFrame.rawHeader] at length
      simp only [WireFrame.frame, ← length, ← headerCrc]
      simp [FrameCodec.decode, short, magic, known, enough, crc, calculateHeaderCrcRaw,
        List.take_take]

def Frame.written (frame : Frame) (flags : FrameFlags) (channelId : ChannelId)
    (sequence : UInt64) : RawHeader where
  magic := magicNumber
  version := frame.header.version
  type := asU8 frame.header.type
  flags := packFlags flags
  channelId := channelId.value
  sequence := sequence
  payloadLength := UInt32.ofNat frame.payload.length

-- The checksum does cover the frame's own magic number.
theorem encode_eq (codec : FrameCodec) (frame : Frame) (flags : FrameFlags) (channelId : ChannelId)
    (flagged : frame.header.flags = some flags)
    (channelled : frame.header.channelId = some channelId) :
    codec.encode crc32fast frame =
      (.ok (checkedLayout.put (frame.written flags channelId codec.txSequence) ++
          Layout.u32.put (crc32fast (checkedLayout.put
            { frame.written flags channelId codec.txSequence with magic := frame.header.magic })) ++
          (frame.payload ++ frame.authTag)),
        { codec with txSequence := codec.txSequence + 1 }) := by
  simp only [FrameCodec.encode, calculateHeaderCrc, flagged, channelled, Outcome.unwrap_some]
  rw [← List.append_assoc _ frame.payload]
  rfl

theorem encode_panics (codec : FrameCodec) (frame : Frame)
    (absent : frame.header.flags = none ∨ frame.header.channelId = none) :
    (codec.encode crc32fast frame).1 = .error .panic := by
  cases flagged : frame.header.flags with
  | none => simp [FrameCodec.encode, calculateHeaderCrc, flagged, bind, Except.bind]
  | some flags =>
    cases channelled : frame.header.channelId with
    | none => simp [FrameCodec.encode, calculateHeaderCrc, flagged, channelled, bind, Except.bind]
    | some channelId => simp [flagged, channelled] at absent

theorem encode_present (codec : FrameCodec) (frame : Frame) (bytes : Bytes)
    (encoded : (codec.encode crc32fast frame).1 = .ok bytes) :
    ∃ flags channelId, frame.header.flags = some flags ∧
      frame.header.channelId = some channelId := by
  cases flagged : frame.header.flags with
  | none => cases (encode_panics crc32fast codec frame (.inl flagged)).symm.trans encoded
  | some flags =>
    cases channelled : frame.header.channelId with
    | none => cases (encode_panics crc32fast codec frame (.inr channelled)).symm.trans encoded
    | some channelId => exact ⟨flags, channelId, rfl, rfl⟩

structure Frame.Carries (frame : Frame) (wire : WireFrame) : Prop where
  magic : frame.header.magic = magicNumber
  version : frame.header.version = wire.version
  type : frame.header.type = wire.type.toI32
  flags : frame.header.flags.map packFlags = some wire.flags
  channelId : frame.header.channelId = some ⟨wire.channelId⟩
  payload : frame.payload = wire.payload
  authTag : frame.authTag = wire.authTag

theorem encode_carries (codec : FrameCodec) (frame : Frame) (wire : WireFrame)
    (carries : frame.Carries wire) (number : codec.txSequence = wire.sequence) :
    codec.encode crc32fast frame =
      (.ok (wire.bytes crc32fast), { codec with txSequence := codec.txSequence + 1 }) := by
  obtain ⟨magic, version, type, packed, channelled, payload, authTag⟩ := carries
  obtain ⟨flags, flagged, byte⟩ := Option.map_eq_some_iff.mp packed
  have header : frame.written flags ⟨wire.channelId⟩ codec.txSequence = wire.rawHeader := by
    simp only [Frame.written, WireFrame.rawHeader, version, type, byte, number, payload]
  have hashed : { wire.rawHeader with magic := frame.header.magic } = wire.rawHeader := by
    rw [magic]
    rfl
  rw [encode_eq crc32fast codec frame flags _ flagged channelled, header, hashed, payload, authTag,
    ← List.append_assoc _ wire.payload]
  rfl

theorem Frame.carries_exists (frame : Frame) (type : FrameType) (flags : FrameFlags)
    (channelId : ChannelId) (sequence : UInt64)
    (magic : frame.header.magic = magicNumber) (typed : frame.header.type = type.toI32)
    (flagged : frame.header.flags = some flags) (channelled : frame.header.channelId = some channelId)
    (payload_lt : frame.payload.length < 2 ^ 32) (authTag_length : frame.authTag.length = 16) :
    ∃ wire, frame.Carries wire ∧ wire.sequence = sequence ∧ wire.type = type ∧
      wire.flags = packFlags flags := by
  refine ⟨⟨frame.header.version, type, packFlags flags, channelId.value, sequence,
    frame.payload, frame.authTag, payload_lt, authTag_length⟩, ?_, rfl, rfl, rfl⟩
  exact ⟨magic, rfl, typed, by simp [flagged], by simp [channelled], rfl, rfl⟩

theorem unpackFlags_packFlags (flags : FrameFlags) :
    unpackFlags (packFlags flags) = { flags with retransmission := false } := by
  have bits : ∀ fragment last encrypted authenticated compressed priority ack reset : Bool,
      unpackFlags (packFlags
        ⟨fragment, last, encrypted, authenticated, compressed, priority, ack, reset, false⟩) =
        ⟨fragment, last, encrypted, authenticated, compressed, priority, ack, reset, false⟩ := by
    decide +kernel
  exact bits _ _ _ _ _ _ _ _

theorem packFlags_unpackFlags (byte : UInt8) : packFlags (unpackFlags byte) = byte := by
  have all : ∀ index : Fin 256, packFlags (unpackFlags (UInt8.ofFin index)) = UInt8.ofFin index := by
    decide +kernel
  exact all byte.toFin

theorem WireFrame.frame_carries (wire : WireFrame) : (wire.frame crc32fast).Carries wire where
  magic := rfl
  version := rfl
  type := rfl
  flags := by simp [WireFrame.frame, packFlags_unpackFlags]
  channelId := rfl
  payload := rfl
  authTag := rfl

theorem WireFrame.headerCrc_eq (wire : WireFrame) :
    wire.headerCrc crc32fast = crc32fast ((wire.bytes crc32fast).take 26) := by
  rw [WireFrame.bytes, List.append_assoc, wire.head_checked, WireFrame.headerCrc]

theorem decode_bytes (codec : FrameCodec) (wire : WireFrame) (rest : Bytes)
    (fresh : codec.rxSequence ≤ wire.sequence) :
    codec.decode crc32fast (wire.bytes crc32fast ++ rest) =
      (.ok (some (wire.frame crc32fast)), { codec with rxSequence := wire.sequence }, rest) := by
  rw [decode_eq, scanHead_bytes]
  exact if_neg (UInt64.not_lt.mpr fresh)

theorem decode_some (codec next : FrameCodec) (buf rest : Bytes) (frame : Frame)
    (decoded : codec.decode crc32fast buf = (.ok (some frame), next, rest)) :
    ∃ wire : WireFrame, scanHead crc32fast buf = .frame wire rest ∧
      frame = wire.frame crc32fast ∧ codec.rxSequence ≤ wire.sequence ∧
      next = { codec with rxSequence := wire.sequence } := by
  rw [decode_eq] at decoded
  split at decoded
  · simp at decoded
  · simp at decoded
  · rename_i wire tail found
    split at decoded
    · simp at decoded
    · rename_i fresh
      simp only [Prod.mk.injEq, Except.ok.injEq, Option.some.injEq] at decoded
      obtain ⟨rfl, rfl, rfl⟩ := decoded
      exact ⟨wire, found, rfl, UInt64.not_lt.mp fresh, rfl⟩

theorem decode_encode (sender receiver : FrameCodec) (frame : Frame) (type : FrameType)
    (flags : FrameFlags) (channelId : ChannelId) (rest : Bytes)
    (magic : frame.header.magic = magicNumber) (typed : frame.header.type = type.toI32)
    (flagged : frame.header.flags = some flags) (unused : flags.retransmission = false)
    (channelled : frame.header.channelId = some channelId)
    (payload_lt : frame.payload.length < 2 ^ 32) (authTag_length : frame.authTag.length = 16)
    (fresh : receiver.rxSequence ≤ sender.txSequence) :
    ∃ bytes, (sender.encode crc32fast frame).1 = .ok bytes ∧
      receiver.decode crc32fast (bytes ++ rest) =
        (.ok (some { frame with header := { frame.header with
            sequence := some ⟨sender.txSequence⟩
            payloadLength := UInt32.ofNat frame.payload.length
            headerCrc := crc32fast (bytes.take 26) } }),
          { receiver with rxSequence := sender.txSequence }, rest) := by
  obtain ⟨wire, carries, number, _, packed⟩ := frame.carries_exists type flags channelId
    sender.txSequence magic typed flagged channelled payload_lt authTag_length
  refine ⟨wire.bytes crc32fast, by rw [encode_carries crc32fast sender frame wire carries number.symm], ?_⟩
  rw [decode_bytes crc32fast receiver wire rest (number ▸ fresh), ← wire.headerCrc_eq crc32fast, number]
  have same : unpackFlags wire.flags = flags := by
    rw [packed, unpackFlags_packFlags, ← unused]
  simp [WireFrame.frame, same, number, ← carries.payload, ← carries.authTag, ← carries.version,
    ← carries.type, ← carries.channelId, magic, flagged]

theorem encode_decode (codec next : FrameCodec) (buf rest : Bytes) (frame : Frame)
    (decoded : codec.decode crc32fast buf = (.ok (some frame), next, rest)) :
    ∃ sequence, frame.header.sequence = some sequence ∧
      ∀ sender : FrameCodec, sender.txSequence = sequence.value →
        ∃ bytes, (sender.encode crc32fast frame).1 = .ok bytes ∧ buf = bytes ++ rest := by
  obtain ⟨wire, found, rfl, _, _⟩ := decode_some crc32fast codec next buf rest frame decoded
  refine ⟨⟨wire.sequence⟩, rfl, ?_⟩
  intro sender number
  refine ⟨wire.bytes crc32fast, ?_, scanHead_frame crc32fast buf wire rest found⟩
  rw [encode_carries crc32fast sender _ wire (wire.frame_carries crc32fast) number]

theorem frame_format_bijective :
    (∀ (sender receiver : FrameCodec) (frame : Frame) (type : FrameType) (flags : FrameFlags)
        (channelId : ChannelId) (rest : Bytes),
      frame.header.magic = magicNumber → frame.header.type = type.toI32 →
      frame.header.flags = some flags → flags.retransmission = false →
      frame.header.channelId = some channelId → frame.payload.length < 2 ^ 32 →
      frame.authTag.length = 16 → receiver.rxSequence ≤ sender.txSequence →
      ∃ bytes, (sender.encode crc32fast frame).1 = .ok bytes ∧
        receiver.decode crc32fast (bytes ++ rest) =
          (.ok (some { frame with header := { frame.header with
              sequence := some ⟨sender.txSequence⟩
              payloadLength := UInt32.ofNat frame.payload.length
              headerCrc := crc32fast (bytes.take 26) } }),
            { receiver with rxSequence := sender.txSequence }, rest)) ∧
    (∀ (codec next : FrameCodec) (buf rest : Bytes) (frame : Frame),
      codec.decode crc32fast buf = (.ok (some frame), next, rest) →
      ∃ sequence, frame.header.sequence = some sequence ∧
        ∀ sender : FrameCodec, sender.txSequence = sequence.value →
          ∃ bytes, (sender.encode crc32fast frame).1 = .ok bytes ∧ buf = bytes ++ rest) :=
  ⟨decode_encode crc32fast, encode_decode crc32fast⟩

end

def testWire : WireFrame where
  version := protocolVersion
  type := .data
  flags := packFlags { authenticated := true }
  channelId := 1
  sequence := 0
  payload := [0x74, 0x65, 0x73, 0x74]
  authTag := List.replicate 16 0
  payload_lt := by decide
  authTag_length := by decide

theorem frame_format_bijective_testWire :
    (∃ bytes, (FrameCodec.default.encode Crc.ieee (testWire.frame Crc.ieee)).1 = .ok bytes ∧
      FrameCodec.default.decode Crc.ieee (bytes ++ [0x42]) =
        (.ok (some { testWire.frame Crc.ieee with header :=
          { (testWire.frame Crc.ieee).header with
            sequence := some ⟨0⟩, payloadLength := 4, headerCrc := Crc.ieee (bytes.take 26) } }),
          FrameCodec.default, [0x42])) ∧
    (∃ sequence, (testWire.frame Crc.ieee).header.sequence = some sequence ∧
      ∀ sender : FrameCodec, sender.txSequence = sequence.value →
        ∃ bytes, (sender.encode Crc.ieee (testWire.frame Crc.ieee)).1 = .ok bytes ∧
          testWire.bytes Crc.ieee ++ [0x42] = bytes ++ [0x42]) :=
  ⟨(frame_format_bijective Crc.ieee).1 FrameCodec.default FrameCodec.default
      (testWire.frame Crc.ieee) .data { authenticated := true } ⟨1⟩ [0x42] rfl rfl
      (by decide +kernel) rfl rfl (by decide) (by decide) (by decide),
    (frame_format_bijective Crc.ieee).2 FrameCodec.default _ (testWire.bytes Crc.ieee ++ [0x42])
      [0x42] (testWire.frame Crc.ieee)
      (decode_bytes Crc.ieee FrameCodec.default testWire [0x42] (by decide))⟩

end BitDrive
