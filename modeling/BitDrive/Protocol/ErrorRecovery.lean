import BitDrive.Protocol.Receive

set_option autoImplicit false

namespace BitDrive

open ByteLayout

section

variable (crc32fast : Bytes → UInt32)

def InOrder : UInt64 → List WireFrame → Prop
  | _, [] => True
  | number, wire :: wires => number ≤ wire.sequence ∧ InOrder wire.sequence wires

def streamBytes : List WireFrame → Bytes
  | [] => []
  | wire :: wires => wire.bytes crc32fast ++ streamBytes wires

def Framed (bytes : Bytes) : Prop :=
  bytes.length = 30 + (u32At bytes 22).toNat + 16

structure ProtocolCodec.GoesOn (number : UInt64) (received : Bytes) (error : ProtocolError)
    (next : ProtocolCodec) : Prop where
  shorter : next.rxBuffer.length < received.length
  removed : ∀ taken offending rest, InOrder number taken → Framed offending →
    received = streamBytes crc32fast taken ++ offending ++ rest → next.rxBuffer <:+ rest
  delivers : ∀ taken offending (following : List WireFrame) data chunks, InOrder number taken →
    Framed offending → InOrder next.frameCodec.rxSequence following →
    (∀ wire ∈ following, (unpackFlags wire.flags).isFragment = false) →
    received ++ data ++ chunks.flatten =
      streamBytes crc32fast taken ++ offending ++ streamBytes crc32fast following →
    (next.decodeAll crc32fast (data :: chunks)).1 = .ok (following.map (·.frame crc32fast))
  moves : ∃ count, ((next.fed crc32fast (List.replicate count [])).decode crc32fast []).1 ≠
    .error (.err error)

def ProtocolCodec.Recovers (codec : ProtocolCodec) (data : Bytes) : Prop :=
  ∀ error next, codec.decode crc32fast data = (.error (.err error), next) →
    error.isFatal = false →
    GoesOn crc32fast codec.frameCodec.rxSequence (codec.rxBuffer ++ data) error next

def UnknownFront (buffer : Bytes) : Prop :=
  FrameCodec.minFrameSize ≤ buffer.length ∧ u32At buffer 0 = magicNumber ∧
    FrameType.tryFrom (asI32 (byteAt buffer 8)) = none

def Blocked (number : UInt64) (received : Bytes) : Prop :=
  ∃ wires rest, received = streamBytes crc32fast wires ++ rest ∧ InOrder number wires ∧
    UnknownFront rest

theorem UnknownFront.scanHead {buffer : Bytes} (unknown : UnknownFront buffer) :
    scanHead crc32fast buffer = .malformed (.unknownFrameType (byteAt buffer 8)) := by
  have ⟨long, magic, type⟩ := unknown
  have enough : ¬ buffer.length < FrameCodec.minFrameSize := Nat.not_lt.mpr long
  simp [BitDrive.scanHead, enough, checkedLayout_get, magic, type]

theorem scanHead_nonfatal (buffer : Bytes) (error : ProtocolError)
    (malformed : scanHead crc32fast buffer = .malformed error) (mild : error.isFatal = false) :
    UnknownFront buffer := by
  unfold scanHead at malformed
  split at malformed
  next => contradiction
  next long =>
    simp only [checkedLayout_get, ne_eq, ite_not] at malformed
    split at malformed
    next magic =>
      split at malformed
      next type => exact ⟨Nat.not_lt.mp long, magic, type⟩
      next =>
        split at malformed
        next => contradiction
        next =>
          split at malformed
          next => contradiction
          next =>
            have same := Head.malformed.inj malformed
            subst same
            contradiction
    next =>
      have same := Head.malformed.inj malformed
      subst same
      contradiction

theorem UnknownFront.step {buffer : Bytes} (unknown : UnknownFront buffer) (codec : FrameCodec) :
    (codecDecoder crc32fast).step codec buffer =
      .fail (.err (.unknownFrameType (byteAt buffer 8))) codec buffer := by
  have decoded : codec.decode crc32fast buffer =
      (.error (.err (.unknownFrameType (byteAt buffer 8))), codec, buffer) := by
    simp only [decode_eq, unknown.scanHead crc32fast]
  simp only [codecDecoder, decoded]

theorem step_nonfatal (codec next : FrameCodec) (buffer rest : Bytes) (error : ProtocolError)
    (failed : (codecDecoder crc32fast).step codec buffer = .fail (.err error) next rest)
    (mild : error.isFatal = false) : UnknownFront buffer := by
  have ⟨_, refused⟩ := codecDecoder_refuses crc32fast codec next buffer rest _ failed
  rcases refused with ⟨found, same, scanned, _⟩ | ⟨number, same⟩
  next =>
    have same := Abort.err.inj same
    subst same
    exact scanHead_nonfatal crc32fast buffer error scanned mild
  next =>
    have same := Abort.err.inj same
    subst same
    contradiction

theorem UnknownFront.append {buffer : Bytes} (unknown : UnknownFront buffer) (data : Bytes) :
    UnknownFront (buffer ++ data) ∧ byteAt (buffer ++ data) 8 = byteAt buffer 8 := by
  have ⟨long, magic, type⟩ := unknown
  simp only [FrameCodec.minFrameSize] at long
  have sameMagic : u32At (buffer ++ data) 0 = u32At buffer 0 := by
    apply Layout.u32.get_append
    simp only [Layout.u32, Layout.unsigned]
    omega
  have sameType : byteAt (buffer ++ data) 8 = byteAt buffer 8 := by
    have skip : (buffer ++ data).drop 8 = buffer.drop 8 ++ data :=
      List.drop_append_of_le_length (by omega)
    simp only [byteAt, skip]
    apply Layout.u8.get_append
    simp only [Layout.u8, List.length_drop]
    omega
  constructor
  next =>
    constructor
    next =>
      simp only [FrameCodec.minFrameSize, List.length_append]
      omega
    next => exact ⟨sameMagic.trans magic, by simpa only [sameType] using type⟩
  next => exact sameType

theorem reaches_wires {codec last : FrameCodec} {buffer left : Bytes}
    (reached : (codecDecoder crc32fast).Reaches codec buffer last left) :
    ∃ wires, buffer = streamBytes crc32fast wires ++ left ∧ InOrder codec.rxSequence wires := by
  induction reached with
  | here codec buffer => exact ⟨[], rfl, trivial⟩
  | @item codec next last buffer rest left value taken more ih =>
    have ⟨wire, front, fresh, outcome⟩ :=
      codecDecoder_item crc32fast codec next buffer rest value taken
    have ⟨wires, split, ordered⟩ := ih
    have follow : next.rxSequence = wire.sequence := outcome.rxSequence
    exact ⟨wire :: wires, by simp only [front, split, streamBytes, List.append_assoc], fresh,
      by rwa [follow] at ordered⟩

theorem wires_reach (codec : FrameCodec) (wires : List WireFrame) (rest : Bytes)
    (ordered : InOrder codec.rxSequence wires) :
    ∃ last, (codecDecoder crc32fast).Reaches codec (streamBytes crc32fast wires ++ rest) last
      rest := by
  induction wires generalizing codec with
  | nil => exact ⟨codec, .here codec rest⟩
  | cons wire wires ih =>
    have ⟨fresh, later⟩ := ordered
    have ⟨value, next, reassembled, outcome⟩ :=
      reassemble_wire crc32fast { codec with rxSequence := wire.sequence } wire
    have item := codecDecoder_step crc32fast codec wire (streamBytes crc32fast wires ++ rest) value
      next fresh reassembled
    have ⟨last, reached⟩ := ih next (by rwa [outcome.rxSequence])
    exact ⟨last, .item (by simpa only [streamBytes, List.append_assoc] using item) reached⟩

namespace ProtocolCodec

theorem decode_error (codec next : ProtocolCodec) (data : Bytes) (abort : Abort ProtocolError) :
    codec.decode crc32fast data = (.error abort, next) ↔
      ∃ middle rest, (codecDecoder crc32fast).Reaches codec.frameCodec (codec.rxBuffer ++ data)
          middle rest ∧
        (codecDecoder crc32fast).step middle rest = .fail abort next.frameCodec next.rxBuffer := by
  simp only [decode_drain]
  constructor
  next =>
    intro decoded
    apply Chunked.Decoder.drain_error
    cases known : (codecDecoder crc32fast).drain codec.frameCodec (codec.rxBuffer ++ data) with
    | mk result final =>
      cases result with
      | error found =>
        simp only [known, Except.map, Prod.mk.injEq, Except.error.injEq] at decoded
        have ⟨same, state⟩ := decoded
        subst same state
        rfl
      | ok values => simp [known, Except.map] at decoded
  next =>
    intro ⟨middle, rest, reached, failed⟩
    simp only [reached.drain_fail failed, Except.map]

theorem decode_unknown (codec : ProtocolCodec) (unknown : UnknownFront codec.rxBuffer)
    (data : Bytes) :
    codec.decode crc32fast data =
      (.error (.err (.unknownFrameType (byteAt codec.rxBuffer 8))),
        ⟨codec.frameCodec, codec.rxBuffer ++ data⟩) := by
  have ⟨front, type⟩ := unknown.append data
  have failed := front.step crc32fast codec.frameCodec
  rw [type] at failed
  exact (decode_error crc32fast codec _ data _).mpr ⟨_, _, .here _ _, failed⟩

theorem fed_unknown (codec : ProtocolCodec) (unknown : UnknownFront codec.rxBuffer)
    (chunks : List Bytes) :
    codec.fed crc32fast chunks = ⟨codec.frameCodec, codec.rxBuffer ++ chunks.flatten⟩ := by
  induction chunks generalizing codec with
  | nil => simp [fed]
  | cons data chunks ih =>
    have first := decode_unknown crc32fast codec unknown data
    have rest := ih ⟨codec.frameCodec, codec.rxBuffer ++ data⟩ (unknown.append data).1
    simp only [fed, List.foldl_cons, first] at rest ⊢
    simp only [rest, List.flatten_cons, List.append_assoc]

theorem unknown_for_ever (codec : ProtocolCodec) (unknown : UnknownFront codec.rxBuffer)
    (chunks : List Bytes) (data : Bytes) :
    ((codec.fed crc32fast chunks).decode crc32fast data).1 =
      .error (.err (.unknownFrameType (byteAt codec.rxBuffer 8))) := by
  have ⟨front, type⟩ := unknown.append chunks.flatten
  simp only [fed_unknown crc32fast codec unknown chunks,
    decode_unknown crc32fast ⟨codec.frameCodec, codec.rxBuffer ++ chunks.flatten⟩ front data, type]

theorem blocked_iff (codec : ProtocolCodec) (data : Bytes) :
    Blocked crc32fast codec.frameCodec.rxSequence (codec.rxBuffer ++ data) ↔
      ∃ error next, codec.decode crc32fast data = (.error (.err error), next) ∧
        error.isFatal = false := by
  constructor
  next =>
    intro ⟨wires, rest, split, ordered, unknown⟩
    have ⟨last, reached⟩ := wires_reach crc32fast codec.frameCodec wires rest ordered
    have failed := unknown.step crc32fast last
    rw [← split] at reached
    have decoded := (decode_error crc32fast codec ⟨last, rest⟩ data _).mpr
      ⟨last, rest, reached, failed⟩
    exact ⟨_, ⟨last, rest⟩, decoded, rfl⟩
  next =>
    intro ⟨error, next, decoded, mild⟩
    have ⟨middle, rest, reached, failed⟩ := (decode_error crc32fast codec next data _).mp decoded
    have ⟨wires, split, ordered⟩ := reaches_wires crc32fast reached
    exact ⟨wires, rest, split, ordered, step_nonfatal crc32fast middle _ rest _ error failed mild⟩

theorem nonfatal_unknown (codec next : ProtocolCodec) (data : Bytes) (error : ProtocolError)
    (decoded : codec.decode crc32fast data = (.error (.err error), next))
    (mild : error.isFatal = false) :
    UnknownFront next.rxBuffer ∧ error = .unknownFrameType (byteAt next.rxBuffer 8) := by
  have ⟨middle, rest, reached, failed⟩ := (decode_error crc32fast codec next data _).mp decoded
  have unknown := step_nonfatal crc32fast middle _ rest _ error failed mild
  have found := unknown.step crc32fast middle
  rw [failed] at found
  have ⟨sameError, _, sameRest⟩ := Chunked.Step.fail.inj found
  exact ⟨sameRest ▸ unknown, sameRest ▸ Abort.err.inj sameError⟩

theorem blocked_not_recovers (codec : ProtocolCodec) (data : Bytes)
    (blocked : Blocked crc32fast codec.frameCodec.rxSequence (codec.rxBuffer ++ data)) :
    ¬ codec.Recovers crc32fast data := by
  intro recovers
  have ⟨error, next, decoded, mild⟩ := (blocked_iff crc32fast codec data).mp blocked
  have ⟨count, moved⟩ := (recovers error next decoded mild).moves
  have ⟨unknown, same⟩ := nonfatal_unknown crc32fast codec next data error decoded mild
  have again := unknown_for_ever crc32fast next unknown (List.replicate count []) []
  rw [← same] at again
  exact moved again

theorem recovers_iff (codec : ProtocolCodec) (data : Bytes) :
    codec.Recovers crc32fast data ↔
      ¬ Blocked crc32fast codec.frameCodec.rxSequence (codec.rxBuffer ++ data) := by
  constructor
  next =>
    intro recovers blocked
    exact blocked_not_recovers crc32fast codec data blocked recovers
  next =>
    intro healthy error next decoded mild
    have blocked := (blocked_iff crc32fast codec data).mpr ⟨error, next, decoded, mild⟩
    exact absurd blocked healthy

end ProtocolCodec

end

def unknownTypeBytes : Bytes :=
  Layout.u32.put magicNumber ++ Layout.u32.put protocolVersion ++ [0x07] ++ List.replicate 37 0

theorem unknown_type_blocks :
    ¬ ProtocolCodec.new.Recovers Crc.ieee unknownTypeBytes := by
  have unknown : UnknownFront unknownTypeBytes := by
    constructor <;> decide +kernel
  exact ProtocolCodec.blocked_not_recovers Crc.ieee ProtocolCodec.new unknownTypeBytes
    ⟨[], unknownTypeBytes, rfl, trivial, unknown⟩

end BitDrive
