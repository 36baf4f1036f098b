import BitDrive.Protocol.Receive
import BitDrive.Shared.Resume

set_option autoImplicit false

namespace BitDrive

open ByteLayout Chunked

section

variable (crc32fast : Bytes → UInt32)

theorem scanHead_append (buf more : Bytes) (error : ProtocolError)
    (found : scanHead crc32fast buf = .malformed error) :
    scanHead crc32fast (buf ++ more) = .malformed error := by
  by_cases short : buf.length < 46
  case pos => simp [scanHead_short, short] at found
  have long : ¬ (buf ++ more).length < 46 := by
    rw [List.length_append]
    omega
  have header : checkedLayout.get (buf ++ more) = checkedLayout.get buf := by
    apply checkedLayout.get_append
    change 26 ≤ buf.length
    omega
  have crc : u32At (buf ++ more) 26 = u32At buf 26 := by
    rw [u32At, u32At, List.drop_append_of_le_length (by omega)]
    apply Layout.u32.get_append
    rw [List.length_drop]
    change 4 ≤ buf.length - 26
    omega
  have checked : (buf ++ more).take 26 = buf.take 26 :=
    List.take_append_of_le_length (by omega)
  unfold scanHead at found ⊢
  simp only [FrameCodec.minFrameSize, short, long, if_false, header, crc, checked] at found ⊢
  split
  next magic => simpa [magic] using found
  next magic =>
    rw [if_neg magic] at found
    cases known : FrameType.tryFrom (asI32 (checkedLayout.get buf).type) with
    | none => simpa only [known] using found
    | some type =>
      simp only [known] at found ⊢
      split at found
      next => contradiction
      next enough =>
        have still : ¬ (buf ++ more).length < 30 + (checkedLayout.get buf).payloadLength.toNat + 16 := by
          rw [List.length_append]
          omega
        rw [dif_neg still]
        split at found
        next mismatch => rw [if_pos mismatch, found]
        next => contradiction

theorem codecDecoder_malformed (codec : FrameCodec) (buffer : Bytes) (error : ProtocolError)
    (found : scanHead crc32fast buffer = .malformed error) :
    (codecDecoder crc32fast).step codec buffer = .fail (.err error) codec buffer := by
  have decoded : codec.decode crc32fast buffer = (.error (.err error), codec, buffer) := by
    simp only [decode_eq, found]
  simp only [codecDecoder, decoded]

theorem codecDecoder_replayed (codec : FrameCodec) (wire : WireFrame) (rest : Bytes)
    (old : wire.sequence < codec.rxSequence) :
    (codecDecoder crc32fast).step codec (wire.bytes crc32fast ++ rest) =
      .fail (.err (.replayDetected wire.sequence)) codec rest := by
  have decoded : codec.decode crc32fast (wire.bytes crc32fast ++ rest) =
      (.error (.err (.replayDetected wire.sequence)), codec, rest) := by
    simp only [decode_eq, scanHead_bytes]
    exact if_pos old
  simp only [codecDecoder, decoded]

inductive Front (codec : FrameCodec) :
    Bytes → Step FrameCodec (Abort ProtocolError) (Option Frame) UInt8 → Prop where
  | incomplete (buffer : Bytes) (found : scanHead crc32fast buffer = .incomplete) :
      Front codec buffer .wait
  | malformed (buffer : Bytes) (error : ProtocolError)
      (found : scanHead crc32fast buffer = .malformed error) :
      Front codec buffer (.fail (.err error) codec buffer)
  | replayed (wire : WireFrame) (rest : Bytes) (old : wire.sequence < codec.rxSequence) :
      Front codec (wire.bytes crc32fast ++ rest)
        (.fail (.err (.replayDetected wire.sequence)) codec rest)
  | taken (wire : WireFrame) (rest : Bytes) (value : Option Frame) (next : FrameCodec)
      (fresh : codec.rxSequence ≤ wire.sequence)
      (reassembled : { codec with rxSequence := wire.sequence }.reassembleFragment
        (wire.frame crc32fast) = (.ok value, next)) :
      Front codec (wire.bytes crc32fast ++ rest) (.item value next rest)

theorem codecDecoder_front (codec : FrameCodec) (buffer : Bytes) :
    Front crc32fast codec buffer ((codecDecoder crc32fast).step codec buffer) := by
  cases found : scanHead crc32fast buffer with
  | incomplete =>
    rw [codecDecoder_wait crc32fast codec buffer found]
    exact .incomplete buffer found
  | malformed error =>
    rw [codecDecoder_malformed crc32fast codec buffer error found]
    exact .malformed buffer error found
  | frame wire rest =>
    rw [scanHead_frame crc32fast buffer wire rest found]
    by_cases old : wire.sequence < codec.rxSequence
    next =>
      rw [codecDecoder_replayed crc32fast codec wire rest old]
      exact .replayed wire rest old
    next =>
      have fresh := UInt64.not_lt.mp old
      have ⟨value, next, reassembled, _⟩ :=
        reassemble_wire crc32fast { codec with rxSequence := wire.sequence } wire
      rw [codecDecoder_step crc32fast codec wire rest value next fresh reassembled]
      exact .taken wire rest value next fresh reassembled

theorem codecDecoder_stable : (codecDecoder crc32fast).Stable where
  item := by
    intro codec buffer value next rest item more
    have front := codecDecoder_front crc32fast codec buffer
    rw [item] at front
    cases front with
    | taken wire _ _ _ fresh reassembled =>
      rw [List.append_assoc]
      exact codecDecoder_step crc32fast codec wire _ value next fresh reassembled
  fail := by
    intro codec buffer error next rest failed more
    have front := codecDecoder_front crc32fast codec buffer
    rw [failed] at front
    cases front with
    | malformed _ error found =>
      exact codecDecoder_malformed crc32fast codec _ error
        (scanHead_append crc32fast buffer more error found)
    | replayed wire _ old =>
      rw [List.append_assoc]
      exact codecDecoder_replayed crc32fast codec wire _ old
  item_exact := by
    intro codec buffer value next rest item
    have front := codecDecoder_front crc32fast codec buffer
    rw [item] at front
    cases front with
    | taken wire _ _ _ fresh reassembled =>
      refine ⟨wire.bytes crc32fast, rfl, ?_⟩
      have whole := codecDecoder_step crc32fast codec wire [] value next fresh reassembled
      rwa [List.append_nil] at whole
  fail_exact := by
    intro codec buffer error next rest failed
    have front := codecDecoder_front crc32fast codec buffer
    rw [failed] at front
    cases front with
    | malformed _ error found => exact .inr ⟨rfl, rfl⟩
    | replayed wire _ old =>
      refine .inl ⟨wire.bytes crc32fast, ?_, rfl, ?_⟩
      next =>
        apply List.ne_nil_of_length_pos
        rw [wire.bytes_length]
        omega
      next =>
        have whole := codecDecoder_replayed crc32fast codec wire [] old
        rwa [List.append_nil] at whole

namespace ProtocolCodec

def delivered (codec : ProtocolCodec) : List Bytes → List Frame
  | [] => []
  | data :: chunks =>
    let decoded := codec.decode crc32fast data
    (match decoded.1 with
      | .ok frames => frames
      | .error _ => []) ++ delivered decoded.2 chunks

def events (codec : ProtocolCodec) (stream : Bytes) : List (Event (Option Frame)) :=
  (codecDecoder crc32fast).events codec.frameCodec (codec.rxBuffer ++ stream)

theorem delivered_eq (codec : ProtocolCodec) (chunks : List Bytes) :
    codec.delivered crc32fast chunks =
      (codecDecoder crc32fast).delivered Option.toList codec.frameCodec codec.rxBuffer chunks := by
  induction chunks generalizing codec with
  | nil => rfl
  | cons data chunks ih =>
    simp only [delivered, Decoder.delivered, decode_drain, ih]
    cases (codecDecoder crc32fast).drain codec.frameCodec (codec.rxBuffer ++ data) with
    | mk outcome last =>
      cases outcome with
      | error abort => rfl
      | ok values =>
        simp only [Except.map, List.reduceOption, List.filterMap_eq_flatMap_toList]
        rfl

theorem chunking_irrelevant_iff (codec : ProtocolCodec) (stream : Bytes) :
    (∀ cuts cuts' : List Bytes, cuts.flatten = stream → cuts'.flatten = stream →
        codec.delivered crc32fast cuts = codec.delivered crc32fast cuts') ↔
      (stream ≠ [] ∧ .failure ∉ codec.events crc32fast stream) ∨
        ∀ before frame after,
          codec.events crc32fast stream = before ++ .item (some frame) :: after →
          .failure ∈ (codec.events crc32fast []).drop before.length := by
  have agree := (codecDecoder crc32fast).delivered_agree_iff Option.toList
    (codecDecoder_stable crc32fast) codec.frameCodec codec.rxBuffer stream
  simp only [delivered_eq, events, List.append_nil, agree]
  apply or_congr_right
  constructor
  next =>
    intro nothing before frame after shown
    exact nothing before (some frame) after shown (List.cons_ne_nil _ _)
  next =>
    intro nothing before value after shown seen
    cases value with
    | none => exact absurd rfl seen
    | some frame => exact nothing before frame after shown

end ProtocolCodec

end

-- A frame and 46 bytes that are none: in two calls the frame is delivered, in one it is lost.
theorem frame_lost_before_error :
    ProtocolCodec.new.delivered Crc.ieee [testWire.bytes Crc.ieee ++ List.replicate 46 0] = [] ∧
      ProtocolCodec.new.delivered Crc.ieee [testWire.bytes Crc.ieee, List.replicate 46 0] =
        [testWire.frame Crc.ieee] := by
  have emptied : ProtocolCodec.new.rxBuffer = [] := rfl
  have taken (rest : Bytes) := codecDecoder_step Crc.ieee ProtocolCodec.new.frameCodec testWire
    rest (some (testWire.frame Crc.ieee)) ProtocolCodec.new.frameCodec (by decide) rfl
  have refused := codecDecoder_malformed Crc.ieee ProtocolCodec.new.frameCodec (List.replicate 46 0)
    (.invalidMagic magicNumber 0) rfl
  have one := (codecDecoder Crc.ieee).drain_item _ _ _ _ _ (taken (List.replicate 46 0))
  have first := (codecDecoder Crc.ieee).drain_item _ _ _ _ _ (taken [])
  have bad := (codecDecoder Crc.ieee).drain_fail _ _ _ _ _ refused
  rw [bad] at one
  simp only [List.append_nil, (codecDecoder Crc.ieee).drain_wait _ _ ((codecDecoder Crc.ieee).empty _)]
    at first
  constructor
  next =>
    simp only [ProtocolCodec.delivered, ProtocolCodec.decode_drain, emptied, List.nil_append,
      one]
    rfl
  next =>
    simp only [ProtocolCodec.delivered, ProtocolCodec.decode_drain, emptied, List.nil_append,
      first, bad]
    rfl

end BitDrive
