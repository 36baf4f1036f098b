import BitDrive.Protocol.Codec
import BitDrive.Shared.Chunked
import Mathlib.Data.List.ReduceOption

set_option autoImplicit false

namespace BitDrive

open ByteLayout

section

variable (crc32fast : Bytes → UInt32)

def FrameFragment.first (wire : WireFrame) : FrameFragment where
  header := (wire.frame crc32fast).header
  payload := wire.payload
  fragmentIndex := 0
  totalFragments := 0
  hasChannel := rfl

def FrameFragment.extend (entry : FrameFragment) (wire : WireFrame) : FrameFragment :=
  { entry with payload := entry.payload ++ wire.payload }

def FrameFragment.complete (entry : FrameFragment) (wire : WireFrame) : Frame where
  header := { entry.header with
    payloadLength := UInt32.ofNat (entry.payload ++ wire.payload).length
    flags := some {} }
  payload := entry.payload ++ wire.payload
  authTag := wire.authTag

@[simp] theorem FrameFragment.first_channel (wire : WireFrame) :
    (FrameFragment.first crc32fast wire).channel = wire.channelId := rfl

@[simp] theorem FrameFragment.extend_channel (entry : FrameFragment) (wire : WireFrame) :
    (entry.extend wire).channel = entry.channel := rfl

inductive Reassembles (codec : FrameCodec) (wire : WireFrame) :
    Option Frame → FrameCodec → Prop where
  | whole (single : (unpackFlags wire.flags).isFragment = false) :
      Reassembles codec wire (some (wire.frame crc32fast)) codec
  | first (fragment : (unpackFlags wire.flags).isFragment = true)
      (absent : ∀ entry ∈ codec.rxFragments, entry.channel ≠ wire.channelId) :
      Reassembles codec wire none
        { codec with rxFragments := codec.rxFragments ++ [FrameFragment.first crc32fast wire] }
  | more (fragment : (unpackFlags wire.flags).isFragment = true)
      (unfinished : (unpackFlags wire.flags).isLastFragment = false)
      (index : Fin codec.rxFragments.length)
      (found : (codec.rxFragments.get index).channel = wire.channelId) :
      Reassembles codec wire none
        { codec with
          rxFragments := codec.rxFragments.set index ((codec.rxFragments.get index).extend wire) }
  | last (fragment : (unpackFlags wire.flags).isFragment = true)
      (closed : (unpackFlags wire.flags).isLastFragment = true)
      (index : Fin codec.rxFragments.length)
      (found : (codec.rxFragments.get index).channel = wire.channelId) :
      Reassembles codec wire (some ((codec.rxFragments.get index).complete wire))
        { codec with rxFragments := codec.rxFragments.eraseIdx index }

theorem Reassembles.rxSequence {codec next : FrameCodec} {wire : WireFrame} {value : Option Frame}
    (outcome : Reassembles crc32fast codec wire value next) :
    next.rxSequence = codec.rxSequence := by
  cases outcome <;> rfl

theorem reassemble_wire (codec : FrameCodec) (wire : WireFrame) :
    ∃ value next, codec.reassembleFragment (wire.frame crc32fast) = (.ok value, next) ∧
      Reassembles crc32fast codec wire value next := by
  cases fragment : (unpackFlags wire.flags).isFragment with
  | false =>
    refine ⟨_, _, ?_, .whole fragment⟩
    simp [FrameCodec.reassembleFragment, WireFrame.frame, fragment]
  | true =>
    cases known : codec.rxFragments.findFinIdx? (fun entry => entry.channel = wire.channelId) with
    | none =>
      have absent : ∀ entry ∈ codec.rxFragments, entry.channel ≠ wire.channelId := by
        simpa using List.findFinIdx?_eq_none_iff.mp known
      refine ⟨_, _, ?_, .first fragment absent⟩
      simp [FrameCodec.reassembleFragment, WireFrame.frame, fragment, known]
      rfl
    | some index =>
      have found : (codec.rxFragments.get index).channel = wire.channelId := by
        simpa using (List.findFinIdx?_eq_some_iff.mp known).1
      cases closed : (unpackFlags wire.flags).isLastFragment with
      | false =>
        refine ⟨_, _, ?_, .more fragment closed index found⟩
        simp [FrameCodec.reassembleFragment, WireFrame.frame, fragment, known, closed]
        rfl
      | true =>
        refine ⟨_, _, ?_, .last fragment closed index found⟩
        simp [FrameCodec.reassembleFragment, WireFrame.frame, fragment, known, closed,
          FrameFragment.complete]

@[irreducible] def codecDecoder : Chunked.Decoder FrameCodec (Abort ProtocolError) (Option Frame) UInt8 where
  step codec buffer :=
    match codec.decode crc32fast buffer with
    | (.error abort, next, rest) => .fail abort next rest
    | (.ok none, _, _) => .wait
    | (.ok (some frame), middle, rest) =>
      match middle.reassembleFragment frame with
      | (.error abort, next) => .fail abort next rest
      | (.ok value, next) => .item value next rest
  empty _ := rfl
  progress codec buffer value next rest item := by
    split at item
    · contradiction
    · contradiction
    · rename_i frame middle tail decoded
      obtain ⟨wire, found, _⟩ := decode_some crc32fast _ _ _ _ _ decoded
      split at item
      · contradiction
      · obtain ⟨_, _, rfl⟩ := Chunked.Step.item.inj item
        exact scanHead_rest_length crc32fast _ _ _ found

theorem codecDecoder_step (codec : FrameCodec) (wire : WireFrame) (rest : Bytes)
    (value : Option Frame) (next : FrameCodec) (fresh : codec.rxSequence ≤ wire.sequence)
    (reassembled : { codec with rxSequence := wire.sequence }.reassembleFragment
      (wire.frame crc32fast) = (.ok value, next)) :
    (codecDecoder crc32fast).step codec (wire.bytes crc32fast ++ rest) =
      .item value next rest := by
  simp only [codecDecoder, decode_bytes crc32fast codec wire rest fresh, reassembled]

theorem codecDecoder_item (codec next : FrameCodec) (buffer rest : Bytes) (value : Option Frame)
    (item : (codecDecoder crc32fast).step codec buffer = .item value next rest) :
    ∃ wire : WireFrame, buffer = wire.bytes crc32fast ++ rest ∧ codec.rxSequence ≤ wire.sequence ∧
      Reassembles crc32fast { codec with rxSequence := wire.sequence } wire value next := by
  simp only [codecDecoder] at item
  split at item
  · contradiction
  · contradiction
  · rename_i frame middle tail decoded
    obtain ⟨wire, found, rfl, fresh, rfl⟩ := decode_some crc32fast _ _ _ _ _ decoded
    obtain ⟨produced, after, reassembled, outcome⟩ :=
      reassemble_wire crc32fast { codec with rxSequence := wire.sequence } wire
    rw [reassembled] at item
    obtain ⟨rfl, rfl, rfl⟩ := Chunked.Step.item.inj item
    exact ⟨wire, scanHead_frame crc32fast buffer wire _ found, fresh, outcome⟩

-- Malformed bytes stay in the buffer; a frame whose number is refused does not.
theorem codecDecoder_refuses (codec next : FrameCodec) (buffer rest : Bytes)
    (abort : Abort ProtocolError)
    (failed : (codecDecoder crc32fast).step codec buffer = .fail abort next rest) :
    next = codec ∧
      ((∃ error, abort = .err error ∧ scanHead crc32fast buffer = .malformed error ∧
          rest = buffer) ∨
        ∃ number, abort = .err (.replayDetected number)) := by
  simp only [codecDecoder] at failed
  split at failed
  · rename_i error middle tail decoded
    obtain ⟨sameError, sameState, sameRest⟩ := Chunked.Step.fail.inj failed
    subst sameError sameState sameRest
    rw [decode_eq] at decoded
    split at decoded
    · simp at decoded
    · rename_i error malformed
      simp only [Prod.mk.injEq, Except.error.injEq] at decoded
      obtain ⟨aborted, unchanged, kept⟩ := decoded
      exact ⟨unchanged.symm, .inl ⟨error, aborted.symm, malformed, kept.symm⟩⟩
    · rename_i wire tail found
      split at decoded
      · simp only [Prod.mk.injEq, Except.error.injEq] at decoded
        obtain ⟨aborted, unchanged, _⟩ := decoded
        exact ⟨unchanged.symm, .inr ⟨wire.sequence, aborted.symm⟩⟩
      · simp at decoded
  · contradiction
  · rename_i frame middle tail decoded
    obtain ⟨wire, _, rfl, _, rfl⟩ := decode_some crc32fast _ _ _ _ _ decoded
    obtain ⟨value, after, reassembled, _⟩ :=
      reassemble_wire crc32fast { codec with rxSequence := wire.sequence } wire
    simp [reassembled] at failed

theorem codecDecoder_fail (codec next : FrameCodec) (buffer rest : Bytes)
    (abort : Abort ProtocolError)
    (failed : (codecDecoder crc32fast).step codec buffer = .fail abort next rest) : next = codec :=
  (codecDecoder_refuses crc32fast codec next buffer rest abort failed).1

theorem codecDecoder_wait (codec : FrameCodec) (buffer : Bytes)
    (incomplete : scanHead crc32fast buffer = .incomplete) :
    (codecDecoder crc32fast).step codec buffer = .wait := by
  have decoded : codec.decode crc32fast buffer = (.ok none, codec, buffer) := by
    rw [decode_eq, incomplete]
  simp only [codecDecoder, decoded]

theorem codecDecoder_token (codec : FrameCodec) (wire : WireFrame) (value : Option Frame)
    (next : FrameCodec) (fresh : codec.rxSequence ≤ wire.sequence)
    (reassembled : { codec with rxSequence := wire.sequence }.reassembleFragment
      (wire.frame crc32fast) = (.ok value, next)) :
    (codecDecoder crc32fast).Token codec (wire.bytes crc32fast) value next := by
  constructor
  · intro rest
    exact codecDecoder_step crc32fast codec wire rest value next fresh reassembled
  · intro part missing split absent
    exact codecDecoder_wait crc32fast codec part
      (scanHead_partial_frame crc32fast wire part missing split absent)

theorem decode_none (codec next : FrameCodec) (buffer rest : Bytes)
    (decoded : codec.decode crc32fast buffer = (.ok none, next, rest)) :
    next = codec ∧ rest = buffer := by
  rw [decode_eq] at decoded
  split at decoded
  · simp only [Prod.mk.injEq, true_and] at decoded
    exact ⟨decoded.1.symm, decoded.2.symm⟩
  · simp at decoded
  · split at decoded <;> simp at decoded

namespace ProtocolCodec

theorem decodeLoop_none (codec next : FrameCodec) (buffer rest : Bytes) (frames : List Frame)
    (decoded : codec.decode crc32fast buffer = (.ok none, next, rest)) :
    decodeLoop crc32fast codec buffer frames = (.ok frames, next, rest) := by
  rw [decodeLoop]
  split <;> simp_all

theorem decodeLoop_error (codec next : FrameCodec) (buffer rest : Bytes) (frames : List Frame)
    (abort : Abort ProtocolError)
    (decoded : codec.decode crc32fast buffer = (.error abort, next, rest)) :
    decodeLoop crc32fast codec buffer frames = (.error abort, next, rest) := by
  rw [decodeLoop]
  split <;> simp_all

theorem decodeLoop_some (codec middle : FrameCodec) (buffer rest : Bytes) (frames : List Frame)
    (frame : Frame) (decoded : codec.decode crc32fast buffer = (.ok (some frame), middle, rest)) :
    decodeLoop crc32fast codec buffer frames =
      match middle.reassembleFragment frame with
      | (.error abort, next) => (.error abort, next, rest)
      | (.ok value, next) => decodeLoop crc32fast next rest (frames ++ value.toList) := by
  rw [decodeLoop]
  split <;> simp_all
  rcases middle.reassembleFragment frame with ⟨_ | _ | value, next⟩ <;> simp

theorem decodeLoop_eq (codec : FrameCodec) (buffer : Bytes) (frames : List Frame) :
    decodeLoop crc32fast codec buffer frames =
      ((((codecDecoder crc32fast).drain codec buffer).1.map (frames ++ ·.reduceOption)),
        ((codecDecoder crc32fast).drain codec buffer).2) := by
  induction codec, buffer, frames using decodeLoop.induct crc32fast with
  | case1 codec buffer frames abort next rest decoded =>
    have step : (codecDecoder crc32fast).step codec buffer = .fail abort next rest := by
      simp only [codecDecoder, decoded]
    rw [Chunked.Decoder.drain_fail _ _ _ _ _ _ step, decodeLoop_error _ _ _ _ _ _ _ decoded]
    rfl
  | case2 codec buffer frames next rest decoded =>
    have step : (codecDecoder crc32fast).step codec buffer = .wait := by
      simp only [codecDecoder, decoded]
    have same := decode_none crc32fast codec next buffer rest decoded
    rw [Chunked.Decoder.drain_wait _ _ _ step, decodeLoop_none _ _ _ _ _ _ decoded, same.1, same.2]
    simp [Except.map]
  | case3 codec buffer frames frame middle rest decoded abort next failed =>
    have step : (codecDecoder crc32fast).step codec buffer = .fail abort next rest := by
      simp only [codecDecoder, decoded, failed]
    rw [Chunked.Decoder.drain_fail _ _ _ _ _ _ step, decodeLoop_some _ _ _ _ _ _ _ decoded, failed]
    rfl
  | case4 codec buffer frames frame middle rest decoded next pending ih =>
    have step : (codecDecoder crc32fast).step codec buffer = .item none next rest := by
      simp only [codecDecoder, decoded, pending]
    rw [Chunked.Decoder.drain_item _ _ _ _ _ _ step, decodeLoop_some _ _ _ _ _ _ _ decoded, pending]
    simp only [Option.toList_none, List.append_nil, ih]
    cases ((codecDecoder crc32fast).drain next rest).1 <;> rfl
  | case5 codec buffer frames frame middle rest decoded value next delivered ih =>
    have step : (codecDecoder crc32fast).step codec buffer = .item (some value) next rest := by
      simp only [codecDecoder, decoded, delivered]
    rw [Chunked.Decoder.drain_item _ _ _ _ _ _ step, decodeLoop_some _ _ _ _ _ _ _ decoded,
      delivered]
    simp only [Option.toList_some, ih]
    cases ((codecDecoder crc32fast).drain next rest).1 <;> simp [Except.map]

def decodeAll (codec : ProtocolCodec) : List Bytes → Outcome ProtocolError (List Frame) × ProtocolCodec
  | [] => (.ok [], codec)
  | data :: chunks =>
    match codec.decode crc32fast data with
    | (.error abort, next) => (.error abort, next)
    | (.ok frames, next) =>
      let more := decodeAll next chunks
      (more.1.map (frames ++ ·), more.2)

def fed (codec : ProtocolCodec) (chunks : List Bytes) : ProtocolCodec :=
  chunks.foldl (fun codec data => (codec.decode crc32fast data).2) codec

theorem decode_drain (codec : ProtocolCodec) (data : Bytes) :
    codec.decode crc32fast data =
      let drained := (codecDecoder crc32fast).drain codec.frameCodec (codec.rxBuffer ++ data)
      (drained.1.map List.reduceOption, ⟨drained.2.1, drained.2.2⟩) := by
  simp [decode, decodeLoop_eq]

theorem decode_wire (codec : ProtocolCodec) (wire : WireFrame) (empty : codec.rxBuffer = [])
    (fresh : codec.frameCodec.rxSequence ≤ wire.sequence) :
    ∃ value next, codec.decode crc32fast (wire.bytes crc32fast) = (.ok value.toList, ⟨next, []⟩) ∧
      Reassembles crc32fast { codec.frameCodec with rxSequence := wire.sequence } wire value next := by
  obtain ⟨value, next, reassembled, outcome⟩ :=
    reassemble_wire crc32fast { codec.frameCodec with rxSequence := wire.sequence } wire
  refine ⟨value, next, ?_, outcome⟩
  have item := codecDecoder_step crc32fast codec.frameCodec wire [] value next fresh reassembled
  rw [List.append_nil] at item
  have settled := (codecDecoder crc32fast).drain_wait next [] ((codecDecoder crc32fast).empty next)
  rw [decode_drain, empty, List.nil_append,
    (codecDecoder crc32fast).drain_item _ next _ [] value item, settled]
  cases value <;> rfl

theorem decodeAll_eq (codec : ProtocolCodec) (chunks : List Bytes) :
    codec.decodeAll crc32fast chunks =
      let fed := (codecDecoder crc32fast).feedAll codec.frameCodec codec.rxBuffer chunks
      (fed.1.map List.reduceOption, ⟨fed.2.1, fed.2.2⟩) := by
  induction chunks generalizing codec with
  | nil => rfl
  | cons data chunks ih =>
    rw [decodeAll, decode_drain, Chunked.Decoder.feedAll]
    rcases (codecDecoder crc32fast).drain codec.frameCodec (codec.rxBuffer ++ data) with
      ⟨_ | values, next, rest⟩
    · rfl
    · simp only [Except.map, ih]
      rcases (codecDecoder crc32fast).feedAll next rest chunks with ⟨_ | more, final⟩
      · rfl
      · simp [List.reduceOption_append]

theorem decodeAll_stream (codec : ProtocolCodec) (last : FrameCodec) (values : List (Option Frame))
    (chunks : List Bytes)
    (stream : (codecDecoder crc32fast).Stream codec.frameCodec (codec.rxBuffer ++ chunks.flatten)
      values last)
    (wait : (codecDecoder crc32fast).step codec.frameCodec codec.rxBuffer = .wait) :
    codec.decodeAll crc32fast chunks = (.ok values.reduceOption, ⟨last, []⟩) := by
  have fed := (codecDecoder crc32fast).feedAll_stream _ last values _ chunks stream wait
  simp [decodeAll_eq, fed, Except.map]

end ProtocolCodec

end

end BitDrive
