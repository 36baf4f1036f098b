import BitDrive.Protocol.Receive
import Mathlib.Algebra.BigOperators.Group.List.Basic

set_option autoImplicit false

namespace BitDrive

open ByteLayout

section

variable (crc32fast : Bytes → UInt32) (encodeKeepAlive : KeepAlive → Bytes)

def ProtocolCodec.encodeAll (codec : ProtocolCodec) :
    List EncodeCall → Outcome ProtocolError (List Bytes) × ProtocolCodec
  | [] => (.ok [], codec)
  | call :: calls =>
    match call.run crc32fast encodeKeepAlive codec with
    | (.error abort, next) => (.error abort, next)
    | (.ok bytes, next) =>
      let more := encodeAll next calls
      (more.1.map (bytes :: ·), more.2)

def ProtocolCodec.sent (codec : ProtocolCodec) : List EncodeCall → List Frame
  | [] => []
  | call :: calls =>
    call.build encodeKeepAlive codec.frameCodec.txSequence ::
      sent (call.run crc32fast encodeKeepAlive codec).2 calls

structure SameMessage (sent delivered : Frame) : Prop where
  type : delivered.header.type = sent.header.type
  channelId : delivered.header.channelId = sent.header.channelId
  payload : delivered.payload = sent.payload

def ControlRoundTrip (sender : ProtocolCodec) (calls : List EncodeCall) (chunks : List Bytes) :
    Prop :=
  ∃ frames receiver, ProtocolCodec.new.decodeAll crc32fast chunks = (.ok frames, receiver) ∧
    List.Forall₂ SameMessage (sender.sent crc32fast encodeKeepAlive calls) frames ∧
    receiver.rxBuffer = []

def frameCost (frame : Frame) : Nat := 46 + frame.payload.length

def valueCost : Option Frame → Nat
  | none => 0
  | some frame => frameCost frame

def FrameCodec.held (codec : FrameCodec) : Nat :=
  (codec.rxFragments.map (·.payload.length)).sum

theorem sum_map_eraseIdx {α : Type} (size : α → Nat) (values : List α) (index : Fin values.length) :
    size (values.get index) + ((values.eraseIdx index).map size).sum = (values.map size).sum := by
  have inside : index.val < (values.map size).length := by simp
  have removed := List.add_sum_eraseIdx inside fun _ _ => AddCommute.all _ _
  rwa [List.getElem_map, List.eraseIdx_map] at removed

theorem sum_map_set {α : Type} (size : α → Nat) (values : List α) (index : Fin values.length)
    (value : α) (growth : Nat) (grown : size value = size (values.get index) + growth) :
    ((values.set index value).map size).sum = (values.map size).sum + growth := by
  have before := sum_map_eraseIdx size values index
  have after := sum_map_eraseIdx size (values.set index value) ⟨index, by simp⟩
  simp only [List.get_eq_getElem, List.getElem_set_self, List.eraseIdx_set_eq] at before after
  rw [List.get_eq_getElem] at grown
  omega

theorem reassembles_cost (codec next : FrameCodec) (wire : WireFrame) (value : Option Frame)
    (outcome : Reassembles crc32fast codec wire value next) :
    valueCost value + next.held ≤ codec.held + (46 + wire.payload.length) := by
  cases outcome with
  | whole single =>
    simp only [valueCost, frameCost, WireFrame.frame]
    omega
  | first fragment absent =>
    simp only [valueCost, FrameCodec.held, FrameFragment.first, List.map_append, List.map_cons,
      List.map_nil, List.sum_append, List.sum_cons, List.sum_nil]
    omega
  | more fragment unfinished index found =>
    have grown := sum_map_set (fun entry : FrameFragment => entry.payload.length)
      codec.rxFragments index ((codec.rxFragments.get index).extend wire) wire.payload.length
      (by simp [FrameFragment.extend])
    simp only [valueCost, FrameCodec.held, grown]
    omega
  | last fragment closed index found =>
    have removed := sum_map_eraseIdx (fun entry : FrameFragment => entry.payload.length)
      codec.rxFragments index
    simp only [valueCost, frameCost, FrameCodec.held, FrameFragment.complete,
      List.length_append] at removed ⊢
    omega

theorem reduceOption_cost (values : List (Option Frame)) :
    (values.reduceOption.map frameCost).sum = (values.map valueCost).sum := by
  induction values with
  | nil => rfl
  | cons value values ih => cases value <;> simp [List.reduceOption, valueCost, ← ih]

theorem ProtocolCodec.decodeAll_cost (codec receiver : ProtocolCodec) (chunks : List Bytes) (frames : List Frame)
    (decoded : codec.decodeAll crc32fast chunks = (.ok frames, receiver)) :
    (frames.map frameCost).sum + receiver.frameCodec.held + receiver.rxBuffer.length ≤
      codec.frameCodec.held + codec.rxBuffer.length + chunks.flatten.length := by
  rw [decodeAll_eq] at decoded
  rcases fed : (codecDecoder crc32fast).feedAll codec.frameCodec codec.rxBuffer chunks with
    ⟨_ | values, next, rest⟩
  · simp [fed, Except.map] at decoded
  · simp only [fed, Except.map, Prod.mk.injEq, Except.ok.injEq] at decoded
    obtain ⟨rfl, rfl⟩ := decoded
    rw [reduceOption_cost]
    refine (codecDecoder crc32fast).feedAll_cost valueCost FrameCodec.held ?_ _ _ _ _ _ _ fed
    intro state buffer value next rest item
    obtain ⟨wire, rfl, _, outcome⟩ := codecDecoder_item crc32fast state next buffer rest value item
    have paid := reassembles_cost crc32fast _ next wire value outcome
    have size := wire.bytes_length crc32fast
    simp only [List.length_append, size]
    change valueCost value + next.held ≤ state.held + (46 + wire.payload.length) at paid
    omega

theorem encode_length (codec next : FrameCodec) (frame : Frame) (bytes : Bytes)
    (encoded : codec.encode crc32fast frame = (.ok bytes, next)) :
    bytes.length = 30 + frame.payload.length + frame.authTag.length := by
  have u8 (value : UInt8) : (Layout.u8.put value).length = 1 := Layout.u8.put_length value
  have u32 (value : UInt32) : (Layout.u32.put value).length = 4 := Layout.u32.put_length value
  have u64 (value : UInt64) : (Layout.u64.put value).length = 8 := Layout.u64.put_length value
  cases flagged : frame.header.flags with
  | none =>
    simp [FrameCodec.encode, calculateHeaderCrc, flagged, bind, Except.bind] at encoded
  | some flags =>
    cases channelled : frame.header.channelId with
    | none =>
      simp [FrameCodec.encode, calculateHeaderCrc, flagged, channelled, bind, Except.bind] at encoded
    | some channelId =>
      simp only [FrameCodec.encode, calculateHeaderCrc, flagged, channelled, Outcome.unwrap_some,
        bind, Except.bind, pure, Except.pure, Prod.mk.injEq, Except.ok.injEq] at encoded
      rw [← encoded.1]
      simp only [List.length_append, u8, u32, u64]

theorem EncodeCall.build_control (call : EncodeCall) (sequence : UInt64) :
    ∃ frameType payload channelId, call.build encodeKeepAlive sequence =
      buildControlFrame frameType payload channelId sequence := by
  cases call <;> exact ⟨_, _, _, rfl⟩

theorem EncodeCall.run_ok (call : EncodeCall) (codec : ProtocolCodec) :
    ∃ bytes next, call.run crc32fast encodeKeepAlive codec = (.ok bytes, next) ∧
      bytes.length = 30 + (call.build encodeKeepAlive codec.frameCodec.txSequence).payload.length := by
  obtain ⟨frameType, payload, channelId, built⟩ :=
    call.build_control encodeKeepAlive codec.frameCodec.txSequence
  rcases encoded : (codec.frameCodec.nextTxSequence).2.encode crc32fast
    (buildControlFrame frameType payload channelId codec.frameCodec.txSequence) with ⟨_ | bytes, next⟩
  · simp [FrameCodec.encode, calculateHeaderCrc, buildControlFrame, bind, Except.bind, pure,
      Except.pure] at encoded
  · refine ⟨bytes, { codec with frameCodec := next }, ?_, ?_⟩
    · rw [call.run_eq, ProtocolCodec.encodeBuilt]
      simp only [FrameCodec.nextTxSequence, built] at encoded ⊢
      rw [encoded]
    · rw [encode_length crc32fast _ next _ bytes encoded, built]
      rfl

theorem ProtocolCodec.encodeAll_length (codec : ProtocolCodec) (calls : List EncodeCall) :
    ∃ produced, (codec.encodeAll crc32fast encodeKeepAlive calls).1 = .ok produced ∧
      produced.flatten.length + 16 * calls.length =
        ((codec.sent crc32fast encodeKeepAlive calls).map frameCost).sum := by
  induction calls generalizing codec with
  | nil => exact ⟨[], rfl, rfl⟩
  | cons call calls ih =>
    obtain ⟨bytes, next, ran, size⟩ := call.run_ok crc32fast encodeKeepAlive codec
    obtain ⟨produced, encoded, total⟩ := ih next
    refine ⟨bytes :: produced, ?_, ?_⟩
    · simp only [encodeAll, ran, encoded, Except.map]
    · simp only [sent, ran, List.map_cons, List.sum_cons, List.flatten_cons, List.length_append,
        List.length_cons, size, ← total, frameCost]
      omega

theorem sameMessage_cost (sent frames : List Frame) (same : List.Forall₂ SameMessage sent frames) :
    (frames.map frameCost).sum = (sent.map frameCost).sum := by
  induction same with
  | nil => rfl
  | cons head _ ih => simp only [List.map_cons, List.sum_cons, ih, frameCost, head.payload]

theorem ProtocolCodec.decodeAll_empty (chunks : List Bytes) (nothing : chunks.flatten = []) :
    ProtocolCodec.new.decodeAll crc32fast chunks = (.ok [], ProtocolCodec.new) := by
  refine decodeAll_stream crc32fast ProtocolCodec.new _ [] chunks ?_
    ((codecDecoder crc32fast).empty _)
  rw [nothing]
  exact .nil _

theorem control_round_trip_iff (sender : ProtocolCodec) (calls : List EncodeCall) :
    ∃ produced, (sender.encodeAll crc32fast encodeKeepAlive calls).1 = .ok produced ∧
      ∀ chunks : List Bytes, chunks.flatten = produced.flatten →
        (ControlRoundTrip crc32fast encodeKeepAlive sender calls chunks ↔ calls = []) := by
  obtain ⟨produced, encoded, total⟩ := sender.encodeAll_length crc32fast encodeKeepAlive calls
  refine ⟨produced, encoded, ?_⟩
  intro chunks cut
  constructor
  · intro ⟨frames, receiver, decoded, same, _⟩
    have paid := ProtocolCodec.decodeAll_cost crc32fast ProtocolCodec.new receiver chunks frames
      decoded
    rw [sameMessage_cost _ _ same, ← total, cut] at paid
    have start : ProtocolCodec.new.frameCodec.held + ProtocolCodec.new.rxBuffer.length = 0 := rfl
    apply List.length_eq_zero_iff.mp
    omega
  · rintro rfl
    obtain rfl : [] = produced := Except.ok.inj encoded
    exact ⟨[], ProtocolCodec.new, ProtocolCodec.decodeAll_empty crc32fast chunks cut, .nil, rfl⟩

end

theorem control_round_trip_iff_control_frame :
    ∃ produced, (ProtocolCodec.new.encodeAll Crc.ieee (fun _ => [])
        [.controlFrame .control ⟨[0x08, 0x01]⟩ 3]).1 = .ok produced ∧
      (ControlRoundTrip Crc.ieee (fun _ => []) ProtocolCodec.new
          [.controlFrame .control ⟨[0x08, 0x01]⟩ 3] [produced.flatten] ↔
        [EncodeCall.controlFrame .control ⟨[0x08, 0x01]⟩ 3] = []) := by
  obtain ⟨produced, encoded, settled⟩ := control_round_trip_iff Crc.ieee (fun _ => [])
    ProtocolCodec.new [.controlFrame .control ⟨[0x08, 0x01]⟩ 3]
  exact ⟨produced, encoded, settled [produced.flatten] (by simp)⟩

def emptyControlBytes : Bytes :=
  [0x01, 0x4C, 0x50, 0x42, 0x00, 0x00, 0x01, 0x00, 0x0A, 0x48, 0x00, 0x00, 0x00, 0x00,
    0x01, 0x00, 0x00, 0x00, 0x00, 0x00, 0x00, 0x00, 0x00, 0x00, 0x00, 0x00]

-- One empty control message: 30 bytes are produced, 46 are waited for.
theorem empty_control_not_delivered :
    ∃ bytes, (ProtocolCodec.new.encodeAll Crc.ieee (fun _ => [])
        [.controlFrame .control ⟨[]⟩ 0]).1 = .ok [bytes] ∧
      ¬ ControlRoundTrip Crc.ieee (fun _ => []) ProtocolCodec.new
        [.controlFrame .control ⟨[]⟩ 0] [bytes] := by
  refine ⟨emptyControlBytes ++ Layout.u32.put (Crc.ieee emptyControlBytes), by decide +kernel, ?_⟩
  intro ⟨frames, receiver, decoded, same, _⟩
  have paid := ProtocolCodec.decodeAll_cost Crc.ieee ProtocolCodec.new receiver _ frames decoded
  rw [sameMessage_cost _ _ same] at paid
  have produced : ([emptyControlBytes ++ Layout.u32.put (Crc.ieee emptyControlBytes)].flatten).length
      = 30 := by decide +kernel
  have cost : ((ProtocolCodec.new.sent Crc.ieee (fun _ => [])
      [.controlFrame .control ⟨[]⟩ 0]).map frameCost).sum = 46 := by decide +kernel
  have start : ProtocolCodec.new.frameCodec.held + ProtocolCodec.new.rxBuffer.length = 0 := rfl
  omega

end BitDrive
