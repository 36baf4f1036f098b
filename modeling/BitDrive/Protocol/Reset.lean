import BitDrive.Protocol.Receive

set_option autoImplicit false

namespace BitDrive

open ByteLayout

section

variable (crc32fast : Bytes → UInt32) (encodeKeepAlive : KeepAlive → Bytes)

inductive Traffic where
  | encode (call : EncodeCall)
  | decode (data : Bytes)

inductive Reply where
  | encoded (result : Outcome ProtocolError Bytes)
  | decoded (result : Outcome ProtocolError (List Frame))

def Traffic.run (codec : ProtocolCodec) : Traffic → Reply × ProtocolCodec
  | .encode call =>
    let result := call.run crc32fast encodeKeepAlive codec
    (.encoded result.1, result.2)
  | .decode data =>
    let result := codec.decode crc32fast data
    (.decoded result.1, result.2)

def ProtocolCodec.replies (codec : ProtocolCodec) : List Traffic → List Reply
  | [] => []
  | call :: calls =>
    let result := call.run crc32fast encodeKeepAlive codec
    result.1 :: replies result.2 calls

inductive HistoryCall where
  | traffic (call : Traffic)
  | setRxSequence (sequence : UInt64)

def HistoryCall.run (codec : ProtocolCodec) : HistoryCall → ProtocolCodec
  | .traffic call => (call.run crc32fast encodeKeepAlive codec).2
  | .setRxSequence sequence => codec.setRxSequence sequence

def ProtocolCodec.after (codec : ProtocolCodec) (history : List HistoryCall) : ProtocolCodec :=
  history.foldl (HistoryCall.run crc32fast encodeKeepAlive) codec

structure FrameCodec.AsCreated (codec : FrameCodec) : Prop where
  maxPayloadSize : codec.maxPayloadSize = ProtocolCodec.new.frameCodec.maxPayloadSize
  txFragments : codec.txFragments = []

theorem Reassembles.asCreated (codec next : FrameCodec) (wire : WireFrame) (value : Option Frame)
    (outcome : Reassembles crc32fast codec wire value next) (created : codec.AsCreated) :
    next.AsCreated := by
  cases outcome <;> exact ⟨created.maxPayloadSize, created.txFragments⟩

theorem HistoryCall.asCreated (codec : ProtocolCodec) (call : HistoryCall)
    (created : codec.frameCodec.AsCreated) :
    (call.run crc32fast encodeKeepAlive codec).frameCodec.AsCreated := by
  rcases call with (call | data) | sequence
  · simp only [run, Traffic.run, EncodeCall.run_eq]
    exact ⟨created.maxPayloadSize, created.txFragments⟩
  · simp only [run, Traffic.run, ProtocolCodec.decode_drain]
    apply Chunked.Decoder.drain_invariant _ FrameCodec.AsCreated _ _ _ _ created
    · intro codec buffer value next rest item created
      obtain ⟨wire, _, _, outcome⟩ := codecDecoder_item crc32fast codec next buffer rest value item
      exact outcome.asCreated crc32fast { codec with rxSequence := wire.sequence } next wire value
        ⟨created.maxPayloadSize, created.txFragments⟩
    · intro codec buffer abort next rest failed created
      rwa [codecDecoder_fail crc32fast codec next buffer rest abort failed]
  · exact ⟨created.maxPayloadSize, created.txFragments⟩

theorem ProtocolCodec.after_asCreated (codec : ProtocolCodec) (history : List HistoryCall)
    (created : codec.frameCodec.AsCreated) :
    (codec.after crc32fast encodeKeepAlive history).frameCodec.AsCreated := by
  induction history generalizing codec with
  | nil => exact created
  | cons call history ih => exact ih _ (call.asCreated crc32fast encodeKeepAlive codec created)

theorem ProtocolCodec.reset_eq (codec : ProtocolCodec) (created : codec.frameCodec.AsCreated) :
    codec.reset =
      { ProtocolCodec.new with frameCodec := { ProtocolCodec.new.frameCodec with
          rxFragments := codec.frameCodec.rxFragments } } := by
  rcases codec with ⟨⟨size, rx, tx, rxFragments, txFragments, bound⟩, rxBuffer⟩
  obtain ⟨rfl, rfl⟩ : size = _ ∧ txFragments = _ := ⟨created.maxPayloadSize, created.txFragments⟩
  rfl

theorem emptyTag_length : (List.replicate 16 (0 : UInt8)).length = 16 := by decide

def closingWire (channelId : UInt32) : WireFrame where
  version := protocolVersion
  type := .data
  flags := packFlags { isFragment := true, isLastFragment := true }
  channelId := channelId
  sequence := 0
  payload := []
  authTag := List.replicate 16 0
  payload_lt := by decide
  authTag_length := emptyTag_length

@[simp] theorem closingWire_channelId (channelId : UInt32) :
    (closingWire channelId).channelId = channelId := rfl

theorem closingWire_flags (channelId : UInt32) :
    unpackFlags (closingWire channelId).flags = { isFragment := true, isLastFragment := true } :=
  unpackFlags_packFlags _

theorem closingWire_delivered (codec : ProtocolCodec) (channelId : UInt32)
    (empty : codec.rxBuffer = []) (start : codec.frameCodec.rxSequence = 0) :
    ∃ frames next, codec.decode crc32fast ((closingWire channelId).bytes crc32fast) =
        (.ok frames, next) ∧
      (frames ≠ [] ↔ ∃ entry ∈ codec.frameCodec.rxFragments, entry.channel = channelId) := by
  obtain ⟨value, next, decoded, outcome⟩ := codec.decode_wire crc32fast (closingWire channelId)
    empty (by rw [start]; exact UInt64.le_refl 0)
  refine ⟨value.toList, ⟨next, []⟩, decoded, ?_⟩
  cases outcome with
  | whole single => simp [closingWire_flags] at single
  | first fragment absent => simpa using absent
  | more fragment unfinished index found => simp [closingWire_flags] at unfinished
  | last fragment closed index found => simpa using ⟨_, List.get_mem _ index, found⟩

theorem pending_shows (codec : ProtocolCodec) (entry : FrameFragment)
    (pending : entry ∈ codec.frameCodec.rxFragments) :
    codec.reset.replies crc32fast encodeKeepAlive
        [.decode ((closingWire entry.channel).bytes crc32fast)] ≠
      ProtocolCodec.new.replies crc32fast encodeKeepAlive
        [.decode ((closingWire entry.channel).bytes crc32fast)] := by
  obtain ⟨stale, _, afterReset, delivered⟩ :=
    closingWire_delivered crc32fast codec.reset entry.channel rfl rfl
  obtain ⟨none, _, afterNew, silent⟩ :=
    closingWire_delivered crc32fast ProtocolCodec.new entry.channel rfl rfl
  have something : stale ≠ [] := delivered.mpr ⟨entry, pending, rfl⟩
  have nothing : none = [] := by
    by_contra present
    obtain ⟨other, member, _⟩ := silent.mp present
    exact absurd member List.not_mem_nil
  simp only [ProtocolCodec.replies, Traffic.run, afterReset, afterNew, nothing]
  intro same
  simp [something] at same

theorem reset_clean_iff (history : List HistoryCall) :
    (∀ traffic, (ProtocolCodec.new.after crc32fast encodeKeepAlive history).reset.replies crc32fast
        encodeKeepAlive traffic =
      ProtocolCodec.new.replies crc32fast encodeKeepAlive traffic) ↔
    (ProtocolCodec.new.after crc32fast encodeKeepAlive history).frameCodec.rxFragments = [] := by
  have created := ProtocolCodec.new.after_asCreated crc32fast encodeKeepAlive history ⟨rfl, rfl⟩
  constructor
  · intro same
    by_contra present
    obtain ⟨entry, pending⟩ := List.exists_mem_of_ne_nil _ present
    exact pending_shows crc32fast encodeKeepAlive _ entry pending (same _)
  · intro nothing traffic
    rw [ProtocolCodec.reset_eq _ created, nothing]
    rfl

end

def openingWire : WireFrame where
  version := protocolVersion
  type := .data
  flags := packFlags { isFragment := true }
  channelId := 1
  sequence := 0
  payload := [0x6F, 0x6C, 0x64]
  authTag := List.replicate 16 0
  payload_lt := by decide
  authTag_length := emptyTag_length

theorem fragment_survives_reset :
    (ProtocolCodec.new.after Crc.ieee (fun _ => [])
        [.traffic (.decode (openingWire.bytes Crc.ieee))]).reset.replies Crc.ieee (fun _ => [])
      [.decode ((closingWire 1).bytes Crc.ieee)] ≠
    ProtocolCodec.new.replies Crc.ieee (fun _ => [])
      [.decode ((closingWire 1).bytes Crc.ieee)] := by
  obtain ⟨value, next, decoded, outcome⟩ := ProtocolCodec.new.decode_wire Crc.ieee openingWire rfl
    (UInt64.le_refl 0)
  have fragment : (unpackFlags openingWire.flags).isFragment = true := by decide +kernel
  have pending : FrameFragment.first Crc.ieee openingWire ∈ next.rxFragments := by
    cases outcome with
    | whole single => simp [fragment] at single
    | first _ absent => simp
    | more _ unfinished index found => exact index.elim0
    | last _ closed index found => exact index.elim0
  have used : ProtocolCodec.new.after Crc.ieee (fun _ => [])
      [.traffic (.decode (openingWire.bytes Crc.ieee))] = ⟨next, []⟩ := by
    simp [ProtocolCodec.after, HistoryCall.run, Traffic.run, decoded]
  have channel : (FrameFragment.first Crc.ieee openingWire).channel = 1 :=
    FrameFragment.first_channel Crc.ieee openingWire
  have shown := pending_shows Crc.ieee (fun _ => []) ⟨next, []⟩ _ pending
  rwa [channel, ← used] at shown

end BitDrive
