import BitDrive.Protocol.Fragmentation
import BitDrive.Protocol.Reassembly

set_option autoImplicit false

namespace BitDrive

open ByteLayout Interleave

structure Outgoing where
  frameType : FrameType
  channelId : UInt32
  payload : Bytes
  flags : FrameFlags
  whole : flags.isFragment = false
  unended : flags.isLastFragment = false
  deriving DecidableEq

def Outgoing.delivery (message : Outgoing) : Delivery where
  type := message.frameType.toI32
  channelId := some ⟨message.channelId⟩
  payload := message.payload

structure Piece where
  message : Outgoing
  final : Bool
  frame : Frame
  deriving DecidableEq

def Outgoing.label (message : Outgoing) : List Frame → List Piece
  | [] => []
  | frame :: frames => ⟨message, frames.isEmpty, frame⟩ :: message.label frames

def Piece.expected (piece : Piece) : Option Delivery :=
  if piece.final then some piece.message.delivery else none

def Piece.sealed (piece : Piece) (authTag : Vector UInt8 16) : Frame :=
  { piece.frame with authTag := authTag.toList }

def Frame.part (frame : Frame) : Part where
  type := frame.header.type
  channelId := frame.header.channelId.elim 0 (·.value)
  isFragment := frame.header.flags.elim false (·.isFragment)
  isLastFragment := frame.header.flags.elim false (·.isLastFragment)
  payload := frame.payload

@[simp] theorem Piece.sealed_part (piece : Piece) (authTag : Vector UInt8 16) :
    (piece.sealed authTag).part = piece.frame.part := rfl

theorem Frame.Carries.part (frame : Frame) (wire : WireFrame) (carries : frame.Carries wire) :
    wire.part = frame.part := by
  obtain ⟨flags, flagged, byte⟩ := Option.map_eq_some_iff.mp carries.flags
  simp [WireFrame.part, Frame.part, carries.type, carries.channelId, carries.payload, flagged,
    ← byte, unpackFlags_packFlags]

section

variable (crc32fast : Bytes → UInt32)

structure Sendable (message : Outgoing) (frame : Frame) : Prop where
  magic : frame.header.magic = magicNumber
  type : frame.header.type = message.frameType.toI32
  flagged : frame.header.flags.isSome = true
  channelId : frame.header.channelId = some ⟨message.channelId⟩
  payload_le : frame.payload.length ≤ maxFramePayloadSize

structure Splits (message : Outgoing) (frames : List Frame) : Prop where
  sendable : ∀ frame ∈ frames, Sendable message frame
  present : frames ≠ []
  collected : runLocal collect none ((message.label frames).map (·.frame.part)) =
    ((message.label frames).map Piece.expected, none)

def Outgoing.fragments (message : Outgoing) (total index : Nat) (codec : FrameCodec)
    (parts : List Bytes) : List Frame :=
  (FrameCodec.encodeFragmentLoop message.frameType message.channelId message.flags total index
    codec parts).1

theorem fragments_sendable (message : Outgoing) (total index : Nat) (codec : FrameCodec)
    (parts : List Bytes) (small : ∀ chunk ∈ parts, chunk.length ≤ maxFramePayloadSize) :
    ∀ frame ∈ message.fragments total index codec parts, Sendable message frame := by
  induction parts generalizing index codec with
  | nil => simp [Outgoing.fragments, FrameCodec.encodeFragmentLoop]
  | cons chunk parts ih =>
    rintro frame (_ | ⟨_, member⟩)
    · exact ⟨rfl, rfl, rfl, rfl, small chunk (by simp)⟩
    · exact ih (index + 1) { codec with txSequence := codec.txSequence + 1 }
        (fun other inside => small other (List.mem_cons_of_mem chunk inside)) frame member

theorem fragments_eq_nil (message : Outgoing) (total index : Nat) (codec : FrameCodec)
    (parts : List Bytes) : message.fragments total index codec parts = [] ↔ parts = [] := by
  cases parts <;> simp [Outgoing.fragments, FrameCodec.encodeFragmentLoop]

theorem fragments_cons (message : Outgoing) (total index : Nat) (codec : FrameCodec)
    (chunk : Bytes) (parts : List Bytes) (counted : index + (parts.length + 1) = total) :
    ∃ frame next, message.label (message.fragments total index codec (chunk :: parts)) =
        ⟨message, parts.isEmpty, frame⟩ :: message.label (message.fragments total (index + 1) next parts) ∧
      frame.part = ⟨message.frameType.toI32, message.channelId, true, parts.isEmpty, chunk⟩ := by
  have closing : (index == total - 1) = parts.isEmpty := by
    cases parts with
    | nil => simp [← counted]
    | cons second parts =>
      simp only [List.length_cons] at counted
      simp only [List.isEmpty_cons, beq_eq_false_iff_ne]
      omega
  obtain ⟨frame, next, unrolled, part⟩ : ∃ frame next,
      message.fragments total index codec (chunk :: parts) =
        frame :: message.fragments total (index + 1) next parts ∧
      frame.part = ⟨message.frameType.toI32, message.channelId, true, index == total - 1, chunk⟩ :=
    ⟨_, _, rfl, rfl⟩
  refine ⟨frame, next, ?_, by rw [part, closing]⟩
  have same : (message.fragments total (index + 1) next parts).isEmpty = parts.isEmpty := by
    cases parts <;> rfl
  rw [unrolled, Outgoing.label, same]

theorem fragments_collected (message : Outgoing) (total index : Nat) (codec : FrameCodec)
    (parts : List Bytes) (got : Bytes) (counted : index + parts.length = total)
    (present : parts ≠ []) (remaining : got ++ parts.flatten = message.payload) :
    runLocal collect (some ⟨message.frameType.toI32, got⟩)
        ((message.label (message.fragments total index codec parts)).map (·.frame.part)) =
      ((message.label (message.fragments total index codec parts)).map Piece.expected, none) := by
  induction parts generalizing index codec got with
  | nil => exact absurd rfl present
  | cons chunk parts ih =>
    obtain ⟨frame, next, labels, part⟩ :=
      fragments_cons message total index codec chunk parts counted
    rw [labels]
    by_cases last : parts = []
    · subst last
      simp only [List.flatten_cons, List.flatten_nil, List.append_nil] at remaining
      simp [part, runLocal, collect, Piece.expected, Outgoing.delivery, remaining,
        Outgoing.fragments, FrameCodec.encodeFragmentLoop, Outgoing.label]
    · have tail := ih (index + 1) next (got ++ chunk) (by rw [← counted, List.length_cons]; omega)
        last (by simpa using remaining)
      have more : parts.isEmpty = false := by simpa using last
      simp [part, runLocal, collect, Piece.expected, more, tail]

theorem fragments_splits (message : Outgoing) (codec : FrameCodec) (first second : Bytes)
    (parts : List Bytes) (whole : (first :: second :: parts).flatten = message.payload)
    (small : ∀ chunk ∈ first :: second :: parts, chunk.length ≤ maxFramePayloadSize) :
    Splits message (message.fragments (parts.length + 2) 0 codec (first :: second :: parts)) where
  sendable := fragments_sendable message _ 0 codec _ small
  present := by simp [fragments_eq_nil]
  collected := by
    obtain ⟨frame, next, labels, part⟩ :=
      fragments_cons message (parts.length + 2) 0 codec first (second :: parts) (by simp)
    have tail := fragments_collected message (parts.length + 2) 1 next (second :: parts) first
      (by simp; omega) (by simp) (by simpa using whole)
    rw [labels]
    simp [part, runLocal, collect, Piece.expected, tail]

def Outgoing.single (message : Outgoing) (sequence : UInt64) : Frame where
  header :=
    { magic := magicNumber
      version := 0x00010000
      type := message.frameType.toI32
      flags := some message.flags
      channelId := some ⟨message.channelId⟩
      sequence := some ⟨sequence⟩
      payloadLength := UInt32.ofNat message.payload.length
      headerCrc := 0 }
  payload := message.payload
  authTag := []

theorem Outgoing.single_splits (message : Outgoing) (sequence : UInt64)
    (small : message.payload.length ≤ maxFramePayloadSize) :
    Splits message [message.single sequence] where
  sendable := by
    intro frame member
    obtain rfl := List.mem_singleton.mp member
    exact ⟨rfl, rfl, rfl, rfl, small⟩
  present := by simp
  collected := by
    simp [label, runLocal, collect, Frame.part, single, message.whole, Piece.expected, delivery]

theorem encodeFragment_splits (codec : FrameCodec) (message : Outgoing)
    (positive : 0 < codec.maxPayloadSize) :
    ∃ frames next, codec.encodeFragment crc32fast message.frameType message.channelId
        message.payload message.flags = (.ok frames, next) ∧
      next.maxPayloadSize = codec.maxPayloadSize ∧ Splits message frames := by
  have limit := codec.maxPayloadSize_le
  by_cases short : message.payload.length ≤ codec.maxPayloadSize
  · have single := encodeFragment_short crc32fast codec message.frameType message.channelId
      message.payload message.flags short
    exact ⟨_, _, single, rfl, message.single_splits _ (Nat.le_trans short limit)⟩
  · have long := Nat.lt_of_not_le short
    have pieces := chunks_several codec.maxPayloadSize message.payload positive long
    have whole := chunks_flatten codec.maxPayloadSize message.payload positive
    have small := chunks_bound codec.maxPayloadSize message.payload
    have split := encodeFragment_long crc32fast codec message.frameType message.channelId
      message.payload message.flags positive long
    rcases cut : chunks codec.maxPayloadSize message.payload with _ | ⟨first, _ | ⟨second, parts⟩⟩
    · simp [cut] at pieces
    · simp [cut] at pieces
    · rw [cut] at split whole small
      exact ⟨_, _, split, encodeFragmentLoop_maxPayloadSize _ _ _ _ 0 codec _,
        fragments_splits message codec first second parts whole
          fun chunk member => Nat.le_trans (small chunk member) limit⟩

def FrameCodec.fragmentAll (codec : FrameCodec) :
    List Outgoing → Outcome ProtocolError (List Piece) × FrameCodec
  | [] => (.ok [], codec)
  | message :: messages =>
    match codec.encodeFragment crc32fast message.frameType message.channelId message.payload
      message.flags with
    | (.error abort, next) => (.error abort, next)
    | (.ok frames, next) =>
      let more := fragmentAll next messages
      (more.1.map (message.label frames ++ ·), more.2)

def FrameCodec.encodeFrames (codec : FrameCodec) :
    List Frame → Outcome ProtocolError (List Bytes) × FrameCodec
  | [] => (.ok [], codec)
  | frame :: frames =>
    match codec.encode crc32fast frame with
    | (.error abort, next) => (.error abort, next)
    | (.ok bytes, next) =>
      let more := encodeFrames next frames
      (more.1.map (bytes :: ·), more.2)

theorem Outgoing.mem_label (message : Outgoing) (frames : List Frame) (piece : Piece)
    (member : piece ∈ message.label frames) : piece.message = message ∧ piece.frame ∈ frames := by
  induction frames with
  | nil => simp [label] at member
  | cons frame frames ih =>
    rcases List.mem_cons.mp member with rfl | inside
    · exact ⟨rfl, List.mem_cons_self⟩
    · exact (ih inside).imp_right (List.mem_cons_of_mem frame)

theorem Outgoing.label_filter (message : Outgoing) (frames : List Frame) (channelId : UInt32) :
    (message.label frames).filter (·.message.channelId = channelId) =
      if message.channelId = channelId then message.label frames else [] := by
  by_cases same : message.channelId = channelId
  · rw [if_pos same, List.filter_eq_self]
    intro piece member
    simp [(message.mem_label frames piece member).1, same]
  · rw [if_neg same, List.filter_eq_nil_iff]
    intro piece member
    simp [(message.mem_label frames piece member).1, same]

theorem Outgoing.label_finals (message : Outgoing) (frames : List Frame) (present : frames ≠ []) :
    ((message.label frames).filter (·.final)).map (·.message) = [message] := by
  induction frames with
  | nil => exact absurd rfl present
  | cons frame frames ih =>
    by_cases last : frames = []
    · subst last
      rfl
    · have more : frames.isEmpty = false := by simpa using last
      simp [label, more, ih last]

structure Covers (messages : List Outgoing) (pieces : List Piece) : Prop where
  sendable : ∀ piece ∈ pieces, Sendable piece.message piece.frame
  finals : (pieces.filter (·.final)).map (·.message) = messages
  collected : ∀ channelId, runLocal collect none
      ((pieces.filter (·.message.channelId = channelId)).map (·.frame.part)) =
    ((pieces.filter (·.message.channelId = channelId)).map Piece.expected, none)

theorem Covers.cons (message : Outgoing) (frames : List Frame) (messages : List Outgoing)
    (pieces : List Piece) (split : Splits message frames) (covers : Covers messages pieces) :
    Covers (message :: messages) (message.label frames ++ pieces) where
  sendable := by
    intro piece member
    rcases List.mem_append.mp member with new | old
    · obtain ⟨same, inside⟩ := message.mem_label frames piece new
      rw [same]
      exact split.sendable piece.frame inside
    · exact covers.sendable piece old
  finals := by
    simp [message.label_finals frames split.present, covers.finals]
  collected := by
    intro channelId
    by_cases same : message.channelId = channelId
    · simp [message.label_filter, same, runLocal_append, split.collected, covers.collected]
    · simp [message.label_filter, same, covers.collected]

theorem fragmentAll_covers (codec : FrameCodec) (messages : List Outgoing)
    (positive : 0 < codec.maxPayloadSize) :
    ∃ pieces next, codec.fragmentAll crc32fast messages = (.ok pieces, next) ∧
      Covers messages pieces := by
  induction messages generalizing codec with
  | nil => exact ⟨[], codec, rfl, by simp, rfl, fun _ => rfl⟩
  | cons message messages ih =>
    obtain ⟨frames, middle, split, size, splits⟩ :=
      encodeFragment_splits crc32fast codec message positive
    obtain ⟨pieces, next, rest, covers⟩ := ih middle (size ▸ positive)
    refine ⟨message.label frames ++ pieces, next, ?_, .cons message frames messages pieces splits covers⟩
    simp only [FrameCodec.fragmentAll, split, rest]
    rfl

theorem encodeFrames_wires (codec : FrameCodec) (schedule : List (Piece × Vector UInt8 16))
    (sendable : ∀ entry ∈ schedule, Sendable entry.1.message entry.1.frame)
    (room : codec.txSequence.toNat + schedule.length ≤ 2 ^ 64) :
    ∃ wires : List WireFrame,
      (codec.encodeFrames crc32fast (schedule.map fun entry => entry.1.sealed entry.2)).1 =
        .ok (wires.map (WireFrame.bytes crc32fast)) ∧
      wires.map WireFrame.part = (schedule.map Prod.fst).map (·.frame.part) ∧
      (∀ wire ∈ wires, codec.txSequence ≤ wire.sequence) ∧
      wires.Pairwise fun earlier later => earlier.sequence ≤ later.sequence := by
  induction schedule generalizing codec with
  | nil => exact ⟨[], rfl, rfl, by simp, .nil⟩
  | cons entry schedule ih =>
    obtain ⟨piece, authTag⟩ := entry
    obtain ⟨magic, type, flagged, channelId, payload_le⟩ := sendable (piece, authTag) (by simp)
    obtain ⟨flags, flagged⟩ := Option.isSome_iff_exists.mp flagged
    have payload_lt : piece.frame.payload.length < 2 ^ 32 :=
      Nat.lt_of_le_of_lt payload_le (by decide)
    obtain ⟨wire, carries, number, _, _⟩ := (piece.sealed authTag).carries_exists
      piece.message.frameType flags ⟨piece.message.channelId⟩ codec.txSequence magic type flagged
      channelId payload_lt (by simp [Piece.sealed])
    have encoded := encode_carries crc32fast codec _ wire carries number.symm
    by_cases more : schedule = []
    · subst more
      refine ⟨[wire], ?_, by simp [carries.part], by simp [number], by simp⟩
      simp [FrameCodec.encodeFrames, encoded, Except.map]
    · have left := List.length_pos_iff.mpr more
      have step : (codec.txSequence + 1).toNat = codec.txSequence.toNat + 1 := by
        rw [List.length_cons] at room
        rw [UInt64.toNat_add]
        exact Nat.mod_eq_of_lt (by simp; omega)
      obtain ⟨wires, produced, parts, above, ordered⟩ := ih
        { codec with txSequence := codec.txSequence + 1 }
        (fun other member => sendable other (List.mem_cons_of_mem _ member))
        (by simp only [step]; rw [List.length_cons] at room; omega)
      have next : codec.txSequence ≤ codec.txSequence + 1 := by
        rw [UInt64.le_iff_toNat_le, step]
        exact Nat.le_succ _
      have rest (other : WireFrame) (member : other ∈ wires) : codec.txSequence ≤ other.sequence :=
        UInt64.le_trans next (above other member)
      refine ⟨wire :: wires, ?_, ?_, ?_, ?_⟩
      · simp [FrameCodec.encodeFrames, encoded, produced, Except.map]
      · simp [parts, carries.part]
      · rintro other (_ | ⟨_, member⟩)
        · exact number ▸ UInt64.le_refl _
        · exact rest other member
      · exact List.pairwise_cons.mpr ⟨fun other member => number ▸ rest other member, ordered⟩

theorem expected_reduceOption (pieces : List Piece) :
    (pieces.map Piece.expected).reduceOption =
      ((pieces.filter (·.final)).map (·.message)).map Outgoing.delivery := by
  induction pieces with
  | nil => rfl
  | cons piece pieces ih =>
    cases closed : piece.final <;> simp [Piece.expected, closed, List.reduceOption, ← ih]

theorem Covers.interleaved (messages : List Outgoing) (pieces schedule : List Piece)
    (covers : Covers messages pieces)
    (interleaving : Interleaving (·.message.channelId) schedule pieces) :
    runKeyed Part.channelId collect (fun _ => none) (schedule.map (·.frame.part)) =
      (schedule.map Piece.expected, fun _ => none) := by
  have same : schedule.Perm pieces := interleaving.perm
  have part (piece : Piece) (member : piece ∈ schedule) :
      piece.frame.part.channelId = piece.message.channelId := by
    simp [Frame.part, (covers.sendable piece (same.mem_iff.mp member)).channelId]
  have alone (channelId : UInt32) : runLocal collect none
        ((schedule.filter fun piece => piece.frame.part.channelId = channelId).map (·.frame.part)) =
      ((schedule.filter fun piece => piece.frame.part.channelId = channelId).map Piece.expected,
        none) := by
    have renamed : (schedule.filter fun piece => piece.frame.part.channelId = channelId) =
        schedule.filter (·.message.channelId = channelId) :=
      List.filter_congr fun piece member => by rw [part piece member]
    rw [renamed, interleaving channelId, covers.collected]
  apply Prod.ext
  · exact runKeyed_output _ _ _ _ _ _ fun channelId => congrArg Prod.fst (alone channelId)
  · funext channelId
    rw [runKeyed_state, List.filter_map]
    exact congrArg Prod.snd (alone channelId)

theorem fragmented_stream_delivered (sender : FrameCodec) (messages : List Outgoing)
    (positive : 1 ≤ sender.maxPayloadSize) :
    ∃ pieces splitter, sender.fragmentAll crc32fast messages = (.ok pieces, splitter) ∧
      ∀ schedule : List (Piece × Vector UInt8 16),
        Interleaving (·.message.channelId) (schedule.map Prod.fst) pieces →
        splitter.txSequence.toNat + schedule.length ≤ 2 ^ 64 →
        let finals := ((schedule.map Prod.fst).filter (·.final)).map (·.message)
        finals.Perm messages ∧ ∃ produced,
          (splitter.encodeFrames crc32fast
            (schedule.map fun entry => entry.1.sealed entry.2)).1 = .ok produced ∧
          ∀ cuts : List Bytes, cuts.flatten = produced.flatten →
            ∃ frames receiver,
              ProtocolCodec.new.decodeAll crc32fast cuts = (.ok frames, receiver) ∧
              frames.map Frame.delivery = finals.map Outgoing.delivery ∧
              receiver.rxBuffer = [] ∧ receiver.frameCodec.rxFragments = [] := by
  obtain ⟨pieces, splitter, split, covers⟩ := fragmentAll_covers crc32fast sender messages positive
  refine ⟨pieces, splitter, split, ?_⟩
  intro schedule interleaving room finals
  have same : (schedule.map Prod.fst).Perm pieces := interleaving.perm
  have sendable (entry : Piece × Vector UInt8 16) (member : entry ∈ schedule) :
      Sendable entry.1.message entry.1.frame :=
    covers.sendable entry.1 (same.mem_iff.mp (List.mem_map_of_mem member))
  obtain ⟨wires, produced, parts, _, ordered⟩ :=
    encodeFrames_wires crc32fast splitter schedule sendable room
  refine ⟨?_, _, produced, ?_⟩
  · rw [← covers.finals]
    exact (same.filter _).map _
  intro cuts cut
  obtain ⟨values, last, stream, outputs, pending⟩ := wires_stream crc32fast
    ProtocolCodec.new.frameCodec wires .nil (fun wire _ => UInt64.zero_le) ordered
  have collected : runKeyed Part.channelId collect ProtocolCodec.new.frameCodec.pending
      (wires.map WireFrame.part) = ((schedule.map Prod.fst).map Piece.expected, fun _ => none) := by
    rw [parts]
    exact covers.interleaved messages pieces _ interleaving
  rw [collected] at outputs pending
  have decoded := ProtocolCodec.new.decodeAll_stream crc32fast last values cuts
    (by rw [cut]; exact stream) ((codecDecoder crc32fast).empty _)
  refine ⟨_, _, decoded, ?_, rfl, ?_⟩
  · rw [← List.reduceOption_map, outputs, expected_reduceOption]
  · apply Keyed.eq_nil_of_lookup FrameFragment.channel
    intro channelId
    exact Option.map_eq_none_iff.mp (congrFun pending channelId)

end

def longText : Outgoing := ⟨.data, 1, [0x61, 0x62, 0x63], {}, rfl, rfl⟩

def shortText : Outgoing := ⟨.control, 2, [0x64], {}, rfl, rfl⟩

def longTextFragment (last : Bool) (sequence : UInt64) (chunk : Bytes) : Piece where
  message := longText
  final := last
  frame :=
    { header := { (longText.single sequence).header with
        flags := some { isFragment := true, isLastFragment := last }
        payloadLength := UInt32.ofNat chunk.length }
      payload := chunk
      authTag := [] }

theorem fragmented_stream_delivered_two_channels :
    ∃ pieces splitter,
      (FrameCodec.new 2).fragmentAll Crc.ieee [longText, shortText] = (.ok pieces, splitter) ∧
      ∃ produced, (splitter.encodeFrames Crc.ieee
          ([longTextFragment false 0 [0x61, 0x62], ⟨shortText, true, shortText.single 2⟩,
            longTextFragment true 1 [0x63]].map (·.sealed (Vector.replicate 16 0)))).1 =
          .ok produced ∧
        ∃ frames receiver,
          ProtocolCodec.new.decodeAll Crc.ieee (produced.flatten.map ([·])) =
            (.ok frames, receiver) ∧
          frames.map Frame.delivery = [shortText.delivery, longText.delivery] := by
  obtain ⟨pieces, splitter, split, delivered⟩ := fragmented_stream_delivered Crc.ieee
    (FrameCodec.new 2) [longText, shortText] (by decide)
  have computed : (FrameCodec.new 2).fragmentAll Crc.ieee [longText, shortText] =
      (.ok [longTextFragment false 0 [0x61, 0x62], longTextFragment true 1 [0x63],
        ⟨shortText, true, shortText.single 2⟩], { FrameCodec.new 2 with txSequence := 3 }) := by
    decide +kernel
  obtain ⟨rfl, rfl⟩ : _ ∧ _ := by simpa using computed.symm.trans split
  have interleaving : Interleaving (·.message.channelId)
      [longTextFragment false 0 [0x61, 0x62], ⟨shortText, true, shortText.single 2⟩,
        longTextFragment true 1 [0x63]]
      [longTextFragment false 0 [0x61, 0x62], longTextFragment true 1 [0x63],
        ⟨shortText, true, shortText.single 2⟩] := by
    intro channelId
    by_cases long : 1 = channelId
    · subst long; rfl
    by_cases short : 2 = channelId
    · subst short; rfl
    simp [longTextFragment, longText, shortText, long, short]
  obtain ⟨_, produced, encoded, received⟩ := delivered
    [(longTextFragment false 0 [0x61, 0x62], Vector.replicate 16 0),
      (⟨shortText, true, shortText.single 2⟩, Vector.replicate 16 0),
      (longTextFragment true 1 [0x63], Vector.replicate 16 0)] interleaving (by decide)
  obtain ⟨frames, receiver, decoded, same, _, _⟩ := received (produced.flatten.map ([·]))
    (by rw [← List.flatMap_def, List.flatMap_singleton'])
  exact ⟨_, _, split, produced, encoded, frames, receiver, decoded, same⟩

end BitDrive
