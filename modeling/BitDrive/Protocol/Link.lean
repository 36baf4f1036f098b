import BitDrive.Protocol.Chunking
import BitDrive.Protocol.Delivery
import BitDrive.Protocol.Numbering

set_option autoImplicit false

namespace BitDrive

open ByteLayout Interleave Chunked

inductive Side where
  | left
  | right
  deriving DecidableEq, Repr

def Side.other : Side → Side
  | .left => .right
  | .right => .left

@[simp] theorem Side.other_other (side : Side) : side.other.other = side := by
  cases side <;> rfl

theorem Side.other_ne (side : Side) : side.other ≠ side := by
  cases side <;> decide

theorem Side.eq_other (side mine : Side) (apart : side ≠ mine) : side = mine.other := by
  cases side <;> cases mine <;> simp_all [other]

structure Peer where
  codec : ProtocolCodec
  given : List Outgoing
  waiting : List Piece
  sent : List Piece
  lastSent : UInt64
  arriving : Bytes
  received : List Frame
  failures : List (Abort ProtocolError)

def Peer.new : Peer where
  codec := ProtocolCodec.new
  given := []
  waiting := []
  sent := []
  lastSent := 0
  arriving := []
  received := []
  failures := []

inductive Move where
  | submit (message : Outgoing)
  | transmit (channelId : UInt32) (authTag : Vector UInt8 16)
  | deliver (count : Nat)

section

variable (crc32fast : Bytes → UInt32)

namespace Peer

def withCodec (peer : Peer) (frameCodec : FrameCodec) : Peer :=
  { peer with codec := { peer.codec with frameCodec := frameCodec } }

def submit (peer : Peer) (message : Outgoing) : Peer :=
  match peer.codec.frameCodec.encodeFragment crc32fast message.frameType message.channelId
    message.payload message.flags with
  | (.error abort, next) =>
    { peer.withCodec next with failures := peer.failures ++ [abort] }
  | (.ok frames, next) =>
    { peer.withCodec next with
      given := peer.given ++ [message]
      waiting := peer.waiting ++ message.label frames }

def transmit (peer : Peer) (channelId : UInt32) (authTag : Vector UInt8 16) : Bytes × Peer :=
  match peer.waiting.find? (·.message.channelId = channelId) with
  | none => ([], peer)
  | some piece =>
    match peer.codec.frameCodec.encode crc32fast (piece.sealed authTag) with
    | (.error abort, next) =>
      ([], { peer.withCodec next with failures := peer.failures ++ [abort] })
    | (.ok bytes, next) =>
      (bytes,
        { peer.withCodec next with
          waiting := peer.waiting.eraseP (·.message.channelId = channelId)
          sent := peer.sent ++ [piece]
          lastSent := peer.codec.frameCodec.txSequence })

def arrive (peer : Peer) (bytes : Bytes) : Peer :=
  { peer with arriving := peer.arriving ++ bytes }

def deliver (peer : Peer) (count : Nat) : Peer :=
  let decoded := peer.codec.decode crc32fast (peer.arriving.take count)
  { peer with
    codec := decoded.2
    arriving := peer.arriving.drop count
    received := peer.received ++ decoded.1.toOption.getD []
    failures := peer.failures ++
      match decoded.1 with
      | .ok _ => []
      | .error abort => [abort] }

def numbers (peer : Peer) : Nat :=
  2 * peer.sent.length + peer.waiting.length

end Peer

def Link : Type := Side → Peer

namespace Link

def new : Link := fun _ => Peer.new

def set (link : Link) (side : Side) (peer : Peer) : Link :=
  fun named => if named = side then peer else link named

@[simp] theorem set_self (link : Link) (side : Side) (peer : Peer) :
    link.set side peer side = peer := if_pos rfl

@[simp] theorem set_other (link : Link) (side : Side) (peer : Peer) :
    link.set side peer side.other = link side.other := if_neg side.other_ne

@[simp] theorem set_other_self (link : Link) (side : Side) (peer : Peer) :
    link.set side.other peer side = link side := if_neg side.other_ne.symm

def step (link : Link) (event : Side × Move) : Link :=
  match event with
  | (side, .submit message) => link.set side ((link side).submit crc32fast message)
  | (side, .transmit channelId authTag) =>
    let sending := (link side).transmit crc32fast channelId authTag
    (link.set side sending.2).set side.other ((link side.other).arrive sending.1)
  | (side, .deliver count) => link.set side ((link side).deliver crc32fast count)

def run (link : Link) (events : List (Side × Move)) : Link :=
  events.foldl (step crc32fast) link

end Link

structure InStep (sender receiver : Peer) : Prop where
  numbered : sender.codec.frameCodec.txSequence.toNat = sender.numbers % 2 ^ 64
  ahead : sender.lastSent.toNat < sender.numbers ∨ sender.sent = [] ∧ sender.lastSent = 0
  reached : receiver.codec.frameCodec.rxSequence ≤ sender.lastSent

structure Delivered (sender receiver : Peer) : Prop where
  sound : sender.failures = [] ∧ receiver.failures = []
  inStep : InStep sender receiver
  completed : receiver.received.map Frame.delivery <+:
    ((sender.sent.filter (·.final)).map (·.message)).map Outgoing.delivery
  ordered : ∀ channelId,
    (receiver.received.map Frame.delivery).filter (·.channelId = some ⟨channelId⟩) <+:
      (sender.given.filter (·.channelId = channelId)).map Outgoing.delivery
  emptied : receiver.arriving = [] →
    receiver.received.map Frame.delivery =
        ((sender.sent.filter (·.final)).map (·.message)).map Outgoing.delivery ∧
      receiver.codec.rxBuffer = [] ∧
      receiver.codec.frameCodec.rxSequence = sender.lastSent
  whole : sender.waiting = [] → receiver.arriving = [] →
    (∀ channelId,
      (receiver.received.map Frame.delivery).filter (·.channelId = some ⟨channelId⟩) =
        (sender.given.filter (·.channelId = channelId)).map Outgoing.delivery) ∧
      receiver.codec.frameCodec.rxFragments = []

def FrameCodec.withTx (codec : FrameCodec) (sequence : UInt64) : FrameCodec :=
  { codec with txSequence := sequence }

@[simp] theorem FrameCodec.withTx_rxSequence (codec : FrameCodec) (sequence : UInt64) :
    (codec.withTx sequence).rxSequence = codec.rxSequence := rfl

@[simp] theorem FrameCodec.withTx_rxFragments (codec : FrameCodec) (sequence : UInt64) :
    (codec.withTx sequence).rxFragments = codec.rxFragments := rfl

theorem encodeFragmentLoop_codec (frameType : FrameType) (channelId : UInt32) (flags : FrameFlags)
    (total index : Nat) (codec : FrameCodec) (parts : List Bytes) :
    let split := FrameCodec.encodeFragmentLoop frameType channelId flags total index codec parts
    split.2 = codec.withTx (codec.txSequence + UInt64.ofNat split.1.length) := by
  induction parts generalizing index codec with
  | nil => simp [FrameCodec.encodeFragmentLoop, FrameCodec.withTx]
  | cons chunk parts ih =>
    have rest := ih (index + 1) { codec with txSequence := codec.txSequence + 1 }
    simp only [FrameCodec.encodeFragmentLoop, List.length_cons]
    rw [rest, ofNat_succ]
    rfl

theorem encodeFragment_codec (codec : FrameCodec) (message : Outgoing)
    (positive : 1 ≤ codec.maxPayloadSize) :
    ∃ frames, codec.encodeFragment crc32fast message.frameType message.channelId message.payload
        message.flags =
          (.ok frames, codec.withTx (codec.txSequence + UInt64.ofNat frames.length)) ∧
      Splits message frames := by
  obtain ⟨frames, next, encoded, _, splits⟩ :=
    encodeFragment_splits crc32fast codec message positive
  refine ⟨frames, ?_, splits⟩
  by_cases short : message.payload.length ≤ codec.maxPayloadSize
  next =>
    have single := encodeFragment_short crc32fast codec message.frameType message.channelId
      message.payload message.flags short
    obtain ⟨made, after⟩ := Prod.mk.inj (encoded.symm.trans single)
    obtain rfl := Except.ok.inj made
    rw [encoded, after]
    rfl
  next =>
    have long := encodeFragment_long crc32fast codec message.frameType message.channelId
      message.payload message.flags positive (Nat.lt_of_not_le short)
    obtain ⟨made, after⟩ := Prod.mk.inj (encoded.symm.trans long)
    obtain rfl := Except.ok.inj made
    rw [encoded, after, encodeFragmentLoop_codec]

theorem encode_sealed (codec : FrameCodec) (piece : Piece) (authTag : Vector UInt8 16)
    (sendable : Sendable piece.message piece.frame) :
    ∃ wire : WireFrame, codec.encode crc32fast (piece.sealed authTag) =
        (.ok (wire.bytes crc32fast), codec.withTx (codec.txSequence + 1)) ∧
      wire.part = piece.frame.part ∧ wire.sequence = codec.txSequence := by
  obtain ⟨magic, type, flagged, channelId, payload_le⟩ := sendable
  obtain ⟨flags, flagged⟩ := Option.isSome_iff_exists.mp flagged
  have payload_lt : piece.frame.payload.length < 2 ^ 32 :=
    Nat.lt_of_le_of_lt payload_le (by decide)
  obtain ⟨wire, carries, number, _, _⟩ := (piece.sealed authTag).carries_exists
    piece.message.frameType flags ⟨piece.message.channelId⟩ codec.txSequence magic type flagged
    channelId payload_lt (by simp [Piece.sealed])
  refine ⟨wire, encode_carries crc32fast codec _ wire carries number.symm, ?_, number⟩
  rw [← piece.sealed_part authTag, carries.part]

theorem Covers.append (messages more : List Outgoing) (pieces others : List Piece)
    (covers : Covers messages pieces) (rest : Covers more others) :
    Covers (messages ++ more) (pieces ++ others) where
  sendable := by
    intro piece member
    rcases List.mem_append.mp member with first | second
    next => exact covers.sendable piece first
    next => exact rest.sendable piece second
  finals := by simp [covers.finals, rest.finals]
  collected := by
    intro channelId
    simp [runLocal_append, covers.collected, rest.collected]

theorem Splits.covers (message : Outgoing) (frames : List Frame) (splits : Splits message frames) :
    Covers [message] (message.label frames) := by
  have none : Covers [] [] := ⟨by simp, rfl, fun _ => rfl⟩
  simpa using Covers.cons message frames [] [] splits none

theorem Covers.started (messages : List Outgoing) (pieces sent waiting : List Piece)
    (covers : Covers messages pieces)
    (interleaving : Interleaving (·.message.channelId) (sent ++ waiting) pieces) :
    (runKeyed Part.channelId collect (fun _ => none) (sent.map (·.frame.part))).1 =
      sent.map Piece.expected := by
  have whole := congrArg Prod.fst (covers.interleaved messages pieces _ interleaving)
  rw [List.map_append, runKeyed_append, List.map_append] at whole
  exact (List.append_inj whole (by simp [runKeyed_length])).1

theorem reassembleFragment_withTx (codec : FrameCodec) (sequence : UInt64) (frame : Frame) :
    (codec.withTx sequence).reassembleFragment frame =
      ((codec.reassembleFragment frame).1, (codec.reassembleFragment frame).2.withTx sequence) := by
  simp only [FrameCodec.reassembleFragment, FrameCodec.withTx_rxFragments]
  repeat' split
  all_goals rfl

theorem codecDecoder_unnoticed (sequence : UInt64) :
    (codecDecoder crc32fast).Unnoticed (FrameCodec.withTx · sequence) := by
  constructor
  next =>
    intro codec buffer waits
    have front := codecDecoder_front crc32fast codec buffer
    rw [waits] at front
    cases front with
    | incomplete _ found => exact codecDecoder_wait crc32fast _ buffer found
  next =>
    intro codec buffer value next rest item
    have front := codecDecoder_front crc32fast codec buffer
    rw [item] at front
    cases front with
    | taken wire _ _ _ fresh reassembled =>
      refine codecDecoder_step crc32fast _ wire rest value _ fresh ?_
      have moved := reassembleFragment_withTx { codec with rxSequence := wire.sequence } sequence
        (wire.frame crc32fast)
      rw [reassembled] at moved
      exact moved

structure Sending (peer : Peer) : Prop where
  positive : 1 ≤ peer.codec.frameCodec.maxPayloadSize
  numbered : peer.codec.frameCodec.txSequence.toNat = peer.numbers % 2 ^ 64
  ahead : peer.lastSent.toNat < peer.numbers ∨ peer.sent = [] ∧ peer.lastSent = 0
  covers : ∃ pieces, Covers peer.given pieces ∧
    Interleaving (·.message.channelId) (peer.sent ++ peer.waiting) pieces

structure Receiving (sent : List Piece) (lastSent : UInt64) (peer : Peer)
    (values : List (Option Frame)) (last : FrameCodec) : Prop where
  stream : (codecDecoder crc32fast).Stream peer.codec.frameCodec
    (peer.codec.rxBuffer ++ peer.arriving) values last
  settled : (codecDecoder crc32fast).step peer.codec.frameCodec peer.codec.rxBuffer = .wait
  handed : peer.received.map Frame.delivery ++ values.reduceOption.map Frame.delivery =
    (sent.map Piece.expected).reduceOption
  distinct : last.OnePerChannel
  pending : last.pending =
    (runKeyed Part.channelId collect (fun _ => none) (sent.map (·.frame.part))).2
  reached : last.rxSequence = lastSent

namespace Peer

structure SameReceiver (peer later : Peer) : Prop where
  codec : ∃ sequence, later.codec.frameCodec = peer.codec.frameCodec.withTx sequence
  rxBuffer : later.codec.rxBuffer = peer.codec.rxBuffer
  arriving : later.arriving = peer.arriving
  received : later.received = peer.received
  failures : later.failures = peer.failures

structure SameSender (peer later : Peer) : Prop where
  maxPayloadSize :
    later.codec.frameCodec.maxPayloadSize = peer.codec.frameCodec.maxPayloadSize
  txSequence : later.codec.frameCodec.txSequence = peer.codec.frameCodec.txSequence
  given : later.given = peer.given
  waiting : later.waiting = peer.waiting
  sent : later.sent = peer.sent
  lastSent : later.lastSent = peer.lastSent

theorem SameSender.numbers (peer later : Peer) (same : peer.SameSender later) :
    later.numbers = peer.numbers := by
  rw [Peer.numbers, Peer.numbers, same.waiting, same.sent]

end Peer

theorem Sending.unchanged (peer later : Peer) (sending : Sending peer)
    (same : peer.SameSender later) : Sending later where
  positive := same.maxPayloadSize ▸ sending.positive
  numbered := by rw [same.txSequence, same.numbers, sending.numbered]
  ahead := by
    rw [same.lastSent, same.numbers, same.sent]
    exact sending.ahead
  covers := by
    rw [same.given, same.sent, same.waiting]
    exact sending.covers

theorem Receiving.unchanged (sent : List Piece) (lastSent : UInt64) (peer later : Peer)
    (values : List (Option Frame)) (last : FrameCodec)
    (receiving : Receiving crc32fast sent lastSent peer values last)
    (same : peer.SameReceiver later) :
    ∃ final, Receiving crc32fast sent lastSent later values final := by
  obtain ⟨sequence, codec⟩ := same.codec
  refine ⟨last.withTx sequence, ?_, ?_, ?_, receiving.distinct, receiving.pending,
    receiving.reached⟩
  next =>
    rw [codec, same.rxBuffer, same.arriving]
    exact (codecDecoder_unnoticed crc32fast sequence).stream receiving.stream
  next =>
    rw [codec, same.rxBuffer]
    exact (codecDecoder_unnoticed crc32fast sequence).wait _ _ receiving.settled
  next =>
    rw [same.received]
    exact receiving.handed

theorem label_length (message : Outgoing) (frames : List Frame) :
    (message.label frames).length = frames.length := by
  induction frames with
  | nil => rfl
  | cons frame frames ih => simp [Outgoing.label, ih]

theorem submit_spec (peer : Peer) (message : Outgoing) (sending : Sending peer) :
    Sending (peer.submit crc32fast message) ∧
      peer.SameReceiver (peer.submit crc32fast message) ∧
      (peer.submit crc32fast message).sent = peer.sent ∧
      (peer.submit crc32fast message).lastSent = peer.lastSent := by
  obtain ⟨frames, encoded, splits⟩ :=
    encodeFragment_codec crc32fast peer.codec.frameCodec message sending.positive
  obtain ⟨pieces, covers, interleaving⟩ := sending.covers
  have submitted : peer.submit crc32fast message =
      { peer.withCodec (peer.codec.frameCodec.withTx
          (peer.codec.frameCodec.txSequence + UInt64.ofNat frames.length)) with
        given := peer.given ++ [message]
        waiting := peer.waiting ++ message.label frames } := by
    simp only [Peer.submit, encoded]
  have more : (peer.submit crc32fast message).numbers = peer.numbers + frames.length := by
    simp only [submitted, Peer.numbers, List.length_append, label_length, Peer.withCodec]
    omega
  refine ⟨⟨?_, ?_, ?_, pieces ++ message.label frames, ?_, ?_⟩, ⟨?_, ?_, ?_, ?_, ?_⟩, ?_, ?_⟩
  next =>
    rw [submitted]
    exact sending.positive
  next =>
    have moved : (peer.submit crc32fast message).codec.frameCodec.txSequence =
        peer.codec.frameCodec.txSequence + UInt64.ofNat frames.length := by rw [submitted]; rfl
    rw [moved, more, UInt64.toNat_add, UInt64.toNat_ofNat', sending.numbered]
    omega
  next =>
    rw [more]
    rw [submitted]
    exact sending.ahead.imp_left fun below => Nat.lt_add_right frames.length below
  next =>
    rw [submitted]
    exact Covers.append _ _ _ _ covers (Splits.covers message frames splits)
  next =>
    intro channelId
    simp only [submitted, Peer.withCodec]
    rw [← List.append_assoc, List.filter_append, interleaving channelId, List.filter_append]
  next => exact ⟨_, by rw [submitted]; rfl⟩
  next => rw [submitted]; rfl
  next => rw [submitted]; rfl
  next => rw [submitted]; rfl
  next => rw [submitted]; rfl
  next => rw [submitted]; rfl
  next => rw [submitted]; rfl

inductive Transmits (peer : Peer) : Bytes × Peer → Prop where
  | idle : Transmits peer ([], peer)
  | sent (piece : Piece) (wire : WireFrame) (later : Peer)
      (part : wire.part = piece.frame.part)
      (number : wire.sequence = peer.codec.frameCodec.txSequence)
      (sending : Sending later) (same : peer.SameReceiver later)
      (sent : later.sent = peer.sent ++ [piece]) (lastSent : later.lastSent = wire.sequence)
      (numbers : later.numbers = peer.numbers + 1) : Transmits peer (wire.bytes crc32fast, later)

theorem transmit_spec (peer : Peer) (channelId : UInt32) (authTag : Vector UInt8 16)
    (sending : Sending peer) :
    Transmits crc32fast peer (peer.transmit crc32fast channelId authTag) := by
  cases first : peer.waiting.find? (·.message.channelId = channelId) with
  | none =>
    rw [Peer.transmit, first]
    exact .idle
  | some piece =>
    obtain ⟨pieces, covers, interleaving⟩ := sending.covers
    have inside : piece ∈ peer.waiting := List.mem_of_find?_eq_some first
    have sendable : Sendable piece.message piece.frame :=
      covers.sendable piece
        (interleaving.perm.mem_iff.mp (List.mem_append_right peer.sent inside))
    obtain ⟨wire, encoded, part, number⟩ :=
      encode_sealed crc32fast peer.codec.frameCodec piece authTag sendable
    have sent : peer.transmit crc32fast channelId authTag =
        (wire.bytes crc32fast,
          { peer.withCodec (peer.codec.frameCodec.withTx
              (peer.codec.frameCodec.txSequence + 1)) with
            waiting := peer.waiting.eraseP (·.message.channelId = channelId)
            sent := peer.sent ++ [piece]
            lastSent := peer.codec.frameCodec.txSequence }) := by
      simp only [Peer.transmit, first, encoded]
    have left : (peer.waiting.eraseP (·.message.channelId = channelId)).length + 1 =
        peer.waiting.length := by
      have matched := List.find?_some first
      have some := List.length_pos_of_mem inside
      rw [List.length_eraseP_of_mem inside matched]
      omega
    have numbers : (peer.transmit crc32fast channelId authTag).2.numbers = peer.numbers + 1 := by
      simp only [sent, Peer.numbers, List.length_append, List.length_singleton]
      omega
    rw [sent] at numbers ⊢
    refine .sent piece wire _ part number ⟨sending.positive, ?_, .inl ?_, pieces, covers, ?_⟩
      ⟨⟨_, rfl⟩, rfl, rfl, rfl, rfl⟩ rfl number.symm numbers
    next =>
      rw [numbers]
      have before := sending.numbered
      simp only [Peer.withCodec, FrameCodec.withTx, UInt64.toNat_add, UInt64.toNat_one]
      omega
    next =>
      rw [numbers, sending.numbered]
      exact Nat.lt_succ_of_le (Nat.mod_le _ _)
    next => exact interleaving.move_first _ _ _ _ _ _ first

theorem Receiving.arrive_nothing (sent : List Piece) (lastSent : UInt64) (peer : Peer)
    (values : List (Option Frame)) (last : FrameCodec)
    (receiving : Receiving crc32fast sent lastSent peer values last) :
    Receiving crc32fast sent lastSent (peer.arrive []) values last := by
  rwa [Peer.arrive, List.append_nil]

theorem Receiving.arrive (sent : List Piece) (lastSent : UInt64) (peer : Peer)
    (values : List (Option Frame)) (last : FrameCodec) (piece : Piece) (wire : WireFrame)
    (receiving : Receiving crc32fast sent lastSent peer values last)
    (part : wire.part = piece.frame.part) (ahead : lastSent ≤ wire.sequence)
    (started : (runKeyed Part.channelId collect (fun _ => none)
      ((sent ++ [piece]).map (·.frame.part))).1 = (sent ++ [piece]).map Piece.expected) :
    ∃ values next, Receiving crc32fast (sent ++ [piece]) wire.sequence
      (peer.arrive (wire.bytes crc32fast)) values next := by
  obtain ⟨value, next, reassembled, outcome⟩ :=
    reassemble_wire crc32fast { last with rxSequence := wire.sequence } wire
  have fresh : last.rxSequence ≤ wire.sequence := receiving.reached.symm ▸ ahead
  have token := codecDecoder_token crc32fast last wire value next fresh reassembled
  obtain ⟨one, produced, moved⟩ := outcome.collect crc32fast
    { last with rxSequence := wire.sequence } next wire value receiving.distinct
  change value.map Frame.delivery =
    (collect (last.pending wire.part.channelId) wire.part).1 at produced
  change next.pending = Function.update last.pending wire.part.channelId
    (collect (last.pending wire.part.channelId) wire.part).2 at moved
  have sequence : next.rxSequence = wire.sequence := outcome.rxSequence
  rw [List.map_append, runKeyed_append, ← receiving.pending, List.map_append] at started
  simp only [List.map_cons, List.map_nil, runKeyed, ← part] at started
  have expected := (List.append_inj' started rfl).2
  rw [← produced, List.cons.injEq] at expected
  refine ⟨values ++ [value], next, ?_, receiving.settled, ?_, one, ?_, sequence⟩
  next =>
    rw [Peer.arrive, ← List.append_assoc]
    exact receiving.stream.concat token
  next =>
    rw [List.reduceOption_append, List.map_append, ← List.append_assoc, Peer.arrive,
      receiving.handed, List.map_append, List.reduceOption_append, List.map_cons, List.map_nil,
      ← expected.1]
    cases value <;> rfl
  next =>
    rw [moved, List.map_append, runKeyed_append, ← receiving.pending]
    simp only [List.map_cons, List.map_nil, runKeyed, ← part]

theorem decode_keeps_sender (codec : ProtocolCodec) (data : Bytes) :
    (codec.decode crc32fast data).2.frameCodec.maxPayloadSize = codec.frameCodec.maxPayloadSize ∧
      (codec.decode crc32fast data).2.frameCodec.txSequence = codec.frameCodec.txSequence := by
  rw [ProtocolCodec.decode_drain]
  refine (codecDecoder crc32fast).drain_invariant
    (fun state => state.maxPayloadSize = codec.frameCodec.maxPayloadSize ∧
      state.txSequence = codec.frameCodec.txSequence) ?_ ?_ _ _ ⟨rfl, rfl⟩
  next =>
    intro state buffer value next rest item holds
    obtain ⟨wire, _, _, outcome⟩ := codecDecoder_item crc32fast state next buffer rest value item
    cases outcome <;> exact holds
  next =>
    intro state buffer abort next rest failed holds
    rwa [codecDecoder_fail crc32fast state next buffer rest abort failed]

theorem deliver_sender (peer : Peer) (count : Nat) :
    peer.SameSender (peer.deliver crc32fast count) := by
  obtain ⟨size, number⟩ := decode_keeps_sender crc32fast peer.codec (peer.arriving.take count)
  exact ⟨size, number, rfl, rfl, rfl, rfl⟩

theorem Receiving.deliver (sent : List Piece) (lastSent : UInt64) (peer : Peer)
    (values : List (Option Frame)) (last : FrameCodec) (count : Nat)
    (receiving : Receiving crc32fast sent lastSent peer values last) :
    (∃ left, Receiving crc32fast sent lastSent (peer.deliver crc32fast count) left last) ∧
      (peer.deliver crc32fast count).failures = peer.failures := by
  obtain ⟨taken, left, middle, rest, drained, all, stream, settled⟩ := receiving.stream.drain
    (peer.codec.rxBuffer ++ peer.arriving.take count) (peer.arriving.drop count)
    (by rw [List.append_assoc, List.take_append_drop])
  have delivered : peer.deliver crc32fast count =
      { peer with
        codec := ⟨middle, rest⟩
        arriving := peer.arriving.drop count
        received := peer.received ++ taken.reduceOption } := by
    simp only [Peer.deliver, ProtocolCodec.decode_drain, drained, Except.map, Except.toOption,
      Option.getD_some, List.append_nil]
  rw [delivered]
  refine ⟨⟨left, stream, settled, ?_, receiving.distinct, receiving.pending, receiving.reached⟩,
    rfl⟩
  rw [← receiving.handed, all, List.reduceOption_append, List.map_append, List.map_append,
    List.append_assoc]

structure Direction (sender receiver : Peer) : Prop where
  failures : sender.failures = []
  sending : Sending sender
  receiving : ∃ values last, Receiving crc32fast sender.sent sender.lastSent receiver values last

theorem direction_new : Direction crc32fast Peer.new Peer.new where
  failures := rfl
  sending :=
    { positive := by decide
      numbered := rfl
      ahead := .inr ⟨rfl, rfl⟩
      covers := ⟨[], ⟨by simp, rfl, fun _ => rfl⟩, fun _ => rfl⟩ }
  receiving :=
    ⟨[], ProtocolCodec.new.frameCodec, .nil _, (codecDecoder crc32fast).empty _, rfl, .nil, rfl,
      rfl⟩

namespace Peer

theorem submit_numbers (peer : Peer) (message : Outgoing) :
    peer.numbers ≤ (peer.submit crc32fast message).numbers := by
  rw [submit]
  split
  next => exact Nat.le_refl _
  next =>
    simp only [numbers, withCodec, List.length_append]
    omega

theorem transmit_numbers (peer : Peer) (channelId : UInt32) (authTag : Vector UInt8 16) :
    peer.numbers ≤ (peer.transmit crc32fast channelId authTag).2.numbers := by
  rw [transmit]
  split
  next => exact Nat.le_refl _
  next piece first =>
    split
    next => exact Nat.le_refl _
    next =>
      have fewer := List.length_eraseP_of_mem (List.mem_of_find?_eq_some first)
        (List.find?_some first)
      simp only [numbers, List.length_append, List.length_singleton]
      omega

end Peer

namespace Direction

variable {crc32fast}

theorem sender_moved (sender later receiver : Peer) (direction : Direction crc32fast sender receiver)
    (failures : later.failures = sender.failures) (sending : Sending later)
    (sent : later.sent = sender.sent) (lastSent : later.lastSent = sender.lastSent) :
    Direction crc32fast later receiver where
  failures := failures.trans direction.failures
  sending := sending
  receiving := by
    rw [sent, lastSent]
    exact direction.receiving

theorem receiver_moved (sender receiver later : Peer)
    (direction : Direction crc32fast sender receiver) (same : receiver.SameReceiver later) :
    Direction crc32fast sender later where
  failures := direction.failures
  sending := direction.sending
  receiving := by
    obtain ⟨values, last, receiving⟩ := direction.receiving
    exact ⟨values, receiving.unchanged crc32fast _ _ _ _ _ _ same⟩

theorem deliver (sender receiver : Peer) (count : Nat)
    (direction : Direction crc32fast sender receiver) :
    Direction crc32fast sender (receiver.deliver crc32fast count) where
  failures := direction.failures
  sending := direction.sending
  receiving := by
    obtain ⟨values, last, receiving⟩ := direction.receiving
    obtain ⟨⟨left, receiving⟩, _⟩ := receiving.deliver crc32fast _ _ _ _ _ count
    exact ⟨left, last, receiving⟩

theorem transmit (sender later receiver : Peer) (bytes : Bytes)
    (direction : Direction crc32fast sender receiver)
    (transmits : Transmits crc32fast sender (bytes, later)) (room : later.numbers ≤ 2 ^ 64) :
    Direction crc32fast later (receiver.arrive bytes) := by
  obtain ⟨values, last, receiving⟩ := direction.receiving
  cases transmits with
  | idle =>
    exact ⟨direction.failures, direction.sending, values, last,
      receiving.arrive_nothing crc32fast _ _ _ _ _⟩
  | sent piece wire _ part number sending same sent lastSent numbers =>
    obtain ⟨pieces, covers, interleaving⟩ := sending.covers
    have started := covers.started _ _ _ _ interleaving
    rw [sent] at started
    -- The number has not come round to zero.
    have ahead : sender.lastSent ≤ wire.sequence := by
      have position := direction.sending.numbered
      rw [numbers] at room
      rw [Nat.mod_eq_of_lt room, ← number] at position
      rw [UInt64.le_iff_toNat_le, position]
      rcases direction.sending.ahead with below | ⟨_, zero⟩
      next => exact Nat.le_of_lt below
      next =>
        rw [zero]
        exact Nat.zero_le _
    refine ⟨same.failures.trans direction.failures, sending, ?_⟩
    rw [sent, lastSent]
    exact receiving.arrive crc32fast _ _ _ _ _ piece wire part ahead started

end Direction

namespace Link

variable {crc32fast}

theorem step_directions (link : Link) (side : Side) (move : Move)
    (forth : Direction crc32fast (link side) (link side.other))
    (back : Direction crc32fast (link side.other) (link side))
    (room : (link.step crc32fast (side, move) side).numbers ≤ 2 ^ 64) :
    Direction crc32fast (link.step crc32fast (side, move) side)
        (link.step crc32fast (side, move) side.other) ∧
      Direction crc32fast (link.step crc32fast (side, move) side.other)
        (link.step crc32fast (side, move) side) := by
  cases move with
  | submit message =>
    obtain ⟨sending, same, sent, lastSent⟩ :=
      submit_spec crc32fast (link side) message forth.sending
    simp only [step, set_self, set_other]
    exact ⟨forth.sender_moved _ _ _ same.failures sending sent lastSent,
      back.receiver_moved _ _ _ same⟩
  | deliver count =>
    have same := deliver_sender crc32fast (link side) count
    have arrived := back.deliver _ _ count
    obtain ⟨values, last, receiving⟩ := back.receiving
    have failures := (receiving.deliver crc32fast _ _ _ _ _ count).2
    simp only [step, set_self, set_other]
    exact ⟨forth.sender_moved _ _ _ failures (forth.sending.unchanged _ _ same) same.sent
      same.lastSent, arrived⟩
  | transmit channelId authTag =>
    have transmits := transmit_spec crc32fast (link side) channelId authTag forth.sending
    simp only [step, set_self, set_other_self] at room ⊢
    have arrived := forth.transmit _ _ _ _ transmits room
    refine ⟨arrived, ?_⟩
    have moved : (link side).SameReceiver ((link side).transmit crc32fast channelId authTag).2 := by
      generalize (link side).transmit crc32fast channelId authTag = sending at transmits
      cases transmits with
      | idle => exact ⟨⟨_, rfl⟩, rfl, rfl, rfl, rfl⟩
      | sent _ _ _ _ _ _ same => exact same
    have kept := back.sender_moved _
      ((link side.other).arrive ((link side).transmit crc32fast channelId authTag).1) _ rfl
      (back.sending.unchanged _ _ ⟨rfl, rfl, rfl, rfl, rfl, rfl⟩) rfl rfl
    exact kept.receiver_moved _ _ _ moved

variable (crc32fast) in
theorem numbers_grow (link : Link) (event : Side × Move) (side : Side) :
    (link side).numbers ≤ (link.step crc32fast event side).numbers := by
  obtain ⟨mine, move⟩ := event
  by_cases same : side = mine
  next =>
    subst same
    cases move with
    | submit message =>
      simpa only [step, set_self] using (link side).submit_numbers crc32fast message
    | transmit channelId authTag =>
      simpa only [step, set_other_self, set_self] using
        (link side).transmit_numbers crc32fast channelId authTag
    | deliver count =>
      rw [step, set_self, (deliver_sender crc32fast (link side) count).numbers]
  next =>
    rw [side.eq_other mine same]
    cases move with
    | submit message => rw [step, set_other]
    | transmit channelId authTag =>
      rw [step, set_self]
      exact Nat.le_refl _
    | deliver count => rw [step, set_other]

theorem step_sound (link : Link) (event : Side × Move)
    (sound : ∀ side, Direction crc32fast (link side) (link side.other))
    (room : ∀ side, (link.step crc32fast event side).numbers ≤ 2 ^ 64) (side : Side) :
    Direction crc32fast (link.step crc32fast event side)
      (link.step crc32fast event side.other) := by
  obtain ⟨mine, move⟩ := event
  have back := sound mine.other
  rw [mine.other_other] at back
  obtain ⟨forth, back⟩ := link.step_directions mine move (sound mine) back (room mine)
  by_cases same : side = mine
  next => exact same ▸ forth
  next =>
    rw [side.eq_other mine same, mine.other_other]
    exact back

theorem run_sound (events : List (Side × Move))
    (room : ∀ side, (Link.new.run crc32fast events side).numbers ≤ 2 ^ 64) (side : Side) :
    Direction crc32fast (Link.new.run crc32fast events side)
      (Link.new.run crc32fast events side.other) := by
  induction events using List.reverseRecOn generalizing side with
  | nil => exact direction_new crc32fast
  | append_singleton events event ih =>
    have before (other : Side) : (Link.new.run crc32fast events other).numbers ≤ 2 ^ 64 := by
      have grown := (Link.new.run crc32fast events).numbers_grow crc32fast event other
      have after := room other
      rw [run, List.foldl_append] at after
      exact Nat.le_trans grown after
    have kept := (Link.new.run crc32fast events).step_sound event (ih before)
    simp only [run, List.foldl_append, List.foldl_cons, List.foldl_nil] at room kept ⊢
    exact kept room side

end Link

theorem Covers.channel (messages : List Outgoing) (pieces sent waiting : List Piece)
    (covers : Covers messages pieces)
    (interleaving : Interleaving (·.message.channelId) (sent ++ waiting) pieces)
    (channelId : UInt32) :
    messages.filter (·.channelId = channelId) =
      ((sent.filter (·.final)).map (·.message)).filter (·.channelId = channelId) ++
        ((waiting.filter (·.final)).map (·.message)).filter (·.channelId = channelId) := by
  have finals (listed : List Piece) :
      ((listed.filter (·.final)).map (·.message)).filter (·.channelId = channelId) =
        ((listed.filter (·.message.channelId = channelId)).filter (·.final)).map (·.message) := by
    rw [List.filter_map, List.filter_filter, List.filter_filter]
    simp only [Function.comp_def, Bool.and_comm]
  rw [← covers.finals, finals, finals, finals, ← interleaving channelId, List.filter_append,
    List.filter_append, List.map_append]

theorem delivery_filter (messages : List Outgoing) (channelId : UInt32) :
    (messages.map Outgoing.delivery).filter (·.channelId = some ⟨channelId⟩) =
      (messages.filter (·.channelId = channelId)).map Outgoing.delivery := by
  rw [List.filter_map]
  congr 2
  funext message
  simp [Outgoing.delivery]

theorem Receiving.rxSequence_le (sent : List Piece) (lastSent : UInt64) (peer : Peer)
    (values : List (Option Frame)) (last : FrameCodec)
    (receiving : Receiving crc32fast sent lastSent peer values last) :
    peer.codec.frameCodec.rxSequence ≤ lastSent := by
  rw [← receiving.reached]
  refine receiving.stream.invariant
    (fun state => peer.codec.frameCodec.rxSequence ≤ state.rxSequence) ?_ UInt64.le_rfl
  intro state buffer value next rest item upTo
  obtain ⟨wire, _, fresh, outcome⟩ := codecDecoder_item crc32fast state next buffer rest value item
  rw [outcome.rxSequence]
  exact UInt64.le_trans upTo fresh

theorem Direction.emptied (sender receiver : Peer)
    (direction : Direction crc32fast sender receiver) (arrived : receiver.arriving = []) :
    receiver.received.map Frame.delivery =
        ((sender.sent.filter (·.final)).map (·.message)).map Outgoing.delivery ∧
      receiver.codec.rxBuffer = [] ∧
      receiver.codec.frameCodec.rxSequence = sender.lastSent ∧
      receiver.codec.frameCodec.pending =
        (runKeyed Part.channelId collect (fun _ => none) (sender.sent.map (·.frame.part))).2 := by
  obtain ⟨values, last, receiving⟩ := direction.receiving
  have handed := receiving.handed
  have stream := receiving.stream
  rw [arrived, List.append_nil] at stream
  obtain ⟨empty, rfl, rfl⟩ := stream.wait_nil receiving.settled
  rw [expected_reduceOption] at handed
  refine ⟨?_, empty, receiving.reached, receiving.pending⟩
  rw [← handed]
  exact (List.append_nil _).symm

theorem Direction.delivered (sender receiver : Peer)
    (direction : Direction crc32fast sender receiver) (failures : receiver.failures = []) :
    Delivered sender receiver := by
  obtain ⟨values, last, receiving⟩ := direction.receiving
  obtain ⟨pieces, covers, interleaving⟩ := direction.sending.covers
  have handed := receiving.handed
  rw [expected_reduceOption] at handed
  have completed : receiver.received.map Frame.delivery <+:
      ((sender.sent.filter (·.final)).map (·.message)).map Outgoing.delivery := ⟨_, handed⟩
  have inStep : InStep sender receiver :=
    ⟨direction.sending.numbered, direction.sending.ahead,
      receiving.rxSequence_le crc32fast _ _ _ _ _⟩
  refine ⟨⟨direction.failures, failures⟩, inStep, completed, ?_, ?_, ?_⟩
  next =>
    intro channelId
    have part := completed.filter (·.channelId = some ⟨channelId⟩)
    rw [delivery_filter] at part
    rw [covers.channel _ _ _ _ interleaving channelId, List.map_append]
    exact part.trans (List.prefix_append _ _)
  next =>
    intro arrived
    obtain ⟨all, empty, number, _⟩ := direction.emptied _ _ _ arrived
    exact ⟨all, empty, number⟩
  next =>
    intro nothing arrived
    obtain ⟨all, _, _, pending⟩ := direction.emptied _ _ _ arrived
    rw [nothing, List.append_nil] at interleaving
    constructor
    next =>
      intro channelId
      have exactly := covers.channel _ _ _ [] (by rwa [List.append_nil]) channelId
      rw [all, delivery_filter, exactly]
      exact congrArg _ (List.append_nil _).symm
    next =>
      rw [covers.interleaved _ _ _ interleaving] at pending
      apply Keyed.eq_nil_of_lookup FrameFragment.channel
      intro channelId
      exact Option.map_eq_none_iff.mp (congrFun pending channelId)

theorem duplex_delivered (events : List (Side × Move))
    (room : ∀ side, (Link.new.run crc32fast events side).numbers ≤ 2 ^ 64) (side : Side) :
    Delivered (Link.new.run crc32fast events side) (Link.new.run crc32fast events side.other) :=
  (Link.run_sound events room side).delivered crc32fast _ _
    (Link.run_sound events room side.other).failures

end

def crossing : List (Side × Move) :=
  [(.left, .submit longText), (.right, .submit shortText),
    (.left, .transmit 1 (Vector.replicate 16 0)), (.right, .deliver 20),
    (.right, .transmit 2 (Vector.replicate 16 1)), (.left, .submit shortText),
    (.left, .transmit 2 (Vector.replicate 16 2)), (.left, .deliver 100), (.right, .deliver 100)]

theorem duplex_delivered_crossing :
    Delivered (Link.new.run Crc.ieee crossing .left) (Link.new.run Crc.ieee crossing .right) := by
  refine duplex_delivered Crc.ieee crossing ?_ .left
  intro side
  cases side <;> decide +kernel

end BitDrive
