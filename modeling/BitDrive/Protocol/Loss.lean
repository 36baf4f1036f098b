import BitDrive.Protocol.FragmentTrain
import BitDrive.Shared.Crc
import BitDrive.Shared.Gather

set_option autoImplicit false

namespace BitDrive

open ByteLayout Gather

structure SendCall where
  frameType : FrameType
  payload : Bytes
  flags : FrameFlags

structure Labelled where
  message : Nat
  position : Nat
  frame : Frame
  deriving DecidableEq

namespace Labelled

def isFragment (piece : Labelled) : Bool := piece.frame.isFragment

def isLastFragment (piece : Labelled) : Bool := piece.frame.isLastFragment

end Labelled

def label (message : Nat) (frames : List Frame) : List Labelled :=
  frames.mapIdx fun position frame => ⟨message, position, frame⟩

structure Sent where
  call : SendCall
  pieces : List Labelled

namespace FrameCodec

variable (crc32fast : Bytes → UInt32)

def sendAll (channelId : UInt32) : Nat → FrameCodec → List SendCall → List Sent
  | _, _, [] => []
  | message, codec, call :: calls =>
    let encoded := codec.encodeFragment crc32fast call.frameType channelId call.payload call.flags
    let frames := match encoded.1 with
      | .ok frames => frames
      | .error _ => []
    ⟨call, label message frames⟩ :: sendAll channelId (message + 1) encoded.2 calls

def returned (codec : FrameCodec) (joined : List Labelled) :
    List Labelled → List (Frame × List Labelled)
  | [] => []
  | piece :: pieces =>
    match codec.reassembleFragment piece.frame with
    | (.ok (some frame), next) =>
      if piece.isFragment then (frame, joined ++ [piece]) :: next.returned [] pieces
      else (frame, [piece]) :: next.returned joined pieces
    | (.ok none, next) => next.returned (joined ++ [piece]) pieces
    | (.error _, next) => next.returned joined pieces

end FrameCodec

def joinedPayload (joined : List Labelled) : Bytes := joined.flatMap (·.frame.payload)

inductive Holds (channelId : UInt32) (codec : FrameCodec) : List Labelled → Prop where
  | nothing (absent : codec.rxFragments = []) : Holds channelId codec []
  | started (entry : FrameFragment) (joined : List Labelled)
      (known : codec.rxFragments = [entry]) (own : entry.channel = channelId)
      (payload : entry.payload = joinedPayload joined) (present : joined ≠ []) :
      Holds channelId codec joined

inductive Moves (channelId : UInt32) (codec : FrameCodec) (joined : List Labelled)
    (piece : Labelled) : Prop where
  | single (kind : piece.isFragment = false)
      (moved : codec.reassembleFragment piece.frame = (.ok (some piece.frame), codec))
  | kept (next : FrameCodec) (kind : piece.isFragment = true)
      (unfinished : (piece.isLastFragment && !joined.isEmpty) = false)
      (moved : codec.reassembleFragment piece.frame = (.ok none, next))
      (holds : Holds channelId next (joined ++ [piece]))
  | closed (next : FrameCodec) (frame : Frame) (kind : piece.isFragment = true)
      (finished : (piece.isLastFragment && !joined.isEmpty) = true)
      (payload : frame.payload = joinedPayload (joined ++ [piece]))
      (moved : codec.reassembleFragment piece.frame = (.ok (some frame), next))
      (holds : Holds channelId next [])

theorem Holds.moves {channelId : UInt32} {codec : FrameCodec} {joined : List Labelled}
    (holds : Holds channelId codec joined) (piece : Labelled) (flags : FrameFlags)
    (addressed : Addressed channelId piece.frame flags) : Moves channelId codec joined piece := by
  have isFragment : piece.isFragment = flags.isFragment := by
    simp [Labelled.isFragment, Frame.isFragment, addressed.flags]
  have isLastFragment : piece.isLastFragment = flags.isLastFragment := by
    simp [Labelled.isLastFragment, Frame.isLastFragment, addressed.flags]
  cases kind : flags.isFragment with
  | false => exact .single (isFragment.trans kind) (reassemble_single codec _ flags addressed.flags kind)
  | true =>
    cases holds with
    | nothing absent =>
      obtain ⟨entry, own, payload, moved⟩ := reassemble_absent codec channelId piece.frame flags
        addressed kind (by rw [absent]; rfl)
      refine .kept _ (isFragment.trans kind) (by simp) moved ?_
      exact .started entry [piece] (by simp [absent]) own (by simp [payload, joinedPayload]) (by simp)
    | started entry joined only own payload present =>
      obtain ⟨index, known, at_index, first⟩ :=
        find_entry [] entry channelId (by simp) own _ only
      have found := reassemble_found codec channelId piece.frame flags addressed kind index known
      have filled : joined.isEmpty = false := by simpa using present
      have extended : entry.payload ++ piece.frame.payload = joinedPayload (joined ++ [piece]) := by
        simp [payload, joinedPayload]
      simp only [at_index] at found
      cases closed : flags.isLastFragment with
      | false =>
        simp only [closed, Bool.false_eq_true, if_false] at found
        refine .kept _ (isFragment.trans kind) (by simp [isLastFragment, closed]) found ?_
        let joinedEntry := { entry with payload := entry.payload ++ piece.frame.payload }
        exact .started joinedEntry _ (by simp only [only, first]; rfl) own extended (by simp)
      | true =>
        simp only [closed, if_true] at found
        obtain ⟨complete, whole, _, moved⟩ := found
        refine .closed _ complete (isFragment.trans kind) (by simp [isLastFragment, closed, filled])
          (whole.trans extended) moved (.nothing ?_)
        simp only [only, first]
        rfl

theorem returned_gather (channelId : UInt32) (codec : FrameCodec) (joined pieces : List Labelled)
    (holds : Holds channelId codec joined)
    (addressed : ∀ piece ∈ pieces, ∃ flags, Addressed channelId piece.frame flags) :
    (codec.returned joined pieces).map Prod.snd =
        gather Labelled.isFragment Labelled.isLastFragment joined pieces ∧
      ∀ frame taken, (frame, taken) ∈ codec.returned joined pieces →
        frame.payload = joinedPayload taken := by
  induction pieces generalizing codec joined with
  | nil => simp [FrameCodec.returned, gather]
  | cons piece pieces ih =>
    obtain ⟨⟨flags, known⟩, later⟩ := List.forall_mem_cons.mp addressed
    cases holds.moves piece flags known with
    | single kind moved =>
      obtain ⟨same, payloads⟩ := ih codec joined holds later
      have step : codec.returned joined (piece :: pieces) =
          (piece.frame, [piece]) :: codec.returned joined pieces := by
        simp [FrameCodec.returned, moved, kind]
      rw [step, List.map_cons, same, gather, if_pos kind]
      constructor
      next => rfl
      next =>
        intro frame taken member
        rcases List.mem_cons.mp member with head | inside
        next =>
          cases head
          simp [joinedPayload]
        next => exact payloads frame taken inside
    | kept next kind unfinished moved held =>
      have step : codec.returned joined (piece :: pieces) = next.returned (joined ++ [piece]) pieces := by
        simp [FrameCodec.returned, moved]
      rw [step, gather, if_neg (by simp [kind]), if_neg (by simp [unfinished])]
      exact ih next _ held later
    | closed next frame kind finished payload moved held =>
      obtain ⟨same, payloads⟩ := ih next [] held later
      have step : codec.returned joined (piece :: pieces) =
          (frame, joined ++ [piece]) :: next.returned [] pieces := by
        simp [FrameCodec.returned, moved, kind]
      rw [step, List.map_cons, same, gather, if_neg (by simp [kind]), if_pos finished]
      constructor
      next => rfl
      next =>
        intro other taken member
        rcases List.mem_cons.mp member with head | inside
        next =>
          cases head
          exact payload
        next => exact payloads other taken inside

theorem Encodes.shaped {codec : FrameCodec} {channelId : UInt32} {payload : Bytes}
    {flags : FrameFlags} {frames : List Frame} (positive : 0 < codec.maxPayloadSize)
    (encodes : Encodes codec channelId payload flags frames) :
    Shaped Frame.isFragment Frame.isLastFragment frames := by
  cases encodes with
  | whole frame short addressed carried => exact .single frame
  | split frames long fragments =>
    have several := chunks_several codec.maxPayloadSize payload positive long
    have ⟨front, final, cut, count, unfinished, closed⟩ := fragments.split
    rw [cut]
    refine .several front final ?_ ?_ ?_
    next =>
      apply List.ne_nil_of_length_pos
      omega
    next =>
      intro frame member
      have ⟨number, chunk, carried⟩ := unfinished frame member
      exact carried.flags_eq
    next =>
      have ⟨number, chunk, carried⟩ := closed
      exact carried.flags_eq

theorem Encodes.payload {codec : FrameCodec} {channelId : UInt32} {payload : Bytes}
    {flags : FrameFlags} {frames : List Frame} (positive : 0 < codec.maxPayloadSize)
    (encodes : Encodes codec channelId payload flags frames) :
    frames.flatMap Frame.payload = payload := by
  cases encodes with
  | whole frame short addressed carried => simp [carried]
  | split frames long fragments => simp only [fragments.payload, chunks_flatten _ _ positive]

theorem Encodes.addressed {codec : FrameCodec} {channelId : UInt32} {payload : Bytes}
    {flags : FrameFlags} {frames : List Frame}
    (encodes : Encodes codec channelId payload flags frames) :
    ∀ frame ∈ frames, ∃ flags, Addressed channelId frame flags := by
  cases encodes with
  | whole frame short addressed carried => simpa using ⟨flags, addressed⟩
  | split frames long fragments =>
    have ⟨front, final, cut, _, unfinished, number, chunk, closed⟩ := fragments.split
    intro frame member
    simp only [cut, List.mem_append, List.mem_singleton] at member
    rcases member with inside | same
    next =>
      have ⟨number, chunk, carried⟩ := unfinished frame inside
      exact carried.addressed
    next => exact same ▸ closed.addressed

theorem label_frames (message : Nat) (frames : List Frame) :
    (label message frames).map Labelled.frame = frames := by
  apply List.ext_getElem <;> simp [label]

theorem label_message (message : Nat) (frames : List Frame) (piece : Labelled)
    (member : piece ∈ label message frames) : piece.message = message := by
  have ⟨position, bound, same⟩ := List.mem_mapIdx.mp member
  rw [← same]

structure Sent.Sound (channelId : UInt32) (sent : Sent) : Prop where
  shaped : Shaped Labelled.isFragment Labelled.isLastFragment sent.pieces
  payload : joinedPayload sent.pieces = sent.call.payload
  addressed : ∀ piece ∈ sent.pieces, ∃ flags, Addressed channelId piece.frame flags

theorem Encodes.sound {codec : FrameCodec} {channelId : UInt32} {call : SendCall}
    {frames : List Frame} (positive : 0 < codec.maxPayloadSize)
    (encodes : Encodes codec channelId call.payload call.flags frames) (message : Nat) :
    Sent.Sound channelId ⟨call, label message frames⟩ := by
  have same := label_frames message frames
  constructor
  next => exact Shaped.of_map Labelled.frame (by rw [same]; exact encodes.shaped positive)
  next =>
    rw [joinedPayload, ← List.flatMap_map, same]
    exact encodes.payload positive
  next =>
    intro piece member
    exact encodes.addressed piece.frame (same ▸ List.mem_map_of_mem member)

variable (crc32fast : Bytes → UInt32)

theorem sendAll_sound (channelId : UInt32) (message : Nat) (codec : FrameCodec)
    (calls : List SendCall) (positive : 0 < codec.maxPayloadSize) :
    (∀ sent ∈ codec.sendAll crc32fast channelId message calls,
      sent.Sound channelId ∧ ∀ piece ∈ sent.pieces, message ≤ piece.message) ∧
    (codec.sendAll crc32fast channelId message calls).Pairwise fun first second =>
      List.Disjoint first.pieces second.pieces := by
  induction calls generalizing message codec with
  | nil => simp [FrameCodec.sendAll]
  | cons call calls ih =>
    have ⟨frames, next, encoded, size, encodes⟩ := encodeFragment_encodes crc32fast codec
      call.frameType channelId call.payload call.flags positive
    have ⟨sound, apart⟩ := ih (message + 1) next (size ▸ positive)
    have step : codec.sendAll crc32fast channelId message (call :: calls) =
        ⟨call, label message frames⟩ :: next.sendAll crc32fast channelId (message + 1) calls := by
      simp [FrameCodec.sendAll, encoded]
    rw [step]
    constructor
    next =>
      refine List.forall_mem_cons.mpr ⟨⟨encodes.sound positive message, ?_⟩, ?_⟩
      next => exact fun piece member => Nat.le_of_eq (label_message message frames piece member).symm
      next =>
        intro sent member
        exact ⟨(sound sent member).1, fun piece inside =>
          Nat.le_of_succ_le ((sound sent member).2 piece inside)⟩
    next =>
      have unshared (later : Sent)
          (member : later ∈ next.sendAll crc32fast channelId (message + 1) calls) :
          List.Disjoint (label message frames) later.pieces := by
        intro piece own other
        have here := label_message message frames piece own
        have there := (sound later member).2 piece other
        omega
      exact List.pairwise_cons.mpr ⟨unshared, apart⟩

def AllOrNothing (sents : List Sent) (returned : List (Frame × List Labelled)) : Prop :=
  ∀ frame taken, (frame, taken) ∈ returned →
    ∃ sent ∈ sents, taken = sent.pieces ∧ frame.payload = sent.call.payload

theorem transfers_all_or_nothing (sender : FrameCodec) (channelId : UInt32) (calls : List SendCall)
    (maxPayloadSize : Nat) (transfers : List (Transfer Labelled))
    (positive : 1 ≤ sender.maxPayloadSize)
    (carried : transfers.map Transfer.sent =
      (sender.sendAll crc32fast channelId 0 calls).map Sent.pieces) :
    AllOrNothing (sender.sendAll crc32fast channelId 0 calls)
        ((FrameCodec.new maxPayloadSize).returned [] (transfers.flatMap Transfer.arrived)) ↔
      Spared Labelled.isFragment Labelled.isLastFragment transfers := by
  have ⟨sound, apart⟩ := sendAll_sound crc32fast channelId 0 sender calls positive
  generalize sender.sendAll crc32fast channelId 0 calls = sents at carried sound apart ⊢
  have source (transfer : Transfer Labelled) (member : transfer ∈ transfers) :
      ∃ sent ∈ sents, sent.pieces = transfer.sent :=
    List.mem_map.mp (carried ▸ List.mem_map_of_mem member)
  have shaped (transfer : Transfer Labelled) (member : transfer ∈ transfers) :
      Shaped Labelled.isFragment Labelled.isLastFragment transfer.sent := by
    have ⟨sent, known, same⟩ := source transfer member
    exact same ▸ (sound sent known).1.shaped
  have disjoint : transfers.Pairwise fun first second => List.Disjoint first.sent second.sent := by
    rw [← List.pairwise_map (f := Transfer.sent), carried, List.pairwise_map]
    exact apart
  have addressed (piece : Labelled) (member : piece ∈ transfers.flatMap Transfer.arrived) :
      ∃ flags, Addressed channelId piece.frame flags := by
    have ⟨transfer, inside, _, own⟩ := mem_sent transfers piece member
    have ⟨sent, known, same⟩ := source transfer inside
    exact (sound sent known).1.addressed piece (same ▸ own)
  have ⟨gathered, payloads⟩ := returned_gather channelId (FrameCodec.new maxPayloadSize) []
    (transfers.flatMap Transfer.arrived) (.nothing rfl) addressed
  rw [← gather_whole_iff _ _ _ transfers shaped (separates_of_disjoint transfers disjoint) disjoint,
    ← gathered]
  constructor
  next =>
    intro whole taken member
    have ⟨⟨frame, pieces⟩, returned, same⟩ := List.mem_map.mp member
    have ⟨sent, known, complete, _⟩ := whole frame pieces returned
    have ⟨transfer, inside, from_sent⟩ := List.mem_map.mp
      (carried ▸ List.mem_map_of_mem (f := Sent.pieces) known)
    exact ⟨transfer, inside, by rw [from_sent, ← complete, ← same]⟩
  next =>
    intro whole frame taken returned
    have ⟨transfer, inside, complete⟩ := whole taken (List.mem_map_of_mem (f := Prod.snd) returned)
    have ⟨sent, known, same⟩ := source transfer inside
    have payload : frame.payload = sent.call.payload := by
      rw [payloads frame taken returned, complete, ← same, (sound sent known).1.payload]
    exact ⟨sent, known, complete.trans same.symm, payload⟩

theorem all_or_nothing_iff (sender : FrameCodec) (channelId : UInt32) (calls : List SendCall)
    (maxPayloadSize : Nat) (received : List Labelled) (positive : 1 ≤ sender.maxPayloadSize)
    (kept : received.Sublist
      ((sender.sendAll crc32fast channelId 0 calls).map Sent.pieces).flatten) :
    AllOrNothing (sender.sendAll crc32fast channelId 0 calls)
        ((FrameCodec.new maxPayloadSize).returned [] received) ↔
      ∃ transfers : List (Transfer Labelled),
        transfers.map Transfer.sent =
          (sender.sendAll crc32fast channelId 0 calls).map Sent.pieces ∧
        transfers.flatMap Transfer.arrived = received ∧
        Spared Labelled.isFragment Labelled.isLastFragment transfers := by
  constructor
  next =>
    intro whole
    have ⟨transfers, carried, arrived⟩ := exists_transfers _ received kept
    have spared := (transfers_all_or_nothing crc32fast sender channelId calls maxPayloadSize
      transfers positive carried).mp (arrived.symm ▸ whole)
    exact ⟨transfers, carried, arrived, spared⟩
  next =>
    intro ⟨transfers, carried, arrived, spared⟩
    have whole := (transfers_all_or_nothing crc32fast sender channelId calls maxPayloadSize
      transfers positive carried).mpr spared
    exact arrived ▸ whole

def threeBytes : List Sent :=
  (FrameCodec.new 1).sendAll Crc.ieee 1 0 [⟨.data, [1, 2, 3], {}⟩]

def middleLost : List Labelled :=
  threeBytes.flatMap fun sent => sent.pieces.eraseIdx 1

theorem middleLost_kept : middleLost.Sublist (threeBytes.map Sent.pieces).flatten := by
  decide +kernel

theorem all_or_nothing_iff_middleLost :
    AllOrNothing threeBytes ((FrameCodec.new 1).returned [] middleLost) ↔
      ∃ transfers : List (Transfer Labelled),
        transfers.map Transfer.sent = threeBytes.map Sent.pieces ∧
        transfers.flatMap Transfer.arrived = middleLost ∧
        Spared Labelled.isFragment Labelled.isLastFragment transfers :=
  all_or_nothing_iff Crc.ieee (FrameCodec.new 1) 1 [⟨.data, [1, 2, 3], {}⟩] 1 middleLost
    (by decide) middleLost_kept

theorem middle_lost_joined :
    middleLost.Sublist (threeBytes.map Sent.pieces).flatten ∧
      ((FrameCodec.new 1).returned [] middleLost).map (·.1.payload) = [[1, 3]] ∧
      ¬ AllOrNothing threeBytes ((FrameCodec.new 1).returned [] middleLost) := by
  have joined : ((FrameCodec.new 1).returned [] middleLost).map (·.1.payload) = [[1, 3]] := by
    decide +kernel
  have broken : ¬ AllOrNothing threeBytes ((FrameCodec.new 1).returned [] middleLost) := by
    intro whole
    have ⟨⟨frame, taken⟩, returned, payload⟩ : ∃ pair ∈ (FrameCodec.new 1).returned [] middleLost,
        pair.1.payload = [1, 3] := by
      rw [← List.mem_map, joined]
      exact List.mem_singleton_self _
    have ⟨sent, known, _, carried⟩ := whole frame taken returned
    have message : sent.call.payload = [1, 2, 3] := by
      rw [List.mem_singleton.mp known]
    rw [payload, message] at carried
    contradiction
  exact ⟨middleLost_kept, joined, broken⟩

end BitDrive
