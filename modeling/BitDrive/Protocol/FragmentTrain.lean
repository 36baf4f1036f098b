import BitDrive.Protocol.Fragmentation

set_option autoImplicit false

namespace BitDrive

open ByteLayout

def Frame.isFragment (frame : Frame) : Bool := frame.header.flags.elim false (·.isFragment)

def Frame.isLastFragment (frame : Frame) : Bool := frame.header.flags.elim false (·.isLastFragment)

namespace FrameCodec

def reassembleEach (codec : FrameCodec) :
    List Frame → List (Outcome ProtocolError (Option Frame)) × FrameCodec
  | [] => ([], codec)
  | frame :: frames =>
    let first := codec.reassembleFragment frame
    let rest := first.2.reassembleEach frames
    (first.1 :: rest.1, rest.2)

def Clear (codec : FrameCodec) (channelId : UInt32) : Prop :=
  ∀ entry ∈ codec.rxFragments, entry.channel ≠ channelId

def Completes (codec : FrameCodec) (channelId : UInt32) (front : List Frame) (final : Frame) :
    Prop :=
  ∃ whole next, codec.reassembleEach (front ++ [final]) =
      (List.replicate front.length (.ok none) ++ [.ok (some whole)], next) ∧
    whole.payload = (front ++ [final]).flatMap Frame.payload ∧ next.Clear channelId

end FrameCodec

structure Train (channelId : UInt32) (front : List Frame) (final : Frame) : Prop where
  addressed : ∀ frame ∈ front ++ [final], ∃ flags, Addressed channelId frame flags
  fragments : ∀ frame ∈ front ++ [final], frame.isFragment = true
  unfinished : ∀ frame ∈ front, frame.isLastFragment = false
  closed : final.isLastFragment = true

theorem Frame.IsFragment.flags_eq {frame : Frame} {channelId : UInt32} {sequence : UInt64}
    {chunk : Bytes} {closed : Bool} (carried : frame.IsFragment channelId sequence chunk closed) :
    frame.isFragment = true ∧ frame.isLastFragment = closed := by
  have ⟨flags, flagged, fragment, last⟩ := carried.flags
  simp [Frame.isFragment, Frame.isLastFragment, flagged, fragment, last]

theorem Fragments.train {channelId : UInt32} {sequence : UInt64} {parts : List Bytes}
    {frames : List Frame} (fragments : Fragments channelId sequence parts frames) :
    ∃ front final, frames = front ++ [final] ∧ front.length + 1 = parts.length ∧
      Train channelId front final := by
  have ⟨front, final, split, count, unfinished, number, chunk, closed⟩ := fragments.split
  have early (frame : Frame) (member : frame ∈ front) :
      (∃ flags, Addressed channelId frame flags) ∧ frame.isFragment = true ∧
        frame.isLastFragment = false := by
    have ⟨number, chunk, carried⟩ := unfinished frame member
    exact ⟨carried.addressed, carried.flags_eq⟩
  have train : Train channelId front final := by
    constructor
    next =>
      simp only [List.forall_mem_append, List.forall_mem_singleton]
      exact ⟨fun frame member => (early frame member).1, closed.addressed⟩
    next =>
      simp only [List.forall_mem_append, List.forall_mem_singleton]
      exact ⟨fun frame member => (early frame member).2.1, closed.flags_eq.1⟩
    next => exact fun frame member => (early frame member).2.2
    next => exact closed.flags_eq.2
  exact ⟨front, final, split, count, train⟩

theorem reassemble_single (codec : FrameCodec) (frame : Frame) (flags : FrameFlags)
    (flagged : frame.header.flags = some flags) (single : flags.isFragment = false) :
    codec.reassembleFragment frame = (.ok (some frame), codec) := by
  simp [FrameCodec.reassembleFragment, flagged, single]

theorem reassemble_absent (codec : FrameCodec) (channelId : UInt32) (frame : Frame)
    (flags : FrameFlags) (addressed : Addressed channelId frame flags)
    (fragment : flags.isFragment = true)
    (known : codec.rxFragments.findFinIdx? (fun entry => entry.channel = channelId) = none) :
    ∃ entry : FrameFragment, entry.channel = channelId ∧ entry.payload = frame.payload ∧
      codec.reassembleFragment frame =
        (.ok none, { codec with rxFragments := codec.rxFragments ++ [entry] }) := by
  have ⟨⟨magic, version, type, known_flags, named, numbered, length, crc⟩, payload, tag⟩ := frame
  have ⟨flagged, own, sequence, number⟩ := addressed
  simp only at flagged own number
  subst flagged own number
  let entry : FrameFragment :=
    ⟨⟨magic, version, type, some flags, some ⟨channelId⟩, some sequence, length, crc⟩,
      payload, 0, 0, rfl⟩
  exact ⟨entry, rfl, rfl, by simp [FrameCodec.reassembleFragment, fragment, known, entry]⟩

theorem reassemble_found (codec : FrameCodec) (channelId : UInt32) (frame : Frame)
    (flags : FrameFlags) (addressed : Addressed channelId frame flags)
    (fragment : flags.isFragment = true) (index : Fin codec.rxFragments.length)
    (known : codec.rxFragments.findFinIdx? (fun entry => entry.channel = channelId) = some index) :
    let joined := { codec.rxFragments.get index with
      payload := (codec.rxFragments.get index).payload ++ frame.payload }
    if flags.isLastFragment then
      ∃ complete : Frame, complete.payload = joined.payload ∧ complete.header.flags = some {} ∧
        codec.reassembleFragment frame =
          (.ok (some complete), { codec with rxFragments := codec.rxFragments.eraseIdx index })
    else codec.reassembleFragment frame =
      (.ok none, { codec with rxFragments := codec.rxFragments.set index joined }) := by
  have ⟨⟨magic, version, type, known_flags, named, numbered, length, crc⟩, payload, tag⟩ := frame
  have ⟨flagged, own, sequence, number⟩ := addressed
  simp only at flagged own number
  subst flagged own number
  cases closed : flags.isLastFragment with
  | false => simp [FrameCodec.reassembleFragment, fragment, known, closed]
  | true =>
    let entry := codec.rxFragments.get index
    let complete : Frame :=
      ⟨{ entry.header with
        payloadLength := UInt32.ofNat (entry.payload ++ payload).length, flags := some {} },
        entry.payload ++ payload, tag⟩
    exact ⟨complete, rfl, rfl,
      by simp [FrameCodec.reassembleFragment, fragment, known, closed, entry, complete]⟩

theorem find_entry (others : List FrameFragment) (entry : FrameFragment) (channelId : UInt32)
    (apart : ∀ other ∈ others, other.channel ≠ channelId) (own : entry.channel = channelId)
    (entries : List FrameFragment) (known : entries = others ++ [entry]) :
    ∃ index : Fin entries.length,
      entries.findFinIdx? (fun entry => entry.channel = channelId) = some index ∧
        entries.get index = entry ∧ index.val = others.length := by
  subst known
  have last : others.length < (others ++ [entry]).length := by simp
  have found : (others ++ [entry]).findFinIdx? (fun entry => entry.channel = channelId) =
      some ⟨others.length, last⟩ := by
    apply List.findFinIdx?_eq_some_iff.mpr
    constructor
    next => simpa using own
    next =>
      intro earlier before
      have inside : earlier.val < others.length := before
      simpa [List.getElem_append_left inside] using apart _ (List.getElem_mem inside)
  exact ⟨⟨others.length, last⟩, found, by simp, rfl⟩

structure Holding (channelId : UInt32) (others : List FrameFragment) (entry : FrameFragment)
    (codec : FrameCodec) : Prop where
  known : codec.rxFragments = others ++ [entry]
  own : entry.channel = channelId
  apart : ∀ other ∈ others, other.channel ≠ channelId

section

variable {channelId : UInt32} {others : List FrameFragment} {entry : FrameFragment}
  {codec : FrameCodec}

theorem Holding.more (holding : Holding channelId others entry codec) (frame : Frame)
    (addressed : ∃ flags, Addressed channelId frame flags) (fragment : frame.isFragment = true)
    (unfinished : frame.isLastFragment = false) :
    ∃ next, codec.reassembleFragment frame = (.ok none, next) ∧
      Holding channelId others { entry with payload := entry.payload ++ frame.payload } next := by
  have ⟨flags, addressed⟩ := addressed
  simp only [Frame.isFragment, Frame.isLastFragment, addressed.flags, Option.elim_some]
    at fragment unfinished
  have ⟨index, found, same, last⟩ :=
    find_entry others entry channelId holding.apart holding.own _ holding.known
  have moved := reassemble_found codec channelId frame flags addressed fragment index found
  simp only [unfinished, Bool.false_eq_true, if_false, same] at moved
  exact ⟨_, moved, by simp [holding.known, last], holding.own, holding.apart⟩

theorem Holding.last (holding : Holding channelId others entry codec) (frame : Frame)
    (addressed : ∃ flags, Addressed channelId frame flags) (fragment : frame.isFragment = true)
    (closed : frame.isLastFragment = true) :
    ∃ whole next, codec.reassembleFragment frame = (.ok (some whole), next) ∧
      whole.payload = entry.payload ++ frame.payload ∧ next.rxFragments = others := by
  obtain ⟨flags, addressed⟩ := addressed
  simp only [Frame.isFragment, Frame.isLastFragment, addressed.flags, Option.elim_some]
    at fragment closed
  obtain ⟨index, found, same, last⟩ :=
    find_entry others entry channelId holding.apart holding.own _ holding.known
  have moved := reassemble_found codec channelId frame flags addressed fragment index found
  simp only [closed, if_true, same] at moved
  obtain ⟨whole, payload, _, returned⟩ := moved
  exact ⟨whole, _, returned, payload,
    by simp [holding.known, last, List.eraseIdx_append_of_length_le]⟩

theorem Holding.unfinished (holding : Holding channelId others entry codec) (frames : List Frame)
    (addressed : ∀ frame ∈ frames, ∃ flags, Addressed channelId frame flags)
    (fragments : ∀ frame ∈ frames, frame.isFragment = true)
    (unfinished : ∀ frame ∈ frames, frame.isLastFragment = false) :
    ∃ joined next, codec.reassembleEach frames =
        (List.replicate frames.length (.ok none), next) ∧
      Holding channelId others joined next ∧
      joined.payload = entry.payload ++ frames.flatMap Frame.payload := by
  induction frames generalizing codec entry with
  | nil => exact ⟨entry, codec, rfl, holding, by simp⟩
  | cons frame frames ih =>
    simp only [List.forall_mem_cons] at addressed fragments unfinished
    have ⟨middle, moved, held⟩ := holding.more frame addressed.1 fragments.1 unfinished.1
    have ⟨joined, next, rest, holds, payload⟩ :=
      ih held addressed.2 fragments.2 unfinished.2
    have all : codec.reassembleEach (frame :: frames) =
        (List.replicate (frames.length + 1) (.ok none), next) := by
      simp only [FrameCodec.reassembleEach, moved, rest, List.replicate_succ]
    exact ⟨joined, next, all, holds, by rw [payload, List.flatMap_cons, List.append_assoc]⟩

end

theorem reassembleEach_append (codec : FrameCodec) (front back : List Frame) :
    codec.reassembleEach (front ++ back) =
      let first := codec.reassembleEach front
      let rest := first.2.reassembleEach back
      (first.1 ++ rest.1, rest.2) := by
  induction front generalizing codec with
  | nil => rfl
  | cons frame front ih => simp only [List.cons_append, FrameCodec.reassembleEach, ih]

theorem FrameCodec.Clear.find {codec : FrameCodec} {channelId : UInt32}
    (clear : codec.Clear channelId) :
    codec.rxFragments.findFinIdx? (fun entry => entry.channel = channelId) = none := by
  rw [List.findFinIdx?_eq_none_iff]
  simpa using fun entry member => clear entry member

theorem train_completes_iff (codec : FrameCodec) (channelId : UInt32) (front : List Frame)
    (final : Frame) (clear : codec.Clear channelId) (train : Train channelId front final) :
    codec.Completes channelId front final ↔ front ≠ [] := by
  obtain ⟨addressed, fragments, unfinished, closed⟩ := train
  cases front with
  | nil =>
    obtain ⟨flags, known⟩ := addressed final (by simp)
    have fragment := fragments final (by simp)
    simp only [Frame.isFragment, known.flags, Option.elim_some] at fragment
    -- The only frame finds no entry, and nothing is asked about its being the last one.
    obtain ⟨entry, _, _, started⟩ :=
      reassemble_absent codec channelId final flags known fragment clear.find
    have swallowed : ¬ codec.Completes channelId [] final := by
      rintro ⟨whole, next, returned, _⟩
      simp [FrameCodec.reassembleEach, started] at returned
    exact iff_of_false swallowed (fun present => present rfl)
  | cons first front =>
    apply iff_of_true _ (List.cons_ne_nil first front)
    simp only [List.cons_append, List.forall_mem_cons, List.forall_mem_append] at addressed fragments
    obtain ⟨flags, known⟩ := addressed.1
    have fragment := fragments.1
    simp only [Frame.isFragment, known.flags, Option.elim_some] at fragment
    obtain ⟨entry, own, payload, started⟩ :=
      reassemble_absent codec channelId first flags known fragment clear.find
    have holding : Holding channelId codec.rxFragments entry
        { codec with rxFragments := codec.rxFragments ++ [entry] } := ⟨rfl, own, clear⟩
    obtain ⟨joined, middle, between, held, collected⟩ := holding.unfinished front
      addressed.2.1 fragments.2.1 fun frame member => unfinished frame (List.mem_cons_of_mem _ member)
    obtain ⟨whole, next, ended, complete, left⟩ := held.last final addressed.2.2.1 fragments.2.2.1 closed
    have returned : codec.reassembleEach ((first :: front) ++ [final]) =
        (List.replicate (first :: front).length (.ok none) ++ [.ok (some whole)], next) := by
      simp only [List.cons_append, FrameCodec.reassembleEach, started, reassembleEach_append,
        between, ended, List.length_cons, List.replicate_succ]
    have empty : next.Clear channelId := by
      rw [FrameCodec.Clear, left]
      exact clear
    exact ⟨whole, next, returned, by simp [complete, collected, payload], empty⟩

def trainFrame (closed : Bool) (byte : UInt8) : Frame where
  header :=
    { magic := magicNumber
      version := protocolVersion
      type := FrameType.data.toI32
      flags := some { isFragment := true, isLastFragment := closed }
      channelId := some ⟨1⟩
      sequence := some ⟨0⟩
      payloadLength := 1
      headerCrc := 0 }
  payload := [byte]
  authTag := List.replicate 16 0

theorem trainFrame_addressed (closed : Bool) (byte : UInt8) :
    ∃ flags, Addressed 1 (trainFrame closed byte) flags :=
  ⟨_, rfl, rfl, _, rfl⟩

theorem shortTrain : Train 1 [] (trainFrame true 7) where
  addressed := by simpa using trainFrame_addressed true 7
  fragments := by simp [trainFrame, Frame.isFragment]
  unfinished := by simp
  closed := rfl

theorem twoFrameTrain : Train 1 [trainFrame false 7] (trainFrame true 8) where
  addressed := by simpa using ⟨trainFrame_addressed false 7, trainFrame_addressed true 8⟩
  fragments := by simp [trainFrame, Frame.isFragment]
  unfinished := by simp [trainFrame, Frame.isLastFragment]
  closed := rfl

theorem train_completes_iff_two :
    FrameCodec.default.Completes 1 [trainFrame false 7] (trainFrame true 8) ↔
      [trainFrame false 7] ≠ [] :=
  train_completes_iff FrameCodec.default 1 [trainFrame false 7] (trainFrame true 8)
    (by simp [FrameCodec.Clear, FrameCodec.default, FrameCodec.new]) twoFrameTrain

theorem single_fragment_swallowed :
    Train 1 [] (trainFrame true 7) ∧ FrameCodec.default.Clear 1 ∧
      ¬ FrameCodec.default.Completes 1 [] (trainFrame true 7) := by
  have clear : FrameCodec.default.Clear 1 := by
    simp [FrameCodec.Clear, FrameCodec.default, FrameCodec.new]
  refine ⟨shortTrain, clear, ?_⟩
  rintro ⟨whole, next, returned, _⟩
  have same := congrArg Prod.fst returned
  have kept : (FrameCodec.default.reassembleEach ([] ++ [trainFrame true 7])).1 = [.ok none] := rfl
  rw [kept] at same
  simp at same

end BitDrive
