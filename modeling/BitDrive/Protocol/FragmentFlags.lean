import BitDrive.Protocol.FragmentTrain
import BitDrive.Shared.Crc

set_option autoImplicit false

namespace BitDrive

open ByteLayout

def FrameFlags.carried (flags : FrameFlags) : FrameFlags :=
  { flags with isFragment := false, isLastFragment := false, retransmission := false }

theorem reassemble_unfinished (codec : FrameCodec) (channelId : UInt32) (frame : Frame)
    (addressed : ∃ flags, Addressed channelId frame flags) (fragment : frame.isFragment = true)
    (unfinished : frame.isLastFragment = false) :
    ∃ next, codec.reassembleFragment frame = (.ok none, next) ∧ ¬ next.Clear channelId := by
  obtain ⟨flags, addressed⟩ := addressed
  simp only [Frame.isFragment, Frame.isLastFragment, addressed.flags, Option.elim_some]
    at fragment unfinished
  cases found : codec.rxFragments.findFinIdx? (fun entry => entry.channel = channelId) with
  | none =>
    obtain ⟨entry, own, _, started⟩ :=
      reassemble_absent codec channelId frame flags addressed fragment found
    exact ⟨_, started, fun clear => clear entry (by simp) own⟩
  | some index =>
    have moved := reassemble_found codec channelId frame flags addressed fragment index found
    simp only [unfinished, Bool.false_eq_true, if_false] at moved
    have own : (codec.rxFragments.get index).channel = channelId := by
      simpa using (List.findFinIdx?_eq_some_iff.mp found).1
    exact ⟨_, moved, fun clear => clear _ (List.mem_set index.isLt _) own⟩

theorem reassemble_closed (codec : FrameCodec) (channelId : UInt32) (frame : Frame)
    (addressed : ∃ flags, Addressed channelId frame flags) (fragment : frame.isFragment = true)
    (closed : frame.isLastFragment = true) (pending : ¬ codec.Clear channelId) :
    ∃ whole, (codec.reassembleFragment frame).1 = .ok (some whole) ∧
      whole.header.flags = some {} := by
  obtain ⟨flags, addressed⟩ := addressed
  simp only [Frame.isFragment, Frame.isLastFragment, addressed.flags, Option.elim_some]
    at fragment closed
  cases found : codec.rxFragments.findFinIdx? (fun entry => entry.channel = channelId) with
  | none =>
    refine absurd ?_ pending
    simpa [FrameCodec.Clear] using List.findFinIdx?_eq_none_iff.mp found
  | some index =>
    have moved := reassemble_found codec channelId frame flags addressed fragment index found
    simp only [closed, if_true] at moved
    obtain ⟨whole, _, plain, returned⟩ := moved
    exact ⟨whole, by rw [returned], plain⟩

theorem reassembleEach_pending (codec : FrameCodec) (channelId : UInt32) (frames : List Frame)
    (addressed : ∀ frame ∈ frames, ∃ flags, Addressed channelId frame flags)
    (fragments : ∀ frame ∈ frames, frame.isFragment = true)
    (unfinished : ∀ frame ∈ frames, frame.isLastFragment = false)
    (pending : frames ≠ [] ∨ ¬ codec.Clear channelId) :
    ¬ (codec.reassembleEach frames).2.Clear channelId := by
  induction frames generalizing codec with
  | nil => exact pending.resolve_left fun present => present rfl
  | cons frame frames ih =>
    simp only [List.forall_mem_cons] at addressed fragments unfinished
    have ⟨next, moved, held⟩ :=
      reassemble_unfinished codec channelId frame addressed.1 fragments.1 unfinished.1
    simp only [FrameCodec.reassembleEach, moved]
    exact ih next addressed.2 fragments.2 unfinished.2 (.inr held)

theorem reassembleEach_last (codec : FrameCodec) (front : List Frame) (final : Frame) :
    (codec.reassembleEach (front ++ [final])).1.getLast? =
      some ((codec.reassembleEach front).2.reassembleFragment final).1 := by
  simp only [reassembleEach_append, FrameCodec.reassembleEach, List.getLast?_append,
    List.getLast?_singleton, Option.some_or]

section

variable (crc32fast : Bytes → UInt32)

def FlagsSurvive (sender receiver : FrameCodec) (frameType : FrameType) (channelId : UInt32)
    (payload : Bytes) (flags : FrameFlags) : Prop :=
  ∃ frames whole,
    (sender.encodeFragment crc32fast frameType channelId payload flags).1 = .ok frames ∧
    (receiver.reassembleEach frames).1.getLast? = some (.ok (some whole)) ∧
    whole.header.flags.map FrameFlags.carried = some flags.carried

theorem flags_survive_iff (sender receiver : FrameCodec) (frameType : FrameType)
    (channelId : UInt32) (payload : Bytes) (flags : FrameFlags)
    (positive : 1 ≤ sender.maxPayloadSize) (plain : flags.isFragment = false) :
    FlagsSurvive crc32fast sender receiver frameType channelId payload flags ↔
      payload.length ≤ sender.maxPayloadSize ∨ flags.carried = {} := by
  by_cases short : payload.length ≤ sender.maxPayloadSize
  next =>
    have encoded := encodeFragment_short crc32fast sender frameType channelId payload flags short
    let frame := singleFrame frameType channelId sender.txSequence payload flags
    have returned := reassemble_single receiver frame flags rfl plain
    have last : (receiver.reassembleEach [frame]).1.getLast? = some (.ok (some frame)) := by
      simp only [FrameCodec.reassembleEach, returned, List.getLast?_singleton]
    exact iff_of_true ⟨[frame], frame, by rw [encoded], last, rfl⟩ (.inl short)
  next =>
    have long := Nat.lt_of_not_le short
    obtain ⟨frames, next, encoded, _, _⟩ :=
      encodeFragment_encodes crc32fast sender frameType channelId payload flags positive
    have fragments := encodeFragment_fragments crc32fast sender next frameType channelId payload
      flags frames positive long encoded
    have several := chunks_several sender.maxPayloadSize payload positive long
    obtain ⟨front, final, split, count, train⟩ := fragments.train
    obtain ⟨addressed, fragment, unfinished, closed⟩ := train
    simp only [List.forall_mem_append, List.forall_mem_singleton] at addressed fragment
    have present : front ≠ [] := by
      apply List.ne_nil_of_length_pos
      omega
    have pending := reassembleEach_pending receiver channelId front addressed.1 fragment.1
      unfinished (.inl present)
    obtain ⟨whole, returned, default⟩ := reassemble_closed _ channelId final addressed.2
      fragment.2 closed pending
    have last := reassembleEach_last receiver front final
    rw [returned, ← split] at last
    constructor
    next =>
      rintro ⟨sent, got, same, result, carried⟩
      rw [encoded] at same
      cases same
      rw [last] at result
      cases result
      rw [default] at carried
      exact .inr (Option.some.inj carried).symm
    next =>
      intro unmarked
      have none_set := unmarked.resolve_left short
      exact ⟨frames, whole, by rw [encoded], last, by rw [default, none_set]; rfl⟩

end

theorem flags_survive_iff_encrypted :
    FlagsSurvive Crc.ieee (FrameCodec.new 1) FrameCodec.default .data 1 [7, 8]
        { encrypted := true } ↔
      ([7, 8] : Bytes).length ≤ (FrameCodec.new 1).maxPayloadSize ∨
        FrameFlags.carried { encrypted := true } = {} :=
  flags_survive_iff Crc.ieee (FrameCodec.new 1) FrameCodec.default .data 1 [7, 8]
    { encrypted := true } (by decide) rfl

theorem encrypted_flag_lost :
    ¬ FlagsSurvive Crc.ieee (FrameCodec.new 1) FrameCodec.default .data 1 [7, 8]
      { encrypted := true } := by
  intro ⟨frames, whole, encoded, returned, same⟩
  cases encoded
  cases returned
  contradiction

end BitDrive
