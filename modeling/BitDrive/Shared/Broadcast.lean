import Mathlib.Data.List.Induction

set_option autoImplicit false

namespace Broadcast

variable {α : Type}

structure Feed (α : Type) where
  sent : List α
  next : Nat
  got : List Nat

variable (capacity : Nat)

inductive Step (feed : Feed α) : Feed α → Prop where
  | idle : Step feed feed
  | sent (value : α) : Step feed { feed with sent := feed.sent ++ [value] }
  | received (there : feed.next < feed.sent.length)
      (kept : feed.sent.length ≤ feed.next + capacity) :
      Step feed { feed with next := feed.next + 1, got := feed.got ++ [feed.next] }
  | lagged (behind : feed.next + capacity < feed.sent.length) :
      Step feed { feed with next := feed.sent.length - capacity }

def start (sent : List α) : Feed α where
  sent := sent
  next := sent.length
  got := []

def Feed.Shown (feed : Feed α) (place : Nat) : Prop :=
  place ∈ feed.got ∨ feed.next ≤ place ∧ feed.sent.length ≤ place + capacity

def Feed.Behind (feed : Feed α) (place : Nat) : Prop :=
  feed.next ≤ place ∧ place + capacity < feed.sent.length

structure Feed.Sound (feed : Feed α) : Prop where
  next : feed.next ≤ feed.sent.length
  got : ∀ place ∈ feed.got, place < feed.next
  ordered : feed.got.Pairwise (· < ·)

theorem start_sound (sent : List α) : (start sent).Sound where
  next := Nat.le_refl _
  got := by simp [start]
  ordered := .nil

variable {capacity}

theorem Step.grows {feed later : Feed α} (step : Step capacity feed later) :
    feed.sent <+: later.sent := by
  cases step with
  | sent value => exact List.prefix_append _ _
  | _ => exact List.prefix_refl _

theorem Step.next_le {feed later : Feed α} (step : Step capacity feed later) :
    feed.next ≤ later.next := by
  cases step with
  | idle => exact Nat.le_refl _
  | sent value => exact Nat.le_refl _
  | received => exact Nat.le_succ _
  | lagged behind =>
    change feed.next ≤ feed.sent.length - capacity
    omega

theorem Step.sound {feed later : Feed α} (step : Step capacity feed later) (sound : feed.Sound) :
    later.Sound := by
  obtain ⟨next, got, ordered⟩ := sound
  cases step with
  | idle => exact ⟨next, got, ordered⟩
  | sent value => exact ⟨by simp only [List.length_append]; omega, got, ordered⟩
  | received there kept =>
    refine ⟨there, ?_, List.pairwise_append.mpr ⟨ordered, List.pairwise_singleton _ _, ?_⟩⟩
    next =>
      intro place member
      rcases List.mem_append.mp member with older | newest
      next => exact Nat.lt_succ_of_lt (got place older)
      next => exact Nat.lt_succ_of_le (Nat.le_of_eq (List.mem_singleton.mp newest))
    next =>
      intro place older last newest
      rw [List.mem_singleton.mp newest]
      exact got place older
  | lagged behind =>
    refine ⟨Nat.sub_le _ _, fun place older => ?_, ordered⟩
    have before := got place older
    change place < feed.sent.length - capacity
    omega

theorem Step.got_subset {feed later : Feed α} (step : Step capacity feed later) :
    feed.got ⊆ later.got := by
  cases step with
  | received => exact List.subset_append_left _ _
  | _ => exact List.Subset.refl _

theorem Step.shown_iff {feed later : Feed α} (step : Step capacity feed later) (sound : feed.Sound)
    (place : Nat) (sent : place < later.sent.length) :
    later.Shown capacity place ↔
      ¬ later.Behind capacity place ∧
        (feed.Shown capacity place ∨ feed.sent.length ≤ place) := by
  by_cases received : place ∈ feed.got
  next =>
    have past : ¬ later.Behind capacity place := by
      intro behind
      have before := Nat.lt_of_lt_of_le (sound.got place received) step.next_le
      exact Nat.not_le_of_lt before behind.1
    exact iff_of_true (.inl (step.got_subset received)) ⟨past, .inl (.inl received)⟩
  next =>
    have next := sound.next
    cases step with
    | idle =>
      simp only [Feed.Shown, Feed.Behind, received, false_or] at sent ⊢
      omega
    | sent value =>
      simp only [Feed.Shown, Feed.Behind, received, false_or, List.length_append,
        List.length_singleton] at sent ⊢
      omega
    | received there kept =>
      simp only [Feed.Shown, Feed.Behind, received, false_or, List.mem_append,
        List.mem_singleton] at sent ⊢
      omega
    | lagged behind =>
      simp only [Feed.Shown, Feed.Behind, received, false_or] at sent ⊢
      omega

section Runs

variable {σ ι : Type} (step : σ → ι → σ) (view : σ → Feed α)
variable (steps : ∀ state input, Step capacity (view state) (view (step state input)))

include steps

theorem run_sound (state : σ) (sound : (view state).Sound) (inputs : List ι) :
    (view (inputs.foldl step state)).Sound := by
  induction inputs generalizing state with
  | nil => exact sound
  | cons input inputs ih => exact ih _ ((steps state input).sound sound)

theorem run_grows (state : σ) (inputs : List ι) :
    (view state).sent <+: (view (inputs.foldl step state)).sent := by
  induction inputs generalizing state with
  | nil => exact List.prefix_refl _
  | cons input inputs ih => exact (steps state input).grows.trans (ih _)

theorem shown_iff (state : σ) (sent : List α) (starts : view state = start sent) (inputs : List ι)
    (place : Nat) (inside : place < (view (inputs.foldl step state)).sent.length) :
    (view (inputs.foldl step state)).Shown capacity place ↔
      sent.length ≤ place ∧
        ∀ front, front <+: inputs →
          ¬ (view (front.foldl step state)).Behind capacity place := by
  induction inputs using List.reverseRecOn with
  | nil =>
    rw [List.foldl_nil, starts] at inside ⊢
    refine iff_of_false ?_ fun shown => Nat.not_le_of_lt inside shown.1
    rintro (received | ⟨next, _⟩)
    next => cases received
    next => exact Nat.not_le_of_lt inside next
  | append_singleton inputs input ih =>
    have sound := run_sound step view steps state (starts ▸ start_sound sent) inputs
    simp only [List.prefix_concat_iff, forall_eq_or_imp]
    rw [List.foldl_append, List.foldl_cons, List.foldl_nil] at inside ⊢
    rw [(steps _ input).shown_iff sound place inside]
    rcases Nat.lt_or_ge place (view (inputs.foldl step state)).sent.length with earlier | new
    next =>
      rw [ih earlier, or_iff_left (Nat.not_le_of_lt earlier), and_left_comm]
    next =>
      -- It is newer than anything that was overwritten so far.
      have begun := (run_grows step view steps state inputs).length_le
      rw [starts] at begun
      have before (front : List ι) (part : front <+: inputs) :
          ¬ (view (front.foldl step state)).Behind capacity place := by
        intro behind
        obtain ⟨rest, rfl⟩ := part
        have grown := (run_grows step view steps (front.foldl step state) rest).length_le
        rw [← List.foldl_append] at grown
        have short := behind.2
        omega
      have first : sent.length ≤ place := Nat.le_trans begun new
      constructor
      next => exact fun ⟨here, _⟩ => ⟨first, here, before⟩
      next => exact fun ⟨_, here, _⟩ => ⟨here, .inr new⟩

end Runs

end Broadcast
