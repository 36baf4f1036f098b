import Mathlib.Data.List.Basic

set_option autoImplicit false

namespace Trace

variable {σ ι ω : Type} (step : σ → ι → Option ω × σ)

def outputs : σ → List ι → List ω
  | _, [] => []
  | state, input :: inputs =>
    (step state input).1.toList ++ outputs (step state input).2 inputs

def final : σ → List ι → σ
  | state, [] => state
  | state, input :: inputs => final (step state input).2 inputs

theorem mem_outputs (state : σ) (inputs : List ι) (value : ω) :
    value ∈ outputs step state inputs ↔ ∃ before input after, inputs = before ++ input :: after ∧
      (step (final step state before) input).1 = some value := by
  induction inputs generalizing state with
  | nil => simp [outputs]
  | cons input inputs ih =>
    rw [outputs, List.mem_append, Option.mem_toList, ih]
    constructor
    · rintro (emitted | ⟨before, later, after, rfl, emitted⟩)
      · exact ⟨[], input, inputs, rfl, emitted⟩
      · exact ⟨input :: before, later, after, rfl, emitted⟩
    · intro ⟨before, later, after, split, emitted⟩
      cases before with
      | nil =>
        obtain ⟨rfl, rfl⟩ : input = later ∧ inputs = after := by simpa using split
        exact .inl emitted
      | cons head before =>
        obtain ⟨rfl, rfl⟩ : input = head ∧ inputs = before ++ later :: after := by simpa using split
        exact .inr ⟨before, later, after, rfl, emitted⟩

theorem pairwise_outputs_iff (related : ω → ω → Prop) (state : σ) (inputs : List ι) :
    (outputs step state inputs).Pairwise related ↔
      ∀ before first middle second after,
        inputs = before ++ first :: (middle ++ second :: after) →
        ∀ earlier later, (step (final step state before) first).1 = some earlier →
          (step (final step state (before ++ first :: middle)) second).1 = some later →
          related earlier later := by
  induction inputs generalizing state with
  | nil => simp [outputs]
  | cons input inputs ih =>
    rw [outputs, List.pairwise_append, ih]
    simp only [Option.mem_toList, mem_outputs]
    constructor
    · intro ⟨_, rest, cross⟩ before first middle second after split earlier later emitted followed
      cases before with
      | nil =>
        obtain ⟨rfl, rfl⟩ : input = first ∧ inputs = middle ++ second :: after := by
          simpa using split
        exact cross earlier emitted later ⟨middle, second, after, rfl, followed⟩
      | cons head before =>
        obtain ⟨rfl, rfl⟩ : input = head ∧ inputs = before ++ first :: (middle ++ second :: after) := by
          simpa using split
        exact rest before first middle second after rfl earlier later emitted followed
    · intro pairs
      refine ⟨?_, ?_, ?_⟩
      · cases (step state input).1 <;> simp
      · intro before first middle second after split earlier later emitted followed
        exact pairs (input :: before) first middle second after (by rw [split, List.cons_append])
          earlier later emitted followed
      · rintro earlier emitted later ⟨middle, second, after, rfl, followed⟩
        exact pairs [] input middle second after rfl earlier later emitted followed

end Trace
