import Mathlib.Data.List.Basic

set_option autoImplicit false

namespace Run

variable {σ ι : Type} (next : σ → ι → σ)

def Each (meets : σ → ι → Prop) : σ → List ι → Prop
  | _, [] => True
  | state, input :: inputs => meets state input ∧ Each meets (next state input) inputs

instance decidableEach (meets : σ → ι → Prop) [∀ state input, Decidable (meets state input)] :
    ∀ state inputs, Decidable (Each next meets state inputs)
  | _, [] => .isTrue trivial
  | state, input :: inputs =>
    have := decidableEach meets (next state input) inputs
    inferInstanceAs (Decidable (meets state input ∧ Each next meets (next state input) inputs))

theorem each_append (meets : σ → ι → Prop) (state : σ) (front back : List ι) :
    Each next meets state (front ++ back) ↔
      Each next meets state front ∧ Each next meets (front.foldl next state) back := by
  induction front generalizing state with
  | nil => simp [Each]
  | cons input front ih => simp [Each, ih, and_assoc]

theorem each_and (meets other : σ → ι → Prop) (state : σ) (inputs : List ι) :
    Each next (fun state input => meets state input ∧ other state input) state inputs ↔
      Each next meets state inputs ∧ Each next other state inputs := by
  induction inputs generalizing state with
  | nil => simp [Each]
  | cons input inputs ih =>
    simp only [Each, ih]
    exact and_and_and_comm

theorem each_and_reached (meets : σ → ι → Prop) (holds : σ → Prop) (state : σ) (inputs : List ι)
    (initial : holds state) :
    Each next (fun state input => meets state input ∧ holds (next state input)) state inputs ↔
      Each next meets state inputs ∧
        ∀ before, before <+: inputs → holds (before.foldl next state) := by
  induction inputs generalizing state with
  | nil => simpa [Each] using initial
  | cons input inputs ih =>
    simp only [Each]
    constructor
    next =>
      intro ⟨⟨met, after⟩, rest⟩
      have ⟨later, reached⟩ := (ih (next state input) after).mp rest
      refine ⟨⟨met, later⟩, ?_⟩
      intro before earlier
      cases before with
      | nil => exact initial
      | cons first before =>
        obtain ⟨rfl, shorter⟩ := List.cons_prefix_cons.mp earlier
        exact reached before shorter
    next =>
      intro ⟨⟨met, later⟩, reached⟩
      have after : holds (next state input) :=
        reached [input] (List.prefix_append [input] inputs)
      have rest (before : List ι) (earlier : before <+: inputs) :
          holds (before.foldl next (next state input)) :=
        reached (input :: before) (List.cons_prefix_cons.mpr ⟨rfl, earlier⟩)
      exact ⟨⟨met, after⟩, (ih (next state input) after).mpr ⟨later, rest⟩⟩

theorem each_map {τ κ : Type} (other : τ → κ → τ) (view : σ → τ) (label : ι → κ)
    (commutes : ∀ state input, view (next state input) = other (view state) (label input))
    (meets : σ → ι → Prop) (seen : τ → κ → Prop)
    (same : ∀ state input, meets state input ↔ seen (view state) (label input))
    (state : σ) (inputs : List ι) :
    Each next meets state inputs ↔ Each other seen (view state) (inputs.map label) := by
  induction inputs generalizing state with
  | nil => simp [Each]
  | cons input inputs ih => simp only [Each, List.map_cons, same, ih, commutes]

section

variable (invariant : σ → Prop) (meets other : σ → ι → Prop)

theorem final_of_each (kept : ∀ state input, invariant state → meets state input →
      invariant (next state input))
    (state : σ) (inputs : List ι) (initial : invariant state)
    (each : Each next meets state inputs) : invariant (inputs.foldl next state) := by
  induction inputs generalizing state with
  | nil => exact initial
  | cons input inputs ih =>
    exact ih (next state input) (kept state input initial each.1) each.2

theorem each_of_each (kept : ∀ state input, invariant state → meets state input →
      invariant (next state input))
    (implied : ∀ state input, invariant state → meets state input → other state input)
    (state : σ) (inputs : List ι) (initial : invariant state)
    (each : Each next meets state inputs) : Each next other state inputs := by
  induction inputs generalizing state with
  | nil => trivial
  | cons input inputs ih =>
    constructor
    next => exact implied state input initial each.1
    next => exact ih (next state input) (kept state input initial each.1) each.2

theorem each_congr (kept : ∀ state input, invariant state → meets state input →
      invariant (next state input))
    (same : ∀ state input, invariant state → (meets state input ↔ other state input))
    (state : σ) (inputs : List ι) (initial : invariant state) :
    Each next meets state inputs ↔ Each next other state inputs := by
  constructor
  next =>
    exact each_of_each next invariant meets other kept
      (fun state input holds => (same state input holds).mp) state inputs initial
  next =>
    have keptOther (state : σ) (input : ι) (holds : invariant state) (met : other state input) :
        invariant (next state input) :=
      kept state input holds ((same state input holds).mpr met)
    exact each_of_each next invariant other meets keptOther
      (fun state input holds => (same state input holds).mpr) state inputs initial

theorem reached_of_each (kept : ∀ state input, invariant state → meets state input →
      invariant (next state input))
    (state : σ) (inputs : List ι) (initial : invariant state)
    (each : Each next meets state inputs) (before : List ι) (earlier : before <+: inputs) :
    invariant (before.foldl next state) := by
  obtain ⟨rest, rfl⟩ := earlier
  exact final_of_each next invariant meets kept state before initial
    ((each_append next meets state before rest).mp each).1

theorem reached_iff_of_each (same : ∀ state input, invariant state → other state input →
      (invariant (next state input) ↔ meets state input))
    (state : σ) (inputs : List ι) (initial : invariant state)
    (each : Each next other state inputs) :
    (∀ before, before <+: inputs → invariant (before.foldl next state)) ↔
      Each next meets state inputs := by
  have all := each_and_reached next other invariant state inputs initial
  have both := each_congr next invariant
    (fun state input => other state input ∧ invariant (next state input))
    (fun state input => other state input ∧ meets state input)
    (fun _ _ _ kept => kept.2)
    (fun state input holds => and_congr_right fun allowed => same state input holds allowed)
    state inputs initial
  rw [all, each_and] at both
  simpa only [each, true_and] using both

theorem reached_iff (same : ∀ state input, invariant state →
      (invariant (next state input) ↔ meets state input))
    (state : σ) (inputs : List ι) (initial : invariant state) :
    (∀ before, before <+: inputs → invariant (before.foldl next state)) ↔
      Each next meets state inputs := by
  have free (state : σ) (inputs : List ι) : Each next (fun _ _ => True) state inputs := by
    induction inputs generalizing state with
    | nil => trivial
    | cons input inputs ih => exact ⟨trivial, ih (next state input)⟩
  exact reached_iff_of_each next invariant meets (fun _ _ => True)
    (fun state input holds _ => same state input holds) state inputs initial (free state inputs)

end

end Run
