import Mathlib.Data.List.Induction

set_option autoImplicit false

namespace Lifetime

variable {σ ι α : Type} (step : σ → ι → σ) (view : σ → Option α) (born : σ → ι → Option α)
  (evolve : α → ι → Option α)

structure Lives (start : σ) (inputs : List ι) (value : α) (before : List ι) (birth : ι)
    (after : List ι) (first : α) : Prop where
  split : inputs = before ++ birth :: after
  absent : view (before.foldl step start) = none
  born : born (before.foldl step start) birth = some first
  lived : after.foldlM evolve first = some value

def Governs (state : σ) (input : ι) : Prop :=
  view (step state input) = (view state).elim (born state input) fun value => evolve value input

variable {step view born evolve}

theorem Lives.concat {start : σ} {inputs before after : List ι} {value first : α} {birth : ι}
    (lives : Lives step view born evolve start inputs value before birth after first) (input : ι)
    (next : α) (evolved : evolve value input = some next) :
    Lives step view born evolve start (inputs ++ [input]) next before birth (after ++ [input])
      first where
  split := by rw [lives.split, List.append_assoc, List.cons_append]
  absent := lives.absent
  born := lives.born
  lived := by
    rw [List.foldlM_append, lives.lived]
    simp [evolved]

theorem Lives.view_eq {start : σ} {inputs before after : List ι} {value first : α} {birth : ι}
    (lives : Lives step view born evolve start inputs value before birth after first)
    (governs : ∀ (before : List ι) (input : ι),
      Governs step view born evolve (before.foldl step start) input) :
    view (inputs.foldl step start) = some value := by
  obtain ⟨rfl, absent, brought, lived⟩ := lives
  induction after using List.reverseRecOn generalizing value with
  | nil =>
    rw [List.foldl_append, List.foldl_cons, List.foldl_nil, governs before birth, absent,
      Option.elim_none, brought]
    simpa using lived
  | append_singleton after input ih =>
    rw [List.foldlM_append] at lived
    obtain ⟨earlier, reached, evolved⟩ := Option.bind_eq_some_iff.mp lived
    rw [← List.cons_append, ← List.append_assoc, List.foldl_append, List.foldl_cons,
      List.foldl_nil, governs _ input, ih reached]
    simpa using evolved

theorem view_eq_some_iff (start : σ) (empty : view start = none)
    (governs : ∀ (before : List ι) (input : ι),
      Governs step view born evolve (before.foldl step start) input)
    (inputs : List ι) (value : α) :
    view (inputs.foldl step start) = some value ↔
      ∃ before birth after first,
        Lives step view born evolve start inputs value before birth after first := by
  constructor
  next =>
    induction inputs using List.reverseRecOn generalizing value with
    | nil =>
      intro shown
      rw [List.foldl_nil, empty] at shown
      cases shown
    | append_singleton inputs input ih =>
      rw [List.foldl_append, List.foldl_cons, List.foldl_nil, governs inputs input]
      cases shown : view (inputs.foldl step start) with
      | none => exact fun brought => ⟨inputs, input, [], value, rfl, shown, brought, rfl⟩
      | some old =>
        intro evolved
        obtain ⟨before, birth, after, first, lives⟩ := ih old shown
        exact ⟨before, birth, after ++ [input], first, lives.concat input value evolved⟩
  next =>
    rintro ⟨before, birth, after, first, lives⟩
    exact lives.view_eq governs

end Lifetime
