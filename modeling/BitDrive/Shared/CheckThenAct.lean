import Mathlib.Data.List.Induction
import Mathlib.Logic.Function.Basic

set_option autoImplicit false

namespace CheckThenAct

variable {κ α θ : Type} [DecidableEq κ] [DecidableEq θ]

@[ext]
structure State (κ α θ : Type) where
  held : κ → Option α
  pending : θ → Option (κ × α)

inductive Step (κ α θ : Type) where
  | look (task : θ) (name : κ) (value : α)
  | act (task : θ)
  | put (name : κ) (value : α)
  | erase (gone : κ → Bool)

def step (state : State κ α θ) : Step κ α θ → State κ α θ
  | .look task name value =>
    -- A task that is on its way to act does nothing else.
    if state.pending task = none ∧ state.held name = none then
      { state with pending := Function.update state.pending task (some (name, value)) }
    else state
  | .act task =>
    match state.pending task with
    | some (name, value) =>
      { held := Function.update state.held name (some value)
        pending := Function.update state.pending task none }
    | none => state
  | .put name value => { state with held := Function.update state.held name (some value) }
  | .erase gone =>
    { state with held := fun name => if gone name then none else state.held name }

def run (state : State κ α θ) (steps : List (Step κ α θ)) : State κ α θ := steps.foldl step state

def Fills (state : State κ α θ) (name : κ) (value : α) : Step κ α θ → Prop
  | .act task => state.pending task = some (name, value)
  | .put other put => (other, put) = (name, value)
  | _ => False

def Erases (name : κ) : Step κ α θ → Prop
  | .erase gone => gone name = true
  | _ => False

@[simp] theorem run_nil (state : State κ α θ) : run state [] = state := rfl

theorem run_append (state : State κ α θ) (front back : List (Step κ α θ)) :
    run state (front ++ back) = run (run state front) back := List.foldl_append

theorem run_concat (state : State κ α θ) (front : List (Step κ α θ)) (last : Step κ α θ) :
    run state (front ++ [last]) = step (run state front) last := by
  rw [run_append]
  rfl

theorem held_step (state : State κ α θ) (made : Step κ α θ) (name : κ) (value : α) :
    (step state made).held name = some value ↔
      Fills state name value made ∨
        state.held name = some value ∧ ¬ Erases name made ∧
          ∀ other, ¬ Fills state name other made := by
  cases made with
  | look task other put =>
    have same : (step state (.look task other put)).held = state.held := by
      simp only [step]
      split <;> rfl
    simp [same, Fills, Erases]
  | act task =>
    cases waiting : state.pending task with
    | none => simp [step, waiting, Fills, Erases]
    | some entry =>
      obtain ⟨other, put⟩ := entry
      by_cases here : name = other
      next =>
        subst here
        simp [step, waiting, Fills, Erases]
      next =>
        have apart : other ≠ name := fun same => here same.symm
        simp [step, waiting, Fills, Erases, Function.update_of_ne here, apart]
  | put other put =>
    by_cases here : name = other
    next =>
      subst here
      simp [step, Fills, Erases]
    next =>
      have apart : other ≠ name := fun same => here same.symm
      simp [step, Fills, Erases, Function.update_of_ne here, apart]
  | erase gone =>
    cases erased : gone name <;> simp [step, Fills, Erases, erased]

structure LastFill (state : State κ α θ) (steps : List (Step κ α θ)) (name : κ) (value : α)
    (before : List (Step κ α θ)) (fill : Step κ α θ) (after : List (Step κ α θ)) : Prop where
  split : steps = before ++ fill :: after
  fills : Fills (run state before) name value fill
  kept : ∀ later ∈ after, ¬ Erases name later
  last : ∀ front later back, after = front ++ later :: back → ∀ other,
    ¬ Fills (run state (before ++ fill :: front)) name other later

theorem LastFill.concat {state : State κ α θ} {steps before after : List (Step κ α θ)} {name : κ}
    {value : α} {fill : Step κ α θ} (found : LastFill state steps name value before fill after)
    (final : Step κ α θ) (kept : ¬ Erases name final)
    (last : ∀ other, ¬ Fills (run state steps) name other final) :
    LastFill state (steps ++ [final]) name value before fill (after ++ [final]) where
  split := by rw [found.split, List.append_assoc, List.cons_append]
  fills := found.fills
  kept := by
    intro later member
    rcases List.mem_append.mp member with older | newest
    next => exact found.kept later older
    next => rwa [List.mem_singleton.mp newest]
  last := by
    intro front later back split
    cases back using List.reverseRecOn with
    | nil =>
      obtain ⟨rfl, same⟩ := List.append_inj' split rfl
      obtain rfl : final = later := (List.cons.inj same).1
      rwa [← found.split]
    | append_singleton back newest =>
      rw [← List.cons_append, ← List.append_assoc] at split
      obtain ⟨shorter, _⟩ := List.append_inj' split rfl
      exact found.last front later back shorter

theorem held_of_lastFill (state : State κ α θ) (steps : List (Step κ α θ)) (name : κ) (value : α)
    (before : List (Step κ α θ)) (fill : Step κ α θ) (after : List (Step κ α θ))
    (found : LastFill state steps name value before fill after) :
    (run state steps).held name = some value := by
  obtain ⟨rfl, fills, kept, last⟩ := found
  induction after using List.reverseRecOn with
  | nil =>
    rw [run_concat, held_step]
    exact .inl fills
  | append_singleton after final ih =>
    have earlier := ih (fun later member => kept later (List.mem_append_left _ member)) (by
      rintro front later back rfl
      exact last front later (back ++ [final]) (by simp))
    rw [← List.cons_append, ← List.append_assoc, run_concat, held_step]
    exact .inr ⟨earlier, kept final (by simp), last after final [] rfl⟩

theorem held_iff (state : State κ α θ) (steps : List (Step κ α θ)) (name : κ) (value : α)
    (free : state.held name = none) :
    (run state steps).held name = some value ↔
      ∃ before fill after, LastFill state steps name value before fill after := by
  constructor
  next =>
    induction steps using List.reverseRecOn with
    | nil => simp [free]
    | append_singleton steps final ih =>
      rw [run_concat, held_step]
      rintro (fills | ⟨held, kept, last⟩)
      next =>
        refine ⟨steps, final, [], rfl, fills, by simp, ?_⟩
        intro front later back split
        simp at split
      next =>
        obtain ⟨before, fill, after, found⟩ := ih held
        exact ⟨before, fill, after ++ [final], found.concat final kept last⟩
  next =>
    rintro ⟨before, fill, after, found⟩
    exact held_of_lastFill state steps name value before fill after found

theorem held_kept (state : State κ α θ) (steps : List (Step κ α θ)) (name : κ)
    (taken : state.held name ≠ none) (kept : ∀ later ∈ steps, ¬ Erases name later) :
    (run state steps).held name ≠ none := by
  induction steps using List.reverseRecOn with
  | nil => exact taken
  | append_singleton steps final ih =>
    have earlier := ih fun later member => kept later (List.mem_append_left _ member)
    obtain ⟨value, held⟩ := Option.ne_none_iff_exists'.mp earlier
    rw [run_concat]
    by_cases fills : ∃ other, Fills (run state steps) name other final
    next =>
      obtain ⟨other, fills⟩ := fills
      rw [(held_step _ final name other).mpr (.inl fills)]
      exact Option.some_ne_none other
    next =>
      have stays := (held_step _ final name value).mpr
        (.inr ⟨held, kept final (by simp), fun other fill => fills ⟨other, fill⟩⟩)
      rw [stays]
      exact Option.some_ne_none value

theorem taken_iff (state : State κ α θ) (steps : List (Step κ α θ)) (name : κ)
    (free : state.held name = none) :
    (run state steps).held name ≠ none ↔
      ∃ before fill after, steps = before ++ fill :: after ∧
        (∃ value, Fills (run state before) name value fill) ∧
        ∀ later ∈ after, ¬ Erases name later := by
  constructor
  next =>
    intro taken
    obtain ⟨value, held⟩ := Option.ne_none_iff_exists'.mp taken
    obtain ⟨before, fill, after, found⟩ := (held_iff state steps name value free).mp held
    exact ⟨before, fill, after, found.split, ⟨value, found.fills⟩, found.kept⟩
  next =>
    rintro ⟨before, fill, after, rfl, ⟨value, fills⟩, kept⟩
    have filled : (step (run state before) fill).held name = some value :=
      (held_step _ fill name value).mpr (.inl fills)
    rw [run_append]
    exact held_kept _ after name (by simp [filled]) kept

structure LastLook (state : State κ α θ) (steps : List (Step κ α θ)) (task : θ) (name : κ)
    (value : α) (before after : List (Step κ α θ)) : Prop where
  split : steps = before ++ .look task name value :: after
  idle : (run state before).pending task = none
  free : (run state before).held name = none
  waits : .act task ∉ after

theorem LastLook.taken_iff {state : State κ α θ} {steps before after : List (Step κ α θ)} {task : θ}
    {name : κ} {value : α} (found : LastLook state steps task name value before after) :
    (run state steps).held name ≠ none ↔
      ∃ front fill back, after = front ++ fill :: back ∧
        (∃ other, Fills (run state (before ++ .look task name value :: front)) name other fill) ∧
        ∀ later ∈ back, ¬ Erases name later := by
  have looked : (run state (before ++ [.look task name value])).held name = none := by
    rw [run_concat, step]
    split
    next => exact found.free
    next => exact found.free
  have resumed (front : List (Step κ α θ)) :
      run state (before ++ .look task name value :: front) =
        run (run state (before ++ [.look task name value])) front := by
    rw [← run_append, List.append_assoc, List.singleton_append]
  generalize run state (before ++ [.look task name value]) = here at looked resumed
  simp only [found.split, resumed]
  exact CheckThenAct.taken_iff here after name looked

end CheckThenAct
