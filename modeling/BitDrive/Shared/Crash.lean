import Mathlib.Data.List.Basic

set_option autoImplicit false

namespace Crash

variable {σ ε : Type}

structure Run (σ ε : Type) where
  states : List σ
  result : Except ε σ

abbrev Program (σ ε : Type) := σ → Run σ ε

namespace Run

def cut (run : Run σ ε) (start : σ) (steps : Nat) : σ :=
  (run.states.take steps).getLastD start

structure Meets (invariant post : σ → Prop) (run : Run σ ε) : Prop where
  survives : ∀ state ∈ run.states, invariant state
  ends : ∃ final, run.result = .ok final ∧ invariant final ∧ post final

theorem cut_mem (run : Run σ ε) (start : σ) (steps : Nat) :
    run.cut start steps = start ∨ run.cut start steps ∈ run.states := by
  rw [cut, List.getLastD_eq_getLast?]
  cases last : (run.states.take steps).getLast? with
  | none => exact .inl rfl
  | some state => exact .inr (List.mem_of_mem_take (List.mem_of_getLast? last))

theorem Meets.weaken {invariant weaker post other : σ → Prop} {run : Run σ ε}
    (meets : run.Meets invariant post) (kept : ∀ state, invariant state → weaker state)
    (reached : ∀ state, invariant state → post state → other state) : run.Meets weaker other := by
  have ⟨final, ended, holds, done⟩ := meets.ends
  exact ⟨fun state member => kept state (meets.survives state member),
    final, ended, kept final holds, reached final holds done⟩

end Run

namespace Program

def skip : Program σ ε := fun state => { states := [], result := .ok state }

def step (action : σ → Except ε σ) : Program σ ε := fun state =>
  match action state with
  | .ok next => { states := [next], result := .ok next }
  | .error error => { states := [], result := .error error }

def andThen (first second : Program σ ε) : Program σ ε := fun state =>
  match (first state).result with
  | .ok next =>
    { states := (first state).states ++ (second next).states, result := (second next).result }
  | .error error => { states := (first state).states, result := .error error }

def all : List (Program σ ε) → Program σ ε
  | [] => skip
  | program :: programs => program.andThen (all programs)

def skipIf (condition : σ → Bool) (body : Program σ ε) : Program σ ε := fun state =>
  if condition state then skip state else body state

variable {invariant post : σ → Prop}

theorem meets_skip (state : σ) (holds : invariant state) (done : post state) :
    ((skip : Program σ ε) state).Meets invariant post :=
  ⟨by simp [skip], state, rfl, holds, done⟩

theorem meets_step (action : σ → Except ε σ) (state next : σ) (acted : action state = .ok next)
    (holds : invariant next) (done : post next) : (step action state).Meets invariant post := by
  simp only [step, acted]
  exact ⟨by simpa using holds, next, rfl, holds, done⟩

theorem meets_andThen (mid : σ → Prop) (first second : Program σ ε) (state : σ)
    (front : (first state).Meets invariant mid)
    (back : ∀ next, invariant next → mid next → (second next).Meets invariant post) :
    (first.andThen second state).Meets invariant post := by
  have ⟨next, ended, holds, reached⟩ := front.ends
  have later := back next holds reached
  simp only [andThen, ended]
  refine ⟨?_, later.ends⟩
  intro left member
  rcases List.mem_append.mp member with early | late
  next => exact front.survives left early
  next => exact later.survives left late

theorem meets_skipIf (condition : σ → Bool) (body : Program σ ε) (state : σ)
    (holds : invariant state) (done : condition state = true → post state)
    (otherwise : condition state = false → (body state).Meets invariant post) :
    (skipIf condition body state).Meets invariant post := by
  rw [skipIf]
  cases met : condition state with
  | true => exact meets_skip state holds (done met)
  | false => exact otherwise met

theorem meets_all {ι : Type} (invariant : σ → Prop) (program : ι → Program σ ε)
    (goal : ι → σ → Prop) (items : List ι)
    (each : ∀ front item back, items = front ++ item :: back → ∀ state, invariant state →
      (∀ earlier ∈ front, goal earlier state) →
      (program item state).Meets
        (fun next => invariant next ∧ ∀ earlier ∈ front, goal earlier next) (goal item))
    (state : σ) (holds : invariant state) :
    (all (items.map program) state).Meets invariant fun final => ∀ item ∈ items, goal item final := by
  have rest (front back : List ι) (split : items = front ++ back) (state : σ)
      (holds : invariant state) (earlier : ∀ item ∈ front, goal item state) :
      (all (back.map program) state).Meets invariant fun final =>
        ∀ item ∈ items, goal item final := by
    induction back generalizing front state with
    | nil =>
      rw [split, List.append_nil]
      exact meets_skip state holds earlier
    | cons item back ih =>
      have here := each front item back split state holds earlier
      refine meets_andThen (fun next => ∀ earlier ∈ front ++ [item], goal earlier next)
        _ _ state ?_ ?_
      next =>
        refine here.weaken (fun _ kept => kept.1) fun next kept reached => ?_
        intro known member
        rcases List.mem_append.mp member with before | same
        next => exact kept.2 known before
        next =>
          rw [List.mem_singleton.mp same]
          exact reached
      next =>
        intro next kept reached
        exact ih (front ++ [item]) (by rw [split, List.append_assoc]; rfl) next kept reached
  exact rest [] items rfl state holds (by simp)

theorem all_skip (programs : List (Program σ ε)) (state : σ)
    (idle : ∀ program ∈ programs, program state = skip state) :
    all programs state = skip state := by
  induction programs with
  | nil => rfl
  | cons program programs ih =>
    have ⟨first, rest⟩ := List.forall_mem_cons.mp idle
    have later := ih rest
    simp only [all, andThen, first, skip, later, List.append_nil]

def interrupted {κ : Type} (program : κ → Program σ ε) (state : σ) (cuts : List (κ × Nat)) : σ :=
  cuts.foldl (fun state cut => (program cut.1 state).cut state cut.2) state

theorem interrupted_invariant {κ : Type} (program : κ → Program σ ε)
    (survives : ∀ argument state, invariant state →
      ∀ left ∈ (program argument state).states, invariant left)
    (state : σ) (holds : invariant state) (cuts : List (κ × Nat)) :
    invariant (interrupted program state cuts) := by
  induction cuts generalizing state with
  | nil => exact holds
  | cons cut cuts ih =>
    have left : invariant ((program cut.1 state).cut state cut.2) := by
      rcases (program cut.1 state).cut_mem state cut.2 with same | passed
      next => rwa [same]
      next => exact survives cut.1 state holds _ passed
    exact ih _ left

end Program

end Crash
