import Mathlib.Data.List.Basic
import Mathlib.Logic.Function.Basic

set_option autoImplicit false

namespace Interleave

variable {κ σ ι ω β : Type} [DecidableEq κ]

def runLocal (step : σ → ι → ω × σ) : σ → List ι → List ω × σ
  | state, [] => ([], state)
  | state, input :: inputs =>
    let moved := step state input
    let more := runLocal step moved.2 inputs
    (moved.1 :: more.1, more.2)

def runKeyed (key : ι → κ) (step : σ → ι → ω × σ) : (κ → σ) → List ι → List ω × (κ → σ)
  | states, [] => ([], states)
  | states, input :: inputs =>
    let moved := step (states (key input)) input
    let more := runKeyed key step (Function.update states (key input) moved.2) inputs
    (moved.1 :: more.1, more.2)

def Interleaving (key : β → κ) (schedule listed : List β) : Prop :=
  ∀ name, schedule.filter (key · = name) = listed.filter (key · = name)

theorem Interleaving.perm [DecidableEq β] (key : β → κ) (schedule listed : List β)
    (interleaving : Interleaving key schedule listed) : schedule.Perm listed := by
  rw [List.perm_iff_count]
  intro value
  have count (values : List β) :
      (values.filter (key · = key value)).count value = values.count value :=
    List.count_filter (by simp)
  rw [← count schedule, interleaving, count listed]

theorem runLocal_append (step : σ → ι → ω × σ) (state : σ) (front back : List ι) :
    runLocal step state (front ++ back) =
      ((runLocal step state front).1 ++ (runLocal step (runLocal step state front).2 back).1,
        (runLocal step (runLocal step state front).2 back).2) := by
  induction front generalizing state with
  | nil => rfl
  | cons input inputs ih => simp only [List.cons_append, runLocal, ih]

theorem runKeyed_append (key : ι → κ) (step : σ → ι → ω × σ) (states : κ → σ)
    (front back : List ι) :
    runKeyed key step states (front ++ back) =
      ((runKeyed key step states front).1 ++
          (runKeyed key step (runKeyed key step states front).2 back).1,
        (runKeyed key step (runKeyed key step states front).2 back).2) := by
  induction front generalizing states with
  | nil => rfl
  | cons input inputs ih => simp only [List.cons_append, runKeyed, ih]

theorem runKeyed_length (key : ι → κ) (step : σ → ι → ω × σ) (states : κ → σ)
    (inputs : List ι) : (runKeyed key step states inputs).1.length = inputs.length := by
  induction inputs generalizing states with
  | nil => rfl
  | cons input inputs ih => simp only [runKeyed, List.length_cons, ih]

theorem Interleaving.move_first (key : β → κ) (done waiting listed : List β) (name : κ) (value : β)
    (first : waiting.find? (key · = name) = some value)
    (interleaving : Interleaving key (done ++ waiting) listed) :
    Interleaving key (done ++ [value] ++ waiting.eraseP (key · = name)) listed := by
  intro other
  rw [← interleaving other]
  obtain ⟨same, before, after, rfl, others⟩ := List.find?_eq_some_iff_append.mp first
  have same : key value = name := of_decide_eq_true same
  have apart : ∀ earlier ∈ before, ¬ (decide (key earlier = name) = true) := by
    intro earlier member
    simpa using others earlier member
  rw [List.eraseP_append_right _ apart, List.eraseP_cons_of_pos (by simp [same])]
  by_cases here : name = other
  next =>
    subst here
    have skipped : before.filter (key · = name) = [] := by
      rw [List.filter_eq_nil_iff]
      exact apart
    simp [List.filter_append, skipped, same]
  next =>
    have unlike : key value ≠ other := same ▸ here
    simp [List.filter_append, unlike]

theorem runKeyed_state (key : ι → κ) (step : σ → ι → ω × σ) (states : κ → σ) (inputs : List ι)
    (name : κ) :
    (runKeyed key step states inputs).2 name =
      (runLocal step (states name) (inputs.filter (key · = name))).2 := by
  induction inputs generalizing states with
  | nil => rfl
  | cons input inputs ih =>
    by_cases same : key input = name
    · subst same
      simp [runKeyed, runLocal, ih]
    · simp [runKeyed, ih, same, Function.update_of_ne (Ne.symm same)]

theorem runKeyed_output (key : ι → κ) (step : σ → ι → ω × σ) (label : β → ι) (expected : β → ω)
    (states : κ → σ) (schedule : List β)
    (alone : ∀ name, (runLocal step (states name)
        ((schedule.filter (fun value => key (label value) = name)).map label)).1 =
      (schedule.filter (fun value => key (label value) = name)).map expected) :
    (runKeyed key step states (schedule.map label)).1 = schedule.map expected := by
  induction schedule generalizing states with
  | nil => rfl
  | cons value schedule ih =>
    have here := alone (key (label value))
    simp only [decide_true, List.filter_cons_of_pos, List.map_cons, runLocal,
      List.cons.injEq] at here
    obtain ⟨first, rest⟩ := here
    simp only [List.map_cons, runKeyed, first, List.cons.injEq, true_and]
    apply ih
    intro name
    by_cases same : key (label value) = name
    · subst same
      simpa using rest
    · simpa [same, Function.update_of_ne (Ne.symm same)] using alone name

end Interleave
