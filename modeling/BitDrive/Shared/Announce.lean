import Mathlib.Data.List.Induction
import Mathlib.Data.List.Nodup
import Mathlib.Data.List.Range
import Mathlib.Logic.Function.Basic

set_option autoImplicit false

namespace Announce

variable {α θ : Type}

structure State (α θ : Type) where
  log : List α
  gone : Nat
  announced : List Nat
  hand : θ → Option Nat

inductive Step (α θ : Type) where
  | write (task : θ) (value : α)
  | announce (task : θ)
  | clear

def start : State α θ where
  log := []
  gone := 0
  announced := []
  hand _ := none

def State.kept (state : State α θ) : List Nat :=
  List.range' state.gone (state.log.length - state.gone)

def State.values (state : State α θ) (places : List Nat) : List α :=
  places.filterMap (state.log[·]?)

variable [DecidableEq θ] (bound : Nat)

def step (state : State α θ) : Step α θ → State α θ
  | .write task value =>
    match state.hand task with
    | none =>
      { log := state.log ++ [value]
        gone := max state.gone (state.log.length + 1 - bound)
        announced := state.announced
        hand := Function.update state.hand task (some state.log.length) }
    | some _ => state
  | .announce task =>
    match state.hand task with
    | some place =>
      { state with
        announced := state.announced ++ [place]
        hand := Function.update state.hand task none }
    | none => state
  | .clear => { state with gone := state.log.length }

def run (steps : List (Step α θ)) : State α θ := steps.foldl (step bound) start

theorem run_append (front back : List (Step α θ)) :
    run bound (front ++ back) = back.foldl (step bound) (run bound front) := List.foldl_append

structure Sound (state : State α θ) : Prop where
  gone : state.gone ≤ state.log.length
  once : state.announced.Nodup
  inside : ∀ place ∈ state.announced, place < state.log.length
  hand : ∀ task place, state.hand task = some place →
    place < state.log.length ∧ place ∉ state.announced
  apart : ∀ task other place, state.hand task = some place → state.hand other = some place →
    task = other

omit [DecidableEq θ] in
theorem start_sound : Sound (start : State α θ) where
  gone := Nat.le_refl 0
  once := List.nodup_nil
  inside := by simp [start]
  hand := by simp [start]
  apart := by simp [start]

theorem Sound.write {state : State α θ} (sound : Sound state) (task : θ) (value : α) :
    Sound (step bound state (.write task value)) := by
  cases busy : state.hand task with
  | some place => simpa only [step, busy] using sound
  | none =>
    simp only [step, busy]
    have cases_held (other : θ) (place : Nat)
        (held : Function.update state.hand task (some state.log.length) other = some place) :
        other = task ∧ place = state.log.length ∨ other ≠ task ∧ state.hand other = some place := by
      by_cases here : other = task
      next =>
        rw [here, Function.update_self, Option.some.injEq] at held
        exact .inl ⟨here, held.symm⟩
      next => exact .inr ⟨here, by rwa [Function.update_of_ne here] at held⟩
    constructor
    next =>
      have before := sound.gone
      simp only [List.length_append, List.length_singleton]
      omega
    next => exact sound.once
    next =>
      intro place member
      have before := sound.inside place member
      simp only [List.length_append, List.length_singleton]
      omega
    next =>
      intro other place held
      simp only [List.length_append, List.length_singleton]
      rcases cases_held other place held with ⟨_, rfl⟩ | ⟨_, before⟩
      next => exact ⟨by omega, fun member => Nat.lt_irrefl _ (sound.inside _ member)⟩
      next =>
        obtain ⟨within, quiet⟩ := sound.hand other place before
        exact ⟨by omega, quiet⟩
    next =>
      -- The place is a new one, so no other task has it.
      have fresh (other : θ) : state.hand other ≠ some state.log.length := fun held =>
        Nat.lt_irrefl _ (sound.hand other _ held).1
      intro first second place one two
      rcases cases_held first place one with ⟨rfl, new⟩ | ⟨_, left⟩ <;>
        rcases cases_held second place two with ⟨rfl, again⟩ | ⟨_, right⟩
      next => rfl
      next => exact absurd (new ▸ right) (fresh second)
      next => exact absurd (again ▸ left) (fresh first)
      next => exact sound.apart first second place left right

theorem Sound.announce {state : State α θ} (sound : Sound state) (task : θ) :
    Sound (step bound state (.announce task)) := by
  cases busy : state.hand task with
  | none => simpa only [step, busy] using sound
  | some place =>
    simp only [step, busy]
    obtain ⟨inside, quiet⟩ := sound.hand task place busy
    have others (other : θ) (later : Nat)
        (held : Function.update state.hand task none other = some later) :
        other ≠ task ∧ state.hand other = some later := by
      by_cases here : other = task
      next =>
        rw [here, Function.update_self] at held
        cases held
      next => exact ⟨here, by rwa [Function.update_of_ne here] at held⟩
    constructor
    next => exact sound.gone
    next => exact List.nodup_append.mpr ⟨sound.once, List.nodup_singleton place, by
      rintro earlier member _ last rfl
      exact quiet (List.mem_singleton.mp last ▸ member)⟩
    next =>
      intro other member
      rcases List.mem_append.mp member with older | newest
      next => exact sound.inside other older
      next => rwa [List.mem_singleton.mp newest]
    next =>
      intro other later held
      obtain ⟨different, before⟩ := others other later held
      obtain ⟨within, silent⟩ := sound.hand other later before
      refine ⟨within, fun member => ?_⟩
      rcases List.mem_append.mp member with older | newest
      next => exact silent older
      next =>
        rw [List.mem_singleton.mp newest] at before
        exact different (sound.apart other task place before busy)
    next =>
      intro first second later one two
      exact sound.apart first second later (others first later one).2 (others second later two).2

theorem step_sound (state : State α θ) (sound : Sound state) (made : Step α θ) :
    Sound (step bound state made) := by
  cases made with
  | write task value => exact sound.write bound task value
  | announce task => exact sound.announce bound task
  | clear => exact ⟨Nat.le_refl _, sound.once, sound.inside, sound.hand, sound.apart⟩

theorem run_sound (steps : List (Step α θ)) : Sound (run bound steps) := by
  induction steps using List.reverseRecOn with
  | nil => exact start_sound
  | append_singleton steps made ih =>
    rw [run_append]
    exact step_sound bound _ ih made

structure Grows (state later : State α θ) : Prop where
  log : state.log <+: later.log
  announced : state.announced <+: later.announced
  gone : state.gone ≤ later.gone

omit [DecidableEq θ] in
theorem Grows.refl (state : State α θ) : Grows state state :=
  ⟨List.prefix_refl _, List.prefix_refl _, Nat.le_refl _⟩

omit [DecidableEq θ] in
theorem Grows.trans {state later last : State α θ} (one : Grows state later)
    (two : Grows later last) : Grows state last :=
  ⟨one.log.trans two.log, one.announced.trans two.announced, one.gone.trans two.gone⟩

theorem step_grows (state : State α θ) (sound : Sound state) (made : Step α θ) :
    Grows state (step bound state made) := by
  cases made with
  | write task value =>
    cases busy : state.hand task with
    | some place => simpa only [step, busy] using Grows.refl state
    | none =>
      simp only [step, busy]
      exact ⟨List.prefix_append _ _, List.prefix_refl _, Nat.le_max_left _ _⟩
  | announce task =>
    cases busy : state.hand task with
    | none => simpa only [step, busy] using Grows.refl state
    | some place =>
      simp only [step, busy]
      exact ⟨List.prefix_refl _, List.prefix_append _ _, Nat.le_refl _⟩
  | clear => exact ⟨List.prefix_refl _, List.prefix_refl _, sound.gone⟩

theorem run_grows (front back : List (Step α θ)) :
    Grows (run bound front) (run bound (front ++ back)) := by
  induction back using List.reverseRecOn with
  | nil => simpa using Grows.refl (run bound front)
  | append_singleton back made ih =>
    rw [← List.append_assoc, run_append bound (front ++ back) [made]]
    exact ih.trans (step_grows bound _ (run_sound bound _) made)

omit [DecidableEq θ] in
theorem mem_kept (state : State α θ) (place : Nat) :
    place ∈ state.kept ↔ state.gone ≤ place ∧ place < state.log.length := by
  rw [State.kept, List.mem_range'_1]
  omega

theorem places_values (log : List α) (first count : Nat) (sum : first + count = log.length) :
    (List.range' first count).filterMap (log[·]?) = log.drop first := by
  induction count generalizing first with
  | zero => rw [List.range'_zero, List.filterMap_nil, List.drop_eq_nil_of_le (by omega)]
  | succ count ih =>
    have inside : first < log.length := by omega
    rw [List.range'_succ, List.filterMap_cons_some (List.getElem?_eq_getElem inside),
      ih (first + 1) (by omega), List.drop_eq_getElem_cons inside]

omit [DecidableEq θ] in
theorem values_kept (state : State α θ) (sound : Sound state) :
    state.values state.kept = state.log.drop state.gone :=
  places_values state.log state.gone _ (Nat.add_sub_cancel' sound.gone)

omit [DecidableEq θ] in
theorem values_getElem? (state : State α θ) (places : List Nat)
    (inside : ∀ place ∈ places, place < state.log.length) (index : Nat) :
    (state.values places)[index]? = places[index]?.bind (state.log[·]?) := by
  induction places generalizing index with
  | nil => simp [State.values]
  | cons place places ih =>
    obtain ⟨here, later⟩ := List.forall_mem_cons.mp inside
    have found : state.log[place]? = some state.log[place] := List.getElem?_eq_getElem here
    rw [State.values, List.filterMap_cons_some found]
    cases index with
    | zero => simp [found]
    | succ index =>
      rw [List.getElem?_cons_succ, List.getElem?_cons_succ]
      exact ih later index

omit [DecidableEq θ] in
theorem values_length (state : State α θ) (places : List Nat)
    (inside : ∀ place ∈ places, place < state.log.length) :
    (state.values places).length = places.length := by
  induction places with
  | nil => rfl
  | cons place places ih =>
    obtain ⟨here, later⟩ := List.forall_mem_cons.mp inside
    have found : state.log[place]? = some state.log[place] := List.getElem?_eq_getElem here
    rw [State.values, List.filterMap_cons_some found, List.length_cons, List.length_cons]
    exact congrArg (· + 1) (ih later)

omit [DecidableEq θ] in
theorem early_iff {listens later : State α θ} (grows : Grows listens later)
    (once : later.announced.Nodup) (index place : Nat)
    (announced : later.announced[index]? = some place) :
    index < listens.announced.length ↔ place ∈ listens.announced := by
  obtain ⟨since, split⟩ := grows.announced
  rw [← split] at once announced
  rcases Nat.lt_or_ge index listens.announced.length with early | late
  next =>
    rw [List.getElem?_append_left early] at announced
    exact iff_of_true early (List.mem_of_getElem? announced)
  next =>
    rw [List.getElem?_append_right late] at announced
    refine iff_of_false (Nat.not_lt_of_le late) fun member => ?_
    exact (List.nodup_append.mp once).2.2 place member place (List.mem_of_getElem? announced) rfl

omit [DecidableEq θ] in
theorem not_mem_kept_iff (state : State α θ) (place : Nat) :
    place ∉ state.kept ↔ place < state.gone ∨ state.log.length ≤ place := by
  rw [mem_kept]
  omega

theorem early_not_kept_iff (front back : List (Step α θ)) (place : Nat)
    (early : place ∈ (run bound front).announced) :
    place ∉ (run bound (front ++ back)).kept ↔ place < (run bound (front ++ back)).gone := by
  have written := (run_sound bound front).inside place early
  have longer := (run_grows bound front back).log.length_le
  rw [not_mem_kept_iff]
  omega

end Announce
