import BitDrive.Shared.Run
import Mathlib.Data.List.Perm.Basic
import Mathlib.Logic.Function.Basic

set_option autoImplicit false

namespace Checkout

variable {κ α : Type}

@[ext] structure State (κ α : Type) where
  table : κ → Option α
  out : List (κ × α)
  owner : κ → Option α

inductive Action (κ α : Type) where
  | insert (name : κ) (value : α)
  | remove (name : κ)
  -- A request has to find the value; a turn passes by when it is not there.
  | request (name : κ)
  | turn (name : κ)
  | finish (index : Nat)

variable [DecidableEq κ]

namespace State

def away (state : State κ α) (name : κ) : List α :=
  (state.out.filter fun entry => entry.1 = name).map Prod.snd

/-- The values at hand under a name, in the table or out of it. -/
def copies (state : State κ α) (name : κ) : List α :=
  (state.table name).toList ++ state.away name

def insert (state : State κ α) (name : κ) (value : α) : State κ α :=
  match state.table name with
  | some _ => state
  | none =>
    { state with
      table := Function.update state.table name (some value)
      owner := Function.update state.owner name (some value) }

def remove (state : State κ α) (name : κ) : State κ α :=
  match state.table name with
  | some _ =>
    { state with
      table := Function.update state.table name none
      owner := Function.update state.owner name none }
  | none => state

def take (state : State κ α) (name : κ) : State κ α :=
  match state.table name with
  | some value =>
    { state with
      table := Function.update state.table name none
      out := state.out ++ [(name, value)] }
  | none => state

def finish (state : State κ α) (index : Nat) : State κ α :=
  match state.out[index]? with
  | some (name, value) =>
    { state with
      table := Function.update state.table name (some value)
      out := state.out.eraseIdx index }
  | none => state

def step (state : State κ α) : Action κ α → State κ α
  | .insert name value => state.insert name value
  | .remove name => state.remove name
  | .request name => state.take name
  | .turn name => state.take name
  | .finish index => state.finish index

/-- A name without an owner is not in the table. -/
def Owned (state : State κ α) : Prop := ∀ name, state.owner name = none → state.table name = none

/-- A request finds the owner, and what is put back replaces nothing. -/
def Keeps (state : State κ α) : Action κ α → Prop
  | .request name => ∀ value, state.owner name = some value → state.table name = some value
  | .finish index => ∀ entry, state.out[index]? = some entry → state.table entry.1 = none
  | _ => True

def Safe (state : State κ α) (action : Action κ α) : Prop :=
  state.Keeps action ∧ (state.step action).Owned

/-- A request or an insertion does not come while a value of its name is out. -/
def Waits (state : State κ α) : Action κ α → Prop
  | .request name => ∀ entry ∈ state.out, entry.1 ≠ name
  | .insert name _ => ∀ entry ∈ state.out, entry.1 ≠ name
  | _ => True

/-- Under every name there is the owner and nothing else. -/
def Settled (state : State κ α) : Prop :=
  ∀ name, (state.copies name).Perm (state.owner name).toList

/-- There are more values under a name than it has owners. -/
def Crowded (state : State κ α) (name : κ) : Prop :=
  (state.owner name).toList.length < (state.copies name).length

theorem mem_away (state : State κ α) (entry : κ × α) (member : entry ∈ state.out) :
    entry.2 ∈ state.away entry.1 :=
  List.mem_map_of_mem (List.mem_filter.mpr ⟨member, by simp⟩)

theorem away_eq_nil (state : State κ α) (name : κ)
    (none : ∀ entry ∈ state.out, entry.1 ≠ name) : state.away name = [] := by
  simp only [away, List.map_eq_nil_iff, List.filter_eq_nil_iff]
  simpa using none

theorem insert_copies (state : State κ α) (name : κ) (value : α)
    (absent : state.table name = none) (other : κ) :
    (state.insert name value).copies other =
      if other = name then value :: state.copies name else state.copies other := by
  by_cases same : other = name
  next =>
    subst same
    simp [insert, copies, away, absent]
  next => simp [insert, copies, away, absent, same]

theorem remove_copies (state : State κ α) (name : κ) (value : α)
    (present : state.table name = some value) (other : κ) :
    state.copies other =
      if other = name then value :: (state.remove name).copies name
      else (state.remove name).copies other := by
  by_cases same : other = name
  next =>
    subst same
    simp [remove, copies, away, present]
  next => simp [remove, copies, away, present, same]

theorem take_copies (state : State κ α) (name other : κ) :
    ((state.take name).copies other).Perm (state.copies other) := by
  cases present : state.table name with
  | none => simp [take, present]
  | some value =>
    by_cases same : other = name
    next =>
      subst same
      simp [take, copies, away, present]
    next => simp [take, copies, away, present, same, Ne.symm same]

theorem finish_copies (state : State κ α) (index : Nat)
    (free : ∀ entry, state.out[index]? = some entry → state.table entry.1 = none) (other : κ) :
    ((state.finish index).copies other).Perm (state.copies other) := by
  cases found : state.out[index]? with
  | none => simp [finish, found]
  | some entry =>
    have empty := free entry found
    have ⟨inside, there⟩ := List.getElem?_eq_some_iff.mp found
    have parts : state.out.Perm (entry :: state.out.eraseIdx index) := by
      rw [← there]
      exact (List.getElem_cons_eraseIdx_perm inside).symm
    have kept := (parts.filter fun another => decide (another.1 = other)).map Prod.snd
    by_cases same : other = entry.1
    next =>
      subst same
      simpa [finish, copies, away, found, empty] using kept.symm
    next =>
      simpa [finish, copies, away, found, same, Ne.symm same] using
        kept.symm.append_left (state.table other).toList

theorem perm_toList_iff (values : List α) (owner : Option α) :
    values.Perm owner.toList ↔ values = owner.toList := by
  cases owner with
  | none => exact List.perm_nil
  | some value => exact List.perm_singleton

theorem take_owner (state : State κ α) (name : κ) : (state.take name).owner = state.owner := by
  cases present : state.table name <;> simp [take, present]

theorem finish_owner (state : State κ α) (index : Nat) :
    (state.finish index).owner = state.owner := by
  cases found : state.out[index]? <;> simp [finish, found]

theorem Settled.of_out {state : State κ α} (settled : state.Settled) (entry : κ × α)
    (member : entry ∈ state.out) :
    state.table entry.1 = none ∧ state.owner entry.1 = some entry.2 := by
  have whole := (perm_toList_iff _ _).mp (settled entry.1)
  have there := state.mem_away entry member
  rw [copies] at whole
  generalize state.away entry.1 = away at whole there
  cases away with
  | nil => cases there
  | cons first rest =>
    cases table : state.table entry.1 <;> cases owner : state.owner entry.1 <;> simp_all

theorem Settled.owned {state : State κ α} (settled : state.Settled) : state.Owned := by
  intro name free
  have whole := (perm_toList_iff _ _).mp (settled name)
  simp only [copies, free] at whole
  simpa using (List.append_eq_nil_iff.mp whole).1

theorem Settled.keeps {state : State κ α} (settled : state.Settled) (action : Action κ α)
    (waits : state.Waits action) : state.Keeps action := by
  cases action with
  | request name =>
    intro value owned
    have none : state.away name = [] := state.away_eq_nil name waits
    have whole := (perm_toList_iff _ _).mp (settled name)
    simpa [copies, none, owned, Option.toList_eq_singleton_iff] using whole
  | finish index =>
    intro entry found
    exact (settled.of_out entry (List.mem_of_getElem? found)).1
  | insert => trivial
  | remove => trivial
  | turn => trivial

theorem Settled.step {state : State κ α} (settled : state.Settled) (action : Action κ α)
    (waits : state.Waits action) : (state.step action).Settled := by
  have keeps := settled.keeps action waits
  intro other
  cases action with
  | insert name value =>
    cases present : state.table name with
    | some held => simpa [State.step, State.insert, present] using settled other
    | none =>
      have none : state.away name = [] := state.away_eq_nil name waits
      show ((state.insert name value).copies other).Perm _
      rw [insert_copies state name value present other]
      by_cases same : other = name
      next =>
        subst same
        simp [State.step, State.insert, copies, present, none]
      next => simpa [State.step, State.insert, present, same] using settled other
  | remove name =>
    cases present : state.table name with
    | none => simpa [State.step, State.remove, present] using settled other
    | some value =>
      have before := settled other
      rw [remove_copies state name value present other] at before
      by_cases same : other = name
      next =>
        subst same
        have alone := (perm_toList_iff _ _).mp (by simpa using before)
        cases owner : state.owner other <;>
          simp_all [State.step, State.remove]
      next => simpa [State.step, State.remove, present, same] using before
  | request name =>
    simp only [State.step, take_owner]
    exact (take_copies state name other).trans (settled other)
  | turn name =>
    simp only [State.step, take_owner]
    exact (take_copies state name other).trans (settled other)
  | finish index =>
    simp only [State.step, finish_owner]
    exact (finish_copies state index keeps other).trans (settled other)

theorem Crowded.step {state : State κ α} {name : κ} (crowded : state.Crowded name)
    (owned : state.Owned) (action : Action κ α) (keeps : state.Keeps action) :
    (state.step action).Crowded name := by
  cases action with
  | insert other value =>
    cases present : state.table other with
    | some held => simpa [State.step, State.insert, present] using crowded
    | none =>
      show _ < ((state.insert other value).copies name).length
      rw [insert_copies state other value present name]
      by_cases same : name = other
      next =>
        subst same
        simp only [Crowded] at crowded
        simp [State.step, State.insert, present]
        omega
      next => simpa [State.step, State.insert, present, same, Crowded] using crowded
  | remove other =>
    cases present : state.table other with
    | none => simpa [State.step, State.remove, present] using crowded
    | some value =>
      have before := crowded
      simp only [Crowded, remove_copies state other value present name] at before
      by_cases same : name = other
      next =>
        subst same
        have owner : state.owner name ≠ none := by
          intro free
          simp [owned name free] at present
        cases held : state.owner name with
        | none => exact absurd held owner
        | some holder =>
          simp [held] at before
          simp [Crowded, State.step, State.remove, present] at before ⊢
          omega
      next =>
        simp only [same, if_false] at before
        simpa [Crowded, State.step, State.remove, present, same] using before
  | request other =>
    simp only [State.step, Crowded, take_owner, (take_copies state other name).length_eq]
    exact crowded
  | turn other =>
    simp only [State.step, Crowded, take_owner, (take_copies state other name).length_eq]
    exact crowded
  | finish index =>
    simp only [State.step, Crowded, finish_owner, (finish_copies state index keeps name).length_eq]
    exact crowded

theorem Settled.crowds {state : State κ α} (settled : state.Settled) (action : Action κ α)
    (keeps : state.Keeps action) (hurries : ¬ state.Waits action) :
    ∃ name, (state.step action).Crowded name := by
  cases action with
  | request name =>
    -- The owner is out, so the request does not find it.
    simp only [Waits, not_forall, not_not] at hurries
    have ⟨entry, member, same⟩ := hurries
    subst same
    have ⟨absent, owned⟩ := settled.of_out entry member
    exact absurd (absent.symm.trans (keeps entry.2 owned)) (by simp)
  | insert name value =>
    simp only [Waits, not_forall, not_not] at hurries
    have ⟨entry, member, same⟩ := hurries
    subst same
    have ⟨absent, owned⟩ := settled.of_out entry member
    have one : (state.copies entry.1).length = 1 := by
      simp only [(settled entry.1).length_eq, owned, Option.toList_some, List.length_singleton]
    have two : ((state.insert entry.1 value).copies entry.1).length = 2 := by
      simp [insert_copies state entry.1 value absent, one]
    have owner : ((state.insert entry.1 value).owner entry.1).toList.length = 1 := by
      simp [insert, absent]
    refine ⟨entry.1, ?_⟩
    simp only [State.step, Crowded, owner, two]
    exact Nat.lt_succ_self 1
  | remove => exact absurd trivial hurries
  | turn => exact absurd trivial hurries
  | finish => exact absurd trivial hurries

theorem Owned.not_crowded {state : State κ α} (owned : state.Owned) (idle : state.out = [])
    (name : κ) : ¬ state.Crowded name := by
  have empty : state.away name = [] := by simp [away, idle]
  simp only [Crowded, copies, empty, List.append_nil, Nat.not_lt]
  cases owner : state.owner name with
  | none => simp [owned name owner]
  | some value => cases state.table name <;> simp

theorem each_safe (state : State κ α) (actions : List (Action κ α)) (settled : state.Settled)
    (waits : Run.Each step Waits state actions) : Run.Each step Safe state actions :=
  Run.each_of_each step Settled Waits Safe
    (fun _ action settled waits => settled.step action waits)
    (fun _ action settled waits =>
      ⟨settled.keeps action waits, (settled.step action waits).owned⟩)
    state actions settled waits

theorem crowded_final (state : State κ α) (actions : List (Action κ α)) (name : κ)
    (owned : state.Owned) (crowded : state.Crowded name)
    (safe : Run.Each step Safe state actions) :
    (actions.foldl step state).Owned ∧ (actions.foldl step state).Crowded name :=
  Run.final_of_each step (fun state => state.Owned ∧ state.Crowded name) Safe
    (fun _ action before safe =>
      ⟨safe.2, before.2.step before.1 action safe.1⟩)
    state actions ⟨owned, crowded⟩ safe

theorem each_waits (state : State κ α) (actions finishing : List (Action κ α))
    (settled : state.Settled) (safe : Run.Each step Safe state (actions ++ finishing))
    (idle : ((actions ++ finishing).foldl step state).out = []) :
    Run.Each step Waits state actions := by
  induction actions generalizing state with
  | nil => trivial
  | cons action actions ih =>
    have ⟨here, later⟩ := safe
    by_cases waits : state.Waits action
    next => exact ⟨waits, ih (state.step action) (settled.step action waits) later idle⟩
    next =>
      have ⟨name, crowded⟩ := settled.crowds action here.1 waits
      have ⟨owned, still⟩ :=
        crowded_final (state.step action) (actions ++ finishing) name here.2 crowded later
      exact absurd still (owned.not_crowded idle name)

theorem finish_all (state : State κ α) :
    ((List.replicate state.out.length (Action.finish 0)).foldl step state).out = [] := by
  generalize count : state.out.length = length
  induction length generalizing state with
  | zero => exact List.eq_nil_of_length_eq_zero count
  | succ length ih =>
    apply ih
    cases out : state.out with
    | nil => simp [out] at count
    | cons entry rest => simpa [State.step, finish, out] using count

/-- A run keeps its promises, whatever finishes after it, just when no request or insertion
comes while a value of its name is out. -/
theorem waits_iff_safe (state : State κ α) (actions : List (Action κ α))
    (settled : state.Settled) :
    Run.Each step Waits state actions ↔
      ∀ finishing : List Nat, Run.Each step Safe state (actions ++ finishing.map Action.finish) := by
  constructor
  next =>
    intro waits finishing
    apply each_safe state _ settled
    refine (Run.each_append step Waits state actions _).mpr ⟨waits, ?_⟩
    generalize actions.foldl step state = reached
    induction finishing generalizing reached with
    | nil => trivial
    | cons index finishing ih => exact ⟨trivial, ih _⟩
  next =>
    intro safe
    let reached := actions.foldl step state
    apply each_waits state actions _ settled (safe (List.replicate reached.out.length 0))
    simp only [List.foldl_append, List.map_replicate]
    exact reached.finish_all

end State

end Checkout
