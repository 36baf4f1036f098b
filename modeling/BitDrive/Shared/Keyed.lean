import Mathlib.Data.List.Induction
import Mathlib.Data.List.Nodup
import Mathlib.Logic.Function.Basic

set_option autoImplicit false

namespace Keyed

variable {κ α : Type} (key : α → κ)

theorem filterMap_sublist (keep : α → Option α)
    (keeps : ∀ value, keep value = none ∨ keep value = some value) (values : List α) :
    List.Sublist (values.filterMap keep) values := by
  induction values with
  | nil => exact .slnil
  | cons value values ih =>
    rcases keeps value with dropped | kept
    next =>
      rw [List.filterMap_cons_none dropped]
      exact ih.cons value
    next =>
      rw [List.filterMap_cons_some kept]
      exact ih.cons_cons value

def Distinct (values : List α) : Prop := (values.map key).Nodup

theorem distinct_cons (value : α) (values : List α) :
    Distinct key (value :: values) ↔ (∀ other ∈ values, key other ≠ key value) ∧
      Distinct key values := by
  simp [Distinct, List.nodup_cons]

theorem distinct_set (values : List α) (distinct : Distinct key values) (index : Nat)
    (inside : index < values.length) (value : α) (same : key value = key values[index]) :
    Distinct key (values.set index value) := by
  have unchanged : (values.set index value).map key = values.map key := by
    have within : index < (values.map key).length := by simpa using inside
    have entry : key values[index] = (values.map key)[index] := by simp
    rw [List.map_set, same, entry, List.set_getElem_self]
  rwa [Distinct, unchanged]

theorem distinct_eraseIdx (values : List α) (distinct : Distinct key values) (index : Nat) :
    Distinct key (values.eraseIdx index) :=
  List.Nodup.sublist ((List.eraseIdx_sublist values index).map key) distinct

theorem distinct_concat_iff (values : List α) (value : α) :
    Distinct key (values ++ [value]) ↔
      Distinct key values ∧ ∀ other ∈ values, key other ≠ key value := by
  rw [Distinct, List.map_append, List.nodup_append]
  simp [Distinct]

theorem distinct_concat (values : List α) (distinct : Distinct key values) (value : α)
    (absent : ∀ other ∈ values, key other ≠ key value) : Distinct key (values ++ [value]) :=
  (distinct_concat_iff key values value).mpr ⟨distinct, absent⟩

theorem distinct_filterMap (evolve : α → Option α)
    (same : ∀ value next, evolve value = some next → key next = key value) (values : List α)
    (distinct : Distinct key values) :
    Distinct key (values.filterMap evolve) := by
  induction values with
  | nil => exact distinct
  | cons value values ih =>
    obtain ⟨others, rest⟩ := (distinct_cons key value values).mp distinct
    rw [List.filterMap_cons]
    cases evolved : evolve value with
    | none => exact ih rest
    | some next =>
      refine (distinct_cons key next _).mpr ⟨?_, ih rest⟩
      intro other member
      obtain ⟨old, inside, became⟩ := List.mem_filterMap.mp member
      rw [same value next evolved, same old other became]
      exact others old inside

theorem distinct_evolved (evolve : α → Option α) (born : Option α)
    (same : ∀ value next, evolve value = some next → key next = key value) (values : List α)
    (distinct : Distinct key values)
    (fresh : ∀ value, born = some value →
      (∀ other ∈ values, key other ≠ key value) ∧ ∀ other, evolve other = some other) :
    Distinct key (values.filterMap evolve ++ born.toList) := by
  have kept := distinct_filterMap key evolve same values distinct
  cases born with
  | none => rwa [Option.toList_none, List.append_nil]
  | some value =>
    obtain ⟨apart, unchanged⟩ := fresh value rfl
    obtain rfl : evolve = some := funext unchanged
    rw [List.filterMap_some]
    exact distinct_concat key values distinct value apart

variable [DecidableEq κ]

def without (name : κ) (values : List α) : List α :=
  values.filter fun value => key value ≠ name

def renew (value : α) (values : List α) : List α :=
  without key (key value) values ++ [value]

def modify (change : α → α) (name : κ) : List α → List α
  | [] => []
  | value :: values =>
    if key value = name then change value :: values else value :: modify change name values

def put (value : α) (values : List α) : List α :=
  if ∃ other ∈ values, key other = key value then
    values.map fun other => if key other = key value then value else other
  else values ++ [value]

theorem absent_without (name : κ) (values : List α) :
    ∀ value ∈ without key name values, key value ≠ name := by
  intro value member
  exact of_decide_eq_true (List.mem_filter.mp member).2

theorem without_idle (name : κ) (values : List α)
    (absent : ∀ value ∈ values, key value ≠ name) : without key name values = values := by
  rw [without, List.filter_eq_self]
  intro value member
  exact decide_eq_true (absent value member)

theorem without_cons (name : κ) (value : α) (values : List α) :
    without key name (value :: values) =
      if key value = name then without key name values else value :: without key name values := by
  by_cases same : key value = name
  next => simp [without, same]
  next => simp [without, same]

theorem without_without (name : κ) (values : List α) :
    without key name (without key name values) = without key name values :=
  without_idle key name _ (absent_without key name values)

theorem without_renew (value : α) (values : List α) :
    without key (key value) (renew key value values) = without key (key value) values := by
  simp [renew, without]

theorem foldl_renew (values : List α) (distinct : Distinct key values) :
    values.foldl (fun table value => renew key value table) [] = values := by
  induction values using List.reverseRecOn with
  | nil => rfl
  | append_singleton values value ih =>
    have ⟨front, absent⟩ := (distinct_concat_iff key values value).mp distinct
    rw [List.foldl_append, ih front, List.foldl_cons, List.foldl_nil, renew,
      without_idle key (key value) values absent]

theorem without_modify (change : α → α) (same : ∀ value, key (change value) = key value)
    (name : κ) (values : List α) :
    without key name (modify key change name values) = without key name values := by
  induction values with
  | nil => rfl
  | cons value values ih =>
    by_cases here : key value = name
    next => simp only [modify, here, if_true, without_cons, same]
    next => simp only [modify, here, if_false, without_cons, ih]

theorem map_modify (change : α → α) (same : ∀ value, key (change value) = key value)
    (name : κ) (values : List α) : (modify key change name values).map key = values.map key := by
  induction values with
  | nil => rfl
  | cons value values ih =>
    by_cases here : key value = name
    next => simp only [modify, here, if_true, List.map_cons, same]
    next => simp only [modify, here, if_false, List.map_cons, ih]

theorem distinct_without (name : κ) (values : List α) (distinct : Distinct key values) :
    Distinct key (without key name values) :=
  List.Nodup.sublist (List.filter_sublist.map key) distinct

theorem distinct_renew (value : α) (values : List α) (distinct : Distinct key values) :
    Distinct key (renew key value values) :=
  distinct_concat key _ (distinct_without key (key value) values distinct) value
    (absent_without key (key value) values)

theorem distinct_modify (change : α → α) (same : ∀ value, key (change value) = key value)
    (name : κ) (values : List α) (distinct : Distinct key values) :
    Distinct key (modify key change name values) := by
  rwa [Distinct, map_modify key change same]

def lookup (values : List α) (name : κ) : Option α :=
  values.find? fun value => key value = name

@[simp] theorem lookup_nil (name : κ) : lookup key [] name = none := rfl

theorem lookup_cons (value : α) (values : List α) (name : κ) :
    lookup key (value :: values) name =
      if key value = name then some value else lookup key values name := by
  by_cases same : key value = name <;> simp [lookup, same]

theorem lookup_eq_none (values : List α) (name : κ)
    (absent : ∀ value ∈ values, key value ≠ name) : lookup key values name = none := by
  simpa [lookup] using absent

theorem ne_of_lookup_eq_none {values : List α} {name : κ} (missing : lookup key values name = none)
    (value : α) (member : value ∈ values) : key value ≠ name := by
  simpa using List.find?_eq_none.mp missing value member

theorem lookup_eq_some (values : List α) (distinct : Distinct key values) (name : κ) (value : α) :
    lookup key values name = some value ↔ value ∈ values ∧ key value = name := by
  induction values with
  | nil => simp
  | cons first values ih =>
    obtain ⟨others, rest⟩ := (distinct_cons key first values).mp distinct
    rw [lookup_cons]
    by_cases here : key first = name
    · subst here
      simp only [if_true, Option.some.injEq, List.mem_cons]
      constructor
      · rintro rfl
        exact ⟨.inl rfl, rfl⟩
      · rintro ⟨same | inside, equal⟩
        · exact same.symm
        · exact absurd equal (others value inside)
    · rw [if_neg here, ih rest]
      constructor
      · intro ⟨inside, equal⟩
        exact ⟨List.mem_cons_of_mem first inside, equal⟩
      · intro ⟨member, equal⟩
        rcases List.mem_cons.mp member with rfl | inside
        · exact absurd equal here
        · exact ⟨inside, equal⟩

theorem lookup_filter (keep : α → Bool) (values : List α) (distinct : Distinct key values)
    (name : κ) :
    lookup key (values.filter keep) name = (lookup key values name).filter keep := by
  have fewer : Distinct key (values.filter keep) :=
    List.Nodup.sublist (List.filter_sublist.map key) distinct
  apply Option.ext
  intro value
  rw [Option.filter_eq_some_iff, lookup_eq_some key _ fewer, lookup_eq_some key _ distinct,
    List.mem_filter]
  exact and_right_comm

theorem lookup_filterMap (evolve : α → Option α)
    (same : ∀ value next, evolve value = some next → key next = key value) (values : List α)
    (distinct : Distinct key values) (name : κ) :
    lookup key (values.filterMap evolve) name = (lookup key values name).bind evolve := by
  induction values with
  | nil => rfl
  | cons value values ih =>
    obtain ⟨others, rest⟩ := (distinct_cons key value values).mp distinct
    rw [List.filterMap_cons, lookup_cons]
    by_cases here : key value = name
    next =>
      have gone : lookup key values name = none :=
        lookup_eq_none key values name fun other member => here ▸ others other member
      cases evolved : evolve value with
      | none => simp [here, evolved, ih rest, gone]
      | some next => simp [here, evolved, lookup_cons, same value next evolved]
    next =>
      cases evolved : evolve value with
      | none => simp [here, ih rest]
      | some next => simp [here, ih rest, lookup_cons, same value next evolved]

theorem lookup_getElem (values : List α) (distinct : Distinct key values) (index : Nat)
    (inside : index < values.length) :
    lookup key values (key values[index]) = some values[index] := by
  induction values generalizing index with
  | nil => exact absurd inside (Nat.not_lt_zero index)
  | cons first values ih =>
    obtain ⟨others, rest⟩ := (distinct_cons key first values).mp distinct
    rw [lookup_cons]
    cases index with
    | zero => exact if_pos rfl
    | succ index =>
      have there : index < values.length := Nat.lt_of_succ_lt_succ inside
      have different : key first ≠ key values[index] :=
        (others _ (List.getElem_mem there)).symm
      exact (if_neg different).trans (ih rest index there)

theorem lookup_set (values : List α) (distinct : Distinct key values) (index : Nat)
    (inside : index < values.length) (value : α) (same : key value = key values[index]) :
    lookup key (values.set index value) =
      Function.update (lookup key values) (key value) (some value) := by
  induction values generalizing index with
  | nil => exact absurd inside (Nat.not_lt_zero index)
  | cons first values ih =>
    obtain ⟨others, rest⟩ := (distinct_cons key first values).mp distinct
    funext name
    cases index with
    | zero =>
      have replaced : key value = key first := same
      by_cases here : name = key value
      · subst here
        simp [lookup_cons]
      · simp [lookup_cons, Function.update_of_ne here, ← replaced, Ne.symm here]
    | succ index =>
      have there : index < values.length := Nat.lt_of_succ_lt_succ inside
      have equal : key value = key values[index] := same
      have different : key first ≠ key value := by
        rw [equal]
        exact (others _ (List.getElem_mem there)).symm
      have tail := congrFun (ih rest index there equal) name
      by_cases here : name = key value
      · subst here
        simpa [lookup_cons, different] using tail
      · rw [Function.update_of_ne here] at tail ⊢
        simp only [List.set_cons_succ, lookup_cons, tail]

theorem lookup_eraseIdx (values : List α) (distinct : Distinct key values) (index : Nat)
    (inside : index < values.length) :
    lookup key (values.eraseIdx index) =
      Function.update (lookup key values) (key values[index]) none := by
  induction values generalizing index with
  | nil => exact absurd inside (Nat.not_lt_zero index)
  | cons first values ih =>
    obtain ⟨others, rest⟩ := (distinct_cons key first values).mp distinct
    funext name
    cases index with
    | zero =>
      by_cases here : name = key first
      · subst here
        simp [lookup_eq_none key values _ others]
      · simp [lookup_cons, Function.update_of_ne here, Ne.symm here]
    | succ index =>
      have there : index < values.length := Nat.lt_of_succ_lt_succ inside
      have different : key first ≠ key values[index] := (others _ (List.getElem_mem there)).symm
      have tail := congrFun (ih rest index there) name
      simp only [List.getElem_cons_succ, List.eraseIdx_cons_succ, lookup_cons, tail]
      by_cases here : name = key values[index]
      · subst here
        simp [different]
      · simp [Function.update_of_ne here, lookup_cons]

theorem lookup_concat (values : List α) (value : α)
    (absent : ∀ other ∈ values, key other ≠ key value) :
    lookup key (values ++ [value]) =
      Function.update (lookup key values) (key value) (some value) := by
  funext name
  by_cases here : name = key value
  · subst here
    have front := lookup_eq_none key values _ absent
    rw [lookup] at front
    simp [lookup, List.find?_append, front]
  · simp [lookup, List.find?_append, Function.update_of_ne here, Ne.symm here]

theorem lookup_without (name : κ) (values : List α) :
    lookup key (without key name values) = Function.update (lookup key values) name none := by
  funext other
  induction values with
  | nil =>
    by_cases here : other = name
    next => simp [without, here]
    next => simp [without, Function.update_of_ne here]
  | cons value values ih =>
    rw [without_cons]
    by_cases gone : key value = name
    next =>
      rw [if_pos gone, ih]
      by_cases here : other = name
      next => simp only [here, Function.update_self]
      next =>
        have apart : key value ≠ other := fun same => here (same.symm.trans gone)
        simp only [Function.update_of_ne here, lookup_cons, if_neg apart]
    next =>
      rw [if_neg gone, lookup_cons, ih]
      by_cases here : other = name
      next =>
        have apart : key value ≠ other := fun same => gone (same.trans here)
        rw [if_neg apart, here, Function.update_self, Function.update_self]
      next => simp only [Function.update_of_ne here, lookup_cons]

theorem lookup_renew (value : α) (values : List α) :
    lookup key (renew key value values) =
      Function.update (lookup key values) (key value) (some value) := by
  rw [renew, lookup_concat key _ value (absent_without key (key value) values), lookup_without,
    Function.update_idem]

theorem lookup_key {values : List α} {name : κ} {value : α}
    (found : lookup key values name = some value) : key value = name := by
  have matched := List.find?_some found
  exact of_decide_eq_true matched

theorem lookup_map (change : α → α) (same : ∀ value, key (change value) = key value)
    (values : List α) (name : κ) :
    lookup key (values.map change) name = (lookup key values name).map change := by
  rw [lookup, List.find?_map]
  simp only [Function.comp_def, same]
  rfl

theorem lookup_put (value : α) (values : List α) :
    lookup key (put key value values) =
      Function.update (lookup key values) (key value) (some value) := by
  rw [put]
  split
  next there =>
    have kept (other : α) :
        key (if key other = key value then value else other) = key other := by
      split
      next same => exact same.symm
      next => rfl
    funext name
    rw [lookup_map key _ kept]
    by_cases here : name = key value
    next =>
      subst here
      cases found : lookup key values (key value) with
      | none =>
        obtain ⟨other, member, same⟩ := there
        exact absurd same (ne_of_lookup_eq_none key found other member)
      | some other => simp [lookup_key key found]
    next =>
      rw [Function.update_of_ne here]
      cases found : lookup key values name with
      | none => rfl
      | some other => simp [lookup_key key found, here]
  next absent =>
    exact lookup_concat key values value fun other member same => absent ⟨other, member, same⟩

theorem distinct_put (value : α) (values : List α) (distinct : Distinct key values) :
    Distinct key (put key value values) := by
  rw [put]
  split
  next =>
    have kept (other : α) :
        key (if key other = key value then value else other) = key other := by
      split
      next same => exact same.symm
      next => rfl
    rw [Distinct, List.map_map]
    simp only [Function.comp_def, kept]
    exact distinct
  next absent =>
    exact distinct_concat key values distinct value fun other member same =>
      absent ⟨other, member, same⟩

theorem lookup_modify (change : α → α) (same : ∀ value, key (change value) = key value)
    (name : κ) (values : List α) :
    lookup key (modify key change name values) =
      Function.update (lookup key values) name ((lookup key values name).map change) := by
  funext other
  induction values with
  | nil =>
    by_cases here : other = name
    next => simp [modify, here]
    next => simp [modify, Function.update_of_ne here]
  | cons value values ih =>
    by_cases found : key value = name
    next =>
      by_cases here : other = name
      next => simp [modify, lookup_cons, same, found, here]
      next =>
        have apart : name ≠ other := Ne.symm here
        simp [modify, lookup_cons, same, found, apart, Function.update_of_ne here]
    next =>
      simp only [modify, if_neg found, lookup_cons, ih]
      by_cases here : other = name
      next =>
        subst here
        rw [if_neg found, Function.update_self, Function.update_self]
      next => simp only [Function.update_of_ne here, lookup_cons]

section

variable (evolve : α → Option α) (born : Option α)
  (same : ∀ value next, evolve value = some next → key next = key value) (values : List α)
  (distinct : Distinct key values)
  (fresh : ∀ value, born = some value →
    (∀ other ∈ values, key other ≠ key value) ∧ ∀ other, evolve other = some other)

include same distinct fresh

theorem lookup_evolved (name : κ) :
    lookup key (values.filterMap evolve ++ born.toList) name =
      (lookup key values name).elim (born.filter fun value => key value = name) evolve := by
  cases born with
  | none =>
    rw [Option.toList_none, List.append_nil, lookup_filterMap key evolve same values distinct]
    cases lookup key values name <;> rfl
  | some value =>
    obtain ⟨apart, unchanged⟩ := fresh value rfl
    obtain rfl : evolve = some := funext unchanged
    rw [List.filterMap_some, Option.toList_some, lookup_concat key values value apart]
    by_cases here : name = key value
    next =>
      subst here
      simp [lookup_eq_none key values _ apart, Option.filter]
    next =>
      have other : key value ≠ name := fun equal => here equal.symm
      rw [Function.update_of_ne here]
      cases lookup key values name <;> simp [Option.filter, other]

end

theorem lookup_perm (values others : List α) (distinct : Distinct key values)
    (same : values.Perm others) (name : κ) : lookup key values name = lookup key others name := by
  have distinctOthers : Distinct key others := (same.map key).nodup_iff.mp distinct
  apply Option.ext
  intro value
  rw [lookup_eq_some key values distinct, lookup_eq_some key others distinctOthers, same.mem_iff]

theorem eq_nil_of_lookup (values : List α) (empty : ∀ name, lookup key values name = none) :
    values = [] := by
  cases values with
  | nil => rfl
  | cons value values =>
    have found := empty (key value)
    simp [lookup_cons] at found

end Keyed
