import Mathlib.Data.Finmap
import Mathlib.Data.Finset.Sort
import Mathlib.Logic.Function.Basic

set_option autoImplicit false

abbrev Table (κ α : Type) := Finmap fun _ : κ => α

namespace Table

/-- An order in which the names of each table come up. -/
structure Order (κ : Type) where
  list : Finset κ → List κ
  nodup : ∀ names, (list names).Nodup
  mem_list : ∀ names name, name ∈ list names ↔ name ∈ names

section

variable {κ : Type}

def Order.ascending (κ : Type) [LinearOrder κ] : Order κ where
  list names := names.sort (· ≤ ·)
  nodup names := names.sort_nodup (· ≤ ·)
  mem_list names _ := Finset.mem_sort (s := names) (· ≤ ·)

@[simp] theorem Order.toFinset_list [DecidableEq κ] (order : Order κ) (names : Finset κ) :
    (order.list names).toFinset = names := by
  ext name
  simp [order.mem_list]

end

section

variable {κ α : Type} [DecidableEq κ]

theorem keys_eq_iff (table other : Table κ α) :
    table.keys = other.keys ↔
      ∀ name, (table.lookup name).isSome = (other.lookup name).isSome := by
  simp only [Finset.ext_iff, Finmap.mem_keys, ← Finmap.lookup_isSome, Bool.coe_iff_coe]

theorem eq_empty_of_keys (table : Table κ α) (nobody : table.keys = ∅) : table = ∅ := by
  apply Finmap.ext_lookup
  intro name
  rw [Finmap.lookup_empty, Finmap.lookup_eq_none, ← Finmap.mem_keys, nobody]
  exact Finset.notMem_empty name

theorem lookup_insert (table : Table κ α) (name : κ) (value : α) :
    (fun other => (table.insert name value).lookup other) =
      Function.update (fun other => table.lookup other) name (some value) := by
  funext other
  by_cases same : other = name
  next =>
    subst same
    simp
  next => simp [Finmap.lookup_insert_of_ne table same, Function.update_of_ne same]

theorem lookup_erase (table : Table κ α) (name : κ) :
    (fun other => (table.erase name).lookup other) =
      Function.update (fun other => table.lookup other) name none := by
  funext other
  by_cases same : other = name
  next =>
    subst same
    simp
  next => simp [Finmap.lookup_erase_ne same, Function.update_of_ne same]

theorem keys_insert (table : Table κ α) (name : κ) (value : α) :
    (table.insert name value).keys = insert name table.keys := by
  ext other
  simp [Finmap.mem_keys, Finmap.mem_insert]

variable {ε : Type} (work : κ → α → Except ε (Option α))

/-- Takes the values out one after another, works on each, and puts back what `work` gives
back. A failure ends the visit. -/
def visit : List κ → Table κ α → Except ε Unit × Table κ α
  | [], table => (.ok (), table)
  | name :: names, table =>
    match table.lookup name with
    | none => visit names table
    | some value =>
      match work name value with
      | .error failure => (.error failure, table.erase name)
      | .ok none => visit names (table.erase name)
      | .ok (some worked) => visit names ((table.erase name).insert name worked)

def replace (table : Table κ α) (name : κ) (returned : Option α) : Table κ α :=
  returned.elim (table.erase name) fun worked => (table.erase name).insert name worked

@[simp] theorem lookup_replace (table : Table κ α) (name : κ) (returned : Option α) :
    (table.replace name returned).lookup name = returned := by
  cases returned <;> simp [replace]

theorem lookup_replace_of_ne (table : Table κ α) (name other : κ) (returned : Option α)
    (different : other ≠ name) :
    (table.replace name returned).lookup other = table.lookup other := by
  cases returned with
  | none => exact Finmap.lookup_erase_ne different
  | some worked =>
    exact (Finmap.lookup_insert_of_ne _ different).trans (Finmap.lookup_erase_ne different)

theorem visit_cons (name : κ) (names : List κ) (table : Table κ α) (value : α)
    (returned : Option α) (present : table.lookup name = some value)
    (worked : work name value = .ok returned) :
    visit work (name :: names) table = visit work names (table.replace name returned) := by
  cases returned <;> simp only [visit, present, worked, replace, Option.elim_none, Option.elim_some]

theorem lookup_visit_of_notMem (names : List κ) (table : Table κ α) (other : κ)
    (absent : other ∉ names) : (visit work names table).2.lookup other = table.lookup other := by
  induction names generalizing table with
  | nil => rfl
  | cons name names ih =>
    have ⟨different, later⟩ := List.ne_and_not_mem_of_not_mem_cons absent
    cases present : table.lookup name with
    | none =>
      simp only [visit, present]
      exact ih table later
    | some value =>
      cases worked : work name value with
      | error failure =>
        simp only [visit, present, worked]
        exact Finmap.lookup_erase_ne different
      | ok returned =>
        rw [visit_cons work name names table value returned present worked, ih _ later,
          lookup_replace_of_ne table name other returned different]

theorem lookup_visit_of_absent (names : List κ) (table : Table κ α) (other : κ)
    (absent : table.lookup other = none) : (visit work names table).2.lookup other = none := by
  induction names generalizing table with
  | nil => exact absent
  | cons name names ih =>
    cases present : table.lookup name with
    | none =>
      simp only [visit, present]
      exact ih table absent
    | some value =>
      have different : other ≠ name := by
        intro same
        rw [same, present] at absent
        cases absent
      cases worked : work name value with
      | error failure =>
        simp only [visit, present, worked]
        exact (Finmap.lookup_erase_ne different).trans absent
      | ok returned =>
        have still : (table.replace name returned).lookup other = none :=
          (lookup_replace_of_ne table name other returned different).trans absent
        rw [visit_cons work name names table value returned present worked]
        exact ih _ still

/-- How a visit ends: each value was replaced by what its work gave back, or one of them failed,
with those before it replaced, itself lost and those after it left alone. -/
inductive Visited (names : List κ) (table : Table κ α) : Except ε Unit × Table κ α → Prop where
  | done (left : Table κ α)
      (replaced : ∀ name ∈ names, ∀ value, table.lookup name = some value →
        ∃ returned, work name value = .ok returned ∧ left.lookup name = returned) :
      Visited names table (.ok (), left)
  | failed (front back : List κ) (name : κ) (value : α) (failure : ε) (left : Table κ α)
      (split : names = front ++ name :: back) (present : table.lookup name = some value)
      (worked : work name value = .error failure)
      (replaced : ∀ other ∈ front, ∀ value, table.lookup other = some value →
        ∃ returned, work other value = .ok returned ∧ left.lookup other = returned)
      (lost : left.lookup name = none)
      (kept : ∀ other ∈ back, left.lookup other = table.lookup other) :
      Visited names table (.error failure, left)

theorem Visited.skip {name : κ} {names : List κ} {table : Table κ α}
    {result : Except ε Unit × Table κ α} (absent : table.lookup name = none)
    (outside : result.2.lookup name = table.lookup name)
    (rest : Visited work names table result) : Visited work (name :: names) table result := by
  have first (value : α) (present : table.lookup name = some value) (left : Table κ α) :
      ∃ returned, work name value = .ok returned ∧ left.lookup name = returned := by
    rw [absent] at present
    cases present
  cases rest with
  | done left replaced =>
    exact .done left
      (List.forall_mem_cons.mpr ⟨fun value present => first value present left, replaced⟩)
  | failed front back other value failure left split present worked replaced lost kept =>
    exact .failed (name :: front) back other value failure left (by rw [split]; rfl) present worked
      (List.forall_mem_cons.mpr ⟨fun value present => first value present left, replaced⟩) lost kept

theorem Visited.next {name : κ} {names : List κ} {table : Table κ α} {value : α}
    {returned : Option α} {result : Except ε Unit × Table κ α} (fresh : name ∉ names)
    (present : table.lookup name = some value) (worked : work name value = .ok returned)
    (outside : result.2.lookup name = returned)
    (rest : Visited work names (table.replace name returned) result) :
    Visited work (name :: names) table result := by
  have same (other : κ) (later : other ∈ names) :
      (table.replace name returned).lookup other = table.lookup other :=
    lookup_replace_of_ne table name other returned fun equal => fresh (equal ▸ later)
  have first (left : Table κ α) (gives : left.lookup name = returned) (found : α)
      (known : table.lookup name = some found) :
      ∃ returned, work name found = .ok returned ∧ left.lookup name = returned := by
    rw [Option.some.inj (known.symm.trans present)]
    exact ⟨returned, worked, gives⟩
  cases rest with
  | done left replaced =>
    have others (other : κ) (later : other ∈ names) (found : α)
        (known : table.lookup other = some found) :
        ∃ returned, work other found = .ok returned ∧ left.lookup other = returned :=
      replaced other later found ((same other later).trans known)
    exact .done left (List.forall_mem_cons.mpr ⟨first left outside, others⟩)
  | failed front back other found failure left split known failing replaced lost kept =>
    have inFront (between : κ) (member : between ∈ front) : between ∈ names := by
      rw [split]
      exact List.mem_append_left _ member
    have inBack (after : κ) (member : after ∈ back) : after ∈ names := by
      rw [split]
      exact List.mem_append_right _ (List.mem_cons_of_mem other member)
    have there : other ∈ names := by simp [split]
    have before (between : κ) (member : between ∈ front) (value : α)
        (known : table.lookup between = some value) :
        ∃ returned, work between value = .ok returned ∧ left.lookup between = returned :=
      replaced between member value ((same between (inFront between member)).trans known)
    have after (later : κ) (member : later ∈ back) : left.lookup later = table.lookup later :=
      (kept later member).trans (same later (inBack later member))
    exact .failed (name :: front) back other found failure left (by rw [split]; rfl)
      ((same other there).symm.trans known) failing
      (List.forall_mem_cons.mpr ⟨first left outside, before⟩) lost after

theorem visit_visited (names : List κ) (nodup : names.Nodup) (table : Table κ α) :
    Visited work names table (visit work names table) := by
  induction names generalizing table with
  | nil => exact .done table (by simp)
  | cons name names ih =>
    have ⟨fresh, distinct⟩ := List.nodup_cons.mp nodup
    cases present : table.lookup name with
    | none =>
      have skipped : visit work (name :: names) table = visit work names table := by
        simp only [visit, present]
      rw [skipped]
      have outside := lookup_visit_of_notMem work names table name fresh
      exact .skip work present outside (ih distinct table)
    | some value =>
      cases worked : work name value with
      | error failure =>
        have stopped : visit work (name :: names) table = (.error failure, table.erase name) := by
          simp only [visit, present, worked]
        rw [stopped]
        have kept (other : κ) (later : other ∈ names) :
            (table.erase name).lookup other = table.lookup other :=
          Finmap.lookup_erase_ne fun same => fresh (same ▸ later)
        exact .failed [] names name value failure _ rfl present worked (by simp) (by simp) kept
      | ok returned =>
        have outside := lookup_visit_of_notMem work names (table.replace name returned) name fresh
        rw [lookup_replace] at outside
        rw [visit_cons work name names table value returned present worked]
        exact .next work fresh present worked outside (ih distinct (table.replace name returned))

section

variable (change : κ → α → Except ε Unit × α)

/-- Works on the values where they are, one after another, up to the first failure. -/
def each : List κ → Table κ α → Except ε Unit × Table κ α
  | [], table => (.ok (), table)
  | name :: names, table =>
    match table.lookup name with
    | none => each names table
    | some value =>
      match change name value with
      | (.ok (), changed) => each names (table.insert name changed)
      | (.error failure, changed) => (.error failure, table.insert name changed)

/-- How that ends: each value is as its work left it, or the work on one of them failed, and those
after it were not reached. -/
inductive Walked (names : List κ) (table : Table κ α) : Except ε Unit × Table κ α → Prop where
  | done (left : Table κ α)
      (accepted : ∀ name ∈ names, ∀ value, table.lookup name = some value →
        (change name value).1 = .ok ())
      (changed : ∀ name, left.lookup name =
        if name ∈ names then (table.lookup name).map fun value => (change name value).2
        else table.lookup name) :
      Walked names table (.ok (), left)
  | failed (front back : List κ) (name : κ) (value : α) (failure : ε) (left : Table κ α)
      (split : names = front ++ name :: back) (present : table.lookup name = some value)
      (refused : (change name value).1 = .error failure)
      (accepted : ∀ other ∈ front, ∀ value, table.lookup other = some value →
        (change other value).1 = .ok ())
      (changed : ∀ other, left.lookup other =
        if other ∈ front ++ [name] then (table.lookup other).map fun value => (change other value).2
        else table.lookup other) :
      Walked names table (.error failure, left)

theorem Walked.cons {name : κ} {names : List κ} {table next : Table κ α}
    {result : Except ε Unit × Table κ α} (fresh : name ∉ names)
    (accepted : ∀ value, table.lookup name = some value → (change name value).1 = .ok ())
    (here : next.lookup name = (table.lookup name).map fun value => (change name value).2)
    (there : ∀ other, other ≠ name → next.lookup other = table.lookup other)
    (rest : Walked change names next result) : Walked change (name :: names) table result := by
  have same (front : List κ) (inside : ∀ other ∈ front, other ∈ names) (other : κ) :
      (if other ∈ front then (next.lookup other).map fun value => (change other value).2
        else next.lookup other) =
      if other ∈ name :: front then (table.lookup other).map fun value => (change other value).2
        else table.lookup other := by
    by_cases first : other = name
    next =>
      subst first
      rw [if_neg fun member => fresh (inside other member), if_pos List.mem_cons_self, here]
    next =>
      simp only [List.mem_cons, first, false_or, there other first]
  have earlier (front : List κ) (inside : ∀ other ∈ front, other ∈ names)
      (all : ∀ other ∈ front, ∀ value, next.lookup other = some value →
        (change other value).1 = .ok ()) :
      ∀ other ∈ name :: front, ∀ value, table.lookup other = some value →
        (change other value).1 = .ok () := by
    rw [List.forall_mem_cons]
    refine ⟨accepted, fun other member value present => all other member value ?_⟩
    rwa [there other fun equal => fresh (equal ▸ inside other member)]
  cases rest with
  | done left all changed =>
    refine .done left (earlier names (fun _ => id) all) fun other => ?_
    rw [changed, same names fun _ => id]
  | failed front back last value failure left split present refused all changed =>
    have inside : ∀ other ∈ front ++ [last], other ∈ names := by
      intro other member
      rw [split]
      simp only [List.mem_append, List.mem_cons, List.not_mem_nil, or_false] at member ⊢
      exact member.imp_right .inl
    have inFront (other : κ) (member : other ∈ front) : other ∈ names :=
      inside other (List.mem_append_left _ member)
    have reached : last ∈ names := inside last (by simp)
    refine .failed (name :: front) back last value failure left (by rw [split]; rfl) ?_ refused
      (earlier front inFront all) fun other => ?_
    next => rwa [← there last fun equal => fresh (equal ▸ reached)]
    next => rw [changed, same _ inside, List.cons_append]

theorem each_walked (names : List κ) (nodup : names.Nodup) (table : Table κ α) :
    Walked change names table (each change names table) := by
  induction names generalizing table with
  | nil => exact .done table (by simp) (by simp)
  | cons name names ih =>
    obtain ⟨fresh, distinct⟩ := List.nodup_cons.mp nodup
    cases present : table.lookup name with
    | none =>
      simp only [each, present]
      exact .cons change fresh (by simp [present]) (by simp [present]) (fun _ _ => rfl)
        (ih distinct table)
    | some value =>
      obtain ⟨⟨result, changed⟩, worked⟩ : ∃ made, change name value = made := ⟨_, rfl⟩
      have inserted (other : κ) (apart : other ≠ name) :
          (table.insert name changed).lookup other = table.lookup other :=
        Finmap.lookup_insert_of_ne table apart
      cases result with
      | ok =>
        simp only [each, present, worked]
        refine .cons change fresh ?_ (by simp [present, worked]) inserted (ih distinct _)
        intro found known
        rw [Option.some.inj (known.symm.trans present), worked]
      | error failure =>
        simp only [each, present, worked]
        refine .failed [] names name value failure _ rfl present (by rw [worked]) (by simp) ?_
        intro other
        by_cases here : other = name
        next =>
          subst here
          simp [present, worked]
        next => simp [here, inserted other here]

theorem keys_each (names : List κ) (nodup : names.Nodup) (table : Table κ α) :
    (each change names table).2.keys = table.keys := by
  have walked := each_walked change names nodup table
  generalize each change names table = result at walked
  rw [keys_eq_iff]
  intro name
  cases walked with
  | done left accepted changed =>
    rw [changed]
    split <;> simp
  | failed front back last value failure left split present refused accepted changed =>
    rw [changed]
    split <;> simp

end

theorem visit_of_fails (fails : κ → α → ε)
    (failing : ∀ name value, work name value = .error (fails name value))
    (name : κ) (names : List κ) (table : Table κ α) (value : α)
    (present : table.lookup name = some value) :
    visit work (name :: names) table = (.error (fails name value), table.erase name) := by
  simp only [visit, present, failing]

theorem keys_visit_iff (names : List κ) (nodup : names.Nodup) (table : Table κ α) :
    (visit work names table).2.keys = table.keys ↔
      ∀ name ∈ names, ∀ value, table.lookup name = some value →
        ∃ worked, work name value = .ok (some worked) := by
  have visited := visit_visited work names nodup table
  have outside := lookup_visit_of_notMem work names table
  have absent := lookup_visit_of_absent work names table
  generalize visit work names table = result at visited outside absent
  rw [keys_eq_iff]
  cases visited with
  | done left replaced =>
    constructor
    next =>
      intro same name member value present
      obtain ⟨returned, worked, found⟩ := replaced name member value present
      have stays := same name
      rw [found, present] at stays
      obtain ⟨given, rfl⟩ := Option.isSome_iff_exists.mp stays
      exact ⟨given, worked⟩
    next =>
      intro all name
      by_cases member : name ∈ names
      next =>
        cases present : table.lookup name with
        | none => rw [absent name present]
        | some value =>
          obtain ⟨given, gave⟩ := all name member value present
          obtain ⟨returned, worked, found⟩ := replaced name member value present
          rw [gave] at worked
          rw [found, ← Except.ok.inj worked]
          rfl
      next => rw [outside name member]
  | failed front back name value failure left split present worked replaced lost kept =>
    have gone : ¬ ∀ name, (left.lookup name).isSome = (table.lookup name).isSome := by
      intro same
      have stays := same name
      rw [lost, present] at stays
      contradiction
    have unlike : ¬ ∀ name ∈ names, ∀ value, table.lookup name = some value →
        ∃ given, work name value = .ok (some given) := by
      intro all
      obtain ⟨given, gave⟩ := all name (by simp [split]) value present
      rw [worked] at gave
      contradiction
    exact iff_of_false gone unlike

end

section

variable {κ β : Type}

/-- No value is held under two names. -/
def Unshared (held : κ → Option β) : Prop :=
  ∀ first second value, held first = some value → held second = some value → first = second

variable [DecidableEq κ]

theorem unshared_update_none (held : κ → Option β) (name : κ) (unshared : Unshared held) :
    Unshared (Function.update held name none) := by
  have kept (other : κ) (value : β) (left : Function.update held name none other = some value) :
      held other = some value := by
    by_cases same : other = name
    next =>
      subst same
      simp at left
    next => simpa only [Function.update_of_ne same] using left
  intro first second value one two
  exact unshared first second value (kept first value one) (kept second value two)

theorem unshared_update_some (held : κ → Option β) (name : κ) (value : β)
    (absent : held name = none) :
    Unshared (Function.update held name (some value)) ↔
      Unshared held ∧ ∀ other, held other ≠ some value := by
  have kept (other : κ) (inner : β) (present : held other = some inner) :
      Function.update held name (some value) other = some inner := by
    have different : other ≠ name := by
      intro same
      simp [same, absent] at present
    rwa [Function.update_of_ne different]
  constructor
  next =>
    intro unshared
    constructor
    next =>
      intro first second inner one two
      exact unshared first second inner (kept first inner one) (kept second inner two)
    next =>
      intro other present
      have same : other = name :=
        unshared other name value (kept other value present) (Function.update_self ..)
      simp [same, absent] at present
  next =>
    intro ⟨unshared, free⟩ first second inner one two
    by_cases left : first = name <;> by_cases right : second = name
    next => rw [left, right]
    next =>
      simp only [left, Function.update_self, Option.some.injEq] at one
      rw [Function.update_of_ne right, ← one] at two
      exact absurd two (free second)
    next =>
      simp only [right, Function.update_self, Option.some.injEq] at two
      rw [Function.update_of_ne left, ← two] at one
      exact absurd one (free first)
    next =>
      rw [Function.update_of_ne left] at one
      rw [Function.update_of_ne right] at two
      exact unshared first second inner one two

end

end Table
