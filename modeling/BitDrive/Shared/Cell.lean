import Mathlib.Data.List.Induction

set_option autoImplicit false

namespace Cell

variable {ι α : Type}

inductive Effect (α : Type) where
  | put (value : α)
  | clear
  | alter (change : α → α)

def Effect.apply (held : Option α) : Effect α → Option α
  | put value => some value
  | clear => none
  | alter change => held.map change

variable (effect : ι → Option (Effect α))

def next (held : Option α) (input : ι) : Option α :=
  match effect input with
  | none => held
  | some effect => effect.apply held

def altered (value : α) (input : ι) : α :=
  match effect input with
  | some (.alter change) => change value
  | _ => value

def changed (value : α) (inputs : List ι) : α := inputs.foldl (altered effect) value

def Keeps (input : ι) : Prop :=
  effect input = none ∨ ∃ change, effect input = some (.alter change)

structure LastPut (inputs : List ι) (value : α) (after : List ι) : Prop where
  put : ∃ before input, inputs = before ++ input :: after ∧ effect input = some (.put value)
  since : ∀ later ∈ after, Keeps effect later

variable {effect}

theorem changed_concat (value : α) (inputs : List ι) (input : ι) :
    changed effect value (inputs ++ [input]) =
      altered effect (changed effect value inputs) input := by
  rw [changed, List.foldl_append]
  rfl

theorem next_keeps (input : ι) (keeps : Keeps effect input) (held : Option α) :
    next effect held input = held.map fun value => altered effect value input := by
  rcases keeps with idle | ⟨change, alters⟩
  next => cases held <;> simp [next, altered, idle]
  next => cases held <;> simp [next, altered, alters, Effect.apply]

theorem next_settles (input : ι) (settles : ¬ Keeps effect input) (held : Option α) (value : α) :
    next effect held input = some value ↔ effect input = some (.put value) := by
  cases found : effect input with
  | none => exact absurd (.inl found) settles
  | some made =>
    cases made with
    | put put => simp [next, found, Effect.apply]
    | clear => simp [next, found, Effect.apply]
    | alter change => exact absurd (.inr ⟨change, found⟩) settles

theorem Keeps.not_put {input : ι} (keeps : Keeps effect input) (value : α) :
    effect input ≠ some (.put value) := by
  intro puts
  rcases keeps with idle | ⟨change, alters⟩
  next => cases idle.symm.trans puts
  next => cases alters.symm.trans puts

theorem not_lastPut_nil (value : α) (after : List ι) : ¬ LastPut effect [] value after := by
  intro last
  have ⟨before, input, split, _⟩ := last.put
  simp at split

theorem LastPut.of_concat {inputs after : List ι} {input : ι} {value : α}
    (last : LastPut effect (inputs ++ [input]) value after) :
    effect input = some (.put value) ∧ after = [] ∨
      Keeps effect input ∧ ∃ earlier, after = earlier ++ [input] ∧
        LastPut effect inputs value earlier := by
  have ⟨before, first, split, puts⟩ := last.put
  cases after using List.reverseRecOn with
  | nil =>
    have ⟨_, same⟩ := List.append_inj' split rfl
    obtain rfl : input = first := (List.cons.inj same).1
    exact .inl ⟨puts, rfl⟩
  | append_singleton earlier final =>
    rw [← List.cons_append, ← List.append_assoc] at split
    have ⟨front, same⟩ := List.append_inj' split rfl
    obtain rfl : input = final := (List.cons.inj same).1
    refine .inr ⟨last.since input (by simp), earlier, rfl, ⟨before, first, front, puts⟩, ?_⟩
    exact fun later member => last.since later (List.mem_append_left _ member)

theorem lastPut_keeps_iff (inputs after : List ι) (input : ι) (keeps : Keeps effect input)
    (value : α) :
    LastPut effect (inputs ++ [input]) value after ↔
      ∃ earlier, after = earlier ++ [input] ∧ LastPut effect inputs value earlier := by
  constructor
  next =>
    intro last
    rcases last.of_concat with ⟨puts, _⟩ | ⟨_, earlier⟩
    next => exact absurd puts (keeps.not_put value)
    next => exact earlier
  next =>
    rintro ⟨earlier, rfl, last⟩
    have ⟨before, first, split, puts⟩ := last.put
    refine ⟨⟨before, first, by rw [split, List.append_assoc]; rfl, puts⟩, ?_⟩
    intro later member
    rcases List.mem_append.mp member with older | newest
    next => exact last.since later older
    next => rwa [List.mem_singleton.mp newest]

theorem lastPut_settles_iff (inputs after : List ι) (input : ι) (settles : ¬ Keeps effect input)
    (value : α) :
    LastPut effect (inputs ++ [input]) value after ↔
      effect input = some (.put value) ∧ after = [] := by
  constructor
  next =>
    intro last
    rcases last.of_concat with settled | ⟨keeps, _⟩
    next => exact settled
    next => exact absurd keeps settles
  next =>
    rintro ⟨puts, rfl⟩
    exact ⟨⟨inputs, input, rfl, puts⟩, by simp⟩

theorem foldl_eq_some_iff (inputs : List ι) (result : α) :
    inputs.foldl (next effect) none = some result ↔
      ∃ value after, LastPut effect inputs value after ∧ result = changed effect value after := by
  induction inputs using List.reverseRecOn generalizing result with
  | nil =>
    constructor
    next => exact fun held => nomatch held
    next => exact fun ⟨value, after, last, _⟩ => absurd last (not_lastPut_nil value after)
  | append_singleton inputs input ih =>
    rw [List.foldl_append, List.foldl_cons, List.foldl_nil]
    by_cases keeps : Keeps effect input
    next =>
      simp only [next_keeps input keeps, Option.map_eq_some_iff, ih,
        lastPut_keeps_iff inputs _ input keeps]
      constructor
      next =>
        rintro ⟨_, ⟨value, earlier, last, rfl⟩, rfl⟩
        exact ⟨value, _, ⟨earlier, rfl, last⟩, (changed_concat value earlier input).symm⟩
      next =>
        rintro ⟨value, _, ⟨earlier, rfl, last⟩, rfl⟩
        exact ⟨_, ⟨value, earlier, last, rfl⟩, (changed_concat value earlier input).symm⟩
    next =>
      simp only [next_settles input keeps, lastPut_settles_iff inputs _ input keeps]
      constructor
      next => exact fun puts => ⟨result, [], ⟨puts, rfl⟩, rfl⟩
      next =>
        rintro ⟨value, _, ⟨puts, rfl⟩, rfl⟩
        exact puts

end Cell
