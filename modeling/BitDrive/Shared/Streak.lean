import Mathlib.Data.List.Basic

set_option autoImplicit false

namespace Streak

variable {α : Type} (p : α → Bool)

def next (row : List α) (value : α) : List α :=
  if p value then value :: row else []

def after (row : List α) (values : List α) (position : Nat) : List α :=
  (values.take position).foldl (next p) row

def before (values : List α) (position : Nat) : List α :=
  after p [] values position

def EndsAt (count : Nat) (values : List α) (position : Nat) : Prop :=
  count ≤ position + 1 ∧
    ∀ i, i ≤ position → position < i + count → ∃ value, values[i]? = some value ∧ p value = true

def FirstAt (count : Nat) (values : List α) (position : Nat) : Prop :=
  EndsAt p count values position ∧ ∀ earlier < position, ¬ EndsAt p count values earlier

@[simp] theorem after_zero (row values : List α) : after p row values 0 = row := rfl

theorem after_succ (row values : List α) (position : Nat) (value : α)
    (there : values[position]? = some value) :
    after p row values (position + 1) = next p (after p row values position) value := by
  simp only [after, List.take_add_one, there, Option.toList_some, List.foldl_append,
    List.foldl_cons, List.foldl_nil]

theorem le_length_before (values : List α) (position : Nat) (inside : position ≤ values.length)
    (count : Nat) :
    count ≤ (before p values position).length ↔
      count ≤ position ∧ ∀ i < position, position ≤ i + count →
        ∃ value, values[i]? = some value ∧ p value = true := by
  induction position generalizing count with
  | zero =>
    simp [before]
  | succ position ih =>
    have here : values[position]? = some values[position] := List.getElem?_eq_getElem inside
    have shorter := ih (Nat.le_of_succ_le inside)
    rw [before, after_succ p [] values position _ here, next]
    cases count with
    | zero =>
      simp only [Nat.zero_le, true_and, true_iff]
      intro i below above
      omega
    | succ count =>
      by_cases property : p values[position] = true
      next =>
        rw [if_pos property, List.length_cons, Nat.add_le_add_iff_right]
        change count ≤ (before p values position).length ↔ _
        rw [shorter count, Nat.add_le_add_iff_right]
        constructor
        next =>
          intro ⟨bounded, all⟩
          refine ⟨bounded, fun i below above => ?_⟩
          rcases Nat.lt_succ_iff_lt_or_eq.mp below with earlier | rfl
          next => exact all i earlier (by omega)
          next => exact ⟨_, here, property⟩
        next =>
          intro ⟨bounded, all⟩
          exact ⟨bounded, fun i below above => all i (by omega) (by omega)⟩
      next =>
        rw [if_neg property, List.length_nil]
        constructor
        next =>
          intro enough
          exact absurd enough (Nat.not_succ_le_zero count)
        next =>
          intro ⟨_, all⟩
          have ⟨value, same, holds⟩ := all position (by omega) (by omega)
          rw [here] at same
          rw [Option.some.inj same] at property
          exact absurd holds property

theorem endsAt_iff (count : Nat) (positive : 0 < count) (values : List α) (position : Nat) :
    EndsAt p count values position ↔
      position < values.length ∧ count ≤ (before p values (position + 1)).length := by
  have inside (ends : EndsAt p count values position) : position < values.length := by
    have ⟨value, same, _⟩ := ends.2 position (Nat.le_refl position) (by omega)
    exact (List.getElem?_eq_some_iff.mp same).1
  constructor
  next =>
    intro ends
    refine ⟨inside ends, (le_length_before p values _ (inside ends) count).mpr ⟨ends.1, ?_⟩⟩
    intro i below above
    exact ends.2 i (by omega) (by omega)
  next =>
    intro ⟨within, enough⟩
    have ⟨bounded, all⟩ := (le_length_before p values _ within count).mp enough
    exact ⟨bounded, fun i below above => all i (by omega) (by omega)⟩

def Completes (count : Nat) (row values : List α) (position : Nat) : Prop :=
  position < values.length ∧ count ≤ (after p row values (position + 1)).length ∧
    ∀ earlier ≤ position, (after p row values earlier).length < count

theorem firstAt_iff (count : Nat) (positive : 0 < count) (values : List α) (position : Nat) :
    FirstAt p count values position ↔ Completes p count [] values position := by
  simp only [FirstAt, Completes, endsAt_iff p count positive]
  constructor
  next =>
    intro ⟨⟨inside, enough⟩, first⟩
    refine ⟨inside, enough, fun earlier upTo => ?_⟩
    cases earlier with
    | zero => exact positive
    | succ earlier =>
      have short := first earlier upTo
      have within : earlier < values.length := by omega
      exact Nat.lt_of_not_le fun long => short ⟨within, long⟩
  next =>
    intro ⟨inside, enough, first⟩
    refine ⟨⟨inside, enough⟩, fun earlier upTo long => ?_⟩
    exact Nat.not_le_of_lt (first (earlier + 1) upTo) long.2

theorem completes_zero (count : Nat) (row values : List α) (value : α)
    (short : row.length < count) :
    Completes p count row (value :: values) 0 ↔ count ≤ (next p row value).length := by
  constructor
  next => exact fun completes => completes.2.1
  next =>
    intro long
    refine ⟨Nat.zero_lt_succ _, long, fun earlier upTo => ?_⟩
    rwa [Nat.le_zero.mp upTo]

theorem completes_succ (count : Nat) (row values : List α) (value : α) (position : Nat)
    (short : row.length < count) :
    Completes p count row (value :: values) (position + 1) ↔
      Completes p count (next p row value) values position := by
  constructor
  next =>
    intro ⟨inside, long, first⟩
    exact ⟨Nat.lt_of_succ_lt_succ inside, long,
      fun earlier upTo => first (earlier + 1) (Nat.succ_le_succ upTo)⟩
  next =>
    intro ⟨inside, long, first⟩
    refine ⟨Nat.succ_lt_succ inside, long, fun earlier upTo => ?_⟩
    cases earlier with
    | zero => exact short
    | succ earlier => exact first earlier (Nat.le_of_succ_le_succ upTo)

end Streak
