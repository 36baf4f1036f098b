import Mathlib.Data.List.Chain
import Mathlib.Data.List.Pairwise
import Mathlib.Order.Lattice

set_option autoImplicit false

namespace HighWater

variable {α β : Type} [LinearOrder α] (read : β → Option α)

def admitted (mark : α) : List β → List α
  | [] => []
  | input :: inputs =>
    match read input with
    | none => admitted mark inputs
    | some value => if value < mark then admitted mark inputs else value :: admitted value inputs

def TopUnrepeated (seen : List α) (inputs : List β) : Prop :=
  ∀ before input after, inputs = before ++ input :: after → ∀ value, read input = some value →
    value ∈ seen ++ before.filterMap read → ∃ higher ∈ seen ++ before.filterMap read, value < higher

theorem topUnrepeated_nil (seen : List α) : TopUnrepeated read seen [] := by
  intro before input after split
  simp at split

theorem topUnrepeated_cons (seen : List α) (input : β) (inputs : List β) :
    TopUnrepeated read seen (input :: inputs) ↔
      (∀ value, read input = some value → value ∈ seen → ∃ higher ∈ seen, value < higher) ∧
        TopUnrepeated read (seen ++ (read input).toList) inputs := by
  have later (before : List β) : seen ++ (input :: before).filterMap read =
      seen ++ (read input).toList ++ before.filterMap read := by
    cases known : read input <;> simp [known]
  constructor
  · intro unrepeated
    refine ⟨fun value known member => ?_, fun before other after split value known member => ?_⟩
    · simpa using unrepeated [] input inputs rfl value known (by simpa using member)
    · rw [← later] at member ⊢
      exact unrepeated (input :: before) other after (by rw [split, List.cons_append]) value known member
  · intro ⟨first, rest⟩ before other after split value known member
    cases before with
    | nil =>
      obtain ⟨rfl, rfl⟩ : input = other ∧ inputs = after := by simpa using split
      simpa using first value known (by simpa using member)
    | cons head before =>
      obtain ⟨rfl, rfl⟩ : input = head ∧ inputs = before ++ other :: after := by simpa using split
      rw [later] at member ⊢
      exact rest before other after rfl value known member

theorem above_mark_iff (mark value : α) (seen : List α) (top : mark ∈ seen)
    (bound : ∀ other ∈ seen, other ≤ mark) (reached : mark ≤ value) :
    mark < value ↔ (value ∈ seen → ∃ higher ∈ seen, value < higher) := by
  constructor
  · intro above member
    exact absurd (bound value member) (not_le.mpr above)
  · intro allowed
    rcases lt_or_eq_of_le reached with above | rfl
    · exact above
    · obtain ⟨higher, member, above⟩ := allowed top
      exact absurd (bound higher member) (not_le.mpr above)

theorem admitted_above_iff (mark : α) (seen : List α) (inputs : List β) (top : mark ∈ seen)
    (bound : ∀ value ∈ seen, value ≤ mark) :
    (mark :: admitted read mark inputs).Pairwise (· < ·) ↔ TopUnrepeated read seen inputs := by
  induction inputs generalizing mark seen with
  | nil => simp [admitted, topUnrepeated_nil]
  | cons input inputs ih =>
    rw [topUnrepeated_cons]
    cases known : read input with
    | none =>
      simp [admitted, known, ih mark seen top bound]
    | some value =>
      by_cases low : value < mark
      · have same := ih mark (seen ++ [value]) (by simp [top])
          (by simpa [or_imp, forall_and] using ⟨bound, le_of_lt low⟩)
        simp only [admitted, known, if_pos low, same, Option.some.injEq, forall_eq',
          Option.toList_some]
        exact ⟨fun rest => ⟨fun _ => ⟨mark, top, low⟩, rest⟩, fun both => both.2⟩
      · have reached : mark ≤ value := not_lt.mp low
        have same := ih value (seen ++ [value]) (by simp)
          (by simpa [or_imp, forall_and] using fun other member =>
            le_trans (bound other member) reached)
        simp only [admitted, known, if_neg low, Option.some.injEq, forall_eq', Option.toList_some,
          ← same]
        rw [← above_mark_iff mark value seen top bound reached]
        exact List.pairwise_cons_cons_iff_of_trans

theorem admitted_iff (mark : α) (inputs : List β) (bottom : ∀ value, mark ≤ value) :
    (admitted read mark inputs).Pairwise (· < ·) ↔ TopUnrepeated read [] inputs := by
  induction inputs with
  | nil => simp [admitted, topUnrepeated_nil]
  | cons input inputs ih =>
    rw [topUnrepeated_cons]
    cases known : read input with
    | none => simp [admitted, known, ih]
    | some value =>
      have above := admitted_above_iff read value [value] inputs (by simp) (by simp)
      simp [admitted, known, not_lt.mpr (bottom value), above]

section

variable (passes : α → α → Prop) [DecidableRel passes]

def verdicts (mark : α) : List α → List Bool
  | [] => []
  | value :: values =>
    decide (passes mark value) :: verdicts (if passes mark value then value else mark) values

end

omit [LinearOrder α] in
theorem verdicts_all_iff (passes : α → α → Prop) [DecidableRel passes] (mark : α)
    (values : List α) :
    (∀ verdict ∈ verdicts passes mark values, verdict = true) ↔
      (mark :: values).IsChain passes := by
  induction values generalizing mark with
  | nil => simp [verdicts]
  | cons value values ih =>
    simp only [verdicts, List.forall_mem_cons, List.isChain_cons_cons, decide_eq_true_iff]
    constructor
    next =>
      intro ⟨first, rest⟩
      simp only [if_pos first, ih] at rest
      exact ⟨first, rest⟩
    next =>
      intro ⟨first, rest⟩
      simp only [if_pos first, ih]
      exact ⟨first, rest⟩

theorem verdicts_le_cons (mark value : α) (values : List α) :
    verdicts (· ≤ ·) mark (value :: values) =
      decide (mark ≤ value) :: verdicts (· ≤ ·) (max mark value) values := by
  simp only [verdicts, max_def]

theorem verdicts_lt_cons (mark value : α) (values : List α) :
    verdicts (· < ·) mark (value :: values) =
      decide (mark < value) :: verdicts (· < ·) (max mark value) values := by
  simp only [verdicts, max_def_lt]

theorem verdicts_eq_iff (mark : α) (values : List α) :
    verdicts (· ≤ ·) mark values = verdicts (· < ·) mark values ↔
      ∀ before value after, values = before ++ value :: after → value ≠ before.foldl max mark := by
  induction values generalizing mark with
  | nil => simp [verdicts]
  | cons value values ih =>
    simp only [verdicts_le_cons, verdicts_lt_cons, List.cons.injEq, ih]
    have here : decide (mark ≤ value) = decide (mark < value) ↔ value ≠ mark := by
      rw [decide_eq_decide]
      constructor
      next =>
        intro same equal
        exact absurd (same.mp (le_of_eq equal.symm)) (equal ▸ lt_irrefl value)
      next =>
        intro different
        exact ⟨fun reached => lt_of_le_of_ne reached different.symm, le_of_lt⟩
    rw [here]
    constructor
    next =>
      intro ⟨first, later⟩ before other after split
      cases before with
      | nil =>
        have head : value = other := by simpa using congrArg List.head? split
        rwa [← head]
      | cons head before =>
        have heads : value = head := by simpa using congrArg List.head? split
        have tails : values = before ++ other :: after := by simpa using congrArg List.tail split
        rw [List.foldl_cons, ← heads]
        exact later before other after tails
    next =>
      intro fresh
      constructor
      next => exact fresh [] value values rfl
      next =>
        intro before other after split
        exact fresh (value :: before) other after (by rw [split, List.cons_append])

end HighWater
