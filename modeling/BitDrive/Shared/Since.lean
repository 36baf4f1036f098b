import Mathlib.Data.List.Basic

set_option autoImplicit false

variable {ι : Type}

def Since (occurs : List ι → ι → Prop) (quiet : ι → Prop) (steps : List ι) : Prop :=
  ∃ before step after, steps = before ++ step :: after ∧ occurs before step ∧
    ∀ later ∈ after, quiet later

variable (occurs : List ι → ι → Prop) (quiet : ι → Prop)

theorem not_since_nil : ¬ Since occurs quiet [] := by
  rintro ⟨before, step, after, split, _⟩
  simp at split

theorem since_concat (steps : List ι) (last : ι) :
    Since occurs quiet (steps ++ [last]) ↔
      Since occurs quiet steps ∧ quiet last ∨ occurs steps last := by
  constructor
  next =>
    rintro ⟨before, step, after, split, occurred, since⟩
    rcases List.eq_nil_or_concat after with rfl | ⟨rest, final, rfl⟩
    next =>
      obtain ⟨rfl, same⟩ := List.append_inj' split rfl
      obtain rfl : last = step := List.singleton_inj.mp same
      exact .inr occurred
    next =>
      rw [List.concat_eq_append] at since
      rw [List.concat_eq_append, ← List.cons_append, ← List.append_assoc] at split
      obtain ⟨same, ends⟩ := List.append_inj' split rfl
      obtain rfl : last = final := List.singleton_inj.mp ends
      obtain ⟨earlier, quiet_last⟩ := List.forall_mem_append.mp since
      exact .inl ⟨⟨before, step, rest, same, occurred, earlier⟩,
        quiet_last last (List.mem_singleton_self last)⟩
  next =>
    rintro (⟨⟨before, step, after, rfl, occurred, since⟩, still⟩ | occurred)
    next =>
      refine ⟨before, step, after ++ [last], by simp, occurred, ?_⟩
      exact List.forall_mem_append.mpr ⟨since, List.forall_mem_singleton.mpr still⟩
    next => exact ⟨steps, last, [], rfl, occurred, nofun⟩
