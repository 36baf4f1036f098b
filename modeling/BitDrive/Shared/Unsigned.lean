import BitDrive.Shared.Outcome

set_option autoImplicit false

inductive Build where
  | debug
  | release
  deriving DecidableEq, Repr

namespace Build

variable {ε : Type}

def add (build : Build) (left right : UInt32) : Outcome ε UInt32 :=
  match build with
  | debug => if left.toNat + right.toNat < 2 ^ 32 then .ok (left + right) else .error .panic
  | release => .ok (left + right)

theorem add_of_lt (build : Build) (left right : UInt32)
    (room : left.toNat + right.toNat < 2 ^ 32) :
    (build.add left right : Outcome ε UInt32) = .ok (left + right) := by
  cases build with
  | debug => exact if_pos room
  | release => rfl

theorem add_eq_ok (build : Build) (left right sum : UInt32)
    (added : (build.add left right : Outcome ε UInt32) = .ok sum) :
    sum = left + right ∧ (build = debug → left.toNat + right.toNat < 2 ^ 32) := by
  cases build with
  | debug =>
    by_cases room : left.toNat + right.toNat < 2 ^ 32
    · rw [add, if_pos room] at added
      exact ⟨(Except.ok.inj added).symm, fun _ => room⟩
    · rw [add, if_neg room] at added
      cases added
  | release => exact ⟨(Except.ok.inj added).symm, nofun⟩

end Build

namespace UInt32

def saturatingAdd (left right : UInt32) : UInt32 :=
  if left.toNat + right.toNat < 2 ^ 32 then left + right else 0xFFFFFFFF

def saturatingSub (left right : UInt32) : UInt32 :=
  if right ≤ left then left - right else 0

theorem toNat_add_of_lt (left right : UInt32) (room : left.toNat + right.toNat < 2 ^ 32) :
    (left + right).toNat = left.toNat + right.toNat := by
  rw [UInt32.toNat_add, Nat.mod_eq_of_lt room]

theorem toNat_saturatingAdd (left right : UInt32) :
    (left.saturatingAdd right).toNat = min (2 ^ 32 - 1) (left.toNat + right.toNat) := by
  by_cases room : left.toNat + right.toNat < 2 ^ 32
  · rw [saturatingAdd, if_pos room, toNat_add_of_lt left right room]
    omega
  · rw [saturatingAdd, if_neg room, Nat.min_eq_left (by omega)]
    rfl

theorem toNat_saturatingSub (left right : UInt32) :
    (left.saturatingSub right).toNat = left.toNat - right.toNat := by
  by_cases below : right ≤ left
  · rw [saturatingSub, if_pos below, UInt32.toNat_sub_of_le _ _ below]
  · have above : left.toNat ≤ right.toNat :=
      Nat.le_of_not_le fun less => below (UInt32.le_iff_toNat_le.mpr less)
    rw [saturatingSub, if_neg below, Nat.sub_eq_zero_of_le above]
    rfl

theorem one_le_of_ne_zero (value : UInt32) (nonzero : value ≠ 0) : 1 ≤ value := by
  have positive : value.toNat ≠ 0 := fun zero => nonzero (UInt32.toNat.inj zero)
  exact UInt32.le_iff_toNat_le.mpr (Nat.one_le_iff_ne_zero.mpr positive)

end UInt32
