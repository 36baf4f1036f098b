import Mathlib.Algebra.Group.Nat.Defs

set_option autoImplicit false

-- How a call ends without a value: a returned error, or a panic.
inductive Abort (ε : Type) where
  | err (error : ε)
  | panic
  deriving DecidableEq, Repr

abbrev Outcome (ε α : Type) := Except (Abort ε) α

namespace Outcome

variable {ε α : Type}

def unwrap : Option α → Outcome ε α
  | some value => .ok value
  | none => .error .panic

@[simp] theorem unwrap_some (value : α) :
    (unwrap (some value) : Outcome ε α) = .ok value := rfl

@[simp] theorem unwrap_none : (unwrap none : Outcome ε α) = .error .panic := rfl

end Outcome
