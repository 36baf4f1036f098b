import Mathlib.Algebra.Order.Monoid.Canonical.Defs
import Mathlib.Tactic.Abel

set_option autoImplicit false

namespace Credit

variable {M : Type}

structure Ledger (M : Type) where
  granted : M
  reserved : M
  unread : M
  returning : M

section

variable [AddCommMonoid M]

inductive Step (admits : Ledger M → M → Prop) : Ledger M → Ledger M → Prop
  | send (ledger : Ledger M) (size : M) (admitted : admits ledger size) :
      Step admits ledger
        { ledger with reserved := ledger.reserved + size, unread := ledger.unread + size }
  | consume (ledger : Ledger M) (rest size : M) (sent : ledger.unread = rest + size) :
      Step admits ledger
        { ledger with unread := rest, returning := ledger.returning + size }
  | apply (ledger : Ledger M) (rest size : M) (returned : ledger.returning = rest + size) :
      Step admits ledger
        { ledger with returning := rest, granted := ledger.granted + size }

def Ledger.Accounted (ledger : Ledger M) : Prop :=
  ledger.reserved = ledger.granted + ledger.returning + ledger.unread

theorem Step.accounted (admits : Ledger M → M → Prop) (ledger next : Ledger M)
    (step : Step admits ledger next) (accounted : ledger.Accounted) : next.Accounted := by
  have before : ledger.reserved = ledger.granted + ledger.returning + ledger.unread := accounted
  cases step with
  | send size =>
    show ledger.reserved + size = ledger.granted + ledger.returning + (ledger.unread + size)
    calc ledger.reserved + size = ledger.granted + ledger.returning + ledger.unread + size := by
          rw [before]
      _ = ledger.granted + ledger.returning + (ledger.unread + size) := by abel
  | consume rest size sent =>
    calc ledger.reserved = ledger.granted + ledger.returning + (rest + size) := by
          rw [before, sent]
      _ = ledger.granted + (ledger.returning + size) + rest := by abel
  | apply rest size returned =>
    calc ledger.reserved = ledger.granted + (rest + size) + ledger.unread := by
          rw [before, returned]
      _ = ledger.granted + size + rest + ledger.unread := by abel

end

section

variable [AddCommMonoid M] [PartialOrder M]

def Ledger.Room (window : M) (ledger : Ledger M) (size : M) : Prop :=
  ledger.reserved + size ≤ window + ledger.granted

structure Ledger.Balanced (window : M) (ledger : Ledger M) : Prop where
  accounted : ledger.Accounted
  covered : ledger.reserved ≤ window + ledger.granted

theorem Step.balanced [CanonicallyOrderedAdd M] (window : M) (ledger next : Ledger M)
    (step : Step (Ledger.Room window) ledger next) (balanced : ledger.Balanced window) :
    next.Balanced window := by
  constructor
  next => exact step.accounted _ ledger next balanced.accounted
  next =>
    cases step with
    | send size room => exact room
    | consume => exact balanced.covered
    | apply rest size =>
      calc ledger.reserved ≤ window + ledger.granted := balanced.covered
        _ ≤ window + ledger.granted + size := le_self_add
        _ = window + (ledger.granted + size) := add_assoc window ledger.granted size

theorem Ledger.Balanced.outstanding_le [IsOrderedCancelAddMonoid M] (window : M)
    (ledger : Ledger M) (balanced : ledger.Balanced window) :
    ledger.returning + ledger.unread ≤ window := by
  have covered := balanced.covered
  rw [show ledger.reserved = ledger.granted + (ledger.returning + ledger.unread) from
    balanced.accounted.trans (add_assoc _ _ _), add_comm window] at covered
  exact le_of_add_le_add_left covered

end

end Credit
