import BitDrive.Shared.ByteLayout
import Mathlib.Data.Nat.Bitwise
import Mathlib.Logic.Function.Iterate

set_option autoImplicit false

namespace Crc

open ByteLayout

def shift (polynomial register : UInt32) : UInt32 :=
  if register &&& 1 = 1 then (register >>> 1) ^^^ polynomial else register >>> 1

def feed (polynomial register : UInt32) (byte : UInt8) : UInt32 :=
  (shift polynomial)^[8] (register ^^^ byte.toUInt32)

def checksum (polynomial : UInt32) (bytes : Bytes) : UInt32 :=
  bytes.foldl (feed polynomial) 0xFFFFFFFF ^^^ 0xFFFFFFFF

def ieee : Bytes → UInt32 := checksum 0xEDB88320

def castagnoli : Bytes → UInt32 := checksum 0x82F63B78

example : ieee [0x31, 0x32, 0x33, 0x34, 0x35, 0x36, 0x37, 0x38, 0x39] = 0xCBF43926 := by
  decide +kernel

example : castagnoli [0x31, 0x32, 0x33, 0x34, 0x35, 0x36, 0x37, 0x38, 0x39] = 0xE3069283 := by
  decide +kernel

structure Register where
  shift : UInt32 → UInt32
  enter : UInt8 → UInt32
  shift_xor : ∀ left right, shift (left ^^^ right) = shift left ^^^ shift right
  enter_xor : ∀ left right, enter (left ^^^ right) = enter left ^^^ enter right

namespace Register

def feed (register : Register) (value : UInt32) (byte : UInt8) : UInt32 :=
  register.shift^[8] (value ^^^ register.enter byte)

def checksum (register : Register) (bytes : Bytes) : UInt32 :=
  bytes.foldl register.feed 0xFFFFFFFF ^^^ 0xFFFFFFFF

def weight (register : Register) (after bit : Nat) : UInt32 :=
  register.shift^[8 * (after + 1)] (register.enter (1 <<< UInt8.ofNat bit))

end Register

def setBits (weight : Nat → UInt32) (byte : UInt8) : UInt32 :=
  (List.range 8).foldr (fun bit sum => (if byte.toNat.testBit bit then weight bit else 0) ^^^ sum) 0

def parity (weight : Nat → Nat → UInt32) : Bytes → UInt32
  | [] => 0
  | byte :: bytes => setBits (weight bytes.length) byte ^^^ parity weight bytes

theorem iterate_xor {α : Type} [XorOp α] (shift : α → α)
    (linear : ∀ left right, shift (left ^^^ right) = shift left ^^^ shift right) (count : Nat)
    (left right : α) :
    shift^[count] (left ^^^ right) = shift^[count] left ^^^ shift^[count] right := by
  induction count generalizing left right with
  | zero => rfl
  | succ count ih => rw [Function.iterate_succ_apply, linear, ih]; rfl

theorem xor_left_cancel (left right : UInt32) : left ^^^ (left ^^^ right) = right := by
  rw [← UInt32.xor_assoc, UInt32.xor_self, UInt32.zero_xor]

theorem xor_eq_xor_iff (a b c d : UInt32) : a ^^^ b = c ^^^ d ↔ b ^^^ d = a ^^^ c := by
  constructor
  next =>
    intro same
    calc b ^^^ d = a ^^^ (a ^^^ b) ^^^ d := by rw [xor_left_cancel]
      _ = a ^^^ (c ^^^ d) ^^^ d := by rw [same]
      _ = a ^^^ c ^^^ (d ^^^ d) := by ac_rfl
      _ = a ^^^ c := by rw [UInt32.xor_self, UInt32.xor_zero]
  next =>
    intro same
    calc a ^^^ b = a ^^^ (b ^^^ d) ^^^ d := by
          rw [← UInt32.xor_assoc, UInt32.xor_assoc _ d d, UInt32.xor_self, UInt32.xor_zero]
      _ = a ^^^ (a ^^^ c) ^^^ d := by rw [same]
      _ = c ^^^ d := by rw [xor_left_cancel]

theorem bits_of_byte (byte : UInt8) :
    byte = (List.range 8).foldr (fun bit sum =>
      (if byte.toNat.testBit bit then 1 <<< UInt8.ofNat bit else 0) ^^^ sum) 0 := by
  have small : ∀ value < 256, UInt8.ofNat value = (List.range 8).foldr (fun bit sum =>
      (if value.testBit bit then 1 <<< UInt8.ofNat bit else 0) ^^^ sum) 0 := by
    decide +kernel
  simpa using small byte.toNat byte.toNat_lt

theorem map_setBits (linear : UInt8 → UInt32)
    (distributes : ∀ left right, linear (left ^^^ right) = linear left ^^^ linear right)
    (byte : UInt8) :
    linear byte = setBits (fun bit => linear (1 <<< UInt8.ofNat bit)) byte := by
  have zero : linear 0 = 0 := by
    have twice := distributes 0 0
    rwa [UInt8.xor_self, UInt32.xor_self] at twice
  have sum (bits : List Nat) : linear (bits.foldr (fun bit sum =>
      (if byte.toNat.testBit bit then 1 <<< UInt8.ofNat bit else 0) ^^^ sum) 0) =
      bits.foldr (fun bit sum =>
        (if byte.toNat.testBit bit then linear (1 <<< UInt8.ofNat bit) else 0) ^^^ sum) 0 := by
    induction bits with
    | nil => exact zero
    | cons bit bits ih =>
      simp only [List.foldr_cons, distributes, ih, apply_ite linear, zero, List.foldr_cons]
  conv_lhs => rw [bits_of_byte byte]
  exact sum (List.range 8)

theorem setBits_xor (left right : Nat → UInt32) (byte : UInt8) :
    setBits (fun bit => left bit ^^^ right bit) byte = setBits left byte ^^^ setBits right byte := by
  simp only [setBits, setBits, setBits]
  generalize List.range 8 = bits
  induction bits with
  | nil => exact UInt32.xor_self.symm
  | cons bit bits ih =>
    simp only [List.foldr_cons, ih]
    split
    next => ac_rfl
    next => simp only [UInt32.zero_xor]

theorem parity_xor (left right : Nat → Nat → UInt32) (bytes : Bytes) :
    parity (fun after bit => left after bit ^^^ right after bit) bytes =
      parity left bytes ^^^ parity right bytes := by
  induction bytes with
  | nil => exact UInt32.xor_self.symm
  | cons byte bytes ih =>
    simp only [parity, setBits_xor, ih, parity, parity]
    ac_rfl

namespace Register

variable (register : Register)

theorem run_eq (initial : UInt32) (bytes : Bytes) :
    bytes.foldl register.feed initial =
      register.shift^[8 * bytes.length] initial ^^^ parity register.weight bytes := by
  induction bytes generalizing initial with
  | nil => exact (UInt32.xor_zero).symm
  | cons byte bytes ih =>
    have linear := iterate_xor register.shift register.shift_xor
    have later (value : UInt32) : register.shift^[8 * bytes.length] (register.shift^[8] value) =
        register.shift^[8 * (bytes.length + 1)] value := by
      rw [← Function.iterate_add_apply, Nat.mul_succ]
    have entered := map_setBits
      (fun byte => register.shift^[8 * (bytes.length + 1)] (register.enter byte))
      (fun left right => by rw [register.enter_xor, linear]) byte
    calc List.foldl register.feed initial (byte :: bytes)
      _ = register.shift^[8 * bytes.length] (register.feed initial byte) ^^^
          parity register.weight bytes := ih (register.feed initial byte)
      _ = register.shift^[8 * (bytes.length + 1)] initial ^^^
          register.shift^[8 * (bytes.length + 1)] (register.enter byte) ^^^
          parity register.weight bytes := by rw [feed, later, linear]
      _ = _ := by
          simp only [entered, UInt32.xor_assoc]
          rfl

def Balanced (left right : Register) (bytes : Bytes) : Prop :=
  parity (fun after bit => left.weight after bit ^^^ right.weight after bit) bytes =
    left.shift^[8 * bytes.length] 0xFFFFFFFF ^^^ right.shift^[8 * bytes.length] 0xFFFFFFFF

theorem checksum_eq_iff (left right : Register) (bytes : Bytes) :
    left.checksum bytes = right.checksum bytes ↔ left.Balanced right bytes := by
  rw [checksum, checksum, UInt32.xor_left_inj, run_eq, run_eq, Balanced, parity_xor,
    xor_eq_xor_iff]

end Register

theorem shift_out_xor (move : UInt32 → UInt32) (out : UInt32 → Bool) (polynomial : UInt32)
    (moves : ∀ left right, move (left ^^^ right) = move left ^^^ move right)
    (outs : ∀ left right, out (left ^^^ right) = (out left ^^ out right)) (left right : UInt32) :
    (if out (left ^^^ right) then move (left ^^^ right) ^^^ polynomial else move (left ^^^ right)) =
      (if out left then move left ^^^ polynomial else move left) ^^^
        (if out right then move right ^^^ polynomial else move right) := by
  simp only [outs, moves]
  cases out left <;> cases out right <;> simp only [Bool.xor_true, Bool.xor_false, Bool.not_true,
    Bool.not_false, Bool.false_eq_true, if_true, if_false]
  next => ac_rfl
  next => ac_rfl
  next =>
    calc move left ^^^ move right
      _ = move left ^^^ move right ^^^ (polynomial ^^^ polynomial) := by
          simp only [UInt32.xor_self, UInt32.xor_zero]
      _ = _ := by ac_rfl

theorem testBit_xor (bit : Nat) (left right : UInt32) :
    (left ^^^ right).toNat.testBit bit = (left.toNat.testBit bit ^^ right.toNat.testBit bit) := by
  simp only [UInt32.toNat_xor, Nat.testBit_xor]

theorem low_bit (value : UInt32) : value &&& 1 = 1 ↔ value.toNat.testBit 0 = true := by
  rw [← UInt32.toNat_inj, UInt32.toNat_and, Nat.testBit_zero, decide_eq_true_iff]
  exact Iff.of_eq (congrArg (· = 1) (Nat.and_one_is_mod value.toNat))

theorem high_bit (value : UInt32) :
    value &&& 0x80000000 ≠ 0 ↔ value.toNat.testBit 31 = true := by
  have masked : (value &&& 0x80000000).toNat = (value.toNat.testBit 31).toNat * 2 ^ 31 := by
    rw [UInt32.toNat_and, ← Nat.and_two_pow]
    rfl
  rw [ne_eq, ← UInt32.toNat_inj, masked]
  cases value.toNat.testBit 31 <;> simp

def reflected (polynomial : UInt32) : Register where
  shift := shift polynomial
  enter := UInt8.toUInt32
  shift_xor := by
    intro left right
    simp only [shift, low_bit]
    exact shift_out_xor (· >>> 1) (fun value => value.toNat.testBit 0) polynomial
      (fun left right => UInt32.shiftRight_xor) (testBit_xor 0) left right
  enter_xor := UInt8.toUInt32_xor

def direct (polynomial : UInt32) : Register where
  shift := fun value =>
    if value &&& 0x80000000 ≠ 0 then (value <<< 1) ^^^ polynomial else value <<< 1
  enter := fun byte => byte.toUInt32 <<< 24
  shift_xor := by
    intro left right
    simp only [high_bit]
    exact shift_out_xor (· <<< 1) (fun value => value.toNat.testBit 31) polynomial
      (fun left right => UInt32.shiftLeft_xor) (testBit_xor 31) left right
  enter_xor := fun left right => by rw [UInt8.toUInt32_xor, UInt32.shiftLeft_xor]

end Crc
