import BitDrive.Shared.Crc

set_option autoImplicit false

namespace Crc

open ByteLayout

def flip (bytes pattern : Bytes) : Bytes := List.zipWith (· ^^^ ·) bytes pattern

def bitAt (bytes : Bytes) (position : Nat) : Bool :=
  (bytes.getD (position / 8) 0).toNat.testBit (position % 8)

def Burst (pattern : Bytes) : Prop :=
  (∃ position, bitAt pattern position = true) ∧
    ∃ start, ∀ position, bitAt pattern position = true → start ≤ position ∧ position < start + 32

def wideShift (polynomial : UInt32) (value : Nat) : Nat :=
  if value.testBit 0 then (value >>> 1) ^^^ polynomial.toNat else value >>> 1

theorem wideShift_xor (polynomial : UInt32) (left right : Nat) :
    wideShift polynomial (left ^^^ right) =
      wideShift polynomial left ^^^ wideShift polynomial right := by
  simp only [wideShift, Nat.testBit_xor, Nat.shiftRight_xor_distrib]
  cases left.testBit 0 <;> cases right.testBit 0 <;> simp
  next => ac_rfl
  next => ac_rfl
  next =>
    calc left >>> 1 ^^^ right >>> 1
      _ = left >>> 1 ^^^ right >>> 1 ^^^ (polynomial.toNat ^^^ polynomial.toNat) := by simp
      _ = _ := by ac_rfl

theorem wideShift_shiftLeft (polynomial : UInt32) (value count : Nat) :
    (wideShift polynomial)^[count] (value <<< count) = value := by
  induction count with
  | zero => rfl
  | succ count ih =>
    have low : (value <<< (count + 1)).testBit 0 = false := by simp
    have moved : value <<< (count + 1) >>> 1 = value <<< count := by
      rw [Nat.shiftLeft_succ, Nat.shiftRight_one]
      omega
    rw [Function.iterate_succ_apply, wideShift, low, moved]
    exact ih

theorem shift_toNat (polynomial register : UInt32) :
    (shift polynomial register).toNat = wideShift polynomial register.toNat := by
  simp only [shift, low_bit, wideShift]
  split <;> simp

theorem shift_iterate_toNat (polynomial register : UInt32) (count : Nat) :
    ((shift polynomial)^[count] register).toNat =
      (wideShift polynomial)^[count] register.toNat := by
  induction count generalizing register with
  | zero => rfl
  | succ count ih => rw [Function.iterate_succ_apply, ih, shift_toNat, Function.iterate_succ_apply]

theorem testBit_cons (byte : UInt8) (bytes : Bytes) (position : Nat) :
    (ofLittleEndian (byte :: bytes)).testBit position =
      if position < 8 then byte.toNat.testBit position
      else (ofLittleEndian bytes).testBit (position - 8) := by
  have small : byte.toNat < 2 ^ 8 := byte.toNat_lt
  rw [ofLittleEndian, Nat.add_comm]
  exact Nat.testBit_two_pow_mul_add _ small position

theorem testBit_ofLittleEndian (bytes : Bytes) (position : Nat) :
    (ofLittleEndian bytes).testBit position = bitAt bytes position := by
  induction bytes generalizing position with
  | nil => simp [ofLittleEndian, bitAt]
  | cons byte bytes ih =>
    rw [testBit_cons]
    by_cases first : position < 8
    next => simp [bitAt, first, Nat.div_eq_of_lt first, Nat.mod_eq_of_lt first]
    next =>
      have index : position / 8 = (position - 8) / 8 + 1 := by omega
      have bit : position % 8 = (position - 8) % 8 := by omega
      rw [if_neg first, ih, bitAt, bitAt, index, bit, List.getD_cons_succ]

theorem ofLittleEndian_cons (byte : UInt8) (bytes : Bytes) :
    ofLittleEndian (byte :: bytes) = byte.toNat ^^^ (ofLittleEndian bytes <<< 8) := by
  apply Nat.eq_of_testBit_eq
  intro position
  have small : byte.toNat < 2 ^ 8 := byte.toNat_lt
  rw [testBit_cons, Nat.testBit_xor, Nat.testBit_shiftLeft]
  by_cases first : position < 8
  next => simp [first, Nat.not_le.mpr first]
  next =>
    have above : byte.toNat.testBit position = false := by
      apply Nat.testBit_lt_two_pow
      exact Nat.lt_of_lt_of_le small (Nat.pow_le_pow_right (by decide) (Nat.not_lt.mp first))
    simp [first, above]
    omega

theorem ofLittleEndian_append (front back : Bytes) :
    ofLittleEndian (front ++ back) =
      ofLittleEndian front ^^^ (ofLittleEndian back <<< (8 * front.length)) := by
  induction front with
  | nil => simp [ofLittleEndian]
  | cons byte front ih =>
    rw [List.cons_append, ofLittleEndian_cons, ih, ofLittleEndian_cons, Nat.shiftLeft_xor_distrib,
      ← Nat.shiftLeft_add, Nat.xor_assoc, List.length_cons, Nat.mul_succ]

theorem ofLittleEndian_flip (bytes pattern : Bytes) (same : bytes.length = pattern.length) :
    ofLittleEndian (flip bytes pattern) = ofLittleEndian bytes ^^^ ofLittleEndian pattern := by
  induction bytes generalizing pattern with
  | nil => simp [flip, List.length_eq_zero_iff.mp same.symm, ofLittleEndian]
  | cons byte bytes ih =>
    cases pattern with
    | nil => contradiction
    | cons mask pattern =>
      have rest := ih pattern (Nat.succ.inj same)
      rw [flip, List.zipWith_cons_cons, ofLittleEndian_cons, ← flip, rest, UInt8.toNat_xor,
        ofLittleEndian_cons, ofLittleEndian_cons, Nat.shiftLeft_xor_distrib]
      ac_rfl

theorem run_toNat (polynomial register : UInt32) (bytes : Bytes) :
    (bytes.foldl (feed polynomial) register).toNat =
      (wideShift polynomial)^[8 * bytes.length] (register.toNat ^^^ ofLittleEndian bytes) := by
  induction bytes generalizing register with
  | nil => simp [ofLittleEndian]
  | cons byte bytes ih =>
    have linear := iterate_xor (wideShift polynomial) (wideShift_xor polynomial)
    have entered : (feed polynomial register byte).toNat =
        (wideShift polynomial)^[8] (register.toNat ^^^ byte.toNat) := by
      rw [feed, shift_iterate_toNat, UInt32.toNat_xor, UInt8.toNat_toUInt32]
    rw [List.foldl_cons, ih, entered, ofLittleEndian_cons, List.length_cons, Nat.mul_succ,
      Function.iterate_add_apply, ← Nat.xor_assoc, linear 8 (register.toNat ^^^ byte.toNat),
      wideShift_shiftLeft]

theorem wideShift_nonzero (polynomial : UInt32) (top : polynomial.toNat.testBit 31 = true)
    (value : Nat) (nonzero : value ≠ 0) (small : value < 2 ^ 32) :
    wideShift polynomial value ≠ 0 ∧ wideShift polynomial value < 2 ^ 32 := by
  have half : value >>> 1 < 2 ^ 31 := by
    rw [Nat.shiftRight_one]
    omega
  rw [wideShift]
  cases low : value.testBit 0 with
  | false =>
    have even : value % 2 = 0 := by simpa [Nat.testBit_zero] using low
    rw [if_neg (by decide), Nat.shiftRight_one]
    omega
  | true =>
    rw [if_pos rfl]
    constructor
    next =>
      intro zero
      have bit : (value >>> 1 ^^^ polynomial.toNat).testBit 31 = true := by
        rw [Nat.testBit_xor, Nat.testBit_lt_two_pow half, top]
        rfl
      rw [zero, Nat.zero_testBit] at bit
      contradiction
    next => exact Nat.xor_lt_two_pow (by omega) polynomial.toNat_lt

theorem wideShift_iterate_nonzero (polynomial : UInt32) (top : polynomial.toNat.testBit 31 = true)
    (count value : Nat) (nonzero : value ≠ 0) (small : value < 2 ^ 32) :
    (wideShift polynomial)^[count] value ≠ 0 := by
  induction count generalizing value with
  | zero => exact nonzero
  | succ count ih =>
    have ⟨next, below⟩ := wideShift_nonzero polynomial top value nonzero small
    exact ih (wideShift polynomial value) next below

theorem Burst.window {pattern : Bytes} (burst : Burst pattern) :
    ∃ start word, ofLittleEndian pattern = word <<< start ∧ word ≠ 0 ∧ word < 2 ^ 32 := by
  have ⟨⟨position, set⟩, start, inside⟩ := burst
  simp only [← testBit_ofLittleEndian] at set inside
  have moved : ofLittleEndian pattern = ofLittleEndian pattern >>> start <<< start := by
    apply Nat.eq_of_testBit_eq
    intro position
    rw [Nat.testBit_shiftLeft, Nat.testBit_shiftRight]
    by_cases reached : start ≤ position
    next => simp [reached, Nat.add_sub_cancel' reached]
    next =>
      have clear : (ofLittleEndian pattern).testBit position ≠ true :=
        fun set => reached (inside position set).1
      simpa [reached] using clear
  refine ⟨start, ofLittleEndian pattern >>> start, moved, ?_, ?_⟩
  next =>
    intro zero
    rw [moved, zero, Nat.zero_shiftLeft, Nat.zero_testBit] at set
    contradiction
  next =>
    apply Nat.lt_pow_two_of_testBit
    intro position above
    rw [Nat.testBit_shiftRight, ← Bool.not_eq_true]
    intro set
    have bound := (inside (start + position) set).2
    omega

theorem Burst.shifted {pattern : Bytes} (burst : Burst pattern) (polynomial : UInt32)
    (top : polynomial.toNat.testBit 31 = true) (count : Nat) :
    (wideShift polynomial)^[count] (ofLittleEndian pattern) ≠ 0 := by
  have ⟨start, word, window, nonzero, small⟩ := burst.window
  rw [window]
  by_cases short : count ≤ start
  next =>
    have split : word <<< start = word <<< (start - count) <<< count := by
      rw [← Nat.shiftLeft_add, Nat.sub_add_cancel short]
    rw [split, wideShift_shiftLeft, Nat.shiftLeft_eq]
    exact Nat.mul_ne_zero nonzero (by simp)
  next =>
    have split : count = (count - start) + start := by omega
    rw [split, Function.iterate_add_apply, wideShift_shiftLeft]
    exact wideShift_iterate_nonzero polynomial top (count - start) word nonzero small

theorem checksum_toNat (polynomial : UInt32) (bytes : Bytes) :
    (checksum polynomial bytes).toNat =
      (wideShift polynomial)^[8 * bytes.length] (0xFFFFFFFF ^^^ ofLittleEndian bytes) ^^^
        0xFFFFFFFF := by
  rw [checksum, UInt32.toNat_xor, run_toNat]
  rfl

theorem checksum_front_inj (polynomial : UInt32) (top : polynomial.toNat.testBit 31 = true)
    (left right tail : Bytes) (same : left.length = right.length) (short : left.length ≤ 4)
    (equal : checksum polynomial (left ++ tail) = checksum polynomial (right ++ tail)) :
    left = right := by
  have size : (left ++ tail).length = (right ++ tail).length := by simp [same]
  have numbers := congrArg UInt32.toNat equal
  rw [checksum_toNat, checksum_toNat, size] at numbers
  have registers := Nat.xor_left_injective numbers
  have bound (bytes : Bytes) (four : bytes.length ≤ 4) : ofLittleEndian bytes < 2 ^ 32 :=
    Nat.lt_of_lt_of_le (ofLittleEndian_lt bytes) (by
      change 256 ^ bytes.length ≤ 256 ^ 4
      exact Nat.pow_le_pow_right (by decide) four)
  have differ : (wideShift polynomial)^[8 * (right ++ tail).length]
      (ofLittleEndian left ^^^ ofLittleEndian right) = 0 := by
    have linear := iterate_xor (wideShift polynomial) (wideShift_xor polynomial)
    have apart : 0xFFFFFFFF ^^^ ofLittleEndian (left ++ tail) ^^^
        (0xFFFFFFFF ^^^ ofLittleEndian (right ++ tail)) =
          ofLittleEndian left ^^^ ofLittleEndian right := by
      rw [ofLittleEndian_append, ofLittleEndian_append, same]
      calc _ = ofLittleEndian left ^^^ ofLittleEndian right ^^^
              (0xFFFFFFFF ^^^ 0xFFFFFFFF) ^^^
              (ofLittleEndian tail <<< (8 * right.length) ^^^
                ofLittleEndian tail <<< (8 * right.length)) := by ac_rfl
        _ = _ := by simp
    rw [← apart, linear, registers, Nat.xor_self]
  have number : ofLittleEndian left = ofLittleEndian right := by
    by_contra different
    have nonzero : ofLittleEndian left ^^^ ofLittleEndian right ≠ 0 := by
      simpa using different
    have small := Nat.xor_lt_two_pow (bound left short) (bound right (same ▸ short))
    exact wideShift_iterate_nonzero polynomial top _ _ nonzero small differ
  rw [← toLittleEndian_ofLittleEndian left, number, same, toLittleEndian_ofLittleEndian]

theorem checksum_flip (polynomial : UInt32) (bytes pattern : Bytes)
    (same : bytes.length = pattern.length) :
    (checksum polynomial (flip bytes pattern)).toNat =
      (checksum polynomial bytes).toNat ^^^
        (wideShift polynomial)^[8 * bytes.length] (ofLittleEndian pattern) := by
  have size : (flip bytes pattern).length = bytes.length := by simp [flip, same]
  rw [checksum_toNat, checksum_toNat, size, ofLittleEndian_flip bytes pattern same,
    ← Nat.xor_assoc, iterate_xor (wideShift polynomial) (wideShift_xor polynomial) _ _
      (ofLittleEndian pattern)]
  ac_rfl

theorem Burst.detected (polynomial : UInt32) (top : polynomial.toNat.testBit 31 = true)
    (bytes pattern check : Bytes) (same : bytes.length = pattern.length)
    (burst : Burst (pattern ++ check)) :
    (checksum polynomial (flip bytes pattern)).toNat ≠
      (checksum polynomial bytes).toNat ^^^ ofLittleEndian check := by
  rw [checksum_flip polynomial bytes pattern same]
  intro equal
  have shifted := burst.shifted polynomial top (8 * bytes.length)
  rw [ofLittleEndian_append, ← same,
    iterate_xor (wideShift polynomial) (wideShift_xor polynomial), wideShift_shiftLeft,
    Nat.xor_right_injective equal, Nat.xor_self] at shifted
  exact shifted rfl

end Crc
