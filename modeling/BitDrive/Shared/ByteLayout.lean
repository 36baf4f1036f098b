import Mathlib.Algebra.Group.Nat.Defs
import Mathlib.Data.List.Basic
import Mathlib.Logic.Equiv.Defs

set_option autoImplicit false

namespace ByteLayout

abbrev Bytes := List UInt8

abbrev FixedBytes (size : Nat) := { bytes : Bytes // bytes.length = size }

def FixedBytes.replicate (size : Nat) (byte : UInt8) : FixedBytes size :=
  ⟨List.replicate size byte, List.length_replicate⟩

def utf8 (text : String) : Bytes := text.toUTF8.data.toList

def toLittleEndian : Nat → Nat → Bytes
  | 0, _ => []
  | width + 1, value => UInt8.ofNat value :: toLittleEndian width (value / 256)

def ofLittleEndian : Bytes → Nat
  | [] => 0
  | byte :: bytes => byte.toNat + 256 * ofLittleEndian bytes

@[simp] theorem toLittleEndian_length (width value : Nat) :
    (toLittleEndian width value).length = width := by
  induction width generalizing value with
  | zero => rfl
  | succ width ih => simp [toLittleEndian, ih]

theorem ofLittleEndian_toLittleEndian (width value : Nat) :
    ofLittleEndian (toLittleEndian width value) = value % 256 ^ width := by
  induction width generalizing value with
  | zero => simp [toLittleEndian, ofLittleEndian, Nat.mod_one]
  | succ width ih =>
    have low : (UInt8.ofNat value).toNat = value % 256 := by simp
    rw [toLittleEndian, ofLittleEndian, ih, low, Nat.pow_succ', Nat.mod_mul]

theorem ofLittleEndian_lt (bytes : Bytes) :
    ofLittleEndian bytes < 256 ^ bytes.length := by
  induction bytes with
  | nil => simp [ofLittleEndian]
  | cons byte bytes ih =>
    have low := byte.toNat_lt
    simp only [ofLittleEndian, List.length_cons, Nat.pow_succ']
    omega

theorem toLittleEndian_ofLittleEndian (bytes : Bytes) :
    toLittleEndian bytes.length (ofLittleEndian bytes) = bytes := by
  induction bytes with
  | nil => rfl
  | cons byte bytes ih =>
    have low := byte.toNat_lt
    have head : UInt8.ofNat (byte.toNat + 256 * ofLittleEndian bytes) = byte := by
      apply UInt8.toNat.inj
      simp
    have tail : (byte.toNat + 256 * ofLittleEndian bytes) / 256 = ofLittleEndian bytes := by
      omega
    simp only [List.length_cons, ofLittleEndian, toLittleEndian, head, tail, ih]

structure Layout (α : Type) where
  size : Nat
  put : α → Bytes
  get : Bytes → α
  put_length : ∀ value, (put value).length = size
  get_put : ∀ value rest, get (put value ++ rest) = value
  put_get : ∀ bytes, size ≤ bytes.length → put (get bytes) = bytes.take size

attribute [simp] Layout.put_length Layout.get_put

namespace Layout

theorem put_injective {α : Type} (layout : Layout α) (left right : α)
    (same : layout.put left = layout.put right) : left = right := by
  have read := layout.get_put left []
  rw [same, layout.get_put] at read
  exact read.symm

theorem get_append {α : Type} (layout : Layout α) (bytes more : Bytes)
    (enough : layout.size ≤ bytes.length) : layout.get (bytes ++ more) = layout.get bytes := by
  have split : bytes = layout.put (layout.get bytes) ++ bytes.drop layout.size := by
    rw [layout.put_get bytes enough, List.take_append_drop]
  conv_lhs => rw [split, List.append_assoc, layout.get_put]

def u8 : Layout UInt8 where
  size := 1
  put value := [value]
  get bytes := bytes.headD 0
  put_length _ := rfl
  get_put _ _ := rfl
  put_get bytes enough := by
    cases bytes with
    | nil => simp at enough
    | cons byte bytes => simp

def unsigned {α : Type} (width : Nat) (toNat : α → Nat) (ofNat : Nat → α)
    (bound : ∀ value, toNat value < 256 ^ width)
    (ofNat_toNat : ∀ value, ofNat (toNat value) = value)
    (toNat_ofNat : ∀ number, number < 256 ^ width → toNat (ofNat number) = number) :
    Layout α where
  size := width
  put value := toLittleEndian width (toNat value)
  get bytes := ofNat (ofLittleEndian (bytes.take width))
  put_length value := toLittleEndian_length width (toNat value)
  get_put value rest := by
    rw [List.take_left' (toLittleEndian_length width _), ofLittleEndian_toLittleEndian,
      Nat.mod_eq_of_lt (bound value), ofNat_toNat]
  put_get bytes enough := by
    have full : (bytes.take width).length = width := by simp [enough]
    have small := ofLittleEndian_lt (bytes.take width)
    rw [full] at small
    have back := toLittleEndian_ofLittleEndian (bytes.take width)
    rw [full] at back
    rw [toNat_ofNat _ small, back]

def u32 : Layout UInt32 :=
  unsigned 4 UInt32.toNat UInt32.ofNat (fun value => value.toNat_lt)
    (fun _ => UInt32.ofNat_toNat) (fun _ small => UInt32.toNat_ofNat_of_lt' small)

def u64 : Layout UInt64 :=
  unsigned 8 UInt64.toNat UInt64.ofNat (fun value => value.toNat_lt)
    (fun _ => UInt64.ofNat_toNat) (fun _ small => UInt64.toNat_ofNat_of_lt' small)

def pair {α β : Type} (first : Layout α) (second : Layout β) : Layout (α × β) where
  size := first.size + second.size
  put value := first.put value.1 ++ second.put value.2
  get bytes := (first.get bytes, second.get (bytes.drop first.size))
  put_length value := by simp
  get_put value rest := by
    have skip : (first.put value.1 ++ (second.put value.2 ++ rest)).drop first.size =
        second.put value.2 ++ rest := List.drop_left' (first.put_length value.1)
    simp [skip]
  put_get bytes enough := by
    have tail : second.size ≤ (bytes.drop first.size).length := by
      simp only [List.length_drop]; omega
    rw [first.put_get bytes (by omega), second.put_get _ tail, List.take_add]

def transport {α β : Type} (layout : Layout α) (equiv : α ≃ β) : Layout β where
  size := layout.size
  put value := layout.put (equiv.symm value)
  get bytes := equiv (layout.get bytes)
  put_length value := layout.put_length (equiv.symm value)
  get_put value rest := by rw [layout.get_put, equiv.apply_symm_apply]
  put_get bytes enough := by rw [equiv.symm_apply_apply, layout.put_get bytes enough]

end Layout

end ByteLayout
