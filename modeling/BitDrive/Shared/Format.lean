import BitDrive.Shared.ByteLayout

set_option autoImplicit false

namespace ByteLayout

structure Format (α : Type) where
  write : α → Bytes
  read : Bytes → Option (α × Bytes)
  read_write : ∀ value rest, read (write value ++ rest) = some (value, rest)

namespace Format

def layout {α : Type} (layout : Layout α) : Format α where
  write := layout.put
  read bytes :=
    if layout.size ≤ bytes.length then some (layout.get bytes, bytes.drop layout.size) else none
  read_write value rest := by
    have enough : layout.size ≤ (layout.put value ++ rest).length := by simp
    rw [if_pos enough, layout.get_put, List.drop_left' (layout.put_length value)]

def fixed (size : Nat) : Format (FixedBytes size) where
  write bytes := bytes.val
  read bytes :=
    if enough : size ≤ bytes.length then
      some (⟨bytes.take size, List.length_take_of_le enough⟩, bytes.drop size)
    else none
  read_write bytes rest := by
    have enough : size ≤ (bytes.val ++ rest).length := by simp [bytes.property]
    have front : (bytes.val ++ rest).take size = bytes.val := List.take_left' bytes.property
    rw [dif_pos enough, List.drop_left' bytes.property]
    exact congrArg (fun taken => some (taken, rest)) (Subtype.ext front)

def pair {α β : Type} (first : Format α) (second : Format β) : Format (α × β) where
  write value := first.write value.1 ++ second.write value.2
  read bytes := do
    let (left, bytes) ← first.read bytes
    let (right, bytes) ← second.read bytes
    return ((left, right), bytes)
  read_write value rest := by
    rw [List.append_assoc, first.read_write]
    simp only [Option.bind_eq_bind, Option.bind_some, second.read_write]
    rfl

def transport {α β : Type} (format : Format α) (equiv : α ≃ β) : Format β where
  write value := format.write (equiv.symm value)
  read bytes := (format.read bytes).map fun (value, rest) => (equiv value, rest)
  read_write value rest := by
    simp only [format.read_write, Option.map_some, equiv.apply_symm_apply]

section

variable {α : Type} (format : Format α)

def readEach : Nat → Bytes → Option (List α × Bytes)
  | 0, bytes => some ([], bytes)
  | count + 1, bytes => do
    let (value, bytes) ← format.read bytes
    let (values, bytes) ← readEach count bytes
    return (value :: values, bytes)

theorem readEach_write (values : List α) (rest : Bytes) :
    format.readEach values.length (values.flatMap format.write ++ rest) = some (values, rest) := by
  induction values with
  | nil => rfl
  | cons value values ih =>
    rw [List.flatMap_cons, List.append_assoc, List.length_cons, readEach, format.read_write]
    simp only [Option.bind_eq_bind, Option.bind_some, ih]
    rfl

def counted : Format { values : List α // values.length < 2 ^ 64 } where
  write values := Layout.u64.put (UInt64.ofNat values.val.length) ++ values.val.flatMap format.write
  read bytes := do
    let (count, bytes) ← (layout Layout.u64).read bytes
    let (values, bytes) ← format.readEach count.toNat bytes
    if bound : values.length < 2 ^ 64 then return (⟨values, bound⟩, bytes) else none
  read_write values rest := by
    have length : (UInt64.ofNat values.val.length).toNat = values.val.length :=
      UInt64.toNat_ofNat_of_lt' values.property
    have front := (layout Layout.u64).read_write (UInt64.ofNat values.val.length)
      (values.val.flatMap format.write ++ rest)
    rw [List.append_assoc]
    simp only [layout] at front
    simp only [layout, front, Option.bind_eq_bind, Option.bind_some, length, readEach_write,
      dif_pos values.property]
    rfl

end

end Format

end ByteLayout
