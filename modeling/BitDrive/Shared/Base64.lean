import Mathlib.Data.List.Basic

set_option autoImplicit false

namespace Base64

def alphabet : List Char :=
  "ABCDEFGHIJKLMNOPQRSTUVWXYZabcdefghijklmnopqrstuvwxyz0123456789+/".toList

def pad : Char := '='

def symbol (value : Nat) : Char := alphabet.getD value pad

def value? (symbol : Char) : Option Nat := alphabet.findIdx? (· = symbol)

def encodeBytes : List UInt8 → List Char
  | [] => []
  | [first] =>
    let bits := first.toNat * 16
    [symbol (bits / 64), symbol (bits % 64), pad, pad]
  | [first, second] =>
    let bits := (first.toNat * 256 + second.toNat) * 4
    [symbol (bits / 4096), symbol (bits / 64 % 64), symbol (bits % 64), pad]
  | first :: second :: third :: rest =>
    let bits := first.toNat * 65536 + second.toNat * 256 + third.toNat
    symbol (bits / 262144) :: symbol (bits / 4096 % 64) :: symbol (bits / 64 % 64) ::
      symbol (bits % 64) :: encodeBytes rest

def decodeOne (first second : Char) : Option (List UInt8) := do
  let bits := (← value? first) * 64 + (← value? second)
  if bits % 16 = 0 then some [UInt8.ofNat (bits / 16)] else none

def decodeTwo (first second third : Char) : Option (List UInt8) := do
  let bits := (← value? first) * 4096 + (← value? second) * 64 + (← value? third)
  if bits % 4 = 0 then some [UInt8.ofNat (bits / 1024), UInt8.ofNat (bits / 4)] else none

def decodeThree (first second third fourth : Char) : Option (List UInt8) := do
  let bits := (← value? first) * 262144 + (← value? second) * 4096 + (← value? third) * 64 +
    (← value? fourth)
  some [UInt8.ofNat (bits / 65536), UInt8.ofNat (bits / 256), UInt8.ofNat bits]

def decodeChars : List Char → Option (List UInt8)
  | [] => some []
  | first :: second :: third :: fourth :: rest =>
    -- Padding ends the text.
    if fourth = pad ∧ rest = [] then
      if third = pad then decodeOne first second else decodeTwo first second third
    else do
      let group ← decodeThree first second third fourth
      let bytes ← decodeChars rest
      some (group ++ bytes)
  | _ => none

def encode (bytes : List UInt8) : String := String.ofList (encodeBytes bytes)

def decode (text : String) : Option (List UInt8) := decodeChars text.toList

theorem value?_symbol (value : Nat) (small : value < 64) : value? (symbol value) = some value := by
  have all : ∀ value : Fin 64, value? (symbol value) = some value.val := by decide +kernel
  exact all ⟨value, small⟩

theorem symbol_ne_pad (value : Nat) (small : value < 64) : symbol value ≠ pad := by
  have all : ∀ value : Fin 64, symbol value ≠ pad := by decide +kernel
  exact all ⟨value, small⟩

theorem ofNat_toNat (byte : UInt8) (bits : Nat) (same : bits % 256 = byte.toNat) :
    UInt8.ofNat bits = byte := by
  apply UInt8.toNat.inj
  simpa using same

theorem decodeThree_symbols (first second third : UInt8) (bits : Nat)
    (same : bits = first.toNat * 65536 + second.toNat * 256 + third.toNat) :
    decodeThree (symbol (bits / 262144)) (symbol (bits / 4096 % 64)) (symbol (bits / 64 % 64))
      (symbol (bits % 64)) = some [first, second, third] := by
  have high := first.toNat_lt
  have middle := second.toNat_lt
  have low := third.toNat_lt
  have joined : bits / 262144 * 262144 + bits / 4096 % 64 * 4096 + bits / 64 % 64 * 64 + bits % 64 =
      bits := by omega
  simp only [decodeThree, value?_symbol _ (by omega : bits / 262144 < 64),
    value?_symbol _ (Nat.mod_lt _ (by decide : 64 > 0)), Option.bind_eq_bind, Option.bind_some,
    joined]
  rw [ofNat_toNat first _ (by omega), ofNat_toNat second _ (by omega), ofNat_toNat third _ (by omega)]

theorem decodeOne_symbols (first : UInt8) :
    decodeOne (symbol (first.toNat * 16 / 64)) (symbol (first.toNat * 16 % 64)) = some [first] := by
  have bound := first.toNat_lt
  have joined : first.toNat * 16 / 64 * 64 + first.toNat * 16 % 64 = first.toNat * 16 := by omega
  simp only [decodeOne, value?_symbol _ (by omega : first.toNat * 16 / 64 < 64),
    value?_symbol _ (Nat.mod_lt _ (by decide : 64 > 0)), Option.bind_eq_bind, Option.bind_some,
    joined, Nat.mul_mod_left, if_true]
  rw [ofNat_toNat first _ (by omega)]

theorem decodeTwo_symbols (first second : UInt8) (bits : Nat)
    (same : bits = (first.toNat * 256 + second.toNat) * 4) :
    decodeTwo (symbol (bits / 4096)) (symbol (bits / 64 % 64)) (symbol (bits % 64)) =
      some [first, second] := by
  have high := first.toNat_lt
  have low := second.toNat_lt
  have joined : bits / 4096 * 4096 + bits / 64 % 64 * 64 + bits % 64 = bits := by omega
  have canonical : bits % 4 = 0 := by omega
  simp only [decodeTwo, value?_symbol _ (by omega : bits / 4096 < 64),
    value?_symbol _ (Nat.mod_lt _ (by decide : 64 > 0)), Option.bind_eq_bind, Option.bind_some,
    joined, canonical, if_true]
  rw [ofNat_toNat first _ (by omega), ofNat_toNat second _ (by omega)]

theorem decodeChars_encodeBytes (bytes : List UInt8) :
    decodeChars (encodeBytes bytes) = some bytes := by
  induction bytes using encodeBytes.induct with
  | case1 => rfl
  | case2 first =>
    simp only [encodeBytes, decodeChars, and_self, if_true]
    exact decodeOne_symbols first
  | case3 first second =>
    have third := symbol_ne_pad ((first.toNat * 256 + second.toNat) * 4 % 64) (by omega)
    simp only [encodeBytes, decodeChars, and_self, if_true, if_neg third]
    exact decodeTwo_symbols first second _ rfl
  | case4 first second third rest ih =>
    have fourth := symbol_ne_pad
      ((first.toNat * 65536 + second.toNat * 256 + third.toNat) % 64) (by omega)
    simp only [encodeBytes, decodeChars, fourth, false_and, if_false, ih,
      decodeThree_symbols first second third _ rfl, Option.bind_eq_bind, Option.bind_some,
      List.cons_append, List.nil_append]

theorem decode_encode (bytes : List UInt8) : decode (encode bytes) = some bytes := by
  simp only [decode, encode, String.toList_ofList, decodeChars_encodeBytes]

end Base64
