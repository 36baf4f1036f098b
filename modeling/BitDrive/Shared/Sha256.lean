import BitDrive.Shared.ByteLayout

set_option autoImplicit false

namespace Sha256

open ByteLayout

def rotateRight (count word : Nat) : Nat :=
  word >>> count ||| (word <<< (32 - count)) % 2 ^ 32

def choose (x y z : Nat) : Nat := (x &&& y) ^^^ ((x ^^^ (2 ^ 32 - 1)) &&& z)

def majority (x y z : Nat) : Nat := (x &&& y) ^^^ (x &&& z) ^^^ (y &&& z)

def roundConstants : List Nat :=
  [0x428a2f98, 0x71374491, 0xb5c0fbcf, 0xe9b5dba5, 0x3956c25b, 0x59f111f1, 0x923f82a4, 0xab1c5ed5,
    0xd807aa98, 0x12835b01, 0x243185be, 0x550c7dc3, 0x72be5d74, 0x80deb1fe, 0x9bdc06a7, 0xc19bf174,
    0xe49b69c1, 0xefbe4786, 0x0fc19dc6, 0x240ca1cc, 0x2de92c6f, 0x4a7484aa, 0x5cb0a9dc, 0x76f988da,
    0x983e5152, 0xa831c66d, 0xb00327c8, 0xbf597fc7, 0xc6e00bf3, 0xd5a79147, 0x06ca6351, 0x14292967,
    0x27b70a85, 0x2e1b2138, 0x4d2c6dfc, 0x53380d13, 0x650a7354, 0x766a0abb, 0x81c2c92e, 0x92722c85,
    0xa2bfe8a1, 0xa81a664b, 0xc24b8b70, 0xc76c51a3, 0xd192e819, 0xd6990624, 0xf40e3585, 0x106aa070,
    0x19a4c116, 0x1e376c08, 0x2748774c, 0x34b0bcb5, 0x391c0cb3, 0x4ed8aa4a, 0x5b9cca4f, 0x682e6ff3,
    0x748f82ee, 0x78a5636f, 0x84c87814, 0x8cc70208, 0x90befffa, 0xa4506ceb, 0xbef9a3f7, 0xc67178f2]

structure Working where
  a : Nat
  b : Nat
  c : Nat
  d : Nat
  e : Nat
  f : Nat
  g : Nat
  h : Nat

def Working.initial : Working :=
  ⟨0x6a09e667, 0xbb67ae85, 0x3c6ef372, 0xa54ff53a, 0x510e527f, 0x9b05688c, 0x1f83d9ab, 0x5be0cd19⟩

def Working.round (state : Working) (constant word : Nat) : Working :=
  let mixed := rotateRight 6 state.e ^^^ rotateRight 11 state.e ^^^ rotateRight 25 state.e
  let first := state.h + mixed + choose state.e state.f state.g + constant + word
  let spread := rotateRight 2 state.a ^^^ rotateRight 13 state.a ^^^ rotateRight 22 state.a
  let second := spread + majority state.a state.b state.c
  ⟨(first + second) % 2 ^ 32, state.a, state.b, state.c, (state.d + first) % 2 ^ 32, state.e,
    state.f, state.g⟩

def nextWord : List Nat → Nat
  | [word₀, word₁, _, _, _, _, _, _, _, word₉, _, _, _, _, word₁₄, _] =>
    let low := rotateRight 7 word₁ ^^^ rotateRight 18 word₁ ^^^ word₁ >>> 3
    let high := rotateRight 17 word₁₄ ^^^ rotateRight 19 word₁₄ ^^^ word₁₄ >>> 10
    (high + word₉ + low + word₀) % 2 ^ 32
  | _ => 0

def Working.rounds : List Nat → List Nat → Working → Working
  | constant :: constants, word :: window, state =>
    rounds constants (window ++ [nextWord (word :: window)]) (state.round constant word)
  | _, _, state => state

def Working.add (left right : Working) : Working :=
  ⟨(left.a + right.a) % 2 ^ 32, (left.b + right.b) % 2 ^ 32, (left.c + right.c) % 2 ^ 32,
    (left.d + right.d) % 2 ^ 32, (left.e + right.e) % 2 ^ 32, (left.f + right.f) % 2 ^ 32,
    (left.g + right.g) % 2 ^ 32, (left.h + right.h) % 2 ^ 32⟩

def toBigEndian : Nat → Nat → Bytes
  | 0, _ => []
  | width + 1, value => UInt8.ofNat (value >>> (8 * width)) :: toBigEndian width value

def words : Bytes → List Nat
  | byte₀ :: byte₁ :: byte₂ :: byte₃ :: bytes =>
    (byte₀.toNat <<< 24 ||| byte₁.toNat <<< 16 ||| byte₂.toNat <<< 8 ||| byte₃.toNat) :: words bytes
  | _ => []

def padded (message : Bytes) : Bytes :=
  message ++ 0x80 :: (List.replicate ((119 - message.length % 64) % 64) 0 ++
    toBigEndian 8 (8 * message.length))

def absorb : Nat → List Nat → Working → Working
  | 0, _, state => state
  | count + 1, message, state =>
    absorb count (message.drop 16) (state.add (state.rounds roundConstants (message.take 16)))

def digest (state : Working) : Bytes :=
  [state.a, state.b, state.c, state.d, state.e, state.f, state.g, state.h].flatMap (toBigEndian 4)

def hash (message : Bytes) : Bytes :=
  digest (absorb ((padded message).length / 64) (words (padded message)) .initial)

@[simp] theorem toBigEndian_length (width value : Nat) :
    (toBigEndian width value).length = width := by
  induction width with
  | zero => rfl
  | succ width ih => simp [toBigEndian, ih]

@[simp] theorem hash_length (message : Bytes) : (hash message).length = 32 := by
  simp [hash, digest]

example : hash (utf8 "abc") =
    [0xba, 0x78, 0x16, 0xbf, 0x8f, 0x01, 0xcf, 0xea, 0x41, 0x41, 0x40, 0xde, 0x5d, 0xae, 0x22, 0x23,
      0xb0, 0x03, 0x61, 0xa3, 0x96, 0x17, 0x7a, 0x9c, 0xb4, 0x10, 0xff, 0x61, 0xf2, 0x00, 0x15,
      0xad] := by
  decide +kernel

def hmacPad (mask : UInt8) (key : Bytes) : Bytes :=
  let short := if 64 < key.length then hash key else key
  (short ++ List.replicate (64 - short.length) 0).map (· ^^^ mask)

def hmac (key message : Bytes) : FixedBytes 32 :=
  ⟨hash (hmacPad 0x5c key ++ hash (hmacPad 0x36 key ++ message)), hash_length _⟩

def expandBlocks (pseudorandomKey info : Bytes) : Nat → Nat → Bytes → Bytes
  | 0, _, _ => []
  | count + 1, index, previous =>
    let block := (hmac pseudorandomKey (previous ++ info ++ [UInt8.ofNat index])).val
    block ++ expandBlocks pseudorandomKey info count (index + 1) block

theorem expandBlocks_length (pseudorandomKey info : Bytes) (count index : Nat) (previous : Bytes) :
    (expandBlocks pseudorandomKey info count index previous).length = 32 * count := by
  induction count generalizing index previous with
  | zero => rfl
  | succ count ih =>
    rw [expandBlocks, List.length_append, ih, (hmac _ _).property]
    omega

def hkdf (salt : Option Bytes) (inputKey info : Bytes) (size : Nat) : Option (FixedBytes size) :=
  let pseudorandomKey := (hmac (salt.getD (List.replicate 32 0)) inputKey).val
  if size ≤ 255 * 32 then
    some ⟨(expandBlocks pseudorandomKey info ((size + 31) / 32) 1 []).take size, by
      rw [List.length_take, expandBlocks_length]
      omega⟩
  else none

theorem hkdf_isSome (salt : Option Bytes) (inputKey info : Bytes) (size : Nat)
    (bound : size ≤ 255 * 32) : (hkdf salt inputKey info size).isSome = true := by
  simp [hkdf, bound]

end Sha256
