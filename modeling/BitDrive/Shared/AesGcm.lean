import BitDrive.Shared.Sha256

set_option autoImplicit false

namespace AesGcm

open ByteLayout

def substitution : List Nat :=
  [0x63, 0x7c, 0x77, 0x7b, 0xf2, 0x6b, 0x6f, 0xc5, 0x30, 0x01, 0x67, 0x2b, 0xfe, 0xd7, 0xab, 0x76,
    0xca, 0x82, 0xc9, 0x7d, 0xfa, 0x59, 0x47, 0xf0, 0xad, 0xd4, 0xa2, 0xaf, 0x9c, 0xa4, 0x72, 0xc0,
    0xb7, 0xfd, 0x93, 0x26, 0x36, 0x3f, 0xf7, 0xcc, 0x34, 0xa5, 0xe5, 0xf1, 0x71, 0xd8, 0x31, 0x15,
    0x04, 0xc7, 0x23, 0xc3, 0x18, 0x96, 0x05, 0x9a, 0x07, 0x12, 0x80, 0xe2, 0xeb, 0x27, 0xb2, 0x75,
    0x09, 0x83, 0x2c, 0x1a, 0x1b, 0x6e, 0x5a, 0xa0, 0x52, 0x3b, 0xd6, 0xb3, 0x29, 0xe3, 0x2f, 0x84,
    0x53, 0xd1, 0x00, 0xed, 0x20, 0xfc, 0xb1, 0x5b, 0x6a, 0xcb, 0xbe, 0x39, 0x4a, 0x4c, 0x58, 0xcf,
    0xd0, 0xef, 0xaa, 0xfb, 0x43, 0x4d, 0x33, 0x85, 0x45, 0xf9, 0x02, 0x7f, 0x50, 0x3c, 0x9f, 0xa8,
    0x51, 0xa3, 0x40, 0x8f, 0x92, 0x9d, 0x38, 0xf5, 0xbc, 0xb6, 0xda, 0x21, 0x10, 0xff, 0xf3, 0xd2,
    0xcd, 0x0c, 0x13, 0xec, 0x5f, 0x97, 0x44, 0x17, 0xc4, 0xa7, 0x7e, 0x3d, 0x64, 0x5d, 0x19, 0x73,
    0x60, 0x81, 0x4f, 0xdc, 0x22, 0x2a, 0x90, 0x88, 0x46, 0xee, 0xb8, 0x14, 0xde, 0x5e, 0x0b, 0xdb,
    0xe0, 0x32, 0x3a, 0x0a, 0x49, 0x06, 0x24, 0x5c, 0xc2, 0xd3, 0xac, 0x62, 0x91, 0x95, 0xe4, 0x79,
    0xe7, 0xc8, 0x37, 0x6d, 0x8d, 0xd5, 0x4e, 0xa9, 0x6c, 0x56, 0xf4, 0xea, 0x65, 0x7a, 0xae, 0x08,
    0xba, 0x78, 0x25, 0x2e, 0x1c, 0xa6, 0xb4, 0xc6, 0xe8, 0xdd, 0x74, 0x1f, 0x4b, 0xbd, 0x8b, 0x8a,
    0x70, 0x3e, 0xb5, 0x66, 0x48, 0x03, 0xf6, 0x0e, 0x61, 0x35, 0x57, 0xb9, 0x86, 0xc1, 0x1d, 0x9e,
    0xe1, 0xf8, 0x98, 0x11, 0x69, 0xd9, 0x8e, 0x94, 0x9b, 0x1e, 0x87, 0xe9, 0xce, 0x55, 0x28, 0xdf,
    0x8c, 0xa1, 0x89, 0x0d, 0xbf, 0xe6, 0x42, 0x68, 0x41, 0x99, 0x2d, 0x0f, 0xb0, 0x54, 0xbb, 0x16]

def substitute (byte : Nat) : Nat := substitution.getD byte 0

def xorBytes (left right : List Nat) : List Nat := List.zipWith (· ^^^ ·) left right

def double (byte : Nat) : Nat :=
  if byte < 128 then 2 * byte else (2 * byte - 256) ^^^ 0x1b

def nextKeyWord (index : Nat) (window : List (List Nat)) : List Nat :=
  let oldest := window.getD 0 []
  let newest := window.getD 7 []
  if index % 8 = 0 then
    xorBytes oldest
      (xorBytes ((newest.rotateLeft 1).map substitute) [2 ^ (index / 8 - 1), 0, 0, 0])
  else if index % 8 = 4 then xorBytes oldest (newest.map substitute)
  else xorBytes oldest newest

def keyWords : Nat → Nat → List (List Nat) → List (List Nat)
  | 0, _, _ => []
  | count + 1, index, window =>
    window.getD 0 [] :: keyWords count (index + 1) (window.drop 1 ++ [nextKeyWord index window])

def groups (size : Nat) (bytes : List Nat) : Nat → List (List Nat)
  | 0 => []
  | count + 1 => bytes.take size :: groups size (bytes.drop size) count

def roundKeys (key : Bytes) : List (List Nat) :=
  groups 16 (keyWords 60 8 (groups 4 (key.map UInt8.toNat) 8)).flatten 15

def shiftRows (state : List Nat) : List Nat :=
  (List.range 16).map fun index => state.getD ((index + 4 * (index % 4)) % 16) 0

def mixColumn (column : List Nat) : List Nat :=
  (List.range 4).map fun row =>
    let byte (offset : Nat) := column.getD ((row + offset) % 4) 0
    double (byte 0) ^^^ double (byte 1) ^^^ byte 1 ^^^ byte 2 ^^^ byte 3

def rounds : List (List Nat) → List Nat → List Nat
  | [], state => state
  | [last], state => xorBytes (shiftRows (state.map substitute)) last
  | roundKey :: keys, state =>
    rounds keys
      (xorBytes ((groups 4 (shiftRows (state.map substitute)) 4).flatMap mixColumn) roundKey)

def encryptBlock (keys : List (List Nat)) (block : List Nat) : List Nat :=
  rounds (keys.drop 1) (xorBytes block (keys.getD 0 []))

def multiplyLoop (left : Nat) : Nat → Nat → Nat → Nat
  | 0, _, product => product
  | count + 1, shifted, product =>
    multiplyLoop left count
      (if shifted % 2 = 1 then (shifted >>> 1) ^^^ (0xe1 <<< 120) else shifted >>> 1)
      (if left.testBit count then product ^^^ shifted else product)

def multiply (left right : Nat) : Nat := multiplyLoop left 128 right 0

def ofBlock (block : List Nat) : Nat := block.foldl (fun value byte => 256 * value + byte) 0

def blocks (bytes : List Nat) : List (List Nat) :=
  groups 16 (bytes ++ List.replicate ((16 - bytes.length % 16) % 16) 0) ((bytes.length + 15) / 16)

def counterBlock (nonce : List Nat) (counter : Nat) : List Nat :=
  nonce ++ (Sha256.toBigEndian 4 counter).map UInt8.toNat

def keyStream (keys : List (List Nat)) (nonce bytes : List Nat) : List Nat :=
  xorBytes bytes ((List.range ((bytes.length + 15) / 16)).flatMap fun index =>
    encryptBlock keys (counterBlock nonce (index + 2)))

def tag (keys : List (List Nat)) (nonce ciphertext : List Nat) : List Nat :=
  let hashKey := ofBlock (encryptBlock keys (List.replicate 16 0))
  let hashed := ((blocks ciphertext).map ofBlock ++ [8 * ciphertext.length]).foldl
    (fun state block => multiply (state ^^^ block) hashKey) 0
  xorBytes (encryptBlock keys (counterBlock nonce 1))
    ((Sha256.toBigEndian 16 hashed).map UInt8.toNat)

def encrypt (key : FixedBytes 32) (nonce : FixedBytes 12) (plaintext : Bytes) :
    Except String Bytes :=
  if 2 ^ 36 < plaintext.length then .error "aead::Error"
  else
    let keys := roundKeys key.val
    let start := nonce.val.map UInt8.toNat
    let ciphertext := keyStream keys start (plaintext.map UInt8.toNat)
    .ok ((ciphertext ++ tag keys start ciphertext).map UInt8.ofNat)

theorem encrypt_of_short (key : FixedBytes 32) (nonce : FixedBytes 12) (plaintext : Bytes)
    (short : ¬ 2 ^ 36 < plaintext.length) :
    ∃ encrypted, encrypt key nonce plaintext = .ok encrypted :=
  ⟨_, if_neg short⟩

example : encrypt ⟨List.replicate 32 0, by decide⟩ ⟨List.replicate 12 0, by decide⟩ [] =
    .ok [0x53, 0x0f, 0x8a, 0xfb, 0xc7, 0x45, 0x36, 0xb9, 0xa9, 0x63, 0xb4, 0xf1, 0xc4, 0xcb, 0x73,
      0x8b] := by
  decide +kernel

def decrypt (key : FixedBytes 32) (nonce : FixedBytes 12) (sealed : Bytes) :
    Except String Bytes :=
  let keys := roundKeys key.val
  let start := nonce.val.map UInt8.toNat
  let ciphertext := (sealed.take (sealed.length - 16)).map UInt8.toNat
  if sealed.length < 16 ∨ 2 ^ 36 + 16 < sealed.length then .error "aead::Error"
  else if tag keys start ciphertext ≠ (sealed.drop (sealed.length - 16)).map UInt8.toNat then
    .error "aead::Error"
  else .ok ((keyStream keys start ciphertext).map UInt8.ofNat)

theorem groups_length (size : Nat) (bytes : List Nat) (count : Nat) :
    (groups size bytes count).length = count := by
  induction count generalizing bytes with
  | zero => rfl
  | succ count ih => rw [groups, List.length_cons, ih]

theorem length_of_mem_groups (size : Nat) (bytes : List Nat) (count : Nat)
    (enough : size * count ≤ bytes.length) :
    ∀ group ∈ groups size bytes count, group.length = size := by
  induction count generalizing bytes with
  | zero => simp [groups]
  | succ count ih =>
    rw [Nat.mul_succ] at enough
    rw [groups, List.forall_mem_cons]
    refine ⟨List.length_take_of_le (by omega), ih (bytes.drop size) ?_⟩
    rw [List.length_drop]
    omega

theorem window_length (window : List (List Nat)) (full : window.length = 8)
    (words : ∀ word ∈ window, word.length = 4) (place : Nat) (inside : place < 8) :
    (window.getD place []).length = 4 := by
  rw [List.getD_eq_getElem?_getD, List.getElem?_eq_getElem (by omega), Option.getD_some]
  exact words _ (List.getElem_mem _)

theorem nextKeyWord_length (index : Nat) (window : List (List Nat)) (full : window.length = 8)
    (words : ∀ word ∈ window, word.length = 4) : (nextKeyWord index window).length = 4 := by
  have oldest := window_length window full words 0 (by decide)
  have newest := window_length window full words 7 (by decide)
  have rotated : ((window.getD 7 []).rotateLeft 1).length = 4 := by
    rw [List.rotateLeft, newest, if_neg (by decide), List.length_append, List.length_drop,
      List.length_take, newest]
    rfl
  rw [nextKeyWord]
  split
  next =>
    simp only [xorBytes, List.length_zipWith, List.length_map, oldest, rotated, List.length_cons,
      List.length_nil]
    rfl
  next =>
    split
    next => simp only [xorBytes, List.length_zipWith, List.length_map, oldest, newest, Nat.min_self]
    next => simp only [xorBytes, List.length_zipWith, oldest, newest, Nat.min_self]

theorem keyWords_words (count index : Nat) (window : List (List Nat)) (full : window.length = 8)
    (words : ∀ word ∈ window, word.length = 4) :
    (keyWords count index window).length = count ∧
      ∀ word ∈ keyWords count index window, word.length = 4 := by
  induction count generalizing index window with
  | zero => exact ⟨rfl, by simp [keyWords]⟩
  | succ count ih =>
    have first := window_length window full words 0 (by decide)
    obtain ⟨length, later⟩ := ih (index + 1) (window.drop 1 ++ [nextKeyWord index window])
      (by simp [full]) (by
        intro word member
        rcases List.mem_append.mp member with old | new
        next => exact words word (List.mem_of_mem_drop old)
        next =>
          rw [List.mem_singleton.mp new]
          exact nextKeyWord_length index window full words)
    rw [keyWords, List.length_cons, length, List.forall_mem_cons]
    exact ⟨rfl, first, later⟩

theorem flatten_length (size : Nat) (words : List (List Nat))
    (sized : ∀ word ∈ words, word.length = size) : words.flatten.length = words.length * size := by
  induction words with
  | nil => simp
  | cons word words ih =>
    obtain ⟨here, later⟩ := List.forall_mem_cons.mp sized
    rw [List.flatten_cons, List.length_append, List.length_cons, here, ih later, Nat.succ_mul,
      Nat.add_comm]

theorem roundKeys_length (key : FixedBytes 32) :
    (roundKeys key.val).length = 15 ∧ ∀ roundKey ∈ roundKeys key.val, roundKey.length = 16 := by
  have bytes : (key.val.map UInt8.toNat).length = 32 := by rw [List.length_map, key.property]
  have window := length_of_mem_groups 4 (key.val.map UInt8.toNat) 8 (by omega)
  obtain ⟨count, words⟩ := keyWords_words 60 8 _ (groups_length 4 _ 8) window
  have total := flatten_length 4 _ words
  rw [count] at total
  exact ⟨groups_length 16 _ 15, length_of_mem_groups 16 _ 15 (by omega)⟩

theorem rounds_length (keys : List (List Nat)) (state : List Nat) (some : keys ≠ [])
    (sized : ∀ key ∈ keys, key.length = 16) : (rounds keys state).length = 16 := by
  induction keys generalizing state with
  | nil => exact absurd rfl some
  | cons key keys ih =>
    obtain ⟨here, later⟩ := List.forall_mem_cons.mp sized
    cases keys with
    | nil => simp [rounds, xorBytes, shiftRows, here]
    | cons next keys =>
      exact ih _ (by simp) later

theorem encryptBlock_length (key : FixedBytes 32) (block : List Nat) :
    (encryptBlock (roundKeys key.val) block).length = 16 := by
  obtain ⟨count, sized⟩ := roundKeys_length key
  refine rounds_length _ _ ?_ fun roundKey member => sized roundKey (List.mem_of_mem_drop member)
  rw [← List.length_pos_iff, List.length_drop, count]
  decide

theorem keyStream_length (key : FixedBytes 32) (nonce bytes : List Nat) :
    (keyStream (roundKeys key.val) nonce bytes).length = bytes.length := by
  have stream := flatten_length 16 ((List.range ((bytes.length + 15) / 16)).map fun index =>
    encryptBlock (roundKeys key.val) (counterBlock nonce (index + 2))) (by
      intro block member
      obtain ⟨index, _, rfl⟩ := List.mem_map.mp member
      exact encryptBlock_length key _)
  rw [List.length_map, List.length_range] at stream
  rw [keyStream, xorBytes, List.length_zipWith, List.flatMap_def, stream]
  omega

theorem tag_length (key : FixedBytes 32) (nonce ciphertext : List Nat) :
    (tag (roundKeys key.val) nonce ciphertext).length = 16 := by
  rw [tag, xorBytes, List.length_zipWith, encryptBlock_length, List.length_map,
    Sha256.toBigEndian_length, Nat.min_self]

theorem encrypt_length (key : FixedBytes 32) (nonce : FixedBytes 12)
    (plaintext encrypted : Bytes) (sealed : encrypt key nonce plaintext = .ok encrypted) :
    encrypted.length = plaintext.length + 16 := by
  rw [encrypt] at sealed
  split at sealed
  next => cases sealed
  next =>
    obtain rfl := Except.ok.inj sealed
    rw [List.length_map, List.length_append, keyStream_length, tag_length, List.length_map]

end AesGcm
