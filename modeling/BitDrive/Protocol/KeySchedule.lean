import BitDrive.Protocol.Auth
import BitDrive.Shared.AesGcm

set_option autoImplicit false

namespace BitDrive

open ByteLayout

structure HkdfInput where
  salt : Option Bytes
  inputKey : Bytes
  info : Bytes

def masterInput (psk : FixedBytes 32) (salt : Bytes) : HkdfInput :=
  ⟨some salt, psk.val, utf8 "bpl-master"⟩

def channelInput (masterKey : FixedBytes 32) (channelId : UInt32) : HkdfInput :=
  ⟨none, masterKey.val, utf8 s!"bpl-channel-{channelId}"⟩

def FixedBytes.zero (size : Nat) : FixedBytes size := ⟨List.replicate size 0, by simp⟩

namespace Crypto

variable (crypto : Crypto)

def okm (input : HkdfInput) (size : Nat) : FixedBytes size :=
  (crypto.hkdfExpand input.salt input.inputKey input.info size).getD (FixedBytes.zero size)

def mac (key message : Bytes) : FixedBytes 32 :=
  (crypto.hmac key).elim (FixedBytes.zero 32) (· message)

def CollisionFreeOn (inputs : Set HkdfInput) : Prop :=
  Set.InjOn (fun input => crypto.okm input 32) inputs

theorem collisionFreeOn_pair (left right : HkdfInput)
    (different : crypto.okm left 32 ≠ crypto.okm right 32) :
    crypto.CollisionFreeOn {left, right} := by
  rintro first (rfl | rfl) second (rfl | rfl) same
  · rfl
  · exact absurd same different
  · exact absurd same.symm different
  · rfl

theorem hkdfInto_eq (salt : Option Bytes) (inputKey info : Bytes) (size : Nat) (failure : String)
    (bound : size ≤ 255 * 32) :
    hkdfInto crypto salt inputKey info size failure = .ok (crypto.okm ⟨salt, inputKey, info⟩ size) := by
  obtain ⟨output, expanded⟩ :=
    Option.isSome_iff_exists.mp (crypto.hkdfExpand_isSome salt inputKey info size bound)
  simp [hkdfInto, okm, expanded]

theorem computeHmac_eq (psk : FixedBytes 32) (challenge : AuthChallenge)
    (clientNonce role : Bytes) :
    computeHmac crypto psk challenge clientNonce role =
      .ok (crypto.mac psk.val (challenge.challenge ++ clientNonce ++ role)).val := by
  obtain ⟨mac, created⟩ := Option.isSome_iff_exists.mp (crypto.hmac_isSome psk.val)
  simp [computeHmac, Crypto.mac, created]

def scheduledChannelKeys (masterKey : FixedBytes 32) (channelId : UInt32) : ChannelKeys where
  encryptionKey := crypto.okm (channelInput masterKey channelId) 32
  authenticationKey := crypto.okm ⟨none, masterKey.val, utf8 s!"bpl-channel-{channelId}-auth"⟩ 32
  ivSalt := crypto.okm ⟨none, masterKey.val, utf8 s!"bpl-channel-{channelId}-iv"⟩ 16

def scheduledSessionKeys (masterKey : FixedBytes 32) : SessionKeys where
  masterKey := masterKey
  encryptionKey := crypto.okm ⟨some masterKey.val, [], utf8 "bpl-enc"⟩ 32
  authenticationKey := crypto.okm ⟨some masterKey.val, [], utf8 "bpl-auth"⟩ 32
  ivSalt := crypto.okm ⟨some masterKey.val, [], utf8 "bpl-iv"⟩ 16
  channelKeys := fun channelId =>
    if channelId < 16 then some (crypto.scheduledChannelKeys masterKey channelId) else none

def rotatedSessionKeys (masterKey : FixedBytes 32) : SessionKeys where
  masterKey := masterKey
  encryptionKey := crypto.okm ⟨none, masterKey.val, utf8 "bpl-enc"⟩ 32
  authenticationKey := crypto.okm ⟨none, masterKey.val, utf8 "bpl-auth"⟩ 32
  ivSalt := crypto.okm ⟨none, masterKey.val, utf8 "bpl-iv"⟩ 16
  channelKeys := (crypto.scheduledSessionKeys masterKey).channelKeys

def sessionKeysFor (psk : FixedBytes 32) (salt : Bytes) : SessionKeys :=
  crypto.scheduledSessionKeys (crypto.okm (masterInput psk salt) 32)

theorem deriveChannelKeys_eq (masterKey : FixedBytes 32) (channelId : UInt32) :
    deriveChannelKeys crypto masterKey channelId =
      .ok (crypto.scheduledChannelKeys masterKey channelId) := by
  simp only [deriveChannelKeys, crypto.hkdfInto_eq _ _ _ 32 _ (by decide),
    crypto.hkdfInto_eq _ _ _ 16 _ (by decide)]
  rfl

theorem deriveAllChannelKeys_eq (masterKey : FixedBytes 32) (start count : Nat)
    (bound : start + count ≤ 16) (channelKeys : UInt32 → Option ChannelKeys)
    (front : ∀ channelId, channelKeys channelId =
      if channelId.toNat < start then some (crypto.scheduledChannelKeys masterKey channelId) else none) :
    deriveAllChannelKeys crypto masterKey (UInt32.ofNat start) count channelKeys =
      .ok fun channelId => if channelId.toNat < start + count then
        some (crypto.scheduledChannelKeys masterKey channelId) else none := by
  induction count generalizing start channelKeys with
  | zero => simp [deriveAllChannelKeys, funext front]
  | succ count ih =>
    have next : UInt32.ofNat start + 1 = UInt32.ofNat (start + 1) := by simp
    rw [deriveAllChannelKeys, deriveChannelKeys_eq, next]
    change deriveAllChannelKeys crypto masterKey _ count _ = _
    rw [ih (start + 1) (by omega) _ ?_, Nat.add_right_comm, Nat.add_assoc]
    intro channelId
    have small : (UInt32.ofNat start).toNat = start := 
      UInt32.toNat_ofNat_of_lt' (Nat.lt_of_le_of_lt (by omega : start ≤ 16) (by decide))
    by_cases same : channelId = UInt32.ofNat start
    · subst same
      simp [small]
    · have other : channelId.toNat ≠ start := fun equal =>
        same (UInt32.toNat.inj (equal.trans small.symm))
      rw [Function.update_of_ne same, front]
      simp only [Nat.lt_succ_iff_lt_or_eq, other, or_false]

theorem deriveAllChannelKeys_all (masterKey : FixedBytes 32) :
    deriveAllChannelKeys crypto masterKey 0 16 (fun _ => none) =
      .ok (crypto.scheduledSessionKeys masterKey).channelKeys :=
  crypto.deriveAllChannelKeys_eq masterKey 0 16 (by decide) (fun _ => none) (by simp)

theorem deriveSessionKeys_eq (psk : FixedBytes 32) (challenge : AuthChallenge)
    (clientNonce : Bytes) :
    deriveSessionKeys crypto psk challenge clientNonce =
      .ok (crypto.sessionKeysFor psk challenge.salt) := by
  simp only [deriveSessionKeys, crypto.hkdfInto_eq _ _ _ 32 _ (by decide),
    crypto.hkdfInto_eq _ _ _ 16 _ (by decide), bind, Except.bind, deriveAllChannelKeys_all]
  rfl

theorem rotateKeys_eq (manager : AuthManager) (newMasterKey : FixedBytes 32) :
    manager.rotateKeys crypto newMasterKey =
      (.ok (crypto.rotatedSessionKeys newMasterKey),
        { manager with sessionKeys := some (crypto.rotatedSessionKeys newMasterKey) }) := by
  simp only [AuthManager.rotateKeys, crypto.hkdfInto_eq _ _ _ 32 _ (by decide),
    crypto.hkdfInto_eq _ _ _ 16 _ (by decide), bind, Except.bind, deriveAllChannelKeys_all]
  rfl

theorem sessionKeysFor_inj (psk : FixedBytes 32) (left right : Bytes)
    (collisionFree : crypto.CollisionFreeOn {masterInput psk left, masterInput psk right}) :
    crypto.sessionKeysFor psk left = crypto.sessionKeysFor psk right ↔ left = right := by
  constructor
  · intro same
    have master : crypto.okm (masterInput psk left) 32 = crypto.okm (masterInput psk right) 32 :=
      congrArg SessionKeys.masterKey same
    have inputs := collisionFree (by simp) (by simp) master
    exact Option.some.inj (congrArg HkdfInput.salt inputs)
  · rintro rfl
    rfl

end Crypto

def bincodeSessionKeys (keys : SessionKeys) : Bytes :=
  let entries := (List.range 16).filterMap fun channelId =>
    (keys.channelKeys (UInt32.ofNat channelId)).map fun entry =>
      Layout.u32.put (UInt32.ofNat channelId) ++ entry.encryptionKey.val ++
        entry.authenticationKey.val ++ entry.ivSalt.val
  keys.masterKey.val ++ keys.encryptionKey.val ++ keys.authenticationKey.val ++ keys.ivSalt.val ++
    Layout.u64.put (UInt64.ofNat entries.length) ++ entries.flatten

theorem flatten_length_le (size : Nat) (entries : List Bytes)
    (bound : ∀ entry ∈ entries, entry.length ≤ size) :
    entries.flatten.length ≤ entries.length * size := by
  induction entries with
  | nil => simp
  | cons entry entries ih =>
    have first := bound entry List.mem_cons_self
    have rest := ih fun other member => bound other (List.mem_cons_of_mem entry member)
    rw [List.flatten_cons, List.length_append, List.length_cons, Nat.succ_mul]
    omega

theorem bincodeSessionKeys_length (keys : SessionKeys) :
    (bincodeSessionKeys keys).length ≤ 1464 := by
  have u32 (value : UInt32) : (Layout.u32.put value).length = 4 := Layout.u32.put_length value
  have u64 (value : UInt64) : (Layout.u64.put value).length = 8 := Layout.u64.put_length value
  simp only [bincodeSessionKeys, List.length_append, u64, keys.masterKey.property,
    keys.encryptionKey.property, keys.authenticationKey.property, keys.ivSalt.property]
  have entries := flatten_length_le 84 ((List.range 16).filterMap fun channelId =>
    (keys.channelKeys (UInt32.ofNat channelId)).map fun entry =>
      Layout.u32.put (UInt32.ofNat channelId) ++ entry.encryptionKey.val ++
        entry.authenticationKey.val ++ entry.ivSalt.val) (by
    intro bytes member
    obtain ⟨channelId, _, written⟩ := List.mem_filterMap.mp member
    obtain ⟨entry, _, rfl⟩ := Option.map_eq_some_iff.mp written
    simp only [List.length_append, u32, entry.encryptionKey.property,
      entry.authenticationKey.property, entry.ivSalt.property]
    decide)
  have count := List.length_filterMap_le (fun channelId : Nat =>
    (keys.channelKeys (UInt32.ofNat channelId)).map fun entry =>
      Layout.u32.put (UInt32.ofNat channelId) ++ entry.encryptionKey.val ++
        entry.authenticationKey.val ++ entry.ivSalt.val) (List.range 16)
  rw [List.length_range] at count
  omega

def Crypto.reference : Crypto where
  hkdfExpand := Sha256.hkdf
  hkdfExpand_isSome := Sha256.hkdf_isSome
  hmac := fun key => some (Sha256.hmac key)
  hmac_isSome := fun _ => rfl
  aesGcmEncrypt := AesGcm.encrypt
  aesGcmDecrypt := AesGcm.decrypt
  serialize := fun keys => .ok (bincodeSessionKeys keys)

theorem Crypto.reference_seals (keys : SessionKeys) :
    ∃ encrypted, encryptSessionKeys Crypto.reference keys = .ok encrypted := by
  have size := bincodeSessionKeys_length keys
  have short : ¬ 2 ^ 36 < (bincodeSessionKeys keys).length := by omega
  obtain ⟨encrypted, done⟩ := AesGcm.encrypt_of_short keys.masterKey
    (FixedBytes.take keys.ivSalt 12 (by decide)) (bincodeSessionKeys keys) short
  refine ⟨encrypted, ?_⟩
  simp only [encryptSessionKeys, Crypto.reference, mapErr, bind, Except.bind, done]

end BitDrive
