import BitDrive.Protocol.ChannelTable

set_option autoImplicit false

namespace BitDrive

open ByteLayout

inductive KeyOrigin where
  | handshake
  | rotation
  deriving DecidableEq

section

variable (crypto : Crypto)

def Crypto.sessionKeysFrom (masterKey : FixedBytes 32) : KeyOrigin → SessionKeys
  | .handshake => crypto.scheduledSessionKeys masterKey
  | .rotation => crypto.rotatedSessionKeys masterKey

def encryptionInputs (masterKey : FixedBytes 32) : Set HkdfInput :=
  {⟨some masterKey.val, [], utf8 "bpl-enc"⟩, ⟨none, masterKey.val, utf8 "bpl-enc"⟩}

theorem Crypto.sessionKeysFrom_inj (masterKey : FixedBytes 32) (first second : KeyOrigin)
    (collisionFree : crypto.CollisionFreeOn (encryptionInputs masterKey)) :
    crypto.sessionKeysFrom masterKey first = crypto.sessionKeysFrom masterKey second ↔
      first = second := by
  have apart : crypto.scheduledSessionKeys masterKey ≠ crypto.rotatedSessionKeys masterKey := by
    intro same
    have inputs := collisionFree (by simp [encryptionInputs]) (by simp [encryptionInputs])
      (congrArg SessionKeys.encryptionKey same)
    cases congrArg HkdfInput.salt inputs
  constructor
  next =>
    intro same
    cases first with
    | handshake =>
      cases second with
      | handshake => rfl
      | rotation => exact absurd same apart
    | rotation =>
      cases second with
      | handshake => exact absurd same.symm apart
      | rotation => rfl
  next =>
    rintro rfl
    rfl

theorem Crypto.sessionKeysFrom_masterKey (masterKey : FixedBytes 32) (origin : KeyOrigin) :
    (crypto.sessionKeysFrom masterKey origin).masterKey = masterKey := by
  cases origin with
  | handshake => rfl
  | rotation => rfl

theorem Crypto.sessionKeysFrom_channelKeys (masterKey : FixedBytes 32) (origin : KeyOrigin) :
    (crypto.sessionKeysFrom masterKey origin).channelKeys =
      (crypto.scheduledSessionKeys masterKey).channelKeys := by
  cases origin with
  | handshake => rfl
  | rotation => rfl

namespace AuthManager

def nextOrigin (manager : AuthManager) (origin : Option KeyOrigin) : AuthCall → Option KeyOrigin
  | .setPsk _ => origin
  | .verifyResponse challenge response =>
    match manager.psk with
    | none => origin
    | some psk =>
      if clientProof crypto psk challenge response.clientNonce = response.response then
        some .handshake
      else origin
  | .verifyServerResponse _ _ => if manager.psk.isSome then some .handshake else origin
  | .rotateKeys _ => some .rotation
  | .clearKeys => none

def originAfter (manager : AuthManager) (origin : Option KeyOrigin) :
    List AuthCall → Option KeyOrigin
  | [] => origin
  | call :: history =>
    (manager.authCall crypto call).originAfter (manager.nextOrigin crypto origin call) history

def Derived (manager : AuthManager) (origin : Option KeyOrigin) : Prop :=
  ∀ keys, manager.sessionKeys = some keys →
    ∃ source, origin = some source ∧ keys = crypto.sessionKeysFrom keys.masterKey source

theorem derived_from (psk : Option (FixedBytes 32)) (masterKey : FixedBytes 32)
    (origin : KeyOrigin) :
    Derived crypto ⟨psk, some (crypto.sessionKeysFrom masterKey origin)⟩ (some origin) := by
  intro keys stored
  have same := Option.some.inj stored
  subst same
  exact ⟨origin, rfl, by rw [crypto.sessionKeysFrom_masterKey]⟩

theorem Derived.authCall (manager : AuthManager) (origin : Option KeyOrigin) (call : AuthCall)
    (derived : manager.Derived crypto origin) :
    (manager.authCall crypto call).Derived crypto (manager.nextOrigin crypto origin call) := by
  have ⟨psk, stored⟩ := manager
  cases call with
  | setPsk psk => exact derived
  | verifyResponse challenge response =>
    cases psk with
    | none => exact derived
    | some psk =>
      simp only [AuthManager.authCall, verifyResponse_eq, nextOrigin]
      by_cases proved : clientProof crypto psk challenge response.clientNonce = response.response
      next =>
        rw [if_neg (not_not.mpr proved), if_pos proved]
        exact derived_from crypto _ _ .handshake
      next =>
        rw [if_pos proved, if_neg proved]
        exact derived
  | verifyServerResponse challenge response =>
    cases psk with
    | none => exact derived
    | some psk =>
      simp only [AuthManager.authCall, verifyServerResponse_eq, nextOrigin]
      exact derived_from crypto _ _ .handshake
  | rotateKeys newMasterKey =>
    simp only [AuthManager.authCall, crypto.rotateKeys_eq, nextOrigin]
    exact derived_from crypto _ _ .rotation
  | clearKeys =>
    intro keys installed
    cases installed

theorem Derived.authCalls (manager : AuthManager) (origin : Option KeyOrigin)
    (history : List AuthCall) (derived : manager.Derived crypto origin) :
    (manager.authCalls crypto history).Derived crypto
      (manager.originAfter crypto origin history) := by
  induction history generalizing manager origin with
  | nil => exact derived
  | cons call history ih => exact ih _ _ (derived.authCall crypto manager origin call)

def origin (history : List AuthCall) : Option KeyOrigin :=
  AuthManager.new.originAfter crypto none history

theorem stored_from (history : List AuthCall) (keys : SessionKeys)
    (stored : (AuthManager.new.authCalls crypto history).sessionKeys = some keys) :
    ∃ source, origin crypto history = some source ∧
      keys = crypto.sessionKeysFrom keys.masterKey source := by
  have start : AuthManager.new.Derived crypto none := by
    intro keys installed
    cases installed
  exact start.authCalls crypto AuthManager.new none history keys stored

end AuthManager

open AuthManager in
theorem session_keys_determined_iff (left right : List AuthCall) (first second : SessionKeys)
    (firstStored : (AuthManager.new.authCalls crypto left).sessionKeys = some first)
    (secondStored : (AuthManager.new.authCalls crypto right).sessionKeys = some second)
    (sameMaster : first.masterKey = second.masterKey)
    (collisionFree : crypto.CollisionFreeOn (encryptionInputs first.masterKey)) :
    first.channelKeys = second.channelKeys ∧
      (first = second ↔ origin crypto left = origin crypto right) := by
  have ⟨firstSource, firstOrigin, firstDerived⟩ := stored_from crypto left first firstStored
  have ⟨secondSource, secondOrigin, secondDerived⟩ := stored_from crypto right second secondStored
  rw [← sameMaster] at secondDerived
  constructor
  next =>
    rw [firstDerived, secondDerived]
    simp only [crypto.sessionKeysFrom_channelKeys]
  next =>
    rw [firstOrigin, secondOrigin, Option.some.injEq,
      ← crypto.sessionKeysFrom_inj first.masterKey _ _ collisionFree, ← firstDerived,
      ← secondDerived]

end

def clientLogin : List AuthCall :=
  [.setPsk testPsk, .verifyServerResponse issuedChallenge ⟨[], []⟩]

def loginMaster : FixedBytes 32 :=
  Crypto.reference.okm (masterInput testPsk issuedChallenge.salt) 32

theorem clientLogin_stored :
    (AuthManager.new.authCalls Crypto.reference clientLogin).sessionKeys =
      some (Crypto.reference.scheduledSessionKeys loginMaster) :=
  congrArg (fun result => result.2.sessionKeys)
    (verifyServerResponse_eq Crypto.reference testPsk none issuedChallenge ⟨[], []⟩)

theorem rotation_stored :
    (AuthManager.new.authCalls Crypto.reference [.rotateKeys loginMaster]).sessionKeys =
      some (Crypto.reference.rotatedSessionKeys loginMaster) :=
  congrArg (fun result => result.2.sessionKeys)
    (Crypto.reference.rotateKeys_eq AuthManager.new loginMaster)

theorem login_encryption_differs :
    (Crypto.reference.scheduledSessionKeys loginMaster).encryptionKey ≠
      (Crypto.reference.rotatedSessionKeys loginMaster).encryptionKey := by
  decide +kernel

theorem login_collisionFree :
    Crypto.reference.CollisionFreeOn (encryptionInputs loginMaster) :=
  Crypto.reference.collisionFreeOn_pair _ _ login_encryption_differs

theorem session_keys_determined_iff_rotated :
    ∃ first second,
      (AuthManager.new.authCalls Crypto.reference clientLogin).sessionKeys = some first ∧
      (AuthManager.new.authCalls Crypto.reference [.rotateKeys loginMaster]).sessionKeys =
        some second ∧
      first.channelKeys = second.channelKeys ∧
      (first = second ↔ AuthManager.origin Crypto.reference clientLogin =
        AuthManager.origin Crypto.reference [.rotateKeys loginMaster]) :=
  ⟨_, _, clientLogin_stored, rotation_stored, session_keys_determined_iff Crypto.reference _ _ _ _
    clientLogin_stored rotation_stored rfl login_collisionFree⟩

theorem rotation_splits_keys :
    ∃ first second,
      (AuthManager.new.authCalls Crypto.reference clientLogin).sessionKeys = some first ∧
      (AuthManager.new.authCalls Crypto.reference [.rotateKeys loginMaster]).sessionKeys =
        some second ∧
      first.masterKey = second.masterKey ∧
      Crypto.reference.CollisionFreeOn (encryptionInputs first.masterKey) ∧
      first.encryptionKey ≠ second.encryptionKey :=
  ⟨_, _, clientLogin_stored, rotation_stored, rfl, login_collisionFree, login_encryption_differs⟩

end BitDrive
