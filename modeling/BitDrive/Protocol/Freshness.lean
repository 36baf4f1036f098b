import BitDrive.Protocol.Handshake

set_option autoImplicit false

namespace BitDrive

open ByteLayout

structure Login where
  serverStored : Option SessionKeys
  clientStored : Option SessionKeys
  response : AuthResponse
  success : AuthSuccess

namespace Login

variable (crypto : Crypto) (psk : FixedBytes 32) (challenge : AuthChallenge)

def Proved (login : Login) : Prop :=
  computeClientHmac crypto psk challenge login.response.clientNonce = .ok login.response.response

def serverKeys (login : Login) : Option SessionKeys :=
  (AuthManager.verifyResponse crypto ⟨some psk, login.serverStored⟩ challenge
    login.response).2.sessionKeys

def clientKeys (login : Login) : Option SessionKeys :=
  (AuthManager.verifyServerResponse crypto ⟨some psk, login.clientStored⟩ challenge
    login.success).2.sessionKeys

end Login

def KeysFresh (keys : Login → Option SessionKeys) (first second : Login) : Prop :=
  first.response.clientNonce ≠ second.response.clientNonce → keys first ≠ keys second

def sealingPair (keys : Option SessionKeys) (channelId : UInt32) (sequence : UInt64) :
    Option (FixedBytes 32 × FixedBytes 12) :=
  (keys.bind (·.channelKeys channelId)).map fun keys =>
    (keys.encryptionKey, channelNonce keys sequence)

section

variable (crypto : Crypto) (psk : FixedBytes 32) (challenge : AuthChallenge)

theorem Login.serverKeys_eq (login : Login) (proved : login.Proved crypto psk challenge) :
    login.serverKeys crypto psk challenge = some (crypto.sessionKeysFor psk challenge.salt) := by
  rw [Login.Proved, computeClientHmac_eq] at proved
  rw [Login.serverKeys, verifyResponse_eq, if_neg (not_not.mpr (Except.ok.inj proved))]

theorem Login.clientKeys_eq (login : Login) :
    login.clientKeys crypto psk challenge = some (crypto.sessionKeysFor psk challenge.salt) := by
  rw [Login.clientKeys, verifyServerResponse_eq]

theorem session_keys_never_fresh (first second : Login)
    (firstProved : first.Proved crypto psk challenge)
    (secondProved : second.Proved crypto psk challenge)
    (different : first.response.clientNonce ≠ second.response.clientNonce) :
    ¬ KeysFresh (Login.serverKeys crypto psk challenge) first second ∧
      ¬ KeysFresh (Login.clientKeys crypto psk challenge) first second ∧
      ∀ channelId < 16, ∀ sequence, ∃ pair,
        sealingPair (first.clientKeys crypto psk challenge) channelId sequence = some pair ∧
        sealingPair (second.clientKeys crypto psk challenge) channelId sequence = some pair := by
  have server : first.serverKeys crypto psk challenge = second.serverKeys crypto psk challenge := by
    rw [first.serverKeys_eq crypto psk challenge firstProved,
      second.serverKeys_eq crypto psk challenge secondProved]
  have client : first.clientKeys crypto psk challenge = second.clientKeys crypto psk challenge := by
    rw [first.clientKeys_eq, second.clientKeys_eq]
  have sealed (channelId : UInt32) (small : channelId < 16) (sequence : UInt64) : ∃ pair,
      sealingPair (first.clientKeys crypto psk challenge) channelId sequence = some pair ∧
      sealingPair (second.clientKeys crypto psk challenge) channelId sequence = some pair := by
    have keyed : (crypto.sessionKeysFor psk challenge.salt).channelKeys channelId =
        some (crypto.scheduledChannelKeys (crypto.okm (masterInput psk challenge.salt) 32)
          channelId) := if_pos small
    rw [first.clientKeys_eq, second.clientKeys_eq, sealingPair, Option.bind_some, keyed]
    exact ⟨_, rfl, rfl⟩
  exact ⟨fun fresh => fresh different server, fun fresh => fresh different client, sealed⟩

end

def loginWith (clientNonce : Bytes) : Login where
  serverStored := none
  clientStored := none
  response :=
    { response := clientProof Crypto.reference testPsk issuedChallenge clientNonce
      clientNonce := clientNonce
      publicKey := [] }
  success := ⟨serverProof Crypto.reference testPsk issuedChallenge clientNonce, []⟩

theorem loginWith_proved (clientNonce : Bytes) :
    (loginWith clientNonce).Proved Crypto.reference testPsk issuedChallenge :=
  computeClientHmac_eq Crypto.reference testPsk issuedChallenge clientNonce

theorem session_keys_never_fresh_two_nonces :
    ¬ KeysFresh (Login.serverKeys Crypto.reference testPsk issuedChallenge)
        (loginWith testNonce) (loginWith (List.replicate 32 10)) ∧
      ¬ KeysFresh (Login.clientKeys Crypto.reference testPsk issuedChallenge)
        (loginWith testNonce) (loginWith (List.replicate 32 10)) ∧
      ∀ channelId < 16, ∀ sequence, ∃ pair,
        sealingPair ((loginWith testNonce).clientKeys Crypto.reference testPsk issuedChallenge)
          channelId sequence = some pair ∧
        sealingPair ((loginWith (List.replicate 32 10)).clientKeys Crypto.reference testPsk
          issuedChallenge) channelId sequence = some pair :=
  session_keys_never_fresh Crypto.reference testPsk issuedChallenge (loginWith testNonce)
    (loginWith (List.replicate 32 10)) (loginWith_proved _) (loginWith_proved _) (by decide)

theorem repeated_challenge_reuses_keys :
    Crypto.reference.CollisionFreeOn
        {masterInput testPsk issuedChallenge.salt, masterInput testPsk alteredChallenge.salt} ∧
      (loginWith testNonce).Proved Crypto.reference testPsk issuedChallenge ∧
      (loginWith (List.replicate 32 10)).Proved Crypto.reference testPsk issuedChallenge ∧
      ¬ KeysFresh (Login.serverKeys Crypto.reference testPsk issuedChallenge)
        (loginWith testNonce) (loginWith (List.replicate 32 10)) := by
  have same : (loginWith testNonce).serverKeys Crypto.reference testPsk issuedChallenge =
      (loginWith (List.replicate 32 10)).serverKeys Crypto.reference testPsk issuedChallenge := by
    rw [Login.serverKeys_eq _ _ _ _ (loginWith_proved _),
      Login.serverKeys_eq _ _ _ _ (loginWith_proved _)]
  exact ⟨Crypto.reference.collisionFreeOn_pair _ _ altered_master_differs, loginWith_proved _,
    loginWith_proved _, fun fresh => fresh (by decide) same⟩

end BitDrive
