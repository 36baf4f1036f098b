import BitDrive.Protocol.KeySchedule

set_option autoImplicit false

namespace BitDrive

open ByteLayout

section

variable (crypto : Crypto)

def clientProof (psk : FixedBytes 32) (challenge : AuthChallenge) (clientNonce : Bytes) : Bytes :=
  (crypto.mac psk.val (challenge.challenge ++ clientNonce ++ utf8 "client")).val

def serverProof (psk : FixedBytes 32) (challenge : AuthChallenge) (clientNonce : Bytes) : Bytes :=
  (crypto.mac psk.val (challenge.challenge ++ clientNonce ++ utf8 "server")).val

theorem computeClientHmac_eq (psk : FixedBytes 32) (challenge : AuthChallenge)
    (clientNonce : Bytes) : computeClientHmac crypto psk challenge clientNonce =
      .ok (clientProof crypto psk challenge clientNonce) :=
  crypto.computeHmac_eq psk challenge clientNonce _

theorem computeServerHmac_eq (psk : FixedBytes 32) (challenge : AuthChallenge)
    (clientNonce : Bytes) : computeServerHmac crypto psk challenge clientNonce =
      .ok (serverProof crypto psk challenge clientNonce) :=
  crypto.computeHmac_eq psk challenge clientNonce _

theorem verifyResponse_eq (psk : FixedBytes 32) (stored : Option SessionKeys)
    (challenge : AuthChallenge) (response : AuthResponse) :
    AuthManager.verifyResponse crypto ⟨some psk, stored⟩ challenge response =
      if clientProof crypto psk challenge response.clientNonce ≠ response.response then
        (.error (.err (.authenticationFailed "Invalid HMAC")), ⟨some psk, stored⟩)
      else
        ((encryptSessionKeys crypto (crypto.sessionKeysFor psk challenge.salt)).map fun encrypted =>
            ⟨serverProof crypto psk challenge response.clientNonce, encrypted⟩,
          ⟨some psk, some (crypto.sessionKeysFor psk challenge.salt)⟩) := by
  simp only [AuthManager.verifyResponse, computeClientHmac_eq, computeServerHmac_eq,
    crypto.deriveSessionKeys_eq, bind, Except.bind]
  cases encryptSessionKeys crypto (crypto.sessionKeysFor psk challenge.salt) <;> rfl

theorem verifyResponse_ok (psk : FixedBytes 32) (stored : Option SessionKeys)
    (challenge : AuthChallenge) (response : AuthResponse) (success : AuthSuccess)
    (accepted : (AuthManager.verifyResponse crypto ⟨some psk, stored⟩ challenge response).1 =
      .ok success) :
    response.response = clientProof crypto psk challenge response.clientNonce ∧
    (AuthManager.verifyResponse crypto ⟨some psk, stored⟩ challenge response).2.sessionKeys =
      some (crypto.sessionKeysFor psk challenge.salt) := by
  rw [verifyResponse_eq] at accepted ⊢
  by_cases proved : clientProof crypto psk challenge response.clientNonce = response.response
  · rw [if_neg (not_not.mpr proved)]
    exact ⟨proved.symm, rfl⟩
  · rw [if_pos proved] at accepted
    contradiction

theorem verifyServerResponse_eq (psk : FixedBytes 32) (stored : Option SessionKeys)
    (challenge : AuthChallenge) (success : AuthSuccess) :
    AuthManager.verifyServerResponse crypto ⟨some psk, stored⟩ challenge success =
      (.ok (crypto.sessionKeysFor psk challenge.salt),
        ⟨some psk, some (crypto.sessionKeysFor psk challenge.salt)⟩) := by
  simp only [AuthManager.verifyServerResponse, crypto.deriveSessionKeys_eq]

theorem key_agreement_iff (psk : FixedBytes 32) (serverStored clientStored : Option SessionKeys)
    (challenge received : AuthChallenge) (response : AuthResponse) (success : AuthSuccess)
    (keys : SessionKeys)
    (accepted : (AuthManager.verifyResponse crypto ⟨some psk, serverStored⟩ challenge
      response).1 = .ok success)
    (installed : (AuthManager.verifyServerResponse crypto ⟨some psk, clientStored⟩ received
      success).1 = .ok keys)
    (collisionFree : crypto.CollisionFreeOn
      {masterInput psk challenge.salt, masterInput psk received.salt}) :
    (AuthManager.verifyResponse crypto ⟨some psk, serverStored⟩ challenge
      response).2.sessionKeys = some keys ↔ received.salt = challenge.salt := by
  obtain ⟨_, stored⟩ :=
    verifyResponse_ok crypto psk serverStored challenge response success accepted
  rw [verifyServerResponse_eq] at installed
  obtain rfl := Except.ok.inj installed
  rw [stored, Option.some.injEq,
    crypto.sessionKeysFor_inj psk challenge.salt received.salt collisionFree]
  exact eq_comm

end

def testPsk : FixedBytes 32 := ⟨List.replicate 32 42, by decide⟩

def testNonce : Bytes := List.replicate 32 9

def issuedChallenge : AuthChallenge :=
  AuthManager.generateChallenge ⟨List.replicate 32 7, by decide⟩ ⟨List.replicate 32 1, by decide⟩

def alteredChallenge : AuthChallenge :=
  { issuedChallenge with salt := List.replicate 32 2 }

def clientResponse : AuthResponse where
  response := clientProof Crypto.reference testPsk alteredChallenge testNonce
  clientNonce := testNonce
  publicKey := []

theorem altered_master_differs :
    Crypto.reference.okm (masterInput testPsk issuedChallenge.salt) 32 ≠
      Crypto.reference.okm (masterInput testPsk alteredChallenge.salt) 32 := by
  decide +kernel

-- The proof does not cover the salt, so the server accepts it.
theorem clientResponse_accepted :
    ∃ success, (AuthManager.verifyResponse Crypto.reference ⟨some testPsk, none⟩ issuedChallenge
      clientResponse).1 = .ok success := by
  obtain ⟨encrypted, sealed⟩ :=
    Crypto.reference_seals (Crypto.reference.sessionKeysFor testPsk issuedChallenge.salt)
  have proved : clientProof Crypto.reference testPsk issuedChallenge clientResponse.clientNonce =
      clientResponse.response := by
    simp only [clientResponse, clientProof, alteredChallenge]
  rw [verifyResponse_eq, if_neg (not_not.mpr proved), sealed]
  exact ⟨_, rfl⟩

theorem key_agreement_iff_altered_salt :
    ∃ success keys,
      (AuthManager.verifyResponse Crypto.reference ⟨some testPsk, none⟩ issuedChallenge
        clientResponse).1 = .ok success ∧
      ((AuthManager.verifyResponse Crypto.reference ⟨some testPsk, none⟩ issuedChallenge
        clientResponse).2.sessionKeys = some keys ↔
          alteredChallenge.salt = issuedChallenge.salt) := by
  obtain ⟨success, accepted⟩ := clientResponse_accepted
  exact ⟨success, _, accepted, key_agreement_iff Crypto.reference testPsk none none issuedChallenge
    alteredChallenge clientResponse success _ accepted
    (congrArg Prod.fst (verifyServerResponse_eq _ _ _ _ _))
    (Crypto.reference.collisionFreeOn_pair _ _ altered_master_differs)⟩

theorem altered_salt_splits_keys :
    ∃ success keys,
      (AuthManager.verifyResponse Crypto.reference ⟨some testPsk, none⟩ issuedChallenge
        clientResponse).1 = .ok success ∧
      (AuthManager.verifyServerResponse Crypto.reference ⟨some testPsk, none⟩ alteredChallenge
        success).1 = .ok keys ∧
      (AuthManager.verifyResponse Crypto.reference ⟨some testPsk, none⟩ issuedChallenge
        clientResponse).2.sessionKeys ≠ some keys := by
  obtain ⟨success, accepted⟩ := clientResponse_accepted
  obtain ⟨_, stored⟩ := verifyResponse_ok Crypto.reference testPsk none issuedChallenge
    clientResponse success accepted
  refine ⟨success, _, accepted, congrArg Prod.fst (verifyServerResponse_eq _ _ _ _ _), ?_⟩
  rw [stored]
  intro same
  exact altered_master_differs (congrArg SessionKeys.masterKey (Option.some.inj same))

section

variable (crypto : Crypto)

def ServerAuthenticated (psk : FixedBytes 32) (stored : Option SessionKeys)
    (challenge : AuthChallenge) (clientNonce : Bytes) (success : AuthSuccess) : Prop :=
  let result := AuthManager.verifyServerResponse crypto ⟨some psk, stored⟩ challenge success
  (∀ keys, result.1 = .ok keys → result.2.sessionKeys = some keys ∧
    success.keyConfirmation = serverProof crypto psk challenge clientNonce) ∧
  (success.keyConfirmation ≠ serverProof crypto psk challenge clientNonce →
    (∃ error, result.1 = .error (.err error)) ∧ result.2.sessionKeys = stored)

theorem server_authenticated_iff (psk : FixedBytes 32) (stored : Option SessionKeys)
    (challenge : AuthChallenge) (clientNonce : Bytes) (success : AuthSuccess) :
    ServerAuthenticated crypto psk stored challenge clientNonce success ↔
      success.keyConfirmation = serverProof crypto psk challenge clientNonce := by
  simp only [ServerAuthenticated, verifyServerResponse_eq]
  constructor
  · intro ⟨returned, _⟩
    exact (returned _ rfl).2
  · intro genuine
    refine ⟨fun keys same => ⟨congrArg some (Except.ok.inj same), genuine⟩, fun forged => ?_⟩
    exact absurd genuine forged

end

theorem empty_confirmation_accepted :
    ¬ ServerAuthenticated Crypto.reference testPsk none issuedChallenge testNonce ⟨[], []⟩ := by
  intro ⟨returned, _⟩
  have genuine := (returned _ (congrArg Prod.fst (verifyServerResponse_eq _ _ _ _ _))).2
  have size := (Crypto.reference.mac testPsk.val
    (issuedChallenge.challenge ++ testNonce ++ utf8 "server")).property
  rw [← serverProof, ← genuine] at size
  contradiction

end BitDrive
