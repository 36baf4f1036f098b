import BitDrive.Protocol.Nonce

set_option autoImplicit false

namespace BitDrive

open ByteLayout

structure Sealing where
  key : FixedBytes 32
  nonce : FixedBytes 12
  plaintext : Bytes
  deriving DecidableEq

def Sealing.run (crypto : Crypto) (sealing : Sealing) : Except String Bytes :=
  crypto.aesGcmEncrypt sealing.key sealing.nonce sealing.plaintext

structure IdealAead (crypto : Crypto) (made : Set Sealing) : Prop where
  appends : ∀ sealing ∈ made, ∃ ciphertext, sealing.run crypto = .ok ciphertext ∧
    ciphertext.length = sealing.plaintext.length + 16
  opens : ∀ key nonce ciphertext plaintext,
    crypto.aesGcmDecrypt key nonce ciphertext = .ok plaintext ↔
      ⟨key, nonce, plaintext⟩ ∈ made ∧
        crypto.aesGcmEncrypt key nonce plaintext = .ok ciphertext
  -- No ciphertext was made twice under one key, with different nonces.
  fresh : ∀ first ∈ made, ∀ second ∈ made, first.key = second.key →
    first.run crypto = second.run crypto → first.nonce = second.nonce

def channelSealing (data : Bytes) (keys : ChannelKeys) (sequence : UInt64) : Sealing :=
  ⟨keys.encryptionKey, channelNonce keys sequence, data⟩

section

variable (crypto : Crypto)

theorem encryptWithChannelKeys_eq (data : Bytes) (keys : ChannelKeys) (sequence : UInt64)
    (ciphertext : Bytes) (tagged : 16 ≤ ciphertext.length)
    (sealed : (channelSealing data keys sequence).run crypto = .ok ciphertext) :
    encryptWithChannelKeys crypto data keys sequence =
      .ok (ciphertext.take (ciphertext.length - 16), ciphertext.drop (ciphertext.length - 16)) := by
  have long : ¬ ciphertext.length < 16 := Nat.not_lt.mpr tagged
  simp only [Sealing.run, channelSealing] at sealed
  simp only [encryptWithChannelKeys, sealed, mapErr, bind, Except.bind, if_neg long,
    List.splitAt_eq]

theorem decryptWithChannelKeys_eq (ciphertext : Bytes) (count : Nat) (keys : ChannelKeys)
    (sequence : UInt64) :
    decryptWithChannelKeys crypto (ciphertext.take count) (ciphertext.drop count) keys sequence =
      mapErr .decryption
        (crypto.aesGcmDecrypt keys.encryptionKey (channelNonce keys sequence) ciphertext) := by
  rw [decryptWithChannelKeys, List.take_append_drop]

theorem mapErr_error (error : String → ProtocolError) (result : Except String Bytes)
    (failed : ∀ plaintext, result ≠ .ok plaintext) :
    ∃ message, mapErr error result = .error (.err (error message)) := by
  cases result with
  | error message => exact ⟨message, rfl⟩
  | ok plaintext => exact absurd rfl (failed plaintext)

theorem channel_seal_bound (made : Set Sealing) (data : Bytes) (keys : ChannelKeys)
    (sequence : UInt64)
    (ideal : IdealAead crypto (insert (channelSealing data keys sequence) made)) :
    ∃ ciphertext tag,
      encryptWithChannelKeys crypto data keys sequence = .ok (ciphertext, tag) ∧
      tag.length = 16 ∧ ciphertext.length = data.length ∧
      decryptWithChannelKeys crypto ciphertext tag keys sequence = .ok data ∧
      ∀ other, other ≠ sequence → ∃ message,
        decryptWithChannelKeys crypto ciphertext tag keys other =
          .error (.err (.decryption message)) := by
  have present := Set.mem_insert (channelSealing data keys sequence) made
  have ⟨combined, sealed, length⟩ := ideal.appends _ present
  have size : combined.length = data.length + 16 := length
  have tagged : 16 ≤ combined.length := by omega
  refine ⟨_, _, encryptWithChannelKeys_eq crypto data keys sequence combined tagged sealed,
    ?_, ?_, ?_, ?_⟩
  next => rw [List.length_drop]; omega
  next => rw [List.length_take]; omega
  next =>
    have opened := (ideal.opens keys.encryptionKey (channelNonce keys sequence) combined data).mpr
      ⟨present, sealed⟩
    rw [decryptWithChannelKeys_eq, opened]
    rfl
  next =>
    intro other different
    rw [decryptWithChannelKeys_eq]
    apply mapErr_error
    intro plaintext opened
    have ⟨elsewhere, again⟩ := (ideal.opens _ _ _ _).mp opened
    -- It would have been sealed under both nonces.
    have same := ideal.fresh _ elsewhere _ present rfl (again.trans sealed.symm)
    exact different (channelNonce_sequence keys other sequence same)

end

def sealedOnly (made : List Sealing) : Crypto :=
  { Crypto.reference with
    aesGcmDecrypt := fun key nonce ciphertext =>
      (made.find? fun sealing => sealing.key = key ∧ sealing.nonce = nonce ∧
        AesGcm.encrypt key nonce sealing.plaintext = .ok ciphertext).elim
          (.error "aead::Error") fun sealing => .ok sealing.plaintext }

theorem sealedOnly_opens_iff (made : List Sealing)
    (apart : ∀ first ∈ made, ∀ second ∈ made, first.nonce = second.nonce → first = second)
    (key : FixedBytes 32) (nonce : FixedBytes 12) (ciphertext plaintext : Bytes) :
    (sealedOnly made).aesGcmDecrypt key nonce ciphertext = .ok plaintext ↔
      ⟨key, nonce, plaintext⟩ ∈ made ∧ AesGcm.encrypt key nonce plaintext = .ok ciphertext := by
  simp only [sealedOnly]
  cases found : made.find? (fun sealing => sealing.key = key ∧ sealing.nonce = nonce ∧
      AesGcm.encrypt key nonce sealing.plaintext = .ok ciphertext) with
  | none =>
    have none_fits := List.find?_eq_none.mp found
    constructor
    next =>
      intro opened
      cases opened
    next =>
      rintro ⟨member, sealed⟩
      exact absurd (by simpa using sealed) (none_fits _ member)
  | some sealing =>
    have fits := List.find?_some found
    have listed := List.mem_of_find?_eq_some found
    simp only [decide_eq_true_eq] at fits
    obtain ⟨sameKey, sameNonce, sealed⟩ := fits
    constructor
    next =>
      intro opened
      have same := Except.ok.inj opened
      subst same sameKey sameNonce
      exact ⟨listed, sealed⟩
    next =>
      rintro ⟨member, _⟩
      have same := apart _ listed _ member sameNonce
      rw [same]
      rfl

def sealingKeys : ChannelKeys where
  encryptionKey := FixedBytes.replicate 32 1
  authenticationKey := FixedBytes.replicate 32 2
  ivSalt := FixedBytes.replicate 16 3

def greetings : List Sealing :=
  [channelSealing [0x68, 0x69] sealingKeys 1, channelSealing [0x68, 0x69] sealingKeys 2]

theorem greetings_length :
    ∀ sealing ∈ greetings, (sealing.run (sealedOnly greetings)).map List.length = .ok 18 := by
  decide +kernel

theorem greetings_differ :
    (channelSealing [0x68, 0x69] sealingKeys 1).run (sealedOnly greetings) ≠
      (channelSealing [0x68, 0x69] sealingKeys 2).run (sealedOnly greetings) := by
  decide +kernel

theorem greetings_ideal : IdealAead (sealedOnly greetings)
    (insert (channelSealing [0x68, 0x69] sealingKeys 1)
      {channelSealing [0x68, 0x69] sealingKeys 2}) := by
  have listed (sealing : Sealing) : sealing ∈ (insert (channelSealing [0x68, 0x69] sealingKeys 1)
      {channelSealing [0x68, 0x69] sealingKeys 2} : Set Sealing) ↔ sealing ∈ greetings := by
    simp [greetings]
  constructor
  next =>
    intro sealing member
    have length := greetings_length sealing ((listed sealing).mp member)
    have text : sealing.plaintext.length = 2 := by
      rcases member with rfl | rfl
      next => rfl
      next => rfl
    cases sealed : sealing.run (sealedOnly greetings) with
    | error message =>
      rw [sealed] at length
      cases length
    | ok ciphertext =>
      rw [sealed] at length
      exact ⟨ciphertext, rfl, (Except.ok.inj length).trans (by rw [text])⟩
  next =>
    intro key nonce ciphertext plaintext
    rw [listed]
    exact sealedOnly_opens_iff greetings (by decide +kernel) key nonce ciphertext plaintext
  next =>
    rintro first (rfl | rfl) second (rfl | rfl) _ same
    next => rfl
    next => exact absurd same greetings_differ
    next => exact absurd same.symm greetings_differ
    next => rfl

theorem channel_seal_bound_greeting :
    ∃ ciphertext tag,
      encryptWithChannelKeys (sealedOnly greetings) [0x68, 0x69] sealingKeys 1 =
        .ok (ciphertext, tag) ∧
      tag.length = 16 ∧ ciphertext.length = 2 ∧
      decryptWithChannelKeys (sealedOnly greetings) ciphertext tag sealingKeys 1 =
        .ok [0x68, 0x69] ∧
      ∀ other, other ≠ 1 → ∃ message,
        decryptWithChannelKeys (sealedOnly greetings) ciphertext tag sealingKeys other =
          .error (.err (.decryption message)) :=
  channel_seal_bound (sealedOnly greetings) _ [0x68, 0x69] sealingKeys 1 greetings_ideal

end BitDrive
