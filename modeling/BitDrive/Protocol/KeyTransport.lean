import BitDrive.Protocol.Handshake
import BitDrive.Protocol.Sealing
import BitDrive.Shared.Format
import BitDrive.Shared.Keyed

set_option autoImplicit false

namespace BitDrive

open ByteLayout

def channelKeysFormat : Format ChannelKeys :=
  ((Format.fixed 32).pair ((Format.fixed 32).pair (Format.fixed 16))).transport
    { toFun := fun (encryptionKey, authenticationKey, ivSalt) =>
        ⟨encryptionKey, authenticationKey, ivSalt⟩
      invFun := fun keys => (keys.encryptionKey, keys.authenticationKey, keys.ivSalt)
      left_inv := fun _ => rfl
      right_inv := fun _ => rfl }

structure SessionKeysRecord where
  masterKey : FixedBytes 32
  encryptionKey : FixedBytes 32
  authenticationKey : FixedBytes 32
  ivSalt : FixedBytes 16
  channelKeys : { entries : List (UInt32 × ChannelKeys) // entries.length < 2 ^ 64 }

def sessionKeysFormat : Format SessionKeysRecord :=
  ((Format.fixed 32).pair ((Format.fixed 32).pair ((Format.fixed 32).pair ((Format.fixed 16).pair
    ((Format.layout Layout.u32).pair channelKeysFormat).counted)))).transport
    { toFun := fun (masterKey, encryptionKey, authenticationKey, ivSalt, channelKeys) =>
        ⟨masterKey, encryptionKey, authenticationKey, ivSalt, channelKeys⟩
      invFun := fun record => (record.masterKey, record.encryptionKey, record.authenticationKey,
        record.ivSalt, record.channelKeys)
      left_inv := fun _ => rfl
      right_inv := fun _ => rfl }

def insertAll (channelKeys : UInt32 → Option ChannelKeys) :
    List (UInt32 × ChannelKeys) → UInt32 → Option ChannelKeys
  | [] => channelKeys
  | (channelId, keys) :: entries =>
    insertAll (Function.update channelKeys channelId (some keys)) entries

namespace SessionKeysRecord

def keys (record : SessionKeysRecord) : SessionKeys where
  masterKey := record.masterKey
  encryptionKey := record.encryptionKey
  authenticationKey := record.authenticationKey
  ivSalt := record.ivSalt
  channelKeys := insertAll (fun _ => none) record.channelKeys.val

structure Lists (record : SessionKeysRecord) (keys : SessionKeys) : Prop where
  masterKey : record.masterKey = keys.masterKey
  encryptionKey : record.encryptionKey = keys.encryptionKey
  authenticationKey : record.authenticationKey = keys.authenticationKey
  ivSalt : record.ivSalt = keys.ivSalt
  once : (record.channelKeys.val.map Prod.fst).Nodup
  entries : ∀ channelId channelKeys, (channelId, channelKeys) ∈ record.channelKeys.val ↔
    keys.channelKeys channelId = some channelKeys

end SessionKeysRecord

theorem insertAll_of_notMem (entries : List (UInt32 × ChannelKeys))
    (channelKeys : UInt32 → Option ChannelKeys) (channelId : UInt32)
    (absent : channelId ∉ entries.map Prod.fst) :
    insertAll channelKeys entries channelId = channelKeys channelId := by
  induction entries generalizing channelKeys with
  | nil => rfl
  | cons entry entries ih =>
    obtain ⟨first, keys⟩ := entry
    obtain ⟨different, later⟩ := List.ne_and_not_mem_of_not_mem_cons absent
    rw [insertAll, ih _ later, Function.update_of_ne different]

theorem insertAll_of_mem (entries : List (UInt32 × ChannelKeys))
    (once : (entries.map Prod.fst).Nodup) (channelKeys : UInt32 → Option ChannelKeys)
    (channelId : UInt32) (keys : ChannelKeys) (member : (channelId, keys) ∈ entries) :
    insertAll channelKeys entries channelId = some keys := by
  induction entries generalizing channelKeys with
  | nil => cases member
  | cons entry entries ih =>
    obtain ⟨first, other⟩ := entry
    obtain ⟨fresh, distinct⟩ := List.nodup_cons.mp once
    rw [insertAll]
    rcases List.mem_cons.mp member with same | later
    next =>
      obtain ⟨rfl, rfl⟩ := Prod.mk.inj same
      rw [insertAll_of_notMem _ _ _ fresh, Function.update_self]
    next => exact ih distinct _ later

theorem SessionKeysRecord.Lists.keys_eq {record : SessionKeysRecord} {keys : SessionKeys}
    (lists : record.Lists keys) : record.keys = keys := by
  have channels : insertAll (fun _ => none) record.channelKeys.val = keys.channelKeys := by
    funext channelId
    cases held : keys.channelKeys channelId with
    | some channelKeys =>
      exact insertAll_of_mem _ lists.once _ _ _ ((lists.entries channelId channelKeys).mpr held)
    | none =>
      refine insertAll_of_notMem _ _ _ fun member => ?_
      obtain ⟨⟨_, channelKeys⟩, listed, rfl⟩ := List.mem_map.mp member
      rw [(lists.entries _ channelKeys).mp listed] at held
      cases held
  obtain ⟨masterKey, encryptionKey, authenticationKey, ivSalt, channelKeys⟩ := keys
  simp only [SessionKeysRecord.keys, channels, lists.masterKey, lists.encryptionKey,
    lists.authenticationKey, lists.ivSalt]

theorem nonce_within : 12 ≤ 16 := by decide

section

variable (crypto : Crypto) (deserialize : Bytes → Except String SessionKeys)

def decryptSessionKeys (encrypted : Bytes) (masterKey : FixedBytes 32) (ivSalt : FixedBytes 16) :
    Outcome ProtocolError SessionKeys := do
  let plaintext ← mapErr .decryption
    (crypto.aesGcmDecrypt masterKey (FixedBytes.take ivSalt 12 nonce_within) encrypted)
  mapErr .deserialization (deserialize plaintext)

def keysSealing (keys : SessionKeys) (plaintext : Bytes) : Sealing :=
  ⟨keys.masterKey, FixedBytes.take keys.ivSalt 12 nonce_within, plaintext⟩

structure Answer (psk : FixedBytes 32) where
  stored : Option SessionKeys
  challenge : AuthChallenge
  response : AuthResponse
  success : AuthSuccess
  accepted : (AuthManager.verifyResponse crypto ⟨some psk, stored⟩ challenge response).1 =
    .ok success

def Answer.kept {psk : FixedBytes 32} (answer : Answer crypto psk) : Option SessionKeys :=
  (AuthManager.verifyResponse crypto ⟨some psk, answer.stored⟩ answer.challenge
    answer.response).2.sessionKeys

structure Transports (made : Set Sealing) (psk : FixedBytes 32) (answers : Set (Answer crypto psk))
    (received : AuthChallenge) : Prop where
  collisionFree : ∀ answer ∈ answers, crypto.CollisionFreeOn
    {masterInput psk answer.challenge.salt, masterInput psk received.salt}
  -- Serialization writes the format, and deserialization reads it, with anything after it.
  written : ∀ answer ∈ answers, ∀ plaintext,
    crypto.serialize (crypto.sessionKeysFor psk answer.challenge.salt) = .ok plaintext →
    ∃ record : SessionKeysRecord,
      record.Lists (crypto.sessionKeysFor psk answer.challenge.salt) ∧
      plaintext = sessionKeysFormat.write record
  reads : ∀ record rest, deserialize (sessionKeysFormat.write record ++ rest) = .ok record.keys
  ideal : IdealAead crypto made
  answered : ∀ answer ∈ answers, ∀ plaintext,
    crypto.serialize (crypto.sessionKeysFor psk answer.challenge.salt) = .ok plaintext →
    keysSealing (crypto.sessionKeysFor psk answer.challenge.salt) plaintext ∈ made
  -- A master key seals nothing but answers.
  alone : ∀ sealing ∈ made, sealing.key = (crypto.sessionKeysFor psk received.salt).masterKey →
    ∃ answer ∈ answers, ∃ plaintext,
      crypto.serialize (crypto.sessionKeysFor psk answer.challenge.salt) = .ok plaintext ∧
      sealing = keysSealing (crypto.sessionKeysFor psk answer.challenge.salt) plaintext

theorem encryptSessionKeys_eq_ok (keys : SessionKeys) (encrypted : Bytes) :
    encryptSessionKeys crypto keys = .ok encrypted ↔
      ∃ plaintext, crypto.serialize keys = .ok plaintext ∧
        (keysSealing keys plaintext).run crypto = .ok encrypted := by
  rw [encryptSessionKeys]
  cases serialized : crypto.serialize keys with
  | error message => simp [mapErr, bind, Except.bind]
  | ok plaintext =>
    simp only [mapErr, bind, Except.bind, Sealing.run, keysSealing, Except.ok.injEq,
      exists_eq_left']
    cases crypto.aesGcmEncrypt keys.masterKey (FixedBytes.take keys.ivSalt 12 nonce_within)
      plaintext <;> simp

theorem decryptSessionKeys_eq_ok (encrypted : Bytes) (masterKey : FixedBytes 32)
    (ivSalt : FixedBytes 16) (keys : SessionKeys) :
    decryptSessionKeys crypto deserialize encrypted masterKey ivSalt = .ok keys ↔
      ∃ plaintext,
        crypto.aesGcmDecrypt masterKey (FixedBytes.take ivSalt 12 nonce_within) encrypted =
          .ok plaintext ∧ deserialize plaintext = .ok keys := by
  rw [decryptSessionKeys]
  cases crypto.aesGcmDecrypt masterKey (FixedBytes.take ivSalt 12 nonce_within) encrypted with
  | error message => simp [mapErr, bind, Except.bind]
  | ok plaintext =>
    simp only [mapErr, bind, Except.bind, Except.ok.injEq, exists_eq_left']
    cases deserialize plaintext <;> simp

theorem verifyResponse_sealed (psk : FixedBytes 32) (stored : Option SessionKeys)
    (challenge : AuthChallenge) (response : AuthResponse) (success : AuthSuccess)
    (accepted : (AuthManager.verifyResponse crypto ⟨some psk, stored⟩ challenge response).1 =
      .ok success) :
    ∃ plaintext, crypto.serialize (crypto.sessionKeysFor psk challenge.salt) = .ok plaintext ∧
      (keysSealing (crypto.sessionKeysFor psk challenge.salt) plaintext).run crypto =
        .ok success.sessionKeysEncrypted := by
  rw [← encryptSessionKeys_eq_ok]
  rw [verifyResponse_eq] at accepted
  split at accepted
  next => cases accepted
  next =>
    cases encrypted : encryptSessionKeys crypto (crypto.sessionKeysFor psk challenge.salt) with
    | error abort =>
      rw [encrypted] at accepted
      cases accepted
    | ok bytes =>
      rw [encrypted] at accepted
      obtain rfl := Except.ok.inj accepted
      rfl

theorem Answer.kept_eq {psk : FixedBytes 32} (answer : Answer crypto psk) :
    answer.kept = some (crypto.sessionKeysFor psk answer.challenge.salt) :=
  (verifyResponse_ok crypto psk answer.stored answer.challenge answer.response answer.success
    answer.accepted).2

theorem Answer.sealed {made : Set Sealing} {psk : FixedBytes 32}
    {answers : Set (Answer crypto psk)} {received : AuthChallenge}
    (transports : Transports crypto deserialize made psk answers received)
    (answer : Answer crypto psk) (member : answer ∈ answers) :
    ∃ plaintext, crypto.serialize (crypto.sessionKeysFor psk answer.challenge.salt) =
        .ok plaintext ∧
      (keysSealing (crypto.sessionKeysFor psk answer.challenge.salt) plaintext).run crypto =
        .ok answer.success.sessionKeysEncrypted ∧
      deserialize plaintext = .ok (crypto.sessionKeysFor psk answer.challenge.salt) := by
  obtain ⟨plaintext, serialized, sealed⟩ := verifyResponse_sealed crypto psk answer.stored
    answer.challenge answer.response answer.success answer.accepted
  obtain ⟨record, lists, rfl⟩ := transports.written answer member plaintext serialized
  have reads := transports.reads record []
  rw [List.append_nil, lists.keys_eq] at reads
  exact ⟨_, serialized, sealed, reads⟩

end

def recordOf (keys : SessionKeys) : SessionKeysRecord where
  masterKey := keys.masterKey
  encryptionKey := keys.encryptionKey
  authenticationKey := keys.authenticationKey
  ivSalt := keys.ivSalt
  channelKeys :=
    ⟨((List.range 16).map UInt32.ofNat).filterMap fun channelId =>
        (keys.channelKeys channelId).map (channelId, ·), by
      have length := List.length_filterMap_le (fun channelId : UInt32 =>
        (keys.channelKeys channelId).map (channelId, ·)) ((List.range 16).map UInt32.ofNat)
      rw [List.length_map, List.length_range] at length
      omega⟩

theorem bincodeSessionKeys_eq (keys : SessionKeys) :
    bincodeSessionKeys keys = sessionKeysFormat.write (recordOf keys) := by
  have entries : (List.range 16).filterMap (fun channelId =>
        (keys.channelKeys (UInt32.ofNat channelId)).map fun entry =>
          Layout.u32.put (UInt32.ofNat channelId) ++ entry.encryptionKey.val ++
            entry.authenticationKey.val ++ entry.ivSalt.val) =
      (recordOf keys).channelKeys.val.map
        ((Format.layout Layout.u32).pair channelKeysFormat).write := by
    rw [recordOf, List.map_filterMap, List.filterMap_map]
    refine congrArg (List.filterMap · (List.range 16)) (funext fun channelId => ?_)
    rw [Function.comp_apply, Option.map_map]
    refine congrArg (Option.map · _) (funext fun entry => ?_)
    simp only [Function.comp_apply, Format.pair, Format.layout, channelKeysFormat, Format.transport,
      Format.fixed, Equiv.coe_fn_symm_mk, List.append_assoc]
  simp only [bincodeSessionKeys, entries]
  simp only [sessionKeysFormat, Format.transport, Format.pair, Format.fixed, Format.counted,
    Equiv.coe_fn_symm_mk, List.length_map, List.flatMap_def, List.append_assoc]
  rfl

theorem recordOf_lists (keys : SessionKeys)
    (few : ∀ channelId, keys.channelKeys channelId ≠ none → channelId < 16) :
    (recordOf keys).Lists keys where
  masterKey := rfl
  encryptionKey := rfl
  authenticationKey := rfl
  ivSalt := rfl
  once := by
    have channels : ((List.range 16).map UInt32.ofNat).Nodup := by decide
    rw [recordOf, List.map_filterMap]
    refine channels.sublist (Keyed.filterMap_sublist _ (fun channelId => ?_) _)
    cases keys.channelKeys channelId with
    | none => exact .inl rfl
    | some channelKeys => exact .inr rfl
  entries := by
    intro channelId channelKeys
    rw [recordOf, List.mem_filterMap]
    constructor
    next =>
      rintro ⟨other, _, made⟩
      obtain ⟨found, held, same⟩ := Option.map_eq_some_iff.mp made
      obtain ⟨rfl, rfl⟩ := Prod.mk.inj same
      exact held
    next =>
      intro held
      have small := few channelId (by simp [held])
      refine ⟨channelId, List.mem_map.mpr ⟨channelId.toNat, ?_, UInt32.ofNat_toNat⟩, by simp [held]⟩
      exact List.mem_range.mpr (UInt32.lt_iff_toNat_lt.mp small)

def bincodeDeserialize (bytes : Bytes) : Except String SessionKeys :=
  match sessionKeysFormat.read bytes with
  | some (record, _) => .ok record.keys
  | none => .error "io error: unexpected end of file"

def issuedKeys : SessionKeys := Crypto.reference.sessionKeysFor testPsk issuedChallenge.salt

def issuedSealing : Sealing := keysSealing issuedKeys (bincodeSessionKeys issuedKeys)

theorem issuedSealing_ideal : IdealAead (sealedOnly [issuedSealing]) {issuedSealing} where
  appends := by
    rintro sealing rfl
    have size := bincodeSessionKeys_length issuedKeys
    obtain ⟨encrypted, sealed⟩ := AesGcm.encrypt_of_short issuedSealing.key issuedSealing.nonce
      issuedSealing.plaintext (show ¬ 2 ^ 36 < (bincodeSessionKeys issuedKeys).length by omega)
    refine ⟨encrypted, ?_, AesGcm.encrypt_length _ _ _ _ sealed⟩
    simp only [Sealing.run, sealedOnly, Crypto.reference]
    exact sealed
  opens := by
    intro key nonce ciphertext plaintext
    have opens := sealedOnly_opens_iff [issuedSealing] (by simp) key nonce ciphertext plaintext
    rw [List.mem_singleton] at opens
    exact opens
  fresh := by
    rintro first rfl second rfl _ _
    rfl

theorem issued_transports (answer : Answer (sealedOnly [issuedSealing]) testPsk)
    (issued : answer.challenge = issuedChallenge) (received : AuthChallenge)
    (collisionFree : Crypto.reference.CollisionFreeOn
      {masterInput testPsk issuedChallenge.salt, masterInput testPsk received.salt}) :
    Transports (sealedOnly [issuedSealing]) bincodeDeserialize {issuedSealing} testPsk {answer}
      received where
  collisionFree := by
    rintro other rfl
    rw [issued]
    exact collisionFree
  written := by
    rintro other rfl plaintext written
    rw [issued] at written ⊢
    obtain rfl := Except.ok.inj written
    refine ⟨recordOf issuedKeys, recordOf_lists issuedKeys fun channelId held => ?_,
      bincodeSessionKeys_eq issuedKeys⟩
    by_contra large
    exact held (if_neg large)
  reads := by
    intro record rest
    rw [bincodeDeserialize, sessionKeysFormat.read_write]
  ideal := issuedSealing_ideal
  answered := by
    rintro other rfl plaintext written
    rw [issued] at written ⊢
    obtain rfl := Except.ok.inj written
    rfl
  alone := by
    rintro sealing rfl _
    refine ⟨answer, rfl, bincodeSessionKeys issuedKeys, ?_⟩
    rw [issued]
    exact ⟨rfl, rfl⟩

end BitDrive
