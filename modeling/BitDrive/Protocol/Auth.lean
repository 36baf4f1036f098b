import BitDrive.Protocol.Types
import Mathlib.Data.Set.Function
import Mathlib.Logic.Function.Basic

set_option autoImplicit false

namespace BitDrive

open ByteLayout

structure ChannelKeys where
  encryptionKey : FixedBytes 32
  authenticationKey : FixedBytes 32
  ivSalt : FixedBytes 16
  deriving DecidableEq

structure SessionKeys where
  masterKey : FixedBytes 32
  encryptionKey : FixedBytes 32
  authenticationKey : FixedBytes 32
  ivSalt : FixedBytes 16
  channelKeys : UInt32 → Option ChannelKeys

structure Crypto where
  -- `Hkdf::<Sha256>::new(salt, inputKey)`, then `expand(info, ..)` into `size` bytes.
  hkdfExpand : (salt : Option Bytes) → (inputKey info : Bytes) → (size : Nat) →
    Option (FixedBytes size)
  -- The one documented error of `expand` is an output of more than 255 blocks.
  hkdfExpand_isSome : ∀ salt inputKey info size, size ≤ 255 * 32 →
    (hkdfExpand salt inputKey info size).isSome = true
  -- `HmacSha256::new_from_slice(key)`, then `update` and `finalize`.
  hmac : (key : Bytes) → Option (Bytes → FixedBytes 32)
  hmac_isSome : ∀ key, (hmac key).isSome = true
  aesGcmEncrypt : (key : FixedBytes 32) → (nonce : FixedBytes 12) → (plaintext : Bytes) →
    Except String Bytes
  aesGcmDecrypt : (key : FixedBytes 32) → (nonce : FixedBytes 12) → (ciphertext : Bytes) →
    Except String Bytes
  serialize : SessionKeys → Except String Bytes

structure AuthChallenge where
  challenge : Bytes
  method : String
  salt : Bytes
  iterations : UInt32
  deriving DecidableEq

structure AuthResponse where
  response : Bytes
  clientNonce : Bytes
  publicKey : Bytes
  deriving DecidableEq

structure AuthSuccess where
  keyConfirmation : Bytes
  sessionKeysEncrypted : Bytes
  deriving DecidableEq

structure AuthManager where
  psk : Option (FixedBytes 32)
  sessionKeys : Option SessionKeys

def mapErr {α : Type} (error : String → ProtocolError) :
    Except String α → Outcome ProtocolError α
  | .ok value => .ok value
  | .error message => .error (.err (error message))

def FixedBytes.take {size : Nat} (bytes : FixedBytes size) (count : Nat) (bound : count ≤ size) :
    FixedBytes count :=
  ⟨bytes.val.take count, by rw [List.length_take, bytes.property, Nat.min_eq_left bound]⟩

section

variable (crypto : Crypto)

def hkdfInto (salt : Option Bytes) (inputKey info : Bytes) (size : Nat) (failure : String) :
    Outcome ProtocolError (FixedBytes size) :=
  match crypto.hkdfExpand salt inputKey info size with
  | some output => .ok output
  | none => .error (.err (.keyDerivation failure))

def deriveChannelKeys (masterKey : FixedBytes 32) (channelId : UInt32) :
    Outcome ProtocolError ChannelKeys := do
  let info := s!"bpl-channel-{channelId}"
  let encryptionKey ← hkdfInto crypto none masterKey.val (utf8 info) 32
    "Channel encryption key failed"
  let authenticationKey ← hkdfInto crypto none masterKey.val (utf8 s!"{info}-auth") 32
    "Channel auth key failed"
  let ivSalt ← hkdfInto crypto none masterKey.val (utf8 s!"{info}-iv") 16 "Channel IV salt failed"
  return ⟨encryptionKey, authenticationKey, ivSalt⟩

def deriveAllChannelKeys (masterKey : FixedBytes 32) (channelId : UInt32) :
    Nat → (UInt32 → Option ChannelKeys) → Outcome ProtocolError (UInt32 → Option ChannelKeys)
  | 0, channelKeys => .ok channelKeys
  | count + 1, channelKeys => do
    let keys ← deriveChannelKeys crypto masterKey channelId
    deriveAllChannelKeys masterKey (channelId + 1) count
      (Function.update channelKeys channelId (some keys))

-- The client's nonce is an argument and nothing is derived from it.
def deriveSessionKeys (psk : FixedBytes 32) (challenge : AuthChallenge) (_clientNonce : Bytes) :
    Outcome ProtocolError SessionKeys := do
  let masterKey ← hkdfInto crypto (some challenge.salt) psk.val (utf8 "bpl-master") 32
    "Master key derivation failed"
  let encryptionKey ← hkdfInto crypto (some masterKey.val) [] (utf8 "bpl-enc") 32
    "Encryption key derivation failed"
  let authenticationKey ← hkdfInto crypto (some masterKey.val) [] (utf8 "bpl-auth") 32
    "Auth key derivation failed"
  let ivSalt ← hkdfInto crypto (some masterKey.val) [] (utf8 "bpl-iv") 16
    "IV salt derivation failed"
  let channelKeys ← deriveAllChannelKeys crypto masterKey 0 16 fun _ => none
  return ⟨masterKey, encryptionKey, authenticationKey, ivSalt, channelKeys⟩

def computeHmac (psk : FixedBytes 32) (challenge : AuthChallenge) (clientNonce role : Bytes) :
    Outcome ProtocolError Bytes :=
  match crypto.hmac psk.val with
  | some mac => .ok (mac (challenge.challenge ++ clientNonce ++ role)).val
  | none => .error (.err (.authenticationFailed "HMAC init failed"))

def computeClientHmac (psk : FixedBytes 32) (challenge : AuthChallenge) (clientNonce : Bytes) :=
  computeHmac crypto psk challenge clientNonce (utf8 "client")

def computeServerHmac (psk : FixedBytes 32) (challenge : AuthChallenge) (clientNonce : Bytes) :=
  computeHmac crypto psk challenge clientNonce (utf8 "server")

def encryptSessionKeys (keys : SessionKeys) : Outcome ProtocolError Bytes := do
  let plaintext ← mapErr .serialization (crypto.serialize keys)
  mapErr .encryption
    (crypto.aesGcmEncrypt keys.masterKey (FixedBytes.take keys.ivSalt 12 (by decide)) plaintext)

namespace AuthManager

def new : AuthManager where
  psk := none
  sessionKeys := none

def setPsk (manager : AuthManager) (psk : FixedBytes 32) : AuthManager :=
  { manager with psk := some psk }

def generateChallenge (challenge salt : FixedBytes 32) : AuthChallenge where
  challenge := challenge.val
  method := "psk"
  salt := salt.val
  iterations := 100000

def verifyResponse (manager : AuthManager) (challenge : AuthChallenge) (response : AuthResponse) :
    Outcome ProtocolError AuthSuccess × AuthManager :=
  match manager.psk with
  | none => (.error (.err (.authenticationFailed "PSK not configured")), manager)
  | some psk =>
    match computeClientHmac crypto psk challenge response.clientNonce with
    | .error abort => (.error abort, manager)
    | .ok expectedHmac =>
      if expectedHmac ≠ response.response then
        (.error (.err (.authenticationFailed "Invalid HMAC")), manager)
      else
        match deriveSessionKeys crypto psk challenge response.clientNonce with
        | .error abort => (.error abort, manager)
        | .ok sessionKeys =>
          -- The keys are stored before the answer is known to succeed.
          let success := do
            let serverHmac ← computeServerHmac crypto psk challenge response.clientNonce
            let encryptedKeys ← encryptSessionKeys crypto sessionKeys
            return ⟨serverHmac, encryptedKeys⟩
          (success, { manager with sessionKeys := some sessionKeys })

-- The answer is not looked at, and the nonce is 32 zero bytes, not the one that was sent.
def verifyServerResponse (manager : AuthManager) (challenge : AuthChallenge)
    (_response : AuthSuccess) : Outcome ProtocolError SessionKeys × AuthManager :=
  match manager.psk with
  | none => (.error (.err (.authenticationFailed "PSK not configured")), manager)
  | some psk =>
    match deriveSessionKeys crypto psk challenge (List.replicate 32 0) with
    | .error abort => (.error abort, manager)
    | .ok sessionKeys => (.ok sessionKeys, { manager with sessionKeys := some sessionKeys })

def channelKeys (manager : AuthManager) (channelId : UInt32) : Option ChannelKeys :=
  manager.sessionKeys.bind (·.channelKeys channelId)

-- Here the master key is the input key and there is no salt, unlike in `deriveSessionKeys`.
def rotateKeys (manager : AuthManager) (newMasterKey : FixedBytes 32) :
    Outcome ProtocolError SessionKeys × AuthManager :=
  let derived : Outcome ProtocolError SessionKeys := do
    let encryptionKey ← hkdfInto crypto none newMasterKey.val (utf8 "bpl-enc") 32
      "Encryption key derivation failed"
    let authenticationKey ← hkdfInto crypto none newMasterKey.val (utf8 "bpl-auth") 32
      "Auth key derivation failed"
    let ivSalt ← hkdfInto crypto none newMasterKey.val (utf8 "bpl-iv") 16
      "IV salt derivation failed"
    let channelKeys ← deriveAllChannelKeys crypto newMasterKey 0 16 fun _ => none
    return ⟨newMasterKey, encryptionKey, authenticationKey, ivSalt, channelKeys⟩
  match derived with
  | .error abort => (.error abort, manager)
  | .ok keys => (.ok keys, { manager with sessionKeys := some keys })

def clearKeys (manager : AuthManager) : AuthManager :=
  { manager with sessionKeys := none }

end AuthManager

def channelNonce (keys : ChannelKeys) (sequence : UInt64) : FixedBytes 12 :=
  ⟨Layout.u64.put sequence ++ keys.ivSalt.val.take 4, by
    have number : (Layout.u64.put sequence).length = 8 := Layout.u64.put_length sequence
    rw [List.length_append, number, List.length_take, keys.ivSalt.property]
    rfl⟩

def encryptWithChannelKeys (data : Bytes) (keys : ChannelKeys) (sequence : UInt64) :
    Outcome ProtocolError (Bytes × Bytes) := do
  let ciphertext ← mapErr .encryption
    (crypto.aesGcmEncrypt keys.encryptionKey (channelNonce keys sequence) data)
  if ciphertext.length < 16 then .error .panic
  else .ok (ciphertext.splitAt (ciphertext.length - 16))

def decryptWithChannelKeys (ciphertext tag : Bytes) (keys : ChannelKeys) (sequence : UInt64) :
    Outcome ProtocolError Bytes :=
  mapErr .decryption
    (crypto.aesGcmDecrypt keys.encryptionKey (channelNonce keys sequence) (ciphertext ++ tag))

end

end BitDrive
