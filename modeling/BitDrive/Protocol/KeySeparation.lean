import BitDrive.Protocol.KeySchedule

set_option autoImplicit false

namespace BitDrive

open ByteLayout

inductive Purpose where
  | encryption
  | authentication
  | iv
  deriving DecidableEq

namespace Purpose

def size : Purpose → Nat
  | encryption => 32
  | authentication => 32
  | iv => 16

def suffix : Purpose → String
  | encryption => ""
  | authentication => "-auth"
  | iv => "-iv"

def sessionLabel : Purpose → String
  | encryption => "bpl-enc"
  | authentication => "bpl-auth"
  | iv => "bpl-iv"

end Purpose

def ChannelKeys.material (keys : ChannelKeys) : (purpose : Purpose) → FixedBytes purpose.size
  | .encryption => keys.encryptionKey
  | .authentication => keys.authenticationKey
  | .iv => keys.ivSalt

def SessionKeys.material (keys : SessionKeys) : (purpose : Purpose) → FixedBytes purpose.size
  | .encryption => keys.encryptionKey
  | .authentication => keys.authenticationKey
  | .iv => keys.ivSalt

def channelLabel (channelId : UInt32) (purpose : Purpose) : String :=
  "bpl-channel-" ++ toString channelId ++ purpose.suffix

def channelDerivation (masterKey : FixedBytes 32) (channelId : UInt32) (purpose : Purpose) :
    HkdfInput :=
  ⟨none, masterKey.val, utf8 (channelLabel channelId purpose)⟩

def sessionDerivation (masterKey : FixedBytes 32) (purpose : Purpose) : HkdfInput :=
  ⟨none, masterKey.val, utf8 purpose.sessionLabel⟩

theorem utf8_injective : Function.Injective utf8 := by
  intro left right same
  have bytes : left.toUTF8 = right.toUTF8 := ByteArray.ext (Array.toList_inj.mp same)
  exact String.toByteArray_inj.mp bytes

theorem digits_append (digits others rest tail : List Char)
    (digit : ∀ c ∈ digits, c.isDigit = true) (digit' : ∀ c ∈ others, c.isDigit = true)
    (stop : ∀ c ∈ rest.head?, c.isDigit = false) (stop' : ∀ c ∈ tail.head?, c.isDigit = false)
    (same : digits ++ rest = others ++ tail) : digits = others ∧ rest = tail := by
  have front (row after : List Char) (all : ∀ c ∈ row, c.isDigit = true)
      (ends : ∀ c ∈ after.head?, c.isDigit = false) :
      (row ++ after).takeWhile Char.isDigit = row := by
    rw [List.takeWhile_append_of_pos all]
    cases after with
    | nil => simp
    | cons c after => simp [ends c rfl]
  have equal : digits = others := by
    rw [← front digits rest digit stop, same, front others tail digit' stop']
  refine ⟨equal, ?_⟩
  rw [equal] at same
  exact List.append_cancel_left same

theorem toList_channelLabel (channelId : UInt32) (purpose : Purpose) :
    (channelLabel channelId purpose).toList =
      "bpl-channel-".toList ++ (Nat.toDigits 10 channelId.toNat ++ purpose.suffix.toList) := by
  have digits : (toString channelId).toList = Nat.toDigits 10 channelId.toNat := Nat.toList_repr
  rw [channelLabel, String.toList_append, String.toList_append, digits, List.append_assoc]

theorem suffix_stops (purpose : Purpose) :
    ∀ c ∈ purpose.suffix.toList.head?, c.isDigit = false := by
  cases purpose <;> simp [Purpose.suffix]

theorem suffix_injective : Function.Injective fun purpose : Purpose => purpose.suffix.toList := by
  intro left right
  cases left <;> cases right <;> decide

theorem channelLabel_injective (left right : UInt32) (purpose other : Purpose) :
    channelLabel left purpose = channelLabel right other ↔ left = right ∧ purpose = other := by
  constructor
  next =>
    intro same
    have letters := congrArg String.toList same
    rw [toList_channelLabel, toList_channelLabel] at letters
    have digit (channelId : UInt32) (c : Char) (member : c ∈ Nat.toDigits 10 channelId.toNat) :
        c.isDigit = true :=
      Nat.isDigit_of_mem_toDigits (by decide) (by decide) member
    have ⟨digits, suffixes⟩ := digits_append _ _ _ _ (digit left) (digit right)
      (suffix_stops purpose) (suffix_stops other) (List.append_cancel_left letters)
    have number := congrArg (fun row => Nat.ofDigitChars 10 row 0) digits
    simp only [Nat.ofDigitChars_ten_toDigits] at number
    exact ⟨UInt32.toNat.inj number, suffix_injective suffixes⟩
  next =>
    intro ⟨channel, purposes⟩
    rw [channel, purposes]

theorem channelLabel_ne_sessionLabel (channelId : UInt32) (purpose other : Purpose) :
    channelLabel channelId purpose ≠ other.sessionLabel := by
  intro same
  have here : (channelLabel channelId purpose).toList[4]? = some 'c' := by
    rw [toList_channelLabel, List.getElem?_append_left (by decide)]
    rfl
  have there : other.sessionLabel.toList[4]? ≠ some 'c' := by
    cases other <;> decide
  rw [same] at here
  exact there here

theorem sessionLabel_injective : Function.Injective Purpose.sessionLabel := by
  intro left right
  cases left <;> cases right <;> decide

theorem channelDerivation_inj (masterKey : FixedBytes 32) (left right : UInt32)
    (purpose other : Purpose) :
    channelDerivation masterKey left purpose = channelDerivation masterKey right other ↔
      left = right ∧ purpose = other := by
  rw [← channelLabel_injective]
  constructor
  next => exact fun same => utf8_injective (congrArg HkdfInput.info same)
  next =>
    intro same
    rw [channelDerivation, channelDerivation, same]

theorem channelDerivation_ne_session (masterKey : FixedBytes 32) (channelId : UInt32)
    (purpose other : Purpose) :
    channelDerivation masterKey channelId purpose ≠ sessionDerivation masterKey other := by
  intro same
  exact channelLabel_ne_sessionLabel channelId purpose other
    (utf8_injective (congrArg HkdfInput.info same))

theorem sessionDerivation_inj (masterKey : FixedBytes 32) :
    Function.Injective (sessionDerivation masterKey) := by
  intro left right same
  exact sessionLabel_injective (utf8_injective (congrArg HkdfInput.info same))

inductive Derivation where
  | channel (channelId : UInt32) (purpose : Purpose)
  | session (purpose : Purpose)

def Derivation.input (masterKey : FixedBytes 32) : Derivation → HkdfInput
  | .channel channelId purpose => channelDerivation masterKey channelId purpose
  | .session purpose => sessionDerivation masterKey purpose

theorem Derivation.input_injective (masterKey : FixedBytes 32) :
    Function.Injective (Derivation.input masterKey) := by
  intro first second same
  cases first with
  | channel channelId purpose =>
    cases second with
    | channel other use =>
      have ⟨channels, purposes⟩ := (channelDerivation_inj _ _ _ _ _).mp same
      rw [channels, purposes]
    | session use => exact absurd same (channelDerivation_ne_session _ _ _ _)
  | session purpose =>
    cases second with
    | channel other use => exact absurd same.symm (channelDerivation_ne_session _ _ _ _)
    | session use => rw [sessionDerivation_inj masterKey same]

section

variable (crypto : Crypto)

theorem deriveChannelKeys_material (masterKey : FixedBytes 32) (channelId : UInt32)
    (purpose : Purpose) :
    (crypto.scheduledChannelKeys masterKey channelId).material purpose =
      crypto.okm (channelDerivation masterKey channelId purpose) purpose.size := by
  have whole : channelLabel channelId .encryption = s!"bpl-channel-{channelId}" :=
    String.append_empty
  cases purpose with
  | encryption =>
    rw [channelDerivation, whole]
    rfl
  | authentication => rfl
  | iv => rfl

theorem keys_separated (masterKey : FixedBytes 32) :
    (∀ channelId, ∃ keys, deriveChannelKeys crypto masterKey channelId = .ok keys ∧
      ∀ purpose, keys.material purpose =
        crypto.okm (channelDerivation masterKey channelId purpose) purpose.size) ∧
    (∀ manager : AuthManager, ∃ keys, (manager.rotateKeys crypto masterKey).1 = .ok keys ∧
      ∀ purpose, keys.material purpose =
        crypto.okm (sessionDerivation masterKey purpose) purpose.size) ∧
    (∀ left right purpose other,
      channelDerivation masterKey left purpose = channelDerivation masterKey right other ↔
        left = right ∧ purpose = other) ∧
    (∀ channelId purpose other,
      channelDerivation masterKey channelId purpose ≠ sessionDerivation masterKey other) ∧
    ∀ (used : Set Derivation) (size : Nat),
      Set.InjOn (fun input => crypto.okm input size) (Derivation.input masterKey '' used) →
      Set.InjOn (fun derivation => crypto.okm (Derivation.input masterKey derivation) size) used := by
  refine ⟨?_, ?_, channelDerivation_inj masterKey, channelDerivation_ne_session masterKey, ?_⟩
  next =>
    intro channelId
    exact ⟨_, crypto.deriveChannelKeys_eq masterKey channelId,
      deriveChannelKeys_material crypto masterKey channelId⟩
  next =>
    intro manager
    refine ⟨_, congrArg Prod.fst (crypto.rotateKeys_eq manager masterKey), fun purpose => ?_⟩
    cases purpose <;> rfl
  next =>
    intro used size collisionFree
    exact collisionFree.comp (Derivation.input_injective masterKey).injOn
      (Set.mapsTo_image _ _)

end

end BitDrive
