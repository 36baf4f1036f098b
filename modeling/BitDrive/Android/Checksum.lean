import BitDrive.Android.FrameCodec
import BitDrive.Protocol.FrameFormat

set_option autoImplicit false

namespace BitDrive.Android

open ByteLayout

def desktopRegister : Crc.Register := Crc.reflected 0xEDB88320

def specifiedRegister : Crc.Register := Crc.reflected 0x82F63B78

def androidRegister : Crc.Register := Crc.direct 0x1EDC6F41

theorem signed_enter (b : UInt8) : b.toInt8.toInt32.toUInt32 <<< 24 = b.toUInt32 <<< 24 := by
  have small : ∀ value < 256, (UInt8.ofNat value).toInt8.toInt32.toUInt32 <<< 24 =
      (UInt8.ofNat value).toUInt32 <<< 24 := by decide +kernel
  simpa using small b.toNat b.toNat_lt

theorem crc32cByte_eq (crc : UInt32) (b : UInt8) : crc32cByte crc b = androidRegister.feed crc b := by
  rw [crc32cByte, signed_enter]
  rfl

theorem crc32c_eq (data : Bytes) : crc32c data = androidRegister.checksum data := by
  have bytewise : crc32cByte = androidRegister.feed := by
    funext crc b
    exact crc32cByte_eq crc b
  rw [crc32c, bytewise, Crc.Register.checksum, ← UInt32.xor_neg_one]
  rfl

theorem ieee_eq (data : Bytes) : Crc.ieee data = desktopRegister.checksum data := rfl

theorem castagnoli_eq (data : Bytes) : Crc.castagnoli data = specifiedRegister.checksum data := rfl

theorem checksums_agree_iff (data : Bytes) :
    (Crc.ieee data = crc32c data ∧ crc32c data = Crc.castagnoli data) ↔
      desktopRegister.Balanced specifiedRegister data ∧
        androidRegister.Balanced specifiedRegister data := by
  rw [ieee_eq, castagnoli_eq, crc32c_eq, ← Crc.Register.checksum_eq_iff,
    ← Crc.Register.checksum_eq_iff]
  constructor
  next =>
    intro ⟨desktop, android⟩
    exact ⟨desktop.trans android, android⟩
  next =>
    intro ⟨desktop, android⟩
    exact ⟨desktop.trans android.symm, android⟩

example : Crc.ieee [0xFF, 0xFF, 0xFF, 0xFF] = crc32c [0xFF, 0xFF, 0xFF, 0xFF] ∧
    crc32c [0xFF, 0xFF, 0xFF, 0xFF] = Crc.castagnoli [0xFF, 0xFF, 0xFF, 0xFF] := by
  decide +kernel

def checkString : Bytes := [0x31, 0x32, 0x33, 0x34, 0x35, 0x36, 0x37, 0x38, 0x39]

-- "123456789": 0xCBF43926 on the desktop, 0x05440F15 on Android, 0xE3069283 as specified.
theorem check_string_splits_checksums :
    ¬ (Crc.ieee checkString = crc32c checkString ∧
      crc32c checkString = Crc.castagnoli checkString) := by
  decide +kernel

end BitDrive.Android
