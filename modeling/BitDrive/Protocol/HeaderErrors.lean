import BitDrive.Protocol.FrameFormat
import BitDrive.Shared.Burst

set_option autoImplicit false

namespace BitDrive

open ByteLayout

def corruptHeader (bytes pattern : Bytes) : Bytes :=
  Crc.flip (bytes.take 30) pattern ++ bytes.drop 30

section

variable (crc32fast : Bytes → UInt32)

theorem encode_checked (codec : FrameCodec) (frame : Frame) (bytes : Bytes)
    (magic : frame.header.magic = magicNumber)
    (encoded : (codec.encode crc32fast frame).1 = .ok bytes) :
    ∃ checked tail, checked.length = 26 ∧
      bytes = checked ++ Layout.u32.put (crc32fast checked) ++ tail := by
  have ⟨flags, channelId, flagged, channelled⟩ := encode_present crc32fast codec frame bytes encoded
  rw [encode_eq crc32fast codec frame flags channelId flagged channelled, magic] at encoded
  exact ⟨_, _, checkedLayout.put_length _, (Except.ok.inj encoded).symm⟩

theorem decode_checked (codec next : FrameCodec) (buf rest : Bytes) (frame : Frame)
    (decoded : codec.decode crc32fast buf = (.ok (some frame), next, rest)) :
    crc32fast (buf.take 26) = u32At buf 26 := by
  have ⟨wire, found, _⟩ := decode_some crc32fast codec next buf rest frame decoded
  have whole := scanHead_frame crc32fast buf wire rest found
  have covered : 26 ≤ (wire.bytes crc32fast).length := by
    rw [wire.bytes_length]
    omega
  rw [scanHead_crc crc32fast buf wire rest found, wire.headerCrc_eq, whole,
    List.take_append_of_le_length covered]

end

theorem corruptHeader_checked (checked tail pattern : Bytes) (crc : UInt32)
    (length : checked.length = 26) (size : pattern.length = 30) :
    corruptHeader (checked ++ Layout.u32.put crc ++ tail) pattern =
      Crc.flip checked (pattern.take 26) ++
        (Crc.flip (Layout.u32.put crc) (pattern.drop 26) ++ tail) := by
  have four : (Layout.u32.put crc).length = 4 := Layout.u32.put_length crc
  have header : (checked ++ Layout.u32.put crc).length = 30 := by
    rw [List.length_append, length, four]
  have front : checked.length = (pattern.take 26).length := by
    rw [List.length_take, size, length]
    rfl
  have both : Crc.flip (checked ++ Layout.u32.put crc) pattern =
      Crc.flip checked (pattern.take 26) ++ Crc.flip (Layout.u32.put crc) (pattern.drop 26) := by
    conv_lhs => rw [← List.take_append_drop 26 pattern]
    exact List.zipWith_append front
  rw [corruptHeader, List.take_left' header, List.drop_left' header, both, List.append_assoc]

theorem u32_get_flip (value : UInt32) (mask tail : Bytes) (size : mask.length = 4) :
    (Layout.u32.get (Crc.flip (Layout.u32.put value) mask ++ tail)).toNat =
      value.toNat ^^^ ofLittleEndian mask := by
  have four : (Layout.u32.put value).length = 4 := Layout.u32.put_length value
  have field : (Crc.flip (Layout.u32.put value) mask).length = 4 := by simp [Crc.flip, four, size]
  have small := ofLittleEndian_lt (Crc.flip (Layout.u32.put value) mask)
  rw [field] at small
  have number : ofLittleEndian (Layout.u32.put value) = value.toNat := by
    exact (ofLittleEndian_toLittleEndian 4 value.toNat).trans (Nat.mod_eq_of_lt value.toNat_lt)
  have read : Layout.u32.get (Crc.flip (Layout.u32.put value) mask ++ tail) =
      UInt32.ofNat (ofLittleEndian (Crc.flip (Layout.u32.put value) mask)) :=
    congrArg (fun front => UInt32.ofNat (ofLittleEndian front)) (List.take_left' field)
  rw [read, UInt32.toNat_ofNat_of_lt' small, Crc.ofLittleEndian_flip _ mask (four.trans size.symm),
    number]

theorem header_burst_refused (sender receiver : FrameCodec) (frame : Frame)
    (bytes pattern more : Bytes) (magic : frame.header.magic = magicNumber)
    (encoded : (sender.encode Crc.ieee frame).1 = .ok bytes) (size : pattern.length = 30)
    (burst : Crc.Burst pattern) :
    ¬ ∃ decoded next rest, receiver.decode Crc.ieee (corruptHeader bytes pattern ++ more) =
      (.ok (some decoded), next, rest) := by
  intro ⟨decoded, next, rest, accepted⟩
  have ⟨checked, tail, length, written⟩ :=
    encode_checked Crc.ieee sender frame bytes magic encoded
  have right := decode_checked Crc.ieee receiver next _ rest decoded accepted
  have last : (pattern.drop 26).length = 4 := by rw [List.length_drop, size]
  have front : (pattern.take 26).length = 26 := by rw [List.length_take, size]; rfl
  have flipped : (Crc.flip checked (pattern.take 26)).length = 26 := by
    simp [Crc.flip, length, front]
  rw [written, corruptHeader_checked checked tail pattern _ length size, List.append_assoc,
    List.take_left' flipped, u32At, List.drop_left' flipped, List.append_assoc] at right
  have read : (Crc.ieee (Crc.flip checked (pattern.take 26))).toNat =
      (Crc.ieee checked).toNat ^^^ ofLittleEndian (pattern.drop 26) := by
    rw [right, u32_get_flip _ _ _ last]
  have whole : Crc.Burst (pattern.take 26 ++ pattern.drop 26) := by
    rwa [List.take_append_drop]
  exact whole.detected 0xEDB88320 (by decide) checked (pattern.take 26) (pattern.drop 26)
    (length.trans front.symm) read

def straddlingPattern : Bytes := List.replicate 25 0 ++ [0x80, 0x01] ++ List.replicate 3 0

theorem straddlingPattern_burst : Crc.Burst straddlingPattern := by
  have inside : ∀ position < 240, Crc.bitAt straddlingPattern position = true →
      207 ≤ position ∧ position < 207 + 32 := by
    decide +kernel
  refine ⟨⟨207, by decide⟩, 207, ?_⟩
  intro position set
  by_cases header : position < 240
  next => exact inside position header set
  next =>
    have past : straddlingPattern.length ≤ position / 8 := by
      change 30 ≤ position / 8
      omega
    rw [Crc.bitAt, List.getD_eq_default _ _ past] at set
    simp at set

theorem header_burst_refused_straddling :
    ¬ ∃ decoded next rest, FrameCodec.default.decode Crc.ieee
      (corruptHeader (testWire.bytes Crc.ieee) straddlingPattern ++ []) =
        (.ok (some decoded), next, rest) :=
  header_burst_refused FrameCodec.default FrameCodec.default (testWire.frame Crc.ieee)
    (testWire.bytes Crc.ieee) straddlingPattern [] rfl
    (congrArg Prod.fst (encode_carries Crc.ieee FrameCodec.default _ testWire
      (testWire.frame_carries Crc.ieee) rfl))
    (by decide) straddlingPattern_burst

end BitDrive
