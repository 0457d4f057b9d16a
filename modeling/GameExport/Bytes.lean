/-! # Byte strings

File contents are lists of bytes. This module relates them to text (UTF-8) and to
little-endian numbers. Main statements: decoding an encoded text gives the text back,
and reading back a number written in enough bytes gives the number.
-/

namespace GameExport

abbrev Bytes := List UInt8

namespace Bytes

def ofText (text : String) : Bytes := text.toUTF8.data.toList

def text? (bytes : Bytes) : Option String := String.fromUTF8? ⟨bytes.toArray⟩

theorem text?_ofText (text : String) : text? (ofText text) = some text := by
  have sameBytes : (⟨(ofText text).toArray⟩ : ByteArray) = text.toByteArray := by
    simp [ofText, String.toUTF8]
  unfold text?
  rw [sameBytes]
  simp [String.fromUTF8?, text.isValidUTF8]
  rfl

def littleEndian : (width : Nat) → (value : Nat) → Bytes
  | 0, _ => []
  | width + 1, value => UInt8.ofNat value :: littleEndian width (value / 256)

def ofLittleEndian : Bytes → Nat
  | [] => 0
  | byte :: rest => byte.toNat + 256 * ofLittleEndian rest

@[simp] theorem length_littleEndian (width value : Nat) :
    (littleEndian width value).length = width := by
  induction width generalizing value with
  | zero => rfl
  | succ width induction => simp [littleEndian, induction]

theorem ofLittleEndian_littleEndian (width value : Nat) :
    ofLittleEndian (littleEndian width value) = value % Nat.pow 256 width := by
  induction width generalizing value with
  | zero => simp [littleEndian, ofLittleEndian, Nat.mod_one]
  | succ width induction =>
      have byte : (UInt8.ofNat value).toNat = value % 256 := by simp
      rw [littleEndian, ofLittleEndian, induction, byte, Nat.pow_eq, Nat.pow_eq, Nat.pow_succ',
        Nat.mod_mul]

def startsWith (bytes start : Bytes) : Bool := bytes.take start.length == start

def dropTrailing (unwanted : UInt8) (bytes : Bytes) : Bytes :=
  (bytes.reverse.dropWhile (· == unwanted)).reverse

end Bytes

end GameExport
