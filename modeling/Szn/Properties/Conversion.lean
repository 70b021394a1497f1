import Szn.Spec.RoundTrip

set_option autoImplicit false

namespace Szn

open Stateful Parsing Octets

namespace ValueType

def number (type : ValueType) (value : BitVec type.bits) : Int :=
  if type.isSigned then value.toInt else value.toNat

def Has (type : ValueType) (number : Int) : Prop :=
  ∃ value : BitVec type.bits, type.number value = number

theorem toUnsigned_number (type : ValueType) (width : Nat) (value : BitVec type.bits) :
    type.toUnsigned width value = BitVec.ofInt width (type.number value) := by
  unfold toUnsigned number
  split
  · rfl
  · rw [BitVec.ofInt_natCast, BitVec.ofNat_toNat]

end ValueType

namespace Integer

variable (format : Integer)

/-- The numbers for which the bytes of the format are enough when they are read into the type. -/
def Carries : ValueType → Int → Prop
  | .unsigned _, number | .enumeration _ false, number =>
      (ValueType.unsigned (8 * format.byteSize)).Has number
  | .signed _, number => (ValueType.signed (8 * format.byteSize)).Has number
  | .enumeration bits true, number =>
      bits ≤ 8 * format.byteSize ∨ (ValueType.unsigned (8 * format.byteSize)).Has number

theorem word_number (exact : format.defaultBits = 8 * format.byteSize) (type : ValueType)
    (number : Int) :
    type.ofUnsigned (((BitVec.ofInt format.defaultBits number).setWidth
      (8 * format.byteSize)).setWidth format.defaultBits) =
      type.ofUnsigned (BitVec.ofInt (8 * format.byteSize) number) := by
  rw [exact, BitVec.setWidth_eq, BitVec.setWidth_eq]

theorem ofUnsigned_number_iff (type : ValueType) (number : Int) :
    type.number (type.ofUnsigned (BitVec.ofInt (8 * format.byteSize) number)) = number ↔
      type.Has number ∧ format.Carries type number := by
  match type with
  | .unsigned bits => exact Casts.toNat_setWidth_ofInt_iff number _ bits
  | .signed bits => exact Casts.toInt_signExtend_ofInt_iff number _ bits
  | .enumeration bits true => exact Casts.toInt_setWidth_ofInt_iff number _ bits
  | .enumeration bits false => exact Casts.toNat_setWidth_ofInt_iff number _ bits

end Integer

theorem integer_converts_iff (P : Platform) (format : IntegerFormat) (written read : ValueType)
    (value : BitVec written.bits) :
    ∃ text, format.serialize P insertionSink written value [] = .ok () text ∧
      ∀ {σ : Type} (source : Source σ) (D : Delivery σ Byte) (state : σ)
        (target : BitVec read.bits) (rest : List Byte), source.Delivers D → D.ready state →
        D.unread state = text ++ rest →
        ∃ after found, format.deserialize source read (state, target) = .ok () (after, found) ∧
          D.unread after = rest ∧
          (read.number found = written.number value ↔
            read.Has (written.number value) ∧
              format.Carries read (written.number value)) := by
  refine ⟨_, format.serialize_encode P written value [], ?_⟩
  intro σ source D state target rest delivers ready unread
  have deserializes : Deserializes D (format.deserialize source read) fun _ =>
      format.parse read := format.deserialize_implements delivers read
  have parsed := format.parse_split read (written.toUnsigned format.defaultBits value) rest
  rw [written.toUnsigned_number, format.word_number format.defaultBits_eq] at parsed
  rw [Integer.encode, written.toUnsigned_number, List.nil_append] at unread
  rw [← unread] at parsed
  obtain ⟨after, done, -, left⟩ := deserializes.ok ready parsed
  exact ⟨after, _, done, left, format.ofUnsigned_number_iff read (written.number value)⟩

theorem integer_converts_wider :
    ∃ text, Integer.serialize amd64 ⟨2, .bigEndian⟩ insertionSink (.signed 16)
        (-2 : BitVec 16) [] = .ok () text ∧
      ∃ after found, Integer.deserialize ⟨2, .bigEndian⟩ (rangeSource amd64) (.signed 64)
          (makeRangeSource (text ++ [7]), 0) = .ok () (after, found) ∧
        (ValueType.signed 64).number found = -2 := by
  obtain ⟨text, done, read⟩ := integer_converts_iff amd64 ⟨⟨2, .bigEndian⟩, builtin .int16⟩
    (.signed 16) (.signed 64) (-2 : BitVec 16)
  refine ⟨text, done, ?_⟩
  obtain ⟨after, found, again, -, same⟩ := read (rangeSource amd64) rangeDelivery
    (makeRangeSource (text ++ [7])) 0 [7] (range_delivers amd64) (Nat.zero_le _) rfl
  exact ⟨after, found, again,
    same.mpr ⟨⟨(-2 : BitVec 64), by decide⟩, (-2 : BitVec 16), by decide⟩⟩

end Szn
