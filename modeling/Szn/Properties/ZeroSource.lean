import Szn.Spec.Coupling
import Szn.Spec.RoundTrip

set_option autoImplicit false

namespace Szn

open Stateful Parsing

variable (P : Platform)

def Boolean.zero : Boolean → Bool
  | boolean => false
  | booleanNot underlying => !underlying.zero

def Format.zero : (F : Format) → F.Value
  | integer _ _ => (0 : BitVec _)
  | boolean format => format.zero
  | pair _ first second => (first.zero, second.zero)
  | array length element => List.Vector.replicate length element.zero
  | vector _ _ _ => []
  | optional condition value => if condition.zero then some value.zero else none
  | uniquePtr pointee => some pointee.zero
  | substitute _ constant => constant
  | done => ()
  | field format rest => (format.zero, rest.zero)

def ReadsZeros {α : Type} (p : Parser Byte Failure α) (value : α) : Prop :=
  ∃ count, Reads p (List.replicate count 0) value

namespace ReadsZeros

variable {α β : Type} {p : Parser Byte Failure α} {value : α}

theorem pure (value : α) : ReadsZeros (Pure.pure value) value := ⟨0, Reads.pure value⟩

theorem bind {f : α → Parser Byte Failure β} {result : β} (first : ReadsZeros p value)
    (second : ReadsZeros (f value) result) : ReadsZeros (p >>= f) result := by
  obtain ⟨count, begins⟩ := first
  obtain ⟨more, ends⟩ := second
  refine ⟨count + more, ?_⟩
  rw [List.replicate_add]
  exact begins.bind ends

theorem map (f : α → β) (reads : ReadsZeros p value) : ReadsZeros (f <$> p) (f value) := by
  obtain ⟨count, reads⟩ := reads
  exact ⟨count, reads.map f⟩

theorem repeatN (reads : ReadsZeros p value) (n : Nat) :
    ReadsZeros (Parsing.repeatN p n) (List.Vector.replicate n value) := by
  induction n with
  | zero => exact pure _
  | succ n ih => exact reads.bind (ih.bind (pure _))

end ReadsZeros

theorem Integer.encode_zero (format : Integer) (type : ValueType) :
    format.encode type 0 = List.replicate format.byteSize 0 := by
  apply List.ext_getElem
  · rw [Integer.encode_length, List.length_replicate]
  · intro index inside _
    have none : type.toUnsigned format.defaultBits (BitVec.ofNat _ 0) = BitVec.ofNat _ 0 := by
      unfold ValueType.toUnsigned
      rw [BitVec.signExtend_eq_setWidth_of_msb_false BitVec.msb_zero, BitVec.setWidth_zero,
        ite_self]
    simp [Integer.encode, none, Octets.split, Octets.octet]

theorem Integer.represents_zero (format : Integer) (type : ValueType) :
    format.Represents type 0 := by
  have positive : (0 : Int) < 2 ^ (8 * format.byteSize - 1) := Int.pow_pos (by decide)
  have large : (0 : Int) < 2 ^ (8 * format.byteSize) := Int.pow_pos (by decide)
  have none (bits : Nat) : (0 : BitVec bits).toInt = 0 := BitVec.toInt_zero
  match type with
  | .unsigned bits => exact Nat.two_pow_pos _
  | .signed bits =>
      rw [Integer.Represents, none]
      omega
  | .enumeration bits true =>
      rw [Integer.Represents, none]
      exact Or.inr ⟨le_rfl, large⟩
  | .enumeration bits false => exact Or.inr (Nat.two_pow_pos _)

theorem IntegerFormat.reads_zeros (format : IntegerFormat) (type : ValueType) :
    ReadsZeros (format.parse type) 0 := by
  refine ⟨format.byteSize, ?_⟩
  rw [← Integer.encode_zero]
  exact Integer.encode_reads _ format.defaultBits_eq format.byteSize_pos type 0
    (Integer.represents_zero _ type)

theorem Boolean.reads_zeros (format : Boolean) : ReadsZeros format.parse format.zero := by
  induction format with
  | boolean =>
      exact (IntegerFormat.reads_zeros ⟨be8, List.mem_cons_self⟩ ByteBool.valueType).map
        ByteBool.toBool
  | booleanNot underlying ih => exact ih.map _

theorem Format.reads_zeros (F : Format) : ReadsZeros (F.parse P) F.zero := by
  induction F with
  | integer format type => exact format.reads_zeros type
  | boolean format => exact format.reads_zeros
  | pair order first second ihFirst ihSecond =>
      cases order with
      | firstSecond => exact ihFirst.bind (ihSecond.bind (ReadsZeros.pure _))
      | secondFirst => exact ihSecond.bind (ihFirst.bind (ReadsZeros.pure _))
  | array length element ih =>
      rw [parse_array]
      exact ih.repeatN length
  | vector target length element ih =>
      refine (length.reads_zeros (sizeType P)).bind ?_
      have reserves : target.Reserves P 0 := by
        cases target with
        | vector maxSize => exact Nat.zero_le (maxSize P.toAbi)
        | list | deque | string => trivial
      rw [show (0 : BitVec P.sizeBits).toNat = 0 from BitVec.toNat_zero,
        target.reserving_reserves P 0 reserves, pure_bind]
      exact (ih.repeatN 0).bind (ReadsZeros.pure _)
  | optional condition value ih =>
      rw [parse_optional]
      refine condition.reads_zeros.bind ?_
      rw [zero]
      cases condition.zero with
      | true => exact ih.map some
      | false => exact ReadsZeros.pure none
  | uniquePtr pointee ih => exact ih.map some
  | substitute type constant => exact ReadsZeros.pure constant
  | done => exact ReadsZeros.pure ()
  | field format rest ihFormat ihRest =>
      exact ihFormat.bind (ihRest.bind (ReadsZeros.pure _))

/-- The zero source does at least what a long range of zeros does. -/
def zeroCoupling : Coupling Failure RangeSource Unit where
  related range _ := range.position ≤ range.range.length ∧
    ∀ byte ∈ range.range.drop range.position, byte = 0
  excused failure := failure = insufficientInput
  failed _ _ _ := True

theorem zero_source_reading : Reading zeroCoupling (rangeSource P) zeroSource where
  coupled _ _ _ := ⟨trivial, trivial⟩
  byte range _ related := by
    obtain ⟨inside, zeros⟩ := related
    cases unread : range.range.drop range.position with
    | nil =>
        obtain ⟨after, failed, -⟩ := (range_delivers P).short range [0] 1 inside
          (by simp [rangeDelivery, unread])
        rw [failed]
        exact .excused _ _ _ rfl
    | cons byte rest =>
        obtain ⟨after, done, inside', left⟩ := (range_delivers P).enough range [0] 1 inside
          Nat.one_pos (by simp) (by simp [rangeDelivery, unread])
        have here : rangeDelivery.unread range = byte :: rest := unread
        have later : after.range.drop after.position = rest := by
          rw [here] at left
          exact left
        rw [unread] at zeros
        obtain ⟨rfl, others⟩ := List.forall_mem_cons.mp zeros
        rw [done, here]
        exact .ok () [0] after () ⟨inside', by rwa [later]⟩

theorem zero_source_decodes (F : Format) (target : F.Value) (blank : F.Blank target) :
    F.deserialize P zeroSource ((), target) = .ok () ((), F.zero) := by
  obtain ⟨count, reads⟩ := F.reads_zeros P
  have zeros : ∀ byte ∈ List.replicate count (0 : Byte), byte = 0 :=
    fun byte member => List.eq_of_mem_replicate member
  obtain ⟨after, done, -⟩ := F.deserialize_reads P (range_delivers P) target F.zero
    (makeRangeSource (List.replicate count 0)) (List.replicate count 0) [] (Nat.zero_le _)
    (by simp [rangeDelivery, makeRangeSource]) blank reads
  have ends := F.deserialize_couples (zero_source_reading P) P target
    (makeRangeSource (List.replicate count 0)) () ⟨Nat.zero_le _, zeros⟩
  rw [done] at ends
  generalize F.deserialize P zeroSource ((), target) = run at ends ⊢
  cases ends with
  | ok value final state other related => rfl

theorem zero_source_decodes_negated :
    let format : Format := .optional (.booleanNot .boolean)
      (.field (.integer ⟨be32, by decide⟩ (.signed 32)) (.field (.boolean .boolean) .done))
    format.deserialize amd64 zeroSource ((), none) =
      .ok () ((), some ((0 : BitVec 32), false, ())) :=
  zero_source_decodes amd64 (.optional (.booleanNot .boolean)
    (.field (.integer ⟨be32, by decide⟩ (.signed 32)) (.field (.boolean .boolean) .done)))
    none rfl

end Szn
