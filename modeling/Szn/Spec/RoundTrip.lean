import Szn.Spec.Parse
import Szn.Spec.Serialize

set_option autoImplicit false

namespace Szn

open Stateful Parsing Tracing

def Codes {α : Type} (trace : Trace Byte Failure) (parser : Parser Byte Failure α)
    (value : α) : Prop :=
  ∃ text, trace.Emits text ∧ Reads parser text value

namespace Codes

variable {α β : Type}

theorem empty (value : α) : Codes .empty (pure value) value :=
  ⟨[], Trace.Emits.empty, Reads.pure value⟩

theorem andThen {first second : Trace Byte Failure} {p : Parser Byte Failure α}
    {f : α → Parser Byte Failure β} {value : α} {result : β} (begins : Codes first p value)
    (ends : Codes second (f value) result) : Codes (first.andThen second) (p >>= f) result := by
  obtain ⟨head, emitsHead, readsHead⟩ := begins
  obtain ⟨tail, emitsTail, readsTail⟩ := ends
  exact ⟨head ++ tail, emitsHead.andThen emitsTail, readsHead.bind readsTail⟩

theorem bindPure {trace : Trace Byte Failure} {p : Parser Byte Failure α} {value : α}
    (f : α → β) (codes : Codes trace p value) :
    Codes trace (p >>= fun value => pure (f value)) (f value) := by
  obtain ⟨text, emits, reads⟩ := codes
  rw [← map_eq_pure_bind]
  exact ⟨text, emits, reads.map f⟩

theorem map {trace : Trace Byte Failure} {p : Parser Byte Failure α} {value : α} (f : α → β)
    (codes : Codes trace p value) : Codes trace (f <$> p) (f value) := by
  obtain ⟨text, emits, reads⟩ := codes
  exact ⟨text, emits, reads.map f⟩

theorem all {n : Nat} (write : α → Trace Byte Failure) (p : Parser Byte Failure α)
    (values : List.Vector α n) (each : ∀ value ∈ values.toList, Codes (write value) p value) :
    Codes (.all write values.toList) (repeatN p n) values := by
  have emits : ∀ value ∈ values.toList, (write value).Emits (write value).chunks.flatten := by
    intro value member
    obtain ⟨text, emits, -⟩ := each value member
    exact ⟨emits.1, rfl⟩
  refine ⟨_, Trace.Emits.all write _ values.toList emits, ?_⟩
  apply Reads.repeatN
  intro value member
  obtain ⟨text, emits, reads⟩ := each value member
  rwa [emits.2]

end Codes

theorem Integer.encode_reads (format : Integer)
    (exact : format.defaultBits = 8 * format.byteSize) (positive : 0 < format.byteSize)
    (type : ValueType) (value : BitVec type.bits) (represents : format.Represents type value) :
    Reads (format.parse type) (format.encode type value) value := by
  have reads := format.parse_reads type value
  rwa [(format.truncate_eq_iff exact positive type value).mpr represents] at reads

theorem Integer.codes (format : Integer) (exact : format.defaultBits = 8 * format.byteSize)
    (positive : 0 < format.byteSize) (type : ValueType) (value : BitVec type.bits)
    (represents : format.Represents type value) :
    Codes (format.trace type value) (format.parse type) value :=
  ⟨_, format.trace_emits type value, format.encode_reads exact positive type value represents⟩

theorem IntegerFormat.codes (format : IntegerFormat) (type : ValueType)
    (value : BitVec type.bits) (represents : format.Represents type value) :
    Codes (format.trace type value) (format.parse type) value :=
  Integer.codes _ format.defaultBits_eq format.byteSize_pos type value represents

theorem ByteBool.toBool_fromBool (value : Bool) : toBool (fromBool value) = value := by
  cases value <;> rfl

theorem Boolean.codes (format : Boolean) (value : Bool) :
    Codes (format.trace value) format.parse value := by
  induction format generalizing value with
  | boolean =>
      have byte := (Integer.codes be8 rfl (by decide) ByteBool.valueType
        (ByteBool.fromBool value) (ByteBool.fromBool value).isLt).map ByteBool.toBool
      rwa [ByteBool.toBool_fromBool] at byte
  | booleanNot underlying ih =>
      have inner := (ih (!value)).map fun value => !value
      rwa [Bool.not_not] at inner

def Container.Reserves (P : Platform) (target : Container) (size : Nat) : Prop :=
  match target with
  | vector maxSize => size ≤ maxSize P.toAbi
  | list | deque | string => True

instance (P : Platform) (target : Container) (size : Nat) : Decidable (target.Reserves P size) :=
  match target with
  | .vector _ => inferInstanceAs (Decidable (_ ≤ _))
  | .list | .deque | .string => .isTrue trivial

def Container.Holds (P : Platform) (target : Container) (size : Nat) : Prop :=
  size < 2 ^ P.sizeBits ∧ target.Reserves P size

instance (P : Platform) (target : Container) (size : Nat) : Decidable (target.Holds P size) :=
  inferInstanceAs (Decidable (_ ∧ _))

theorem Container.reserving_reserves (P : Platform) (target : Container) (size : Nat)
    (reserves : target.Reserves P size) : target.reserving P size = pure () := by
  cases target with
  | vector maxSize => exact if_neg (Nat.not_lt.mpr reserves)
  | list | deque | string => rfl

def Container.elements {α : Type} (P : Platform) (target : Container) (p : Parser Byte Failure α)
    (count : Nat) : Parser Byte Failure (List α) := do
  target.reserving P count
  let elements ← repeatN p count
  pure elements.toList

theorem Container.elements_reserves {α : Type} (P : Platform) (target : Container)
    (p : Parser Byte Failure α) (count : Nat) (reserves : target.Reserves P count) :
    target.elements P p count = List.Vector.toList <$> repeatN p count := by
  rw [elements, target.reserving_reserves P count reserves, pure_bind, map_eq_pure_bind]

theorem Container.elements_ok {α : Type} (P : Platform) (target : Container)
    (p : Parser Byte Failure α) (count : Nat) (input rest : List Byte) (v : List α) :
    (target.elements P p count).run input = .ok (v, rest) ↔
      target.Reserves P count ∧
        ∃ values, (repeatN p count).run input = .ok (values, rest) ∧ values.toList = v := by
  by_cases reserves : target.Reserves P count
  · rw [target.elements_reserves P p count reserves, run_map_ok]
    simp [reserves]
  · cases target with
    | vector maxSize =>
        have tooLong : maxSize P.toAbi < count := Nat.not_le.mp reserves
        rw [elements, reserving, if_pos tooLong]
        simp only [reserves, false_and, iff_false]
        intro accepted
        cases accepted
    | list | deque | string => exact absurd trivial reserves

namespace Format

variable (P : Platform)

def Fits : (F : Format) → F.Value → Prop
  | integer format type, value => format.Represents type value
  | boolean _, _ => True
  | pair _ first second, value => first.Fits value.1 ∧ second.Fits value.2
  | array _ element, value => ∀ part ∈ value.toList, element.Fits part
  | vector target length element, value =>
      value.length < 2 ^ (8 * length.byteSize) ∧ target.Holds P value.length ∧
        ∀ part ∈ value, element.Fits part
  | optional _ format, value => ∀ part ∈ value, format.Fits part
  | uniquePtr pointee, value => value.isSome ∧ ∀ part ∈ value, pointee.Fits part
  | substitute _ constant, value => value = constant
  | done, _ => True
  | field format rest, value => format.Fits value.1 ∧ rest.Fits value.2

instance decidableFits : (F : Format) → (value : F.Value) → Decidable (F.Fits P value)
  | integer format type, value => inferInstanceAs (Decidable (format.Represents type value))
  | boolean _, _ => .isTrue trivial
  | pair _ first second, value =>
      have := decidableFits first value.1
      have := decidableFits second value.2
      inferInstanceAs (Decidable (_ ∧ _))
  | array _ element, value =>
      have := decidableFits element
      inferInstanceAs (Decidable (∀ part ∈ value.toList, element.Fits P part))
  | vector target length element, value =>
      have := decidableFits element
      inferInstanceAs (Decidable (value.length < 2 ^ (8 * length.byteSize) ∧
        target.Holds P value.length ∧ ∀ part ∈ value, element.Fits P part))
  | optional _ format, value =>
      have := decidableFits format
      inferInstanceAs (Decidable (∀ part ∈ value, format.Fits P part))
  | uniquePtr pointee, value =>
      have := decidableFits pointee
      inferInstanceAs (Decidable (value.isSome ∧ ∀ part ∈ value, pointee.Fits P part))
  | substitute _ constant, value => inferInstanceAs (Decidable (value = constant))
  | done, _ => .isTrue trivial
  | field format rest, value =>
      have := decidableFits format value.1
      have := decidableFits rest value.2
      inferInstanceAs (Decidable (_ ∧ _))

theorem fits_codes (F : Format) (value : F.Value) (fits : F.Fits P value) :
    Codes (F.trace P value) (F.parse P) value := by
  induction F with
  | integer format type => exact format.codes type value fits
  | boolean format => exact format.codes value
  | pair order first second ihFirst ihSecond =>
      have codesFirst := ihFirst value.1 fits.1
      have codesSecond := ihSecond value.2 fits.2
      cases order with
      | firstSecond =>
          exact codesFirst.andThen (codesSecond.bindPure fun second => (value.1, second))
      | secondFirst =>
          exact codesSecond.andThen (codesFirst.bindPure fun first => (first, value.2))
  | array length element ih =>
      rw [parse_array]
      exact Codes.all _ _ value fun part member => ih part (fits part member)
  | vector target length element ih =>
      obtain ⟨short, holds, elements⟩ := fits
      have size : (BitVec.ofNat P.sizeBits value.length).toNat = value.length := by
        rw [BitVec.toNat_ofNat, Nat.mod_eq_of_lt holds.1]
      have lengthCodes := length.codes (sizeType P) (BitVec.ofNat P.sizeBits value.length)
        (by simpa only [Integer.Represents, size] using short)
      have elementCodes := Codes.all (element.trace P) (element.parse P)
        (⟨value, rfl⟩ : List.Vector element.Value value.length)
        fun part member => ih part (elements part member)
      refine lengthCodes.andThen ?_
      rw [size, target.reserving_reserves P value.length holds.2, pure_bind]
      exact elementCodes.bindPure List.Vector.toList
  | optional condition format ih =>
      rw [parse_optional]
      have conditionCodes := condition.codes value.isSome
      cases value with
      | none => exact conditionCodes.andThen (Codes.empty none)
      | some part => exact conditionCodes.andThen ((ih part (fits part rfl)).map some)
  | uniquePtr pointee ih =>
      cases value with
      | none => exact absurd fits.1 (by simp)
      | some part => exact (ih part (fits.2 part rfl)).map some
  | substitute type constant =>
      have same : value = constant := fits
      rw [trace, if_pos same, same]
      exact Codes.empty constant
  | done => exact Codes.empty ()
  | field format rest ihFormat ihRest =>
      have codesFormat := ihFormat value.1 fits.1
      have codesRest := ihRest value.2 fits.2
      exact codesFormat.andThen (codesRest.bindPure fun others => (value.1, others))

theorem encoded_reads (F : Format) (value : F.Value) (fits : F.Fits P value) (text : List Byte)
    (emits : (F.trace P value).Emits text) : Reads (F.parse P) text value := by
  obtain ⟨again, emitsAgain, reads⟩ := F.fits_codes P value fits
  rwa [emits.unique emitsAgain]

theorem serialize_emits (F : Format) (value : F.Value) (before text : List Byte)
    (emits : (F.trace P value).Emits text) :
    F.serialize P insertionSink value before = .ok () (before ++ text) := by
  rw [serialize_replay]
  exact (Trace.replay_append_ok _ _ _).mpr ⟨text, emits, rfl⟩

variable {σ : Type} {source : Source σ} {D : Delivery σ Byte} (delivers : source.Delivers D)

include delivers in
theorem deserialize_reads (F : Format) (target value : F.Value) (state : σ)
    (text rest : List Byte) (ready : D.ready state) (unread : D.unread state = text ++ rest)
    (blank : F.Blank target) (reads : Reads (F.parse P) text value) :
    ∃ after, F.deserialize P source (state, target) = .ok () (after, value) ∧
      D.ready after ∧ D.unread after = rest := by
  apply (F.deserialize_implements P delivers).ok ready
  rw [decode_blank P F target blank, unread]
  exact reads rest

end Format

end Szn
