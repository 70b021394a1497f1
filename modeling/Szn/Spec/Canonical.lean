import Szn.Spec.RoundTrip

set_option autoImplicit false

namespace Szn

open Parsing Tracing Octets

variable {α β γ : Type}

-- What can have more than one spelling: a byte read as a boolean or as an optional's condition,
-- and the number that a length field holds before std::size_t takes it.
inductive Mark where
  | flag (byte : Byte)
  | count (number : Nat)
  deriving DecidableEq

abbrev Marked (α : Type) := α × List Mark

def inSequence {β : α → Type} (first : Parser Byte Failure (Marked α))
    (second : (value : α) → Parser Byte Failure (Marked (β value)))
    (combine : (value : α) → β value → γ) : Parser Byte Failure (Marked γ) := do
  let found ← first
  let others ← second found.1
  pure (combine found.1 others.1, found.2 ++ others.2)

def unmarked (parser : Parser Byte Failure α) : Parser Byte Failure (Marked α) :=
  (fun value => (value, [])) <$> parser

def mapValue (f : α → β) (parser : Parser Byte Failure (Marked α)) :
    Parser Byte Failure (Marked β) :=
  (fun found => (f found.1, found.2)) <$> parser

def marksN (parser : Parser Byte Failure (Marked α)) :
    (n : Nat) → Parser Byte Failure (Marked (List.Vector α n))
  | 0 => unmarked (pure .nil)
  | n + 1 => inSequence parser (fun _ => marksN parser n) List.Vector.cons

def Boolean.marks : Boolean → Parser Byte Failure (Marked Bool)
  | boolean =>
      (fun byte => (ByteBool.toBool byte, [.flag byte])) <$> be8.parse ByteBool.valueType
  | booleanNot underlying => mapValue (fun value => !value) underlying.marks

def Integer.countMarks (length : Integer) (P : Platform) :
    Parser Byte Failure (Marked (BitVec P.sizeBits)) :=
  (fun word => ((sizeType P).ofUnsigned word, [.count word.toNat])) <$> length.parseWord

-- A format's parser, with what it met that can have more than one spelling.
def Format.marks (P : Platform) : (F : Format) → Parser Byte Failure (Marked F.Value)
  | integer format type => unmarked (format.parse type)
  | boolean format => format.marks
  | pair .firstSecond first second =>
      inSequence (marks P first) (fun _ => marks P second) fun first second => (first, second)
  | pair .secondFirst first second =>
      inSequence (marks P second) (fun _ => marks P first) fun second first => (first, second)
  | array length element => marksN (marks P element) length
  | vector target length element =>
      inSequence (length.countMarks P)
        (fun size =>
          inSequence (unmarked (target.reserving P size.toNat))
            (fun _ => marksN (marks P element) size.toNat) fun _ elements => elements)
        fun _ elements => elements.toList
  | optional condition value =>
      inSequence condition.marks
        (fun isSet => if isSet then mapValue some (marks P value) else unmarked (pure none))
        fun _ value => value
  | uniquePtr pointee => mapValue some (marks P pointee)
  | substitute _ constant => unmarked (pure constant)
  | done => unmarked (pure ())
  | field format rest =>
      inSequence (marks P format) (fun _ => marks P rest) fun first others => (first, others)

section Erasure

theorem fst_inSequence {β : α → Type} (first : Parser Byte Failure (Marked α))
    (second : (value : α) → Parser Byte Failure (Marked (β value)))
    (combine : (value : α) → β value → γ) :
    Prod.fst <$> inSequence first second combine = (do
      let value ← Prod.fst <$> first
      let other ← Prod.fst <$> second value
      pure (combine value other)) := by
  simp [inSequence]

theorem fst_unmarked (parser : Parser Byte Failure α) :
    Prod.fst <$> unmarked parser = parser := by
  simp [unmarked, Functor.map_map]

theorem fst_mapValue (f : α → β) (parser : Parser Byte Failure (Marked α)) :
    Prod.fst <$> mapValue f parser = f <$> Prod.fst <$> parser := by
  simp [mapValue, Functor.map_map]

theorem fst_marksN (parser : Parser Byte Failure (Marked α)) (n : Nat) :
    Prod.fst <$> marksN parser n = repeatN (Prod.fst <$> parser) n := by
  induction n with
  | zero => exact fst_unmarked _
  | succ n ih => rw [marksN, fst_inSequence, ih, repeatN]

theorem Boolean.fst_marks (format : Boolean) : Prod.fst <$> format.marks = format.parse := by
  induction format with
  | boolean => simp [marks, parse, Functor.map_map]
  | booleanNot underlying ih => rw [marks, fst_mapValue, ih, parse]

theorem Integer.fst_countMarks (length : Integer) (P : Platform) :
    Prod.fst <$> length.countMarks P = length.parse (sizeType P) := by
  simp [countMarks, parse_word, Functor.map_map]

theorem Format.fst_marks (P : Platform) (F : Format) :
    Prod.fst <$> F.marks P = F.parse P := by
  induction F with
  | integer format type => exact fst_unmarked _
  | boolean format => exact format.fst_marks
  | pair order first second ihFirst ihSecond =>
      cases order <;> (rw [marks, fst_inSequence, ihFirst, ihSecond]; rfl)
  | array length element ih => rw [marks, fst_marksN, ih, parse_array]
  | vector target length element ih =>
      simp only [marks, fst_inSequence, fst_unmarked, fst_marksN, Integer.fst_countMarks, ih,
        bind_assoc, pure_bind]
      rfl
  | optional condition value ih =>
      rw [marks, fst_inSequence, condition.fst_marks, parse_optional]
      apply bind_congr
      intro isSet
      cases isSet with
      | true => simp [fst_mapValue, ih]
      | false => simp [fst_unmarked]
  | uniquePtr pointee ih =>
      rw [marks, fst_mapValue, ih]
      rfl
  | substitute type constant => exact fst_unmarked _
  | done => exact fst_unmarked _
  | field format rest ihFormat ihRest =>
      rw [marks, fst_inSequence, ihFormat, ihRest]
      rfl

end Erasure

section Reencodes

variable (P : Platform)

-- The spelling that the serializer chooses.
def Mark.Canonical : Mark → Prop
  | flag byte => byte = 0 ∨ byte = 1
  | count number => number < 2 ^ P.sizeBits

-- What was read is written in as many bytes, and in the same ones where all marks are canonical.
def Reencodes (trace : α → Trace Byte Failure) (post : α → Prop)
    (parser : Parser Byte Failure (Marked α)) : Prop :=
  ∀ input value marks rest, parser.run input = .ok ((value, marks), rest) →
    post value ∧ ∃ text again, input = text ++ rest ∧ (trace value).Emits again ∧
      again.length = text.length ∧ (again = text ↔ ∀ mark ∈ marks, mark.Canonical P)

end Reencodes

namespace Reencodes

variable {P : Platform}

theorem pure (trace : α → Trace Byte Failure) (post : α → Prop) (value : α)
    (empty : trace value = .empty) (holds : post value) :
    Reencodes P trace post (unmarked (pure value)) := by
  intro input found marks rest parsed
  cases parsed
  refine ⟨holds, [], [], rfl, ?_, rfl, by simp⟩
  rw [empty]
  exact Trace.Emits.empty

theorem inSequence {β : α → Type} {traceFirst : α → Trace Byte Failure} {postFirst : α → Prop}
    {traceSecond : (value : α) → β value → Trace Byte Failure}
    {postSecond : (value : α) → β value → Prop}
    {first : Parser Byte Failure (Marked α)}
    {second : (value : α) → Parser Byte Failure (Marked (β value))}
    (begins : Reencodes P traceFirst postFirst first)
    (ends : ∀ value, Reencodes P (traceSecond value) (postSecond value) (second value))
    (combine : (value : α) → β value → γ) (trace : γ → Trace Byte Failure) (post : γ → Prop)
    (writes : ∀ value other, postSecond value other → trace (combine value other) =
      (traceFirst value).andThen (traceSecond value other))
    (holds : ∀ value other, postFirst value → postSecond value other →
      post (combine value other)) :
    Reencodes P trace post (Szn.inSequence first second combine) := by
  intro input result marks rest parsed
  obtain ⟨⟨value, marksFirst⟩, middle, parsedFirst, parsed⟩ := (run_bind_ok _ _ _ _ _).mp parsed
  obtain ⟨⟨other, marksSecond⟩, final, parsedSecond, parsed⟩ :=
    (run_bind_ok _ _ _ _ _).mp parsed
  cases parsed
  obtain ⟨postValue, text, again, rfl, emits, size, same⟩ := begins _ _ _ _ parsedFirst
  obtain ⟨postOther, more, others, rfl, emitsMore, sizeMore, sameMore⟩ :=
    ends value _ _ _ _ parsedSecond
  refine ⟨holds value other postValue postOther, text ++ more, again ++ others,
    by simp, ?_, by simp [size, sizeMore], ?_⟩
  · rw [writes value other postOther]
    exact emits.andThen emitsMore
  · have split : again ++ others = text ++ more ↔ again = text ∧ others = more := by
      constructor
      · exact fun whole => List.append_inj whole size
      · exact fun parts => by rw [parts.1, parts.2]
    rw [split, same, sameMore]
    simp only [List.mem_append, or_imp, forall_and]

theorem mapValue {trace : α → Trace Byte Failure} {post : α → Prop}
    {parser : Parser Byte Failure (Marked α)} (reencodes : Reencodes P trace post parser)
    (f : α → β) (traceResult : β → Trace Byte Failure) (postResult : β → Prop)
    (writes : ∀ value, traceResult (f value) = trace value)
    (holds : ∀ value, post value → postResult (f value)) :
    Reencodes P traceResult postResult (Szn.mapValue f parser) := by
  intro input result marks rest parsed
  obtain ⟨⟨value, found⟩, inner, mapped⟩ := (run_map_ok _ _ _ _ _).mp parsed
  cases mapped
  obtain ⟨postValue, text, again, whole, emits, size, same⟩ := reencodes _ _ _ _ inner
  exact ⟨holds value postValue, text, again, whole, by rwa [writes], size, same⟩

theorem marksN {trace : α → Trace Byte Failure} {post : α → Prop}
    {parser : Parser Byte Failure (Marked α)} (reencodes : Reencodes P trace post parser)
    (n : Nat) : Reencodes P (fun values : List.Vector α n => .all trace values.toList)
      (fun values => ∀ value ∈ values.toList, post value) (Szn.marksN parser n) := by
  induction n with
  | zero =>
      apply Reencodes.pure
      · rfl
      · exact fun value member => absurd member List.not_mem_nil
  | succ n ih =>
      exact reencodes.inSequence (fun _ => ih) List.Vector.cons
        (fun values => .all trace values.toList) (fun values => ∀ value ∈ values.toList, post value)
        (fun value others _ => by rw [List.Vector.toList_cons, Trace.all])
        (fun value others first rest part member => by
          rw [List.Vector.toList_cons, List.mem_cons] at member
          rcases member with rfl | member
          · exact first
          · exact rest part member)

end Reencodes

namespace Integer

variable (P : Platform) (format : Integer) (sized : format.defaultBits = 8 * format.byteSize)
  (bits : Nat)

include sized

theorem encode_word (bytes : List Byte) (complete : bytes.length = format.byteSize) :
    format.encode (.unsigned bits)
        (ValueType.ofUnsigned (.unsigned bits) (join format.placement format.defaultBits bytes)) =
      bytes ↔ (join format.placement format.defaultBits bytes).toNat < 2 ^ bits := by
  let word := join format.placement format.defaultBits bytes
  have bytes_eq : split format.placement word = bytes := split_join _ _ complete sized.ge
  have kept : ValueType.toUnsigned (.unsigned bits) format.defaultBits
      (ValueType.ofUnsigned (.unsigned bits) word) =
        (word.setWidth bits).setWidth format.defaultBits := rfl
  rw [← Casts.setWidth_setWidth_iff word, encode, kept]
  constructor
  · intro same
    have joined := congrArg (join format.placement format.defaultBits) (same.trans bytes_eq.symm)
    rwa [join_split, join_split, ← sized, BitVec.setWidth_eq, BitVec.setWidth_eq,
      BitVec.setWidth_eq, BitVec.setWidth_eq] at joined
  · intro same
    rw [same, bytes_eq]

theorem countMarks_reencodes : Reencodes P (format.trace (sizeType P))
    (fun size => size.toNat < 2 ^ (8 * format.byteSize)) (format.countMarks P) := by
  intro input value marks rest parsed
  obtain ⟨word, inner, mapped⟩ := (run_map_ok _ _ _ _ _).mp parsed
  cases mapped
  obtain ⟨bytes, complete, whole, rfl⟩ := format.parseWord_ok _ _ _ inner
  refine ⟨?_, bytes, _, whole, trace_emits _ _ _, by simp [complete], ?_⟩
  · rw [← sized]
    exact Casts.setWidth_toNat_lt _
  · rw [format.encode_word sized P.sizeBits bytes complete]
    simp [Mark.Canonical]

theorem reencodes (wide : 8 * format.byteSize ≤ bits) :
    Reencodes P (format.trace (.unsigned bits))
      (fun value => format.Represents (.unsigned bits) value)
      (unmarked (format.parse (.unsigned bits))) := by
  intro input value marks rest parsed
  obtain ⟨found, inner, mapped⟩ := (run_map_ok _ _ _ _ _).mp parsed
  cases mapped
  have below := format.parse_unsigned_lt sized bits input rest value inner
  obtain ⟨bytes, complete, whole, rfl⟩ := format.parse_ok _ _ _ _ inner
  refine ⟨below, bytes, _, whole, trace_emits _ _ _, by simp [complete], ?_⟩
  have inside : (join format.placement format.defaultBits bytes).toNat < 2 ^ bits :=
    (BitVec.isLt _).trans_le (Nat.pow_le_pow_right (by decide) (sized.trans_le wide))
  simp [(format.encode_word sized bits bytes complete).mpr inside]

end Integer

theorem ByteBool.fromBool_toBool (byte : BitVec 8) :
    fromBool (toBool byte) = byte ↔ byte = 0 ∨ byte = 1 := by
  unfold toBool fromBool
  by_cases zero : byte = 0
  · simp [zero]
  · have set : (byte != 0) = true := by simpa using zero
    rw [set, if_pos rfl]
    constructor
    · exact fun one => Or.inr one.symm
    · exact fun either => (either.resolve_left zero).symm

theorem encode_byte_inj (first second : BitVec 8) :
    be8.encode ByteBool.valueType first = be8.encode ByteBool.valueType second ↔
      first = second := by
  have reads (byte : BitVec 8) := be8.encode_reads rfl (by decide) ByteBool.valueType byte byte.isLt
  constructor
  · intro same
    apply (reads first).unique
    rw [same]
    exact reads second
  · exact congrArg _

theorem Boolean.reencodes (P : Platform) (format : Boolean) :
    Reencodes P format.trace (fun _ => True) format.marks := by
  induction format with
  | boolean =>
      intro input value marks rest parsed
      obtain ⟨byte, inner, mapped⟩ := (run_map_ok _ _ _ _ _).mp parsed
      cases mapped
      obtain ⟨-, text, again, whole, emits, size, same⟩ :=
        (be8.reencodes P rfl 8 (Nat.le_refl 8)) input byte [] rest (by
          rw [unmarked, run_map_ok]
          exact ⟨byte, inner, rfl⟩)
      obtain rfl := same.mpr (by simp)
      have encoded := emits.unique (be8.trace_emits ByteBool.valueType byte)
      refine ⟨trivial, again, _, whole, be8.trace_emits _ _, by simp [encoded], ?_⟩
      rw [encoded, encode_byte_inj, ByteBool.fromBool_toBool]
      simp [Mark.Canonical]
  | booleanNot underlying ih =>
      exact ih.mapValue _ _ _ (fun value => by rw [trace, Bool.not_not]) fun _ _ => trivial

theorem Container.reserving_reencodes (P : Platform) (target : Container) (size : Nat) :
    Reencodes P (fun _ => .empty) (fun _ => target.Reserves P size)
      (unmarked (target.reserving P size)) := by
  cases target with
  | vector maxSize =>
      by_cases tooLong : maxSize P.toAbi < size
      · intro input value marks rest parsed
        simp only [reserving, if_pos tooLong] at parsed
        cases parsed
      · simp only [reserving, if_neg tooLong]
        exact Reencodes.pure _ _ () rfl (Nat.not_lt.mp tooLong)
  | list | deque | string => exact Reencodes.pure _ _ () rfl trivial

namespace Format

variable (P : Platform)

def DefaultTyped : Format → Prop
  | integer format type => type = format.defaultType
  | pair _ first second => first.DefaultTyped ∧ second.DefaultTyped
  | array _ element | vector _ _ element => element.DefaultTyped
  | optional _ format | uniquePtr format => format.DefaultTyped
  | field format rest => format.DefaultTyped ∧ rest.DefaultTyped
  | boolean _ | substitute _ _ | done => True

theorem vector_reencodes (target : Container) (length : IntegerFormat) (element : Format)
    (each : Reencodes P (element.trace P) (element.Fits P) (element.marks P)) :
    Reencodes P ((vector target length element).trace P)
      ((vector target length element).Fits P) ((vector target length element).marks P) := by
  have elements (size : BitVec P.sizeBits) :=
    (target.reserving_reencodes P size.toNat).inSequence
      (fun _ => each.marksN size.toNat)
      (fun _ elements => elements) (fun elements => .all (element.trace P) elements.toList)
      (fun elements => target.Reserves P size.toNat ∧
        ∀ part ∈ elements.toList, element.Fits P part)
      (fun _ _ _ => rfl) fun _ _ => And.intro
  exact (length.toInteger.countMarks_reencodes P length.defaultBits_eq).inSequence
    elements (fun _ elements => elements.toList) ((vector target length element).trace P)
    ((vector target length element).Fits P)
    (fun size elements _ => by
      rw [trace, List.Vector.toList_length, BitVec.ofNat_toNat, BitVec.setWidth_eq])
    (fun size elements inside fits => by
      refine ⟨?_, ⟨?_, ?_⟩, fits.2⟩
      · rw [List.Vector.toList_length]
        exact inside
      · rw [List.Vector.toList_length]
        exact size.isLt
      · rw [List.Vector.toList_length]
        exact fits.1)

theorem optional_reencodes (condition : Boolean) (format : Format)
    (each : Reencodes P (format.trace P) (format.Fits P) (format.marks P)) :
    Reencodes P ((optional condition format).trace P)
      ((optional condition format).Fits P) ((optional condition format).marks P) := by
  have branch (isSet : Bool) : Reencodes P
      (fun value : Option format.Value => value.elim .empty (format.trace P))
      (fun value => value.isSome = isSet ∧ ∀ part ∈ value, format.Fits P part)
      (if isSet then Szn.mapValue some (format.marks P) else unmarked (pure none)) := by
    cases isSet with
    | true =>
        apply each.mapValue
        · exact fun _ => rfl
        · intro value fits
          refine ⟨rfl, fun part member => ?_⟩
          cases member
          exact fits
    | false =>
        apply Reencodes.pure
        · rfl
        · exact ⟨rfl, fun part member => by cases member⟩
  exact (condition.reencodes P).inSequence branch (fun _ value => value)
    ((optional condition format).trace P) ((optional condition format).Fits P)
    (fun isSet value fits => by rw [trace, fits.1]) (fun _ _ _ fits => fits.2)

theorem reencodes (F : Format) (typed : F.DefaultTyped) :
    Reencodes P (F.trace P) (F.Fits P) (F.marks P) := by
  induction F with
  | integer format type =>
      obtain rfl : type = format.defaultType := typed
      exact format.toInteger.reencodes P format.defaultBits_eq format.defaultBits
        format.defaultBits_eq.ge
  | boolean format => exact format.reencodes P
  | pair order first second ihFirst ihSecond =>
      cases order with
      | firstSecond =>
          exact (ihFirst typed.1).inSequence (fun _ => ihSecond typed.2) _ _ _
            (fun _ _ _ => rfl) fun _ _ => And.intro
      | secondFirst =>
          exact (ihSecond typed.2).inSequence (fun _ => ihFirst typed.1) _ _ _
            (fun _ _ _ => rfl) fun _ _ second first => ⟨first, second⟩
  | array length element ih => exact (ih typed).marksN length
  | vector target length element ih => exact vector_reencodes P target length element (ih typed)
  | optional condition format ih => exact optional_reencodes P condition format (ih typed)
  | uniquePtr pointee ih =>
      apply (ih typed).mapValue
      · exact fun _ => rfl
      · intro value fits
        refine ⟨rfl, fun part member => ?_⟩
        cases member
        exact fits
  | substitute type constant =>
      apply Reencodes.pure
      · exact if_pos rfl
      · rfl
  | done =>
      apply Reencodes.pure
      · rfl
      · trivial
  | field format rest ihFormat ihRest =>
      exact (ihFormat typed.1).inSequence (fun _ => ihRest typed.2) _ _ _
        (fun _ _ _ => rfl) fun _ _ => And.intro

end Format

end Szn
