import Szn.Properties.Conversion

set_option autoImplicit false

namespace Szn

open Stateful Parsing Tracing

theorem ValueType.number_inj (type : ValueType) (first second : BitVec type.bits)
    (same : type.number first = type.number second) : first = second := by
  unfold number at same
  split at same
  · exact BitVec.toInt_inj.mp same
  · exact BitVec.toNat_inj.mp (Int.ofNat_inj.mp same)

theorem IntegerFormat.codes_number (format : IntegerFormat) (written read : ValueType)
    (value : BitVec written.bits) (found : BitVec read.bits)
    (same : read.number found = written.number value)
    (carries : format.Carries read (written.number value)) :
    Codes (format.trace written value) (format.parse read) found := by
  have reads := format.parse_split read (written.toUnsigned format.defaultBits value)
  rw [written.toUnsigned_number, format.word_number format.defaultBits_eq] at reads
  have kept := (format.ofUnsigned_number_iff read (written.number value)).mpr
    ⟨⟨found, same⟩, carries⟩
  rw [read.number_inj _ _ (kept.trans same.symm)] at reads
  refine ⟨_, format.trace_emits written value, ?_⟩
  rwa [Integer.encode, written.toUnsigned_number]

theorem IntegerFormat.codes_count (format : IntegerFormat) (P Q : Platform) (count : Nat)
    (short : count < 2 ^ (8 * format.byteSize)) (here : count < 2 ^ P.sizeBits)
    (there : count < 2 ^ Q.sizeBits) :
    Codes (format.trace (sizeType P) (BitVec.ofNat P.sizeBits count))
      (format.parse (sizeType Q)) (BitVec.ofNat Q.sizeBits count) := by
  have number (R : Platform) (inside : count < 2 ^ R.sizeBits) :
      (sizeType R).number (BitVec.ofNat R.sizeBits count) = count := by
    change ((BitVec.ofNat R.sizeBits count).toNat : Int) = count
    rw [BitVec.toNat_ofNat, Nat.mod_eq_of_lt inside]
  apply format.codes_number
  · rw [number P here, number Q there]
  · rw [number P here]
    refine ⟨BitVec.ofNat _ count, ?_⟩
    change ((BitVec.ofNat (8 * format.byteSize) count).toNat : Int) = count
    rw [BitVec.toNat_ofNat, Nat.mod_eq_of_lt short]

theorem Codes.forall₂ {α β : Type} {related : α → β → Prop} {write : α → Trace Byte Failure}
    {p : Parser Byte Failure β} (each : ∀ value found, related value found →
      Codes (write value) p found)
    (values : List α) (found : List β) (all : List.Forall₂ related values found) :
    Codes (.all write values) (repeatN p found.length) ⟨found, rfl⟩ := by
  induction all with
  | nil => exact Codes.empty _
  | @cons value here values there relates others ih =>
      exact (each value here relates).andThen
        (ih.bindPure fun rest => here ::ᵥ rest)

theorem Codes.nullable {α β : Type} {related : α → β → Prop} {write : α → Trace Byte Failure}
    {p : Parser Byte Failure β} (each : ∀ value found, related value found →
      Codes (write value) p found)
    (condition : Boolean) (value : Option α) (found : Option β)
    (parts : Option.Rel related value found) :
    Codes ((condition.trace value.isSome).andThen (value.elim .empty write))
      (do
        let isSet ← condition.parse
        if isSet then some <$> p else pure none) found := by
  have conditionCodes := condition.codes value.isSome
  cases parts with
  | none => exact conditionCodes.andThen (Codes.empty none)
  | some inner => exact conditionCodes.andThen ((each _ _ inner).map some)

namespace Format

variable (P Q : Platform)

/-- The formats lay out the same bytes, and the values hold the same numbers. The types of the
values and of the containers may differ. -/
def Interchanges : (F G : Format) → F.Value → G.Value → Prop
  | integer format written, integer other read, value, found =>
      format = other ∧ read.number found = written.number value ∧
        format.Carries read (written.number value)
  | boolean format, boolean other, value, found => format = other ∧ found = value
  | pair order first second, pair other firstRead secondRead, value, found =>
      order = other ∧ first.Interchanges firstRead value.1 found.1 ∧
        second.Interchanges secondRead value.2 found.2
  | array _ element, array _ read, value, found =>
      List.Forall₂ (element.Interchanges read) value.toList found.toList
  | vector _ length element, vector container other read, value, found =>
      length = other ∧ value.length < 2 ^ (8 * length.byteSize) ∧ value.length < 2 ^ P.sizeBits ∧
        container.Holds Q value.length ∧ List.Forall₂ (element.Interchanges read) value found
  | optional condition format, optional other read, value, found =>
      condition = other ∧ Option.Rel (format.Interchanges read) value found
  | uniquePtr pointee, uniquePtr read, value, found =>
      ∃ part, value = some part ∧ ∃ pointed, found = some pointed ∧
        pointee.Interchanges read part pointed
  | substitute _ constant, substitute _ other, value, found => value = constant ∧ found = other
  | done, done, _, _ => True
  | field format rest, field read others, value, found =>
      format.Interchanges read value.1 found.1 ∧ rest.Interchanges others value.2 found.2
  | _, _, _, _ => False

theorem interchanges_codes (F G : Format) (value : F.Value) (found : G.Value)
    (related : F.Interchanges P Q G value found) :
    Codes (F.trace P value) (G.parse Q) found := by
  induction F generalizing G with
  | integer format written =>
      cases G with
      | integer other read =>
          obtain ⟨rfl, same, carries⟩ := related
          exact format.codes_number written read value found same carries
      | _ => exact related.elim
  | boolean format =>
      cases G with
      | boolean other =>
          obtain ⟨rfl, rfl⟩ := related
          exact format.codes _
      | _ => exact related.elim
  | pair order first second ihFirst ihSecond =>
      cases G with
      | pair other firstRead secondRead =>
          obtain ⟨rfl, begins, ends⟩ := related
          have codesFirst := ihFirst firstRead value.1 found.1 begins
          have codesSecond := ihSecond secondRead value.2 found.2 ends
          cases order with
          | firstSecond =>
              exact codesFirst.andThen (codesSecond.bindPure fun second => (found.1, second))
          | secondFirst =>
              exact codesSecond.andThen (codesFirst.bindPure fun first => (first, found.2))
      | _ => exact related.elim
  | array length element ih =>
      cases G with
      | array other read =>
          obtain ⟨elements, rfl⟩ := found
          rw [parse_array]
          exact Codes.forall₂ (ih read) value.toList elements related
      | _ => exact related.elim
  | vector target length element ih =>
      cases G with
      | vector container other read =>
          obtain ⟨rfl, short, here, there, elements⟩ := related
          have count : value.length = List.length found := elements.length_eq
          have lengthCodes := length.codes_count P Q value.length short here there.1
          have elementCodes := Codes.forall₂ (ih read) value found elements
          refine lengthCodes.andThen ?_
          have size : (BitVec.ofNat Q.sizeBits value.length).toNat = value.length := by
            rw [BitVec.toNat_ofNat, Nat.mod_eq_of_lt there.1]
          rw [size, container.reserving_reserves Q value.length there.2, pure_bind, count]
          exact elementCodes.bindPure List.Vector.toList
      | _ => exact related.elim
  | optional condition format ih =>
      cases G with
      | optional other read =>
          obtain ⟨rfl, parts⟩ := related
          rw [parse_optional]
          exact Codes.nullable (ih read) condition value found parts
      | _ => exact related.elim
  | uniquePtr pointee ih =>
      cases G with
      | uniquePtr read =>
          obtain ⟨part, present, pointed, made, inner⟩ := related
          rw [trace, show value = some part from present, show found = some pointed from made]
          exact (ih read part pointed inner).map some
      | _ => exact related.elim
  | substitute type constant =>
      cases G with
      | substitute other replaced =>
          obtain ⟨same, assigned⟩ := related
          rw [trace, if_pos same, show found = replaced from assigned]
          exact Codes.empty replaced
      | _ => exact related.elim
  | done =>
      cases G with
      | done => exact Codes.empty ()
      | _ => exact related.elim
  | field format rest ihFormat ihRest =>
      cases G with
      | field read others =>
          have codesFormat := ihFormat read value.1 found.1 related.1
          have codesRest := ihRest others value.2 found.2 related.2
          exact codesFormat.andThen (codesRest.bindPure fun others => (found.1, others))
      | _ => exact related.elim

end Format

theorem interchange (P Q : Platform) (F G : Format) (value : F.Value) (found : G.Value)
    (related : F.Interchanges P Q G value found) :
    ∃ text, F.serialize P insertionSink value [] = .ok () text ∧
      ∀ {σ : Type} (source : Source σ) (D : Delivery σ Byte) (state : σ) (target : G.Value)
        (rest : List Byte), source.Delivers D → D.ready state → G.Blank target →
        D.unread state = text ++ rest →
        ∃ after, G.deserialize Q source (state, target) = .ok () (after, found) ∧
          D.ready after ∧ D.unread after = rest := by
  obtain ⟨text, emits, reads⟩ := F.interchanges_codes P Q G value found related
  refine ⟨text, F.serialize_emits P value [] text emits, ?_⟩
  intro σ source D state target rest delivers ready blank unread
  exact G.deserialize_reads Q delivers target found state text rest ready unread blank reads

theorem interchange_samples :
    let F : Format := .structureOf [.integer ⟨be16, builtin .int16⟩ (.signed 32),
      .vector .deque ⟨be8, builtin .int8⟩ (.integer ⟨be16, builtin .int16⟩
        (.unsigned 16))]
    let G : Format := .structureOf [.integer ⟨be16, builtin .int16⟩ (.signed 64),
      .vector .list ⟨be8, builtin .int8⟩ (.integer ⟨be16, builtin .int16⟩
        (.unsigned 64))]
    ∃ text, F.serialize amd64 insertionSink ((-2 : BitVec 32), [(3 : BitVec 16)], ()) [] =
        .ok () text ∧
      ∃ after, G.deserialize ilp32 (rangeSource ilp32) (makeRangeSource (text ++ [7]),
        G.fresh) = .ok () (after, (-2 : BitVec 64), [(3 : BitVec 64)], ()) := by
  intro F G
  have related : F.Interchanges amd64 ilp32 G ((-2 : BitVec 32), [(3 : BitVec 16)], ())
      ((-2 : BitVec 64), [(3 : BitVec 64)], ()) :=
    ⟨⟨rfl, by decide, (-2 : BitVec 16), by decide⟩,
      ⟨rfl, by decide, by decide, by decide,
        .cons ⟨rfl, by decide, (3 : BitVec 16), by decide⟩ .nil⟩, trivial⟩
  obtain ⟨text, done, read⟩ := interchange amd64 ilp32 F G _ _ related
  refine ⟨text, done, ?_⟩
  obtain ⟨after, again, -, -⟩ := read (rangeSource ilp32) rangeDelivery
    (makeRangeSource (text ++ [7])) G.fresh [7] (range_delivers ilp32) (Nat.zero_le _)
    G.fresh_blank rfl
  exact ⟨after, again⟩

end Szn
