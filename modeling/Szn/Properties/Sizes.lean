import Szn.Model.Sizes
import Szn.Spec.Serialize

set_option autoImplicit false

namespace Szn

open Tracing

variable (P : Platform)

theorem addLengths_eq (first second : Nat) (small : first ≤ lengthMax) :
    addLengths first second = min (first + second) lengthMax := by
  unfold addLengths
  omega

theorem Boolean.minSize_eq (format : Boolean) : format.minSize = 1 := by
  induction format with
  | boolean => rfl
  | booleanNot underlying ih => exact ih

theorem Boolean.maxSize_eq (format : Boolean) : format.maxSize = 1 := by
  induction format with
  | boolean => rfl
  | booleanNot underlying ih => exact ih

theorem Integer.emits_length (format : Integer) (type : ValueType) (value : BitVec type.bits)
    (text : List Byte) (emits : (format.trace type value).Emits text) :
    text.length = format.byteSize := by
  rw [emits.unique (format.trace_emits type value), format.encode_length]

theorem Boolean.emits_length (format : Boolean) (value : Bool) (text : List Byte)
    (emits : (format.trace value).Emits text) : text.length = 1 := by
  induction format generalizing value with
  | boolean => exact be8.emits_length ByteBool.valueType _ text emits
  | booleanNot underlying ih => exact ih (!value) emits

theorem Boolean.emits (format : Boolean) (value : Bool) :
    ∃ byte, (format.trace value).Emits [byte] := by
  have emits : ∃ text, (format.trace value).Emits text := by
    induction format generalizing value with
    | boolean => exact ⟨_, be8.trace_emits ByteBool.valueType _⟩
    | booleanNot underlying ih => exact ih (!value)
  obtain ⟨text, emits⟩ := emits
  obtain ⟨byte, rfl⟩ := List.length_eq_one_iff.mp (format.emits_length value text emits)
  exact ⟨byte, emits⟩

namespace Format

theorem serialize_ok_iff (F : Format) (value : F.Value) (written : List Byte) :
    F.serialize P insertionSink value [] = .ok () written ↔ (F.trace P value).Emits written := by
  rw [serialize_replay]
  refine (Trace.replay_append_ok _ [] written).trans ?_
  simp

/-- After `n` conditions the sum of the smallest sizes may have stopped at the largest length. -/
def MinSizeMet : Nat → (F : Format) → F.Value → Prop
  | n, optional _ format, none => format.minSize = 0 ∨ lengthMax ≤ n + 1
  | n, optional _ format, some value => MinSizeMet (n + 1) format value
  | n, uniquePtr pointee, some value => MinSizeMet n pointee value
  | _, uniquePtr _, none => True
  | _, integer _ _, _ | _, boolean _, _ | _, vector _ _ _, _ | _, substitute _ _, _ => True
  | _, pair _ _ _, _ | _, array _ _, _ | _, done, _ | _, field _ _, _ => True

theorem minSize_le (F : Format) : F.minSize ≤ lengthMax := by
  have large : 8 ≤ lengthMax := by decide
  induction F with
  | integer format type => exact format.byteSize_le.trans large
  | boolean format =>
      rw [minSize, format.minSize_eq]
      omega
  | vector target length element ih => exact length.byteSize_le.trans large
  | optional condition format ih =>
      rw [minSize, condition.minSize_eq, addLengths_eq _ _ (by omega)]
      exact Nat.min_le_right _ _
  | uniquePtr pointee ih => exact ih
  | pair order first second ihFirst ihSecond => exact Nat.zero_le _
  | array length element ih => exact Nat.zero_le _
  | substitute type constant => exact Nat.zero_le _
  | done => exact Nat.zero_le _
  | field format rest ihFormat ihRest => exact Nat.zero_le _

theorem optional_minSize_met (condition : Boolean) (format : Format) (n : Nat)
    (each : ∀ value n, (∀ text, (format.trace P value).Emits text →
      min (n + format.minSize) lengthMax ≤ n + text.length) ↔ MinSizeMet n format value)
    (value : Option format.Value) :
    (∀ text, ((optional condition format).trace P value).Emits text →
      min (n + (optional condition format).minSize) lengthMax ≤ n + text.length) ↔
        MinSizeMet n (optional condition format) value := by
  have large : 1 ≤ lengthMax := by decide
  rw [minSize, condition.minSize_eq, addLengths_eq _ _ large]
  cases value with
  | none =>
      obtain ⟨byte, begins⟩ := condition.emits false
      have alone : ((optional condition format).trace P none).Emits [byte] := by
        have whole := begins.andThen (Trace.Emits.empty)
        rwa [List.append_nil] at whole
      simp only [MinSizeMet]
      constructor
      · intro met
        have here := met [byte] alone
        simp only [List.length_singleton] at here
        omega
      · intro met text emits
        rw [emits.unique alone, List.length_singleton]
        omega
  | some value =>
      obtain ⟨byte, begins⟩ := condition.emits true
      simp only [MinSizeMet]
      refine Iff.trans ?_ (each value (n + 1))
      constructor
      · intro met text emits
        have here := met _ (begins.andThen emits)
        simp only [List.length_append, List.length_singleton] at here
        omega
      · intro met text emits
        obtain ⟨head, tail, first, rest, rfl⟩ := (Trace.emits_andThen _ _ _).mp emits
        have here := met tail rest
        rw [List.length_append, condition.emits_length _ _ first]
        omega

theorem minSize_met_after (F : Format) (value : F.Value) (n : Nat) :
    (∀ text, (F.trace P value).Emits text →
      min (n + F.minSize) lengthMax ≤ n + text.length) ↔ MinSizeMet n F value := by
  induction F generalizing n with
  | integer format type =>
      simp only [MinSizeMet, iff_true, minSize]
      intro text emits
      rw [Integer.emits_length _ _ _ _ emits]
      exact Nat.min_le_left _ _
  | boolean format =>
      simp only [MinSizeMet, iff_true, minSize, format.minSize_eq]
      intro text emits
      rw [format.emits_length _ _ emits]
      exact Nat.min_le_left _ _
  | vector target length element ih =>
      simp only [MinSizeMet, iff_true, minSize]
      intro text emits
      obtain ⟨head, tail, begins, -, rfl⟩ := (Trace.emits_andThen _ _ _).mp emits
      rw [List.length_append, Integer.emits_length _ _ _ _ begins]
      omega
  | optional condition format ih =>
      exact optional_minSize_met P condition format n (fun value n => ih value n) value
  | uniquePtr pointee ih =>
      cases value with
      | none =>
          simp only [MinSizeMet, iff_true]
          exact fun text emits => absurd emits (Trace.emits_fail _ _)
      | some value => exact ih value n
  | pair order first second ihFirst ihSecond => simp [MinSizeMet, minSize]
  | array length element ih => simp [MinSizeMet, minSize]
  | substitute type constant => simp [MinSizeMet, minSize]
  | done => simp [MinSizeMet, minSize]
  | field format rest ihFormat ihRest => simp [MinSizeMet, minSize]

theorem minSize_met_iff (F : Format) (value : F.Value) :
    (∀ written, F.serialize P insertionSink value [] = .ok () written →
      F.minSize ≤ written.length) ↔ MinSizeMet 0 F value := by
  rw [← minSize_met_after P F value 0]
  simp only [serialize_ok_iff, Nat.zero_add, Nat.min_eq_left F.minSize_le]

theorem empty_optional_below_minSize :
    let format := optional .boolean (integer ⟨be32, by decide⟩ (.unsigned 32))
    ¬ ∀ written, format.serialize amd64 insertionSink none [] = .ok () written →
      format.minSize ≤ written.length := by
  intro format met
  exact absurd (met [0] (by decide)) (by decide)

def Silent : Format → Prop
  | pair _ first second => first.Silent ∧ second.Silent
  | array length element => length = 0 ∨ element.Silent
  | uniquePtr pointee => pointee.Silent
  | field format rest => format.Silent ∧ rest.Silent
  | substitute _ _ | done => True
  | integer _ _ | boolean _ | vector _ _ _ | optional _ _ => False

-- Optionals and pointers lead to a format that declares a max_size.
def DeclaresMaxSize : Format → Prop
  | optional _ format => format.DeclaresMaxSize
  | uniquePtr pointee => pointee.DeclaresMaxSize
  | integer _ _ | boolean _ | vector _ _ _ | substitute _ _ => True
  | pair _ _ _ | array _ _ | done | field _ _ => False

theorem all_nil_iff {α : Type} (write : α → Trace Byte Failure) (silent : Prop)
    (each : ∀ value text, (write value).Emits text → (text = [] ↔ silent)) (values : List α)
    (text : List Byte) (emits : (Trace.all write values).Emits text) :
    text = [] ↔ values.length = 0 ∨ silent := by
  induction values generalizing text with
  | nil =>
      rw [emits.unique Trace.Emits.empty]
      simp
  | cons value rest ih =>
      obtain ⟨head, tail, first, others, rfl⟩ := (Trace.emits_andThen _ _ _).mp emits
      rw [List.append_eq_nil_iff, each value head first, ih tail others]
      simp only [List.length_cons, Nat.succ_ne_zero, false_or]
      constructor
      · exact And.left
      · exact fun holds => ⟨holds, Or.inr holds⟩

theorem written_nil_iff (F : Format) (value : F.Value) (text : List Byte)
    (emits : (F.trace P value).Emits text) : text = [] ↔ F.Silent := by
  induction F generalizing text with
  | integer format type =>
      have size := Integer.emits_length _ _ _ _ emits
      have positive := format.byteSize_pos
      simp only [Silent, iff_false, ← List.length_eq_zero_iff]
      omega
  | boolean format =>
      simp only [Silent, iff_false, ← List.length_eq_zero_iff, format.emits_length _ _ emits]
      decide
  | pair order first second ihFirst ihSecond =>
      cases order with
      | firstSecond =>
          obtain ⟨head, tail, begins, ends, rfl⟩ := (Trace.emits_andThen _ _ _).mp emits
          rw [List.append_eq_nil_iff, ihFirst _ _ begins, ihSecond _ _ ends, Silent]
      | secondFirst =>
          obtain ⟨head, tail, begins, ends, rfl⟩ := (Trace.emits_andThen _ _ _).mp emits
          rw [List.append_eq_nil_iff, ihSecond _ _ begins, ihFirst _ _ ends, Silent, and_comm]
  | array length element ih =>
      rw [all_nil_iff _ element.Silent ih value.toList text emits, Silent, value.toList_length]
  | vector target length element ih =>
      obtain ⟨head, tail, begins, -, rfl⟩ := (Trace.emits_andThen _ _ _).mp emits
      have size := Integer.emits_length _ _ _ _ begins
      have positive := length.byteSize_pos
      simp only [Silent, iff_false, ← List.length_eq_zero_iff, List.length_append]
      omega
  | optional condition format ih =>
      obtain ⟨head, tail, begins, -, rfl⟩ := (Trace.emits_andThen _ _ _).mp emits
      have size := condition.emits_length _ _ begins
      simp only [Silent, iff_false, ← List.length_eq_zero_iff, List.length_append]
      omega
  | uniquePtr pointee ih =>
      cases value with
      | none => exact absurd emits (Trace.emits_fail _ _)
      | some value => exact ih value text emits
  | substitute type constant =>
      rw [trace] at emits
      by_cases same : value = constant
      · rw [if_pos same] at emits
        simp [Silent, emits.unique Trace.Emits.empty]
      · rw [if_neg same] at emits
        exact absurd emits (Trace.emits_fail _ _)
  | done => simp [Silent, emits.unique Trace.Emits.empty]
  | field format rest ihFormat ihRest =>
      obtain ⟨head, tail, begins, ends, rfl⟩ := (Trace.emits_andThen _ _ _).mp emits
      rw [List.append_eq_nil_iff, ihFormat _ _ begins, ihRest _ _ ends, Silent]

theorem maxSize_isSome_iff (F : Format) : F.maxSize.isSome ↔ F.DeclaresMaxSize := by
  induction F with
  | optional condition format ih => rw [maxSize, Option.isSome_map, ih, DeclaresMaxSize]
  | uniquePtr pointee ih => exact ih
  | integer format type => simp [maxSize, DeclaresMaxSize]
  | boolean format => simp [maxSize, DeclaresMaxSize]
  | vector target length element ih => simp [maxSize, DeclaresMaxSize]
  | substitute type constant => simp [maxSize, DeclaresMaxSize]
  | pair order first second ihFirst ihSecond => simp [maxSize, DeclaresMaxSize]
  | array length element ih => simp [maxSize, DeclaresMaxSize]
  | done => simp [maxSize, DeclaresMaxSize]
  | field format rest ihFormat ihRest => simp [maxSize, DeclaresMaxSize]

theorem emits_le_maxSize (F : Format) (value : F.Value) (text : List Byte)
    (emits : (F.trace P value).Emits text) (short : text.length ≤ lengthMax) (bound : Nat)
    (declared : F.maxSize = some bound) : text.length ≤ bound := by
  have large : 1 ≤ lengthMax := by decide
  induction F generalizing text bound with
  | integer format type =>
      cases declared
      exact (Integer.emits_length _ _ _ _ emits).le
  | boolean format =>
      cases declared
      rw [format.maxSize_eq, format.emits_length _ _ emits]
  | vector target length element ih =>
      cases declared
      exact short
  | optional condition format ih =>
      obtain ⟨inner, found, rfl⟩ := Option.map_eq_some_iff.mp declared
      obtain ⟨head, tail, begins, ends, rfl⟩ := (Trace.emits_andThen _ _ _).mp emits
      have size := condition.emits_length _ _ begins
      rw [condition.maxSize_eq, addLengths_eq _ _ large]
      rw [List.length_append, size] at short ⊢
      cases value with
      | none =>
          rw [Trace.Emits.unique ends Trace.Emits.empty, List.length_nil]
          omega
      | some value =>
          have within : tail.length ≤ inner := ih value tail ends (by omega) inner found
          omega
  | uniquePtr pointee ih =>
      cases value with
      | none => exact absurd emits (Trace.emits_fail _ _)
      | some value => exact ih value text emits short bound declared
  | substitute type constant =>
      rw [(written_nil_iff P (substitute type constant) value text emits).mpr trivial]
      exact Nat.zero_le _
  | pair order first second ihFirst ihSecond => cases declared
  | array length element ih => cases declared
  | done => cases declared
  | field format rest ihFormat ihRest => cases declared

theorem le_maxSize_iff (F : Format) (value : F.Value) (written : List Byte)
    (done : F.serialize P insertionSink value [] = .ok () written)
    (short : written.length < 2 ^ 64) :
    (∃ bound, F.maxSize = some bound ∧ written.length ≤ bound) ↔ F.DeclaresMaxSize := by
  rw [← maxSize_isSome_iff]
  constructor
  · rintro ⟨bound, declared, -⟩
    rw [declared, Option.isSome_some]
  · intro declares
    obtain ⟨bound, declared⟩ := Option.isSome_iff_exists.mp declares
    have emits := (F.serialize_ok_iff P value written).mp done
    exact ⟨bound, declared,
      F.emits_le_maxSize P value written emits (Nat.le_sub_one_of_lt short) bound declared⟩

theorem set_optional_within_maxSize :
    let format := optional .boolean (integer ⟨be32, by decide⟩ (.unsigned 32))
    ∃ bound, format.maxSize = some bound ∧ [1, 0, 0, 0, 7].length ≤ bound :=
  (le_maxSize_iff amd64 (optional .boolean (integer ⟨be32, by decide⟩ (.unsigned 32)))
    (some (7 : BitVec 32)) [1, 0, 0, 0, 7] (by decide) (by decide)).mpr trivial

theorem pair_without_maxSize :
    let byte := integer ⟨be8, by decide⟩ (.unsigned 8)
    let format := pair .firstSecond byte byte
    ¬ ∀ written, format.serialize amd64 insertionSink ((1 : BitVec 8), (2 : BitVec 8)) [] =
        .ok () written → written.length < 2 ^ 64 →
      ∃ bound, format.maxSize = some bound ∧ written.length ≤ bound := by
  intro byte format met
  obtain ⟨bound, declared, -⟩ := met [1, 2] (by decide) (by decide)
  cases declared

end Format

end Szn
