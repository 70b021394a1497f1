import Szn.Model.Iterator
import Szn.Properties.Sizes
import Szn.Spec.InPlace

set_option autoImplicit false

namespace Szn

open Stateful Parsing Tracing

namespace Format

variable (P : Platform)

theorem silent_blank (F : Format) (silent : F.Silent) (value : F.Value) : F.Blank value := by
  induction F with
  | pair order first second ihFirst ihSecond =>
      exact ⟨ihFirst silent.1 value.1, ihSecond silent.2 value.2⟩
  | array length element ih =>
      intro part member
      rcases silent with rfl | silent
      · rw [List.Vector.eq_nil value] at member
        exact absurd member List.not_mem_nil
      · exact ih silent part
  | uniquePtr pointee ih => exact fun part _ => ih silent part
  | field format rest ihFormat ihRest =>
      exact ⟨ihFormat silent.1 value.1, ihRest silent.2 value.2⟩
  | optional condition format ih => exact absurd silent id
  | integer format type => trivial
  | boolean format => trivial
  | vector target length element ih => trivial
  | substitute type constant => trivial
  | done => trivial

theorem silent_fits (F : Format) (silent : F.Silent) (value : F.Value) (text : List Byte)
    (emits : (F.trace P value).Emits text) : F.Fits P value := by
  induction F generalizing text with
  | pair order first second ihFirst ihSecond =>
      cases order with
      | firstSecond =>
          obtain ⟨head, tail, begins, ends, -⟩ := (Trace.emits_andThen _ _ _).mp emits
          exact ⟨ihFirst silent.1 _ _ begins, ihSecond silent.2 _ _ ends⟩
      | secondFirst =>
          obtain ⟨head, tail, begins, ends, -⟩ := (Trace.emits_andThen _ _ _).mp emits
          exact ⟨ihFirst silent.1 _ _ ends, ihSecond silent.2 _ _ begins⟩
  | array length element ih =>
      intro part member
      rcases silent with rfl | silent
      · rw [List.Vector.eq_nil value] at member
        exact absurd member List.not_mem_nil
      · have ended := (Trace.all_ending _ _).mp emits.1 part member
        exact ih silent part _ ⟨ended, rfl⟩
  | uniquePtr pointee ih =>
      cases value with
      | none => exact absurd emits (Trace.emits_fail _ _)
      | some held =>
          refine ⟨rfl, fun part member => ?_⟩
          cases member
          exact ih silent held text emits
  | substitute type constant =>
      by_contra other
      have differs : ¬ value = constant := other
      rw [trace, if_neg differs] at emits
      exact Trace.emits_fail _ _ emits
  | done => trivial
  | field format rest ihFormat ihRest =>
      obtain ⟨head, tail, begins, ends, -⟩ := (Trace.emits_andThen _ _ _).mp emits
      exact ⟨ihFormat silent.1 _ _ begins, ihRest silent.2 _ _ ends⟩
  | integer format type => exact absurd silent id
  | boolean format => exact absurd silent id
  | vector target length element ih => exact absurd silent id
  | optional condition format ih => exact absurd silent id

theorem silent_reads (F : Format) (silent : F.Silent) (value : F.Value) (text : List Byte)
    (emits : (F.trace P value).Emits text) : Reads (F.parse P) [] value := by
  have reads := F.encoded_reads P value (F.silent_fits P silent value text emits) text emits
  rwa [(F.written_nil_iff P value text emits).mpr silent] at reads

theorem parse_takes (F : Format) (loud : ¬ F.Silent) (input rest : List Byte) (value : F.Value)
    (parsed : (F.parse P).run input = .ok (value, rest)) : rest.length < input.length := by
  have fits := (F.decode_accords P F.fresh (Or.inl F.fresh_blank) input value rest parsed).1
  obtain ⟨text, emits, codes⟩ := F.fits_codes P value fits
  obtain ⟨taken, rfl, reads, -⟩ := F.parse_delimited P input value rest parsed
  have nonempty : taken ≠ [] := by
    rintro rfl
    have here := codes []
    rw [List.append_nil, ← List.nil_append text, reads text] at here
    cases here
    exact loud ((F.written_nil_iff P value [] emits).mp rfl)
  have positive := List.length_pos_of_ne_nil nonempty
  rw [List.length_append]
  omega

def taken (F : Format) : (k : Nat) → (target : F.Value) →
    Parser Byte Failure (List F.Value × F.Value)
  | 0, target => pure ([], target)
  | k + 1, target => do
      let next ← F.decode P target
      let later ← F.taken k next
      pure (target :: later.1, later.2)

theorem taken_succ_ok (F : Format) (k : Nat) (target final : F.Value) (input rest : List Byte)
    (values : List F.Value) :
    (F.taken P (k + 1) target).run input = .ok ((values, final), rest) ↔
      ∃ next middle later, (F.decode P target).run input = .ok (next, middle) ∧
        (F.taken P k next).run middle = .ok ((later, final), rest) ∧
          target :: later = values := by
  rw [taken, run_bind_ok]
  constructor
  · rintro ⟨next, middle, step, parsed⟩
    obtain ⟨⟨later, last⟩, left, more, done⟩ := (run_bind_ok _ _ _ _ _).mp parsed
    cases done
    exact ⟨next, middle, later, step, more, rfl⟩
  · rintro ⟨next, middle, later, step, more, rfl⟩
    exact ⟨next, middle, step, by rw [run_bind_of_ok _ _ _ _ _ more]; rfl⟩

theorem taken_head (F : Format) (k : Nat) (target final : F.Value) (input rest : List Byte)
    (values : List F.Value)
    (parsed : (F.taken P (k + 1) target).run input = .ok ((values, final), rest)) :
    values.head? = some target := by
  obtain ⟨next, middle, later, -, -, rfl⟩ := (F.taken_succ_ok P k _ _ _ _ _).mp parsed
  rfl

section Encodings

variable (F : Format) (encode : F.Value → List Byte)

theorem taken_overreads (loud : ¬ F.Silent) (value final : F.Value) (others : List F.Value)
    (fits : F.Fits P value) (each : ∀ other ∈ others, (F.trace P other).Emits (encode other))
    (suffix rest : List Byte)
    (parsed : (F.taken P (others.length + 1) value).run (others.flatMap encode ++ suffix) =
      .ok ((value :: others, final), rest)) : rest.length < suffix.length := by
  induction others generalizing value with
  | nil =>
      obtain ⟨next, middle, later, step, done, -⟩ := (F.taken_succ_ok P 0 _ _ _ _ _).mp parsed
      cases done
      obtain ⟨-, other, took⟩ := F.decode_accords P value (Or.inr fits) _ _ _ step
      exact F.parse_takes P loud _ _ _ took
  | cons other more ih =>
      obtain ⟨next, middle, later, step, ends, same⟩ := (F.taken_succ_ok P _ _ _ _ _ _).mp parsed
      cases same
      obtain rfl : other = next := by
        have shown := F.taken_head P _ _ _ _ _ _ ends
        simpa using shown
      obtain ⟨fitsOther, again, took⟩ := F.decode_accords P value (Or.inr fits) _ _ _ step
      have read := F.encoded_reads P other fitsOther (encode other) (each other List.mem_cons_self)
      rw [List.flatMap_cons, List.append_assoc, read] at took
      cases took
      exact ih other fitsOther (fun part member => each part (List.mem_cons_of_mem _ member)) ends

theorem taken_silent (silent : F.Silent) (value : F.Value) (k : Nat) (input : List Byte)
    (reads : Reads (F.parse P) [] value) :
    (F.taken P k value).run input = .ok ((List.replicate k value, value), input) := by
  induction k with
  | zero => rfl
  | succ k ih =>
      have step : (F.decode P value).run input = .ok (value, input) := by
        rw [F.decode_blank P value (F.silent_blank silent value)]
        exact reads input
      exact (F.taken_succ_ok P k _ _ _ _ _).mpr ⟨value, input, _, step, ih, rfl⟩

-- The constructor decodes the first value.
theorem traversed_iff (values : List F.Value) (nonempty : values ≠ [])
    (each : ∀ value ∈ values, (F.trace P value).Emits (encode value)) (suffix : List Byte)
    (target : F.Value) (blank : F.Blank target) :
    (∃ final, (do
        let current ← F.decode P target
        F.taken P values.length current).run (values.flatMap encode ++ suffix) =
      .ok ((values, final), suffix)) ↔ F.Silent := by
  obtain ⟨first, others, rfl⟩ := List.exists_cons_of_ne_nil nonempty
  rw [F.decode_blank P target blank]
  constructor
  · rintro ⟨final, parsed⟩
    by_contra loud
    obtain ⟨current, middle, begins, ends⟩ := (run_bind_ok _ _ _ _ _).mp parsed
    obtain rfl : first = current := by
      have shown := F.taken_head P _ _ _ _ _ _ ends
      simpa using shown
    have fits := (F.decode_accords P F.fresh (Or.inl F.fresh_blank) _ _ _ begins).1
    have read := F.encoded_reads P first fits (encode first) (each first List.mem_cons_self)
    rw [List.flatMap_cons, List.append_assoc, read] at begins
    cases begins
    exact lt_irrefl _ (F.taken_overreads P encode loud first final others fits
      (fun other member => each other (List.mem_cons_of_mem _ member)) suffix suffix ends)
  · intro silent
    have read (value : F.Value) (member : value ∈ first :: others) :=
      F.silent_reads P silent value (encode value) (each value member)
    have alike : first :: others = List.replicate (others.length + 1) first := by
      rw [List.eq_replicate_iff]
      refine ⟨rfl, fun value member => ?_⟩
      exact (read value member).unique (read first List.mem_cons_self)
    have nothing : (first :: others).flatMap encode = [] := by
      rw [List.flatMap_eq_nil_iff]
      intro value member
      exact (F.written_nil_iff P value _ (each value member)).mpr silent
    have begins : (F.parse P).run suffix = .ok (first, suffix) :=
      read first List.mem_cons_self suffix
    refine ⟨first, ?_⟩
    rw [nothing, List.nil_append, run_bind_of_ok _ _ _ _ _ begins, alike,
      List.length_replicate]
    exact F.taken_silent P silent first _ suffix (read first List.mem_cons_self)

end Encodings

end Format

namespace DeserializingIterator

variable {σ : Type} (P : Platform) {source : Source σ} {D : Delivery σ Byte}

theorem takeEach_implements (delivers : source.Delivers D) (F : Format) (k : Nat) :
    Implements D (takeEach P source F k) (F.taken P k) := by
  induction k with
  | zero => exact Implements.pure []
  | succ k ih =>
      refine (Implements.bind Implements.readTarget fun current =>
        Implements.bind (F.deserialize_implements P delivers) fun _ =>
          Implements.bind ih fun later => Implements.pure (current :: later)).congr ?_
      intro target
      simp [Format.taken]

theorem traverse_implements (delivers : source.Delivers D) (F : Format) (k : Nat) :
    Implements D (traverse P source F k) (fun target => do
      let current ← F.decode P target
      F.taken P k current) := by
  refine (Implements.bind (F.deserialize_implements P delivers) fun _ =>
    takeEach_implements P delivers F k).congr ?_
  intro target
  simp

end DeserializingIterator

-- One element more was read than was taken, which only shows if an element has bytes.
theorem reads_no_further_iff (P : Platform) {σ : Type} (source : Source σ)
    (D : Delivery σ Byte) (delivers : source.Delivers D) (F : Format) (values : List F.Value)
    (nonempty : values ≠ []) (encode : F.Value → List Byte)
    (written : ∀ value ∈ values, F.serialize P insertionSink value [] = .ok () (encode value))
    (state : σ) (ready : D.ready state) (suffix : List Byte)
    (unread : D.unread state = values.flatMap encode ++ suffix) (target : F.Value)
    (fresh : F.Blank target) :
    (∃ after final, DeserializingIterator.traverse P source F values.length (state, target) =
        .ok values (after, final) ∧ D.unread after = suffix) ↔ F.Silent := by
  have implements := DeserializingIterator.traverse_implements P delivers F values.length
  rw [← F.traversed_iff P encode values nonempty
    (fun value member => (F.serialize_ok_iff P value _).mp (written value member)) suffix target
    fresh, ← unread]
  constructor
  · rintro ⟨after, final, done, rfl⟩
    exact ⟨final, (implements.parsed ready done).1⟩
  · rintro ⟨final, parsed⟩
    obtain ⟨after, done, -, left⟩ := implements.ok ready parsed
    exact ⟨after, final, done, left⟩

theorem reads_no_further_substitute :
    let format := Format.substitute (.unsigned 8) 7
    ∃ after final, DeserializingIterator.traverse amd64 (rangeSource amd64) format 2
        (makeRangeSource [1, 2], (0 : BitVec 8)) = .ok [(7 : BitVec 8), 7] (after, final) ∧
      rangeDelivery.unread after = [1, 2] := by
  intro format
  exact (reads_no_further_iff amd64 (rangeSource amd64) rangeDelivery (range_delivers amd64) format
    [(7 : BitVec 8), (7 : BitVec 8)] (by decide) (fun _ => []) (by decide)
    (makeRangeSource [1, 2]) (Nat.zero_le _) [1, 2] rfl (0 : BitVec 8) trivial).mpr trivial

-- The test's input, without and with the extra element at the end.
theorem last_increment_throws :
    let format := Format.integer ⟨be8, by decide⟩ (.unsigned 8)
    DeserializingIterator.traverse amd64 (rangeSource amd64) format 4
        (makeRangeSource [65, 66, 67, 68], format.fresh) =
      .error insufficientInput (⟨[65, 66, 67, 68], 4⟩, 68) ∧
    DeserializingIterator.traverse amd64 (rangeSource amd64) format 4
        (makeRangeSource [65, 66, 67, 68, 69], format.fresh) =
      .ok [65, 66, 67, 68] (⟨[65, 66, 67, 68, 69], 5⟩, 69) := by
  refine ⟨by decide +kernel, by decide +kernel⟩

end Szn
