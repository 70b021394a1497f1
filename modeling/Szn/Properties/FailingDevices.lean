import Szn.Properties.Overread
import Szn.Properties.ZeroSource

set_option autoImplicit false

namespace Szn

open Stateful Parsing Tracing

variable (P : Platform)

def cannotLoad : Failure := .logicError "You cannot load from an szn::failing_source"

def exhausted (range : RangeSource) : Prop :=
  range.position ≤ range.range.length ∧ range.range.drop range.position = []

def failingFirst : Coupling Failure Unit RangeSource where
  related _ range := exhausted range
  excused failure := failure = cannotLoad
  failed failure _ _ := failure ≠ insufficientInput

def failingSecond : Coupling Failure RangeSource Unit where
  related range _ := exhausted range
  excused failure := failure = insufficientInput
  failed _ _ _ := True

theorem failing_first_reading : Reading failingFirst (failingSource P) (rangeSource P) where
  coupled _ _ _ := ⟨by simp [failingFirst, insufficientInput],
    by simp [failingFirst, insufficientInput]⟩
  byte _ _ _ := .excused cannotLoad _ _ rfl

theorem failing_second_reading : Reading failingSecond (rangeSource P) (failingSource P) where
  coupled _ _ _ := ⟨trivial, trivial⟩
  byte range _ related := by
    obtain ⟨after, failed, -⟩ := (range_delivers P).short range [0] 1 related.1
      (by simp [rangeDelivery, related.2])
    rw [failed]
    exact .excused _ _ _ rfl

namespace Format

variable (F : Format)

theorem silent_parse (silent : F.Silent) : F.parse P = pure F.zero := by
  induction F with
  | pair order first second ihFirst ihSecond =>
      have begins : first.decode P first.fresh = _ := ihFirst silent.1
      have ends : second.decode P second.fresh = _ := ihSecond silent.2
      cases order <;> simp [parse, decode, fresh, begins, ends, zero]
  | array length element ih =>
      rw [parse_array, zero]
      rcases silent with rfl | silent
      · rfl
      · rw [ih silent]
        induction length with
        | zero => rfl
        | succ length ihLength =>
            rw [repeatN, ihLength, pure_bind, pure_bind]
            rfl
  | uniquePtr pointee ih =>
      have inner : pointee.decode P pointee.fresh = _ := ih silent
      simp [parse, decode, fresh, inner, zero]
  | substitute type constant => rfl
  | done => rfl
  | field format rest ihFormat ihRest =>
      have begins : format.decode P format.fresh = _ := ihFormat silent.1
      have ends : rest.decode P rest.fresh = _ := ihRest silent.2
      simp [parse, decode, fresh, begins, ends, zero]
  | integer format type => exact absurd silent id
  | boolean format => exact absurd silent id
  | vector target length element ih => exact absurd silent id
  | optional condition format ih => exact absurd silent id

-- The empty text is a strict prefix of the zeros that are accepted.
theorem parse_nil (loud : ¬ F.Silent) : (F.parse P).run [] = .error insufficientInput := by
  obtain ⟨count, reads⟩ := F.reads_zeros P
  have whole := reads []
  rw [List.append_nil] at whole
  obtain ⟨taken, same, -, short⟩ := F.parse_delimited P _ _ _ whole
  apply short [] List.nil_prefix
  rintro rfl
  rw [List.append_nil] at same
  rw [same] at whole
  exact absurd (F.parse_takes P loud _ _ _ whole) (Nat.lt_irrefl _)

theorem silent_chunks (silent : F.Silent) (value : F.Value) : (F.trace P value).chunks = [] := by
  have both {first second : Trace Byte Failure} (begins : first.chunks = [])
      (ends : second.chunks = []) : (first.andThen second).chunks = [] := by
    cases ended : first.ending <;> simp [Trace.andThen, ended, begins, ends]
  induction F with
  | pair order first second ihFirst ihSecond =>
      cases order with
      | firstSecond => exact both (ihFirst silent.1 _) (ihSecond silent.2 _)
      | secondFirst => exact both (ihSecond silent.2 _) (ihFirst silent.1 _)
  | array length element ih =>
      rcases silent with rfl | silent
      · rw [List.Vector.eq_nil value]
        rfl
      · change (Trace.all (element.trace P) value.toList).chunks = []
        induction value.toList with
        | nil => rfl
        | cons part rest ihRest => exact both (ih silent part) ihRest
  | uniquePtr pointee ih =>
      cases value with
      | none => rfl
      | some held => exact ih silent held
  | substitute type constant =>
      rw [trace]
      split <;> rfl
  | done => rfl
  | field format rest ihFormat ihRest =>
      exact both (ihFormat silent.1 _) (ihRest silent.2 _)
  | integer format type => exact absurd silent id
  | boolean format => exact absurd silent id
  | vector target length element ih => exact absurd silent id
  | optional condition format ih => exact absurd silent id

theorem failing_source_silent (silent : F.Silent) (target : F.Value) :
    F.deserialize P (failingSource P) ((), target) = .ok () ((), F.zero) := by
  obtain ⟨after, done, -⟩ := F.deserialize_reads P (range_delivers P) target F.zero
    (makeRangeSource []) [] [] (Nat.le_refl _) rfl (F.silent_blank silent target)
    (F.silent_parse P silent ▸ Reads.pure _)
  have ends := F.deserialize_couples (failing_second_reading P) P target (makeRangeSource []) ()
    ⟨Nat.le_refl _, rfl⟩
  rw [done] at ends
  generalize F.deserialize P (failingSource P) ((), target) = run at ends ⊢
  cases ends with
  | ok value final state other related => rfl

theorem failing_source_loud (loud : ¬ F.Silent) (target : F.Value) (blank : F.Blank target) :
    ∃ left, F.deserialize P (failingSource P) ((), target) = .error cannotLoad ((), left) := by
  have ready : rangeDelivery.ready (makeRangeSource []) := Nat.le_refl _
  have parsed : (F.decode P target).run (rangeDelivery.unread (makeRangeSource [])) =
      .error insufficientInput := by
    rw [F.decode_blank P target blank]
    exact F.parse_nil P loud
  obtain ⟨after, final, failed, -⟩ :=
    (F.deserialize_implements P (range_delivers P)).error ready parsed
  have ends := F.deserialize_couples (failing_first_reading P) P target () (makeRangeSource [])
    ⟨Nat.le_refl _, rfl⟩
  rw [failed] at ends
  generalize F.deserialize P (failingSource P) ((), target) = run at ends ⊢
  cases ends with
  | error failure final state other enough => exact absurd rfl enough
  | excused failure left other excused =>
      obtain rfl : failure = cannotLoad := excused
      exact ⟨left.2, rfl⟩

theorem failing_sink_returns (value : F.Value)
    (done : F.serialize P failingSink value () = .ok () ()) : F.Silent := by
  rw [serialize_replay] at done
  cases chunks : (F.trace P value).chunks with
  | nil =>
      rw [Trace.replay, chunks] at done
      cases ended : (F.trace P value).ending with
      | none => exact (F.written_nil_iff P value [] ⟨ended, by rw [chunks]; rfl⟩).mp rfl
      | some failure =>
          rw [ended] at done
          cases done
  | cons chunk rest =>
      rw [Trace.replay, chunks] at done
      cases done

end Format

theorem failing_devices (F : Format) :
    (F.Silent → (∀ target, F.deserialize P (failingSource P) ((), target) =
        .ok () ((), F.zero)) ∧
      ∀ value, F.serialize P failingSink value = F.serialize P nullSink value) ∧
    (¬ F.Silent → (∀ target, F.Blank target → ∃ left,
        F.deserialize P (failingSource P) ((), target) = .error cannotLoad ((), left)) ∧
      ∀ value, ∃ failure, F.serialize P failingSink value () = .error failure ()) := by
  constructor
  · intro silent
    refine ⟨F.failing_source_silent P silent, fun value => ?_⟩
    rw [F.serialize_replay, F.serialize_replay, Trace.replay, Trace.replay,
      F.silent_chunks P silent value]
    rfl
  · intro loud
    refine ⟨F.failing_source_loud P loud, fun value => ?_⟩
    cases done : F.serialize P failingSink value () with
    | ok _ after => exact absurd (F.failing_sink_returns P value done) loud
    | error failure after => exact ⟨failure, rfl⟩

theorem failing_devices_substitute :
    let constant : Format := .substitute (.unsigned 32) (3 : BitVec 32)
    let wrapped : Format := .pair .firstSecond constant (.array 2 constant)
    (∀ target, wrapped.deserialize amd64 (failingSource amd64) ((), target) =
        .ok () ((), wrapped.zero)) ∧
      ∃ left, (Format.boolean .boolean).deserialize amd64 (failingSource amd64) ((), true) =
        .error cannotLoad ((), left) := by
  intro constant wrapped
  exact ⟨((failing_devices amd64 wrapped).1 ⟨trivial, Or.inr trivial⟩).1,
    ((failing_devices amd64 (.boolean .boolean)).2 id).1 true trivial⟩

end Szn
