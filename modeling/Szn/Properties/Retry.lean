import Szn.Properties.Iterator
import Szn.Properties.Truncated

set_option autoImplicit false

namespace Szn

open Stateful Parsing

section Parts

variable {α : Type} {settled : α → α → Prop}

theorem forall₂_of_left {n : Nat} (lefts values : List.Vector α n)
    (each : ∀ left ∈ lefts.toList, ∀ value, settled left value) :
    List.Forall₂ settled lefts.toList values.toList := by
  rw [List.forall₂_iff_get]
  refine ⟨by simp, ?_⟩
  intro index inside inside'
  exact each _ (List.get_mem _ _) _

theorem allInTurn_forall₂ (size : α → Nat) (part : Nat → α → α → α) (blank : α → Prop)
    (same : ∀ value, settled value value) (clean : ∀ held value, blank held → settled held value)
    (partly : ∀ available held value, blank held → settled (part available held value) value)
    (available : Nat) {n : Nat} (old new : List.Vector α n)
    (blankAll : ∀ held ∈ old.toList, blank held) :
    List.Forall₂ settled (allInTurn size part available old new).toList new.toList := by
  induction n generalizing available with
  | zero =>
      rw [new.eq_nil]
      exact List.Forall₂.nil
  | succ n ih =>
      obtain ⟨held, others, rfl⟩ := old.exists_eq_cons
      obtain ⟨value, rest, rfl⟩ := new.exists_eq_cons
      rw [List.Vector.toList_cons, List.forall_mem_cons] at blankAll
      simp only [allInTurn, List.Vector.head_cons, List.Vector.tail_cons]
      by_cases enough : size value ≤ available
      · rw [if_pos enough]
        exact List.Forall₂.cons (same value) (ih _ others rest blankAll.2)
      · rw [if_neg enough]
        apply List.Forall₂.cons (partly available held value blankAll.1)
        exact forall₂_of_left others rest fun left inside value =>
          clean left value (blankAll.2 left inside)

end Parts

namespace Format

/-- A target that may be filled with `value` once more: no optional in it holds anything else. -/
def Settled : (F : Format) → (left value : F.Value) → Prop
  | pair _ first second, left, value => first.Settled left.1 value.1 ∧ second.Settled left.2 value.2
  | array _ element, left, value => List.Forall₂ element.Settled left.toList value.toList
  | optional _ _, left, value => left = none ∨ left = value
  | uniquePtr pointee, left, value => ∀ part ∈ left, ∀ whole ∈ value, pointee.Settled part whole
  | field format rest, left, value => format.Settled left.1 value.1 ∧ rest.Settled left.2 value.2
  | integer _ _, _, _ | boolean _, _, _ | vector _ _ _, _, _ | substitute _ _, _, _ | done, _, _ =>
      True

theorem settled_same (F : Format) (value : F.Value) : F.Settled value value := by
  induction F with
  | pair order first second ihFirst ihSecond => exact ⟨ihFirst _, ihSecond _⟩
  | array length element ih => exact List.forall₂_same.mpr fun part _ => ih part
  | optional condition format ih => exact Or.inr rfl
  | uniquePtr pointee ih =>
      rintro part inside whole ⟨⟩
      cases inside
      exact ih part
  | field format rest ihFormat ihRest => exact ⟨ihFormat _, ihRest _⟩
  | integer format type => trivial
  | boolean format => trivial
  | vector target length element ih => trivial
  | substitute type constant => trivial
  | done => trivial

theorem settled_blank (F : Format) (held value : F.Value) (blank : F.Blank held) :
    F.Settled held value := by
  induction F with
  | pair order first second ihFirst ihSecond =>
      exact ⟨ihFirst _ _ blank.1, ihSecond _ _ blank.2⟩
  | array length element ih =>
      exact forall₂_of_left held value fun part inside other => ih part other (blank part inside)
  | optional condition format ih => exact Or.inl blank
  | uniquePtr pointee ih => exact fun part inside whole _ => ih part whole (blank part inside)
  | field format rest ihFormat ihRest => exact ⟨ihFormat _ _ blank.1, ihRest _ _ blank.2⟩
  | integer format type => trivial
  | boolean format => trivial
  | vector target length element ih => trivial
  | substitute type constant => trivial
  | done => trivial

theorem settled_inTurn {β : Type} (F : Format) {settledNext : β → β → Prop}
    {partwayNext : Nat → β → β → β} {blankNext : β → Prop}
    (stops : ∀ available held value, F.Blank held →
      F.Settled (F.partway available held value) value)
    (clean : ∀ held value, blankNext held → settledNext held value)
    (follows : ∀ available held value, blankNext held →
      settledNext (partwayNext available held value) value)
    (available : Nat) (old new : F.Value × β) (blank : F.Blank old.1)
    (blankOther : blankNext old.2) :
    F.Settled (inTurn F.size F.partway partwayNext available old new).1 new.1 ∧
      settledNext (inTurn F.size F.partway partwayNext available old new).2 new.2 := by
  unfold inTurn
  split
  · exact ⟨F.settled_same new.1, follows _ _ _ blankOther⟩
  · exact ⟨stops _ _ _ blank, clean _ _ blankOther⟩

theorem partway_settled (F : Format) (available : Nat) (held value : F.Value)
    (blank : F.Blank held) : F.Settled (F.partway available held value) value := by
  induction F generalizing available with
  | pair order first second ihFirst ihSecond =>
      cases order with
      | firstSecond =>
          exact first.settled_inTurn ihFirst second.settled_blank ihSecond available held value
            blank.1 blank.2
      | secondFirst =>
          rw [partway]
          split
          · exact ⟨ihFirst _ _ _ blank.1, second.settled_same value.2⟩
          · exact ⟨first.settled_blank _ _ blank.1, ihSecond _ _ _ blank.2⟩
  | array length element ih =>
      exact allInTurn_forall₂ element.size element.partway element.Blank element.settled_same
        element.settled_blank ih available held value blank
  | optional condition format ih =>
      rw [partway]
      split
      · exact Or.inr rfl
      · exact Or.inl blank
  | uniquePtr pointee ih =>
      rintro part inside whole ⟨⟩
      obtain rfl : pointee.partway available (held.getD pointee.fresh) whole = part :=
        Option.some.inj inside
      apply ih
      cases held with
      | none => exact pointee.fresh_blank
      | some part => exact blank part rfl
  | field format rest ihFormat ihRest =>
      exact format.settled_inTurn ihFormat rest.settled_blank ihRest available held value
        blank.1 blank.2
  | integer format type => trivial
  | boolean format => trivial
  | vector target length element ih => trivial
  | substitute type constant => trivial
  | done => trivial

variable (P : Platform)

theorem decode_settled (asserts : P.asserts = false) (F : Format) (left value : F.Value)
    (settled : F.Settled left value) (input rest : List Byte)
    (parsed : (F.parse P).run input = .ok (value, rest)) :
    (F.decode P left).run input = .ok (value, rest) := by
  induction F generalizing input rest with
  | pair order first second ihFirst ihSecond =>
      cases order with
      | firstSecond =>
          obtain ⟨here, middle, begins, parsed⟩ := (run_bind_ok _ _ _ _ _).mp parsed
          obtain ⟨there, final, ends, made⟩ := (run_bind_ok _ _ _ _ _).mp parsed
          cases made
          rw [decode, run_bind_of_ok _ _ _ _ _ (ihFirst _ _ settled.1 _ _ begins),
            run_bind_of_ok _ _ _ _ _ (ihSecond _ _ settled.2 _ _ ends)]
          rfl
      | secondFirst =>
          obtain ⟨there, middle, begins, parsed⟩ := (run_bind_ok _ _ _ _ _).mp parsed
          obtain ⟨here, final, ends, made⟩ := (run_bind_ok _ _ _ _ _).mp parsed
          cases made
          rw [decode, run_bind_of_ok _ _ _ _ _ (ihSecond _ _ settled.2 _ _ begins),
            run_bind_of_ok _ _ _ _ _ (ihFirst _ _ settled.1 _ _ ends)]
          rfl
  | array length element ih =>
      rw [parse_array] at parsed
      exact visit_forall₂ ih left value settled input rest parsed
  | optional condition format ih =>
      rw [parse_optional] at parsed
      obtain ⟨isSet, middle, flagged, parsed⟩ := (run_bind_ok _ _ _ _ _).mp parsed
      simp only [decode, asserts, Bool.false_and, Bool.false_eq_true, if_false]
      rw [run_bind_of_ok _ _ _ _ _ flagged]
      cases isSet with
      | true => exact parsed
      | false =>
          cases parsed
          rw [show left = none from settled.elim id id]
          rfl
  | uniquePtr pointee ih =>
      obtain ⟨pointed, read, rfl⟩ := (run_map_ok _ _ _ _ _).mp parsed
      rw [decode, run_map_ok]
      refine ⟨pointed, ?_, rfl⟩
      cases left with
      | none => exact read
      | some held => exact ih held pointed (settled held rfl pointed rfl) _ _ read
  | field format others ihFormat ihOthers =>
      obtain ⟨here, middle, begins, parsed⟩ := (run_bind_ok _ _ _ _ _).mp parsed
      obtain ⟨there, final, ends, made⟩ := (run_bind_ok _ _ _ _ _).mp parsed
      cases made
      rw [decode, run_bind_of_ok _ _ _ _ _ (ihFormat _ _ settled.1 _ _ begins),
        run_bind_of_ok _ _ _ _ _ (ihOthers _ _ settled.2 _ _ ends)]
      rfl
  | integer format type => exact parsed
  | boolean format => exact parsed
  | vector target length element ih => exact parsed
  | substitute type constant => exact parsed
  | done => exact parsed

end Format

variable (P : Platform) {σ τ : Type} {source : Source σ} {whole : Source τ} {D : Delivery σ Byte}
  {E : Delivery τ Byte}

theorem retry_truncated (F : Format) (delivers : source.Delivers D)
    (deliversWhole : whole.Delivers E) (state : σ) (ready : D.ready state) (before after : τ)
    (readyWhole : E.ready before) (missing : List Byte)
    (longer : E.unread before = D.unread state ++ missing) (target value : F.Value)
    (blank : F.Blank target)
    (complete : F.deserialize P whole (before, target) = .ok () (after, value)) :
    let left := (finalState (F.deserialize P source (state, target))).2
    let retry := F.deserialize P whole (before, left)
    (P.asserts = true ∧ ¬ F.Blank left → outcome retry = .error .assertion) ∧
      (P.asserts = false ∨ F.Blank left → ∃ final, retry = .ok () (final, value)) := by
  intro left retry
  have parsed := (F.deserialize_implements P deliversWhole).parsed readyWhole complete
  rw [F.decode_blank P target blank] at parsed
  have settled : F.Settled left value := by
    rw [longer] at parsed
    have stopped := F.deserialize_stops P delivers state target missing value _ ready blank parsed
    rw [show left = _ from stopped]
    exact F.partway_settled _ target value blank
  constructor
  · rintro ⟨asserts, stale⟩
    have failed := F.decode_stale P asserts left stale _ _ _ parsed
    obtain ⟨_, _, ended, -⟩ := (F.deserialize_implements P deliversWhole).error readyWhole failed
    rw [show retry = _ from ended, outcome]
  · intro clean
    have again : (F.decode P left).run (E.unread before) = .ok (value, E.unread after) := by
      rcases clean with released | blankLeft
      · exact F.decode_settled P released left value settled _ _ parsed
      · rw [F.decode_blank P left blankLeft]
        exact parsed
    obtain ⟨final, done, -⟩ := (F.deserialize_implements P deliversWhole).ok readyWhole again
    exact ⟨final, done⟩

-- The optional was complete already when the source ended, and is assigned again.
theorem retry_truncated_record :
    let P := amd64.withAsserts false
    let target : record.Value := ((9 : BitVec 16), none, [(7 : BitVec 16)], ())
    let left := (finalState (record.deserialize P (rangeSource P)
      (makeRangeSource [0, 1, 1, 0, 2, 2, 0, 3, 0], target))).2
    ∃ final, record.deserialize P (rangeSource P)
      (makeRangeSource [0, 1, 1, 0, 2, 2, 0, 3, 0, 4], left) =
        .ok () (final, (1 : BitVec 16), some (2 : BitVec 16), [(3 : BitVec 16), (4 : BitVec 16)],
          ()) :=
  (retry_truncated (amd64.withAsserts false) record (range_delivers _) (range_delivers _)
    (makeRangeSource [0, 1, 1, 0, 2, 2, 0, 3, 0]) (Nat.zero_le _)
    (makeRangeSource [0, 1, 1, 0, 2, 2, 0, 3, 0, 4]) ⟨[0, 1, 1, 0, 2, 2, 0, 3, 0, 4], 10⟩
    (Nat.zero_le _) [4] rfl ((9 : BitVec 16), none, [(7 : BitVec 16)], ())
    ((1 : BitVec 16), some (2 : BitVec 16), [(3 : BitVec 16), (4 : BitVec 16)], ())
    ⟨trivial, rfl, trivial, trivial⟩ (by decide +kernel)).2 (Or.inl rfl)

end Szn
