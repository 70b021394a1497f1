import Szn.Model.Iterator
import Szn.Spec.Parse

set_option autoImplicit false

namespace Szn

open Stateful Parsing

namespace DeserializingIterator

variable {σ : Type} (P : Platform) (source : Source σ) (F : Format)

def SeesTheSame (state : σ) (a : F.Value) : Prop :=
  ∀ k seen middle current, advance P source F k (state, a) = .ok seen (middle, current) →
    ∃ after final, advance P source F k (middle, a) = .ok seen (after, final)

/-- What an iterator and its copy `a` owe to each other, where the source is in `state`. -/
def ForwardTraversal (state : σ) (a : F.Value) : Prop :=
  equal F a a = true ∧ SeesTheSame P source F state a

theorem advance_succ_ok (k : Nat) (state after : σ) (a final : F.Value) (seen : List F.Value) :
    advance P source F (k + 1) (state, a) = .ok seen (after, final) ↔
      ∃ middle current later, F.deserialize P source (state, a) = .ok () (middle, current) ∧
        advance P source F k (middle, current) = .ok later (after, final) ∧
          current :: later = seen := by
  have rest (middle : σ) (current : F.Value) :
      (do
        let shown ← dereference F
        let later ← advance P source F k
        pure (shown :: later)) (middle, current) = .ok seen (after, final) ↔
      ∃ later, advance P source F k (middle, current) = .ok later (after, final) ∧
        current :: later = seen := by
    refine
      (bind_ok_iff (advance P source F k) (fun later => pure (current :: later)) _ _ _).trans ?_
    simp only [pure_run, EStateM.Result.ok.injEq]
    constructor
    · rintro ⟨later, _, more, same, rfl⟩
      exact ⟨later, more, same⟩
    · rintro ⟨later, more, same⟩
      exact ⟨later, _, more, same, rfl⟩
  rw [advance, bind_ok_iff]
  constructor
  · rintro ⟨⟨⟩, ⟨middle, current⟩, step, others⟩
    obtain ⟨later, more, same⟩ := (rest middle current).mp others
    exact ⟨middle, current, later, step, more, same⟩
  · rintro ⟨middle, current, later, step, more, same⟩
    exact ⟨(), (middle, current), step, (rest middle current).mpr ⟨later, more, same⟩⟩

section Blank

variable {P source F} {D : Delivery σ Byte} (delivers : source.Delivers D)
  (blank : ∀ value, F.Blank value)

include delivers blank in
theorem step_parsed (state : σ) (a : F.Value) (ready : D.ready state) {value : F.Value}
    {rest : List Byte} (parsed : (F.parse P).run (D.unread state) = .ok (value, rest)) :
    ∃ middle, F.deserialize P source (state, a) = .ok () (middle, value) ∧
      D.ready middle ∧ D.unread middle = rest := by
  apply Deserializes.ok (F.deserialize_implements P delivers) ready
  rwa [F.decode_blank P a (blank a)]

include delivers blank in
theorem parsed_of_step (state middle : σ) (a value : F.Value) (ready : D.ready state)
    (step : F.deserialize P source (state, a) = .ok () (middle, value)) :
    (F.parse P).run (D.unread state) = .ok (value, D.unread middle) := by
  have parsed := Deserializes.parsed (F.deserialize_implements P delivers) ready step
  rwa [F.decode_blank P a (blank a)] at parsed

include delivers blank in
-- The induction is on a bound for the unread bytes, of which every step takes some.
theorem exhausts (takes : ∀ input value rest, (F.parse P).run input = .ok (value, rest) →
      rest.length < input.length) (bound : Nat) (state : σ) (a value : F.Value)
    (rest : List Byte) (ready : D.ready state) (inside : (D.unread state).length ≤ bound)
    (parsed : (F.parse P).run (D.unread state) = .ok (value, rest)) :
    ∃ k seen middle current, advance P source F (k + 1) (state, a) =
        .ok seen (middle, current) ∧ D.ready middle ∧
      ∀ other left, (F.parse P).run (D.unread middle) ≠ .ok (other, left) := by
  induction bound generalizing state a value rest with
  | zero =>
      have shorter := takes _ _ _ parsed
      omega
  | succ bound ih =>
      obtain ⟨middle, step, ready', rfl⟩ := step_parsed delivers blank state a ready parsed
      by_cases more : ∃ other left, (F.parse P).run (D.unread middle) = .ok (other, left)
      · obtain ⟨other, left, again⟩ := more
        have shorter := takes _ _ _ parsed
        obtain ⟨k, later, final, current, steps, ready'', ends⟩ :=
          ih middle value other left ready' (by omega) again
        refine ⟨k + 1, value :: later, final, current, ?_, ready'', ends⟩
        exact (advance_succ_ok P source F _ _ _ _ _ _).mpr
          ⟨middle, value, later, step, steps, rfl⟩
      · refine ⟨0, [value], middle, value, ?_, ready', ?_⟩
        · exact (advance_succ_ok P source F _ _ _ _ _ _).mpr
            ⟨middle, value, [], step, rfl, rfl⟩
        · intro other left again
          exact more ⟨other, left, again⟩

include delivers blank in
theorem seesTheSame_iff (takes : ∀ input value rest, (F.parse P).run input = .ok (value, rest) →
      rest.length < input.length) (state : σ) (a : F.Value) (ready : D.ready state) :
    SeesTheSame P source F state a ↔
      ∀ value rest, (F.parse P).run (D.unread state) ≠ .ok (value, rest) := by
  constructor
  · intro same value rest parsed
    obtain ⟨k, seen, middle, current, steps, ready', ends⟩ :=
      exhausts delivers blank takes _ state a value rest ready (Nat.le_refl _) parsed
    obtain ⟨after, final, again⟩ := same (k + 1) seen middle current steps
    obtain ⟨next, first, later, step, -, -⟩ := (advance_succ_ok P source F _ _ _ _ _ _).mp again
    exact ends _ _ (parsed_of_step delivers blank middle next a first ready' step)
  · intro ends k seen middle current steps
    cases k with
    | zero =>
        cases steps
        exact ⟨state, a, rfl⟩
    | succ k =>
        obtain ⟨next, first, later, step, -, -⟩ :=
          (advance_succ_ok P source F _ _ _ _ _ _).mp steps
        exact absurd (parsed_of_step delivers blank state next a first ready step) (ends _ _)

end Blank

end DeserializingIterator

open DeserializingIterator in
theorem never_forward_traversal {σ : Type} (P : Platform) (source : Source σ) (F : Format) :
    (∀ state a, ¬ ForwardTraversal P source F state a) ∧
    ∀ D : Delivery σ Byte, source.Delivers D → (∀ value, F.Blank value) →
      (∀ input value rest, (F.parse P).run input = .ok (value, rest) →
        rest.length < input.length) →
      ∀ state a, D.ready state → (SeesTheSame P source F state a ↔
        ∀ value rest, (F.parse P).run (D.unread state) ≠ .ok (value, rest)) := by
  constructor
  · rintro state a ⟨equal, -⟩
    cases equal
  · intro D delivers blank takes state a ready
    exact seesTheSame_iff delivers blank takes state a ready

open DeserializingIterator in
theorem never_forward_traversal_octets :
    let format := Format.integer ⟨be8, by decide⟩ (.unsigned 8)
    ¬ SeesTheSame amd64 (rangeSource amd64) format (makeRangeSource [65, 66]) (0 : BitVec 8) := by
  intro format same
  have shorter (input : List Byte) (value : BitVec 8) (rest : List Byte)
      (parsed : (format.parse amd64).run input = .ok (value, rest)) :
      rest.length < input.length := by
    obtain ⟨bytes, size, rfl, -⟩ := be8.parse_ok _ _ _ _ parsed
    rw [List.length_append, size]
    exact Nat.lt_add_of_pos_left (by decide)
  have ends := ((never_forward_traversal amd64 (rangeSource amd64) format).2 rangeDelivery
    (range_delivers amd64) (fun _ => trivial) shorter (makeRangeSource [65, 66]) 0
    (Nat.zero_le _)).mp same
  exact ends 65 [66] (by decide)

open DeserializingIterator in
theorem copies_share_one_source :
    let format := Format.integer ⟨be8, by decide⟩ (.unsigned 8)
    let source := rangeSource amd64
    let at_ (position : Nat) : RangeSource := ⟨[65, 66, 67], position⟩
    values amd64 source format 0 (at_ 0, format.fresh) = .ok [65] (at_ 1, (65 : BitVec 8)) ∧
      equal format (65 : BitVec 8) (65 : BitVec 8) = false ∧
      advance amd64 source format 1 (at_ 1, (65 : BitVec 8)) =
        .ok [66] (at_ 2, (66 : BitVec 8)) ∧
      advance amd64 source format 1 (at_ 2, (65 : BitVec 8)) =
        .ok [67] (at_ 3, (67 : BitVec 8)) := by
  refine ⟨by decide, rfl, by decide, by decide⟩

end Szn
