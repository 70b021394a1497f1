import Szn.Model.Iterator
import Szn.Spec.Parse

set_option autoImplicit false

namespace Szn

open Stateful Parsing

def Platform.withAsserts (P : Platform) (asserts : Bool) : Platform :=
  { P with asserts := asserts }

namespace Format

variable (P : Platform)

theorem parse_withAsserts (asserts : Bool) (F : Format) :
    F.parse (P.withAsserts asserts) = F.parse P := by
  induction F with
  | pair order first second ihFirst ihSecond =>
      unfold parse at ihFirst ihSecond ⊢
      cases order <;> simp only [decode, fresh, ihFirst, ihSecond]
  | array length element ih => rw [parse_array, parse_array, ih]
  | vector target length element ih =>
      unfold parse at ih ⊢
      simp only [decode, ih]
      rfl
  | optional condition value ih => rw [parse_optional, parse_optional, ih]
  | uniquePtr pointee ih => exact congrArg (some <$> ·) ih
  | field format rest ihFormat ihRest =>
      unfold parse at ihFormat ihRest ⊢
      simp only [decode, fresh, ihFormat, ihRest]
  | integer format type => rfl
  | boolean format => rfl
  | substitute type constant => rfl
  | done => rfl

-- An optional that is set in place trips its assertion as soon as the step reaches it.
theorem decode_stale (asserts : P.asserts = true) (F : Format) (target : F.Value)
    (stale : ¬ F.Blank target) (input : List Byte) (value : F.Value) (rest : List Byte)
    (parsed : (F.parse P).run input = .ok (value, rest)) :
    (F.decode P target).run input = .error .assertion := by
  induction F generalizing input rest with
  | pair order first second ihFirst ihSecond =>
      have keptFirst := first.decode_blank P target.1
      have keptSecond := second.decode_blank P target.2
      cases order with
      | firstSecond =>
          exact sequence_fails keptFirst (ihFirst target.1) (ihSecond target.2) stale
            input rest value parsed
      | secondFirst =>
          rw [Blank, and_comm] at stale
          exact sequence_fails (f := fun second first => (first, second)) keptSecond
            (ihSecond target.2) (ihFirst target.1) stale input rest value parsed
  | array length element ih =>
      rw [parse_array] at parsed
      exact visit_fails (element.decode_blank P) ih target stale input rest value parsed
  | optional condition format ih =>
      have set : target.isNone = false := by
        rw [Option.isNone_eq_false_iff, ← Option.ne_none_iff_isSome]
        exact stale
      simp only [decode, asserts, set, Bool.not_false, Bool.and_self, if_true]
      rfl
  | uniquePtr pointee ih =>
      cases target with
      | none => exact absurd (fun part member => by cases member) stale
      | some held =>
          have staleHeld : ¬ pointee.Blank held := by
            intro blank
            apply stale
            rintro _ ⟨⟩
            exact blank
          obtain ⟨pointed, parsed, -⟩ := (run_map_ok _ _ _ _ _).mp parsed
          apply run_map_error
          exact ih held staleHeld input pointed rest parsed
  | field format others ihFormat ihRest =>
      exact sequence_fails (format.decode_blank P target.1) (ihFormat target.1)
        (ihRest target.2) stale input rest value parsed
  | integer format type => exact absurd trivial stale
  | boolean format => exact absurd trivial stale
  | vector target length element ih => exact absurd trivial stale
  | substitute type constant => exact absurd trivial stale
  | done => exact absurd trivial stale

def seen (F : Format) : (k : Nat) → (target : F.Value) →
    Parser Byte Failure (List F.Value × F.Value)
  | 0, target => do
      let current ← F.decode P target
      pure ([current], current)
  | k + 1, target => do
      let current ← F.decode P target
      let later ← F.seen k current
      pure (current :: later.1, later.2)

theorem seen_blank (F : Format) (n k : Nat) (target : F.Value) (input rest : List Byte)
    (values : List.Vector F.Value n) (inside : k < n)
    (parsed : (repeatN (F.parse P) n).run input = .ok (values, rest))
    (blank : ∀ held ∈ target :: values.toList.take k, F.Blank held) :
    ∃ current final, (F.seen P k target).run input =
      .ok ((values.toList.take (k + 1), current), final) := by
  induction n generalizing k target input with
  | zero => exact absurd inside (Nat.not_lt_zero k)
  | succ n ih =>
      obtain ⟨first, others, rfl⟩ := values.exists_eq_cons
      obtain ⟨middle, here, there⟩ := repeatN_succ_ok _ _ _ _ _ _ parsed
      rw [← F.decode_blank P target (blank target List.mem_cons_self)] at here
      cases k with
      | zero =>
          refine ⟨first, middle, ?_⟩
          rw [seen, run_bind_of_ok _ _ _ _ _ here]
          rfl
      | succ k =>
          have blankRest : ∀ held ∈ first :: others.toList.take k, F.Blank held :=
            fun held member => blank held (List.mem_cons_of_mem target member)
          obtain ⟨current, final, later⟩ :=
            ih k first middle others (Nat.lt_of_succ_lt_succ inside) there blankRest
          refine ⟨current, final, ?_⟩
          rw [seen, run_bind_of_ok _ _ _ _ _ here, run_bind_of_ok _ _ _ _ _ later]
          rfl

theorem seen_stale (asserts : P.asserts = true) (F : Format) (n k : Nat) (target : F.Value)
    (input rest : List Byte) (values : List.Vector F.Value n) (inside : k < n)
    (parsed : (repeatN (F.parse P) n).run input = .ok (values, rest))
    (stale : ¬ ∀ held ∈ target :: values.toList.take k, F.Blank held) :
    (F.seen P k target).run input = .error .assertion := by
  induction n generalizing k target input with
  | zero => exact absurd inside (Nat.not_lt_zero k)
  | succ n ih =>
      obtain ⟨first, others, rfl⟩ := values.exists_eq_cons
      obtain ⟨middle, here, there⟩ := repeatN_succ_ok _ _ _ _ _ _ parsed
      by_cases blank : F.Blank target
      · rw [List.forall_mem_cons, not_and] at stale
        rw [← F.decode_blank P target blank] at here
        cases k with
        | zero => exact absurd (fun held member => absurd member List.not_mem_nil) (stale blank)
        | succ k =>
            rw [seen, run_bind_of_ok _ _ _ _ _ here]
            apply run_bind_error
            exact ih k first middle others (Nat.lt_of_succ_lt_succ inside) there (stale blank)
      · have failed := F.decode_stale P asserts target blank input first middle here
        cases k <;> exact run_bind_error _ _ _ _ failed

end Format

section Iterator

variable {σ : Type} (P : Platform) {source : Source σ} {D : Delivery σ Byte}

theorem deserializeEach_implements (delivers : source.Delivers D) (F : Format) {τ : Type}
    (n : Nat) :
    Implements D (deserializeEach P source F n : EStateM Failure (σ × τ) (List F.Value))
      (fun target => do
        let values ← repeatN (F.parse P) n
        pure (values.toList, target)) := by
  induction n with
  | zero => exact Implements.pure _
  | succ n ih =>
      refine (Implements.bind (Implements.withLocal (F.deserialize_implements P delivers))
        fun element => Implements.bind ih fun others =>
          Implements.pure (element :: others)).congr ?_
      intro target
      simp [repeatN, Format.parse]

theorem DeserializingIterator.values_implements (delivers : source.Delivers D) (F : Format)
    (k : Nat) :
    Implements D (values P source F k) (F.seen P k) := by
  induction k with
  | zero =>
      refine (Implements.bind (F.deserialize_implements P delivers) fun _ =>
        Implements.bind Implements.readTarget fun current => Implements.pure [current]).congr ?_
      intro target
      simp [Format.seen]
  | succ k ih =>
      refine (Implements.bind (F.deserialize_implements P delivers) fun _ =>
        Implements.bind Implements.readTarget fun current =>
          Implements.bind ih fun later => Implements.pure (current :: later)).congr ?_
      intro target
      simp [Format.seen]

-- The iterator decodes each element into the one before it.
theorem iterator_agrees_iff (delivers : source.Delivers D) (F : Format) (n : Nat)
    (state after : σ) (values : List F.Value) (ready : D.ready state)
    (each : deserializeEach P source F n (state, ()) = .ok values (after, ())) :
    (∀ asserts k, k < n → ∃ final current,
      DeserializingIterator.values (P.withAsserts asserts) source F k (state, F.fresh) =
        .ok (values.take (k + 1)) (final, current)) ↔
      ∀ value ∈ values.dropLast, F.Blank value := by
  have whole := ((deserializeEach_implements P delivers F n).parsed ready each).1
  obtain ⟨elements, rest, parsed, done⟩ := (run_bind_ok _ _ _ _ _).mp whole
  obtain ⟨same, -⟩ := Prod.mk.inj (Except.ok.inj done)
  obtain rfl : elements.toList = values := congrArg Prod.fst same
  have reading (asserts : Bool) :
      (repeatN (F.parse (P.withAsserts asserts)) n).run (D.unread state) =
        .ok (elements, rest) := by
    rw [F.parse_withAsserts]
    exact parsed
  rw [List.dropLast_eq_take, List.Vector.toList_length]
  constructor
  · intro agrees
    by_contra stale
    cases n with
    | zero => exact stale fun value member => by simp at member
    | succ n =>
        have failed := F.seen_stale (P.withAsserts true) rfl (n + 1) n F.fresh _ _ elements
          (Nat.lt_succ_self n) (reading true) fun clean =>
            stale fun value member => clean value (List.mem_cons_of_mem _ member)
        obtain ⟨_, _, failed, -⟩ :=
          (DeserializingIterator.values_implements (P.withAsserts true) delivers F n).error
            ready failed
        obtain ⟨final, current, done⟩ := agrees true n (Nat.lt_succ_self n)
        rw [done] at failed
        cases failed
  · intro blank asserts k inside
    have clean : ∀ held ∈ F.fresh :: elements.toList.take k, F.Blank held := by
      rw [List.forall_mem_cons]
      refine ⟨F.fresh_blank, ?_⟩
      intro value member
      exact blank value (List.take_subset_take_left _ (by omega) member)
    obtain ⟨current, left, found⟩ := F.seen_blank (P.withAsserts asserts) n k F.fresh _ _ elements
      inside (reading asserts) clean
    obtain ⟨final, done, -⟩ :=
      (DeserializingIterator.values_implements (P.withAsserts asserts) delivers F k).ok ready found
    exact ⟨final, current, done⟩

theorem iterator_agrees_integers :
    let format := Format.integer ⟨be8, by decide⟩ (.unsigned 8)
    ∃ final current,
      DeserializingIterator.values amd64 (rangeSource amd64) format 3
        (makeRangeSource [65, 66, 67, 68, 69], format.fresh) =
          .ok [65, 66, 67, 68] (final, current) := by
  intro format
  have agrees := (iterator_agrees_iff amd64 (range_delivers amd64) format 4
    (makeRangeSource [65, 66, 67, 68, 69]) ⟨[65, 66, 67, 68, 69], 4⟩ [65, 66, 67, 68]
    (Nat.zero_le _) (by decide +kernel)).mpr fun value member => trivial
  exact agrees true 3 (by decide)

-- After a set optional the assertion fails; without it an empty one shows the old value.
theorem iterator_keeps_optional :
    let format := Format.optional .boolean (.integer ⟨be8, by decide⟩ (.unsigned 8))
    let start := makeRangeSource [1, 5, 0]
    deserializeEach amd64 (rangeSource amd64) format 2 (start, ()) =
        .ok [some 5, none] (⟨[1, 5, 0], 3⟩, ()) ∧
      DeserializingIterator.values amd64 (rangeSource amd64) format 1 (start, format.fresh) =
        .error .assertion (⟨[1, 5, 0], 2⟩, some 5) ∧
      DeserializingIterator.values (amd64.withAsserts false) (rangeSource amd64) format 1
          (start, format.fresh) =
        .ok [some 5, some 5] (⟨[1, 5, 0], 3⟩, some 5) := by
  refine ⟨by decide +kernel, by decide +kernel, by decide +kernel⟩

end Iterator

end Szn
