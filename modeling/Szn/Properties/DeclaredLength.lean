import Szn.Spec.RoundTrip

set_option autoImplicit false

namespace Szn

open Stateful Parsing

variable {σ α : Type} {source : Source σ} {D : Delivery σ Byte}

section Elements

variable (P : Platform) (delivers : source.Delivers D) (length : Integer)
  {element : EStateM Failure (σ × α) Unit} {spec : α → Parser Byte Failure α}
  (reads : Deserializes D element spec) (fresh : α)

include delivers reads in
theorem Vector.deserialize_elements (target : Container) :
    Deserializes D (Vector.deserialize P length target source fresh element) (fun _ => do
      let size ← length.parse (sizeType P)
      target.elements P (spec fresh) size.toNat) :=
  Vector.deserialize_implements P delivers length target reads fresh

include delivers reads in
theorem Vector.deserializeArray_implements (Length : Nat) :
    Deserializes D (Vector.deserializeArray P length source element Length) (fun array => do
      let size ← length.parse (sizeType P)
      if size.toNat ≠ Length then throw (Failure.runtimeError "array length mismatch") else pure ()
      visit spec array) := by
  have checked (size : BitVec P.sizeBits) : Deserializes D
      (do
        if size.toNat ≠ Length then
          throw (Failure.runtimeError "array length mismatch")
        Array.deserialize element Length) (fun array => do
      if size.toNat ≠ Length then throw (Failure.runtimeError "array length mismatch") else pure ()
      visit spec array) := by
    by_cases same : size.toNat = Length
    · simp only [same, ne_eq, not_true_eq_false, if_false]
      exact Array.deserialize_implements reads Length
    · simp only [ne_eq, same, not_false_eq_true, if_true]
      exact (Implements.bind (Implements.throw _) fun _ =>
        Array.deserialize_implements reads Length).congr fun array => rfl
  refine (Implements.bind (Implements.withLocal
    (length.deserialize_implements delivers (sizeType P))) checked).congr ?_
  intro array
  simp

include delivers reads in
theorem reserve_transparent_iff (maxSize : Abi → Nat) (other : Container)
    (skips : other = .list ∨ other = .deque) (state : σ) (ready : D.ready state) (old : List α) :
    ending D (Vector.deserialize P length (.vector maxSize) source fresh element (state, old)) =
        ending D (Vector.deserialize P length other source fresh element (state, old)) ↔
      ∀ size rest, (length.parse (sizeType P)).run (D.unread state) = .ok (size, rest) →
        size.toNat ≤ maxSize P.toAbi ∨
          (repeatN (spec fresh) size.toNat).run rest = .error .lengthError := by
  have ends (target : Container) :=
    (Vector.deserialize_elements P delivers length reads fresh target).ending_eq old ready
  have unreserved (count : Nat) : other.Reserves P count := by
    rcases skips with rfl | rfl
    · trivial
    · trivial
  rw [ends, ends]
  cases parsed : (length.parse (sizeType P)).run (D.unread state) with
  | error failure =>
      rw [run_bind_error _ _ _ _ parsed, run_bind_error _ _ _ _ parsed]
      exact iff_of_true rfl nofun
  | ok found =>
      obtain ⟨size, rest⟩ := found
      rw [run_bind_of_ok _ _ _ _ _ parsed, run_bind_of_ok _ _ _ _ _ parsed,
        other.elements_reserves P _ _ (unreserved _)]
      by_cases room : size.toNat ≤ maxSize P.toAbi
      · rw [Container.elements_reserves P (.vector maxSize) _ _ room]
        refine iff_of_true rfl ?_
        intro declared left same
        cases same
        exact Or.inl room
      · have thrown : ((Container.vector maxSize).elements P (spec fresh) size.toNat).run rest =
            .error .lengthError := by
          rw [Container.elements, Container.reserving, if_pos (Nat.not_le.mp room)]
          rfl
        rw [thrown, eq_comm, run_map_error_iff]
        constructor
        · intro fails declared left same
          cases same
          exact Or.inr fails
        · intro either
          exact (either size rest rfl).resolve_left room

theorem reserve_transparent_octets :
    let element := be8.deserialize (rangeSource amd64) (.unsigned 8)
    let run (target : Container) :=
      Vector.deserialize amd64 be8 target (rangeSource amd64) 0 element
        (makeRangeSource [2, 7, 9, 1], [])
    ending rangeDelivery (run (.vector Abi.bufferMax)) = ending rangeDelivery (run .deque) := by
  intro element run
  refine (reserve_transparent_iff amd64 (range_delivers amd64) be8
    (be8.deserialize_implements (range_delivers amd64) (.unsigned 8)) 0 Abi.bufferMax .deque
    (Or.inr rfl) (makeRangeSource [2, 7, 9, 1]) (Nat.zero_le _) []).mpr ?_
  intro size rest parsed
  have short := be8.parse_unsigned_lt rfl 64 _ _ _ parsed
  exact Or.inl (short.le.trans (by decide))

theorem reserve_throws_first :
    let element := be8.deserialize (rangeSource amd64) (.unsigned 8)
    let run (target : Container) :=
      Vector.deserialize amd64 be64 target (rangeSource amd64) 0 element
        (makeRangeSource [128, 0, 0, 0, 0, 0, 0, 0], [])
    run (.vector Abi.bufferMax) =
        .error .lengthError (⟨[128, 0, 0, 0, 0, 0, 0, 0], 8⟩, []) ∧
      run .list = .error insufficientInput (⟨[128, 0, 0, 0, 0, 0, 0, 0], 8⟩, []) := by
  refine ⟨by decide +kernel, by decide +kernel⟩

theorem wraps_iff {τ β : Type} {run : EStateM Failure (σ × τ) Unit} {start : σ × τ}
    {elements : Parser Byte Failure β} {result : β → τ} {size : τ → Nat} {accepted : Prop}
    {k bits : Nat} {rest : List Byte}
    (returns : ∀ v left, (∃ after, run start = .ok () (after, v) ∧ D.unread after = left) ↔
      accepted ∧ ∃ found, elements.run rest = .ok (found, left) ∧ result found = v)
    (counted : accepted → ∀ found, size (result found) = k % 2 ^ bits) :
    (∀ after v, run start = .ok () (after, v) → size v = k) ↔
      k < 2 ^ bits ∨ ¬ accepted ∨ ∃ failure, elements.run rest = .error failure := by
  have wraps : k % 2 ^ bits = k ↔ k < 2 ^ bits := Nat.mod_eq_iff_lt (Nat.two_pow_pos _).ne'
  constructor
  · intro honoured
    by_contra wrapped
    simp only [not_or, not_not, not_exists] at wrapped
    obtain ⟨wide, accepts, decodes⟩ := wrapped
    cases outcome : elements.run rest with
    | error failure => exact decodes failure outcome
    | ok found =>
        obtain ⟨after, done, -⟩ :=
          (returns (result found.1) found.2).mpr ⟨accepts, found.1, outcome, rfl⟩
        have same := honoured after (result found.1) done
        rw [counted accepts] at same
        exact wide (wraps.mp same)
  · intro condition after v done
    obtain ⟨accepts, found, outcome, rfl⟩ := (returns v (D.unread after)).mp ⟨after, done, rfl⟩
    rw [counted accepts]
    rcases condition with fits | refused | ⟨failure, fails⟩
    · exact wraps.mpr fits
    · exact absurd accepts refused
    · rw [outcome] at fails
      cases fails

include delivers reads in
theorem Vector.deserialize_returns (target : Container) (old : List α) (state : σ)
    (ready : D.ready state) (size : BitVec P.sizeBits) (rest : List Byte)
    (parsed : (length.parse (sizeType P)).run (D.unread state) = .ok (size, rest)) (v : List α)
    (left : List Byte) :
    (∃ after, Vector.deserialize P length target source fresh element (state, old) =
        .ok () (after, v) ∧ D.unread after = left) ↔
      target.Reserves P size.toNat ∧ ∃ values : List.Vector α size.toNat,
        (repeatN (spec fresh) size.toNat).run rest = .ok (values, left) ∧ values.toList = v := by
  rw [Deserializes.ok_iff (Vector.deserialize_elements P delivers length reads fresh target) ready,
    run_bind_of_ok _ _ _ _ _ parsed, target.elements_ok]

include delivers reads in
theorem Vector.deserializeArray_returns (Length : Nat) (old : List.Vector α Length) (state : σ)
    (ready : D.ready state) (size : BitVec P.sizeBits) (rest : List Byte)
    (parsed : (length.parse (sizeType P)).run (D.unread state) = .ok (size, rest))
    (array : List.Vector α Length) (left : List Byte) :
    (∃ after, Vector.deserializeArray P length source element Length (state, old) =
        .ok () (after, array) ∧ D.unread after = left) ↔
      size.toNat = Length ∧ ∃ found, (visit spec old).run rest = .ok (found, left) ∧
        found = array := by
  rw [Deserializes.ok_iff (Vector.deserializeArray_implements P delivers length reads Length)
    ready, run_bind_of_ok _ _ _ _ _ parsed]
  by_cases same : size.toNat = Length
  · simp [same]
  · simp only [ne_eq, same, not_false_eq_true, if_true, false_and, iff_false]
    intro accepted
    cases accepted

include delivers reads in
theorem declared_length_honoured_iff (small : length.byteSize ≤ 8) (k : Nat)
    (inside : k < 2 ^ (8 * length.byteSize)) (state : σ) (ready : D.ready state)
    (rest : List Byte)
    (unread : D.unread state = length.order.digits length.byteSize k ++ rest) :
    (∀ (target : Container) (old : List α),
      (∀ after v, Vector.deserialize P length target source fresh element (state, old) =
          .ok () (after, v) → v.length = k) ↔
        k < 2 ^ P.sizeBits ∨ ¬ target.Reserves P (k % 2 ^ P.sizeBits) ∨
          ∃ failure, (repeatN (spec fresh) (k % 2 ^ P.sizeBits)).run rest = .error failure) ∧
    ∀ (Length : Nat) (old : List.Vector α Length),
      (∀ after array, Vector.deserializeArray P length source element Length (state, old) =
          .ok () (after, array) → Length = k) ↔
        k < 2 ^ P.sizeBits ∨ k % 2 ^ P.sizeBits ≠ Length ∨
          ∃ failure, (visit spec old).run rest = .error failure := by
  have parsed : (length.parse (sizeType P)).run (D.unread state) =
      .ok (BitVec.ofNat P.sizeBits k, rest) := by
    rw [unread]
    exact length.parse_digits small k inside P.sizeBits rest
  have count : (BitVec.ofNat P.sizeBits k).toNat = k % 2 ^ P.sizeBits := BitVec.toNat_ofNat k _
  constructor
  · intro target old
    have returns := Vector.deserialize_returns P delivers length reads fresh target old state ready
      _ rest parsed
    rw [count] at returns
    exact wraps_iff returns fun _ values => values.toList_length
  · intro Length old
    have returns := Vector.deserializeArray_returns P delivers length reads Length old state ready
      _ rest parsed
    rw [count] at returns
    exact wraps_iff returns fun matching _ => matching.symm

end Elements

theorem declared_length_honoured_short :
    let element := be8.deserialize (rangeSource ilp32) (.unsigned 8)
    let state := makeRangeSource [0, 0, 0, 0, 0, 0, 0, 2, 7, 9]
    ∀ after v, Vector.deserialize ilp32 be64 .list (rangeSource ilp32) 0 element (state, []) =
      .ok () (after, v) → v.length = 2 := by
  intro element state
  have honoured := declared_length_honoured_iff ilp32 (range_delivers ilp32) be64
    (be8.deserialize_implements (range_delivers ilp32) (.unsigned 8)) 0 (by decide) 2
    (by decide) state (Nat.zero_le _) [7, 9] (by decide)
  exact (honoured.1 .list []).mpr (Or.inl (by decide))

theorem declared_length_wraps :
    let element := be8.deserialize (rangeSource ilp32) (.unsigned 8)
    let field := be64.order.digits be64.byteSize (2 ^ 32 + 1)
    Vector.deserialize ilp32 be64 (.vector Abi.bufferMax) (rangeSource ilp32) 0 element
        (makeRangeSource (field ++ [7]), []) = .ok () (⟨field ++ [7], 9⟩, [7]) ∧
      Vector.deserializeArray ilp32 be64 (rangeSource ilp32) element 1
        (makeRangeSource (field ++ [7]), 0 ::ᵥ .nil) = .ok () (⟨field ++ [7], 9⟩, 7 ::ᵥ .nil) := by
  refine ⟨by decide +kernel, by decide +kernel⟩

end Szn
