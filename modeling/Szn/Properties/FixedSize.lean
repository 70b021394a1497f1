import Szn.Properties.DeclaredLength

set_option autoImplicit false

namespace Szn

open Stateful Parsing

namespace Vector

variable {σ α : Type} {source : Source σ} {D : Delivery σ Byte} (P : Platform) (length : Integer)

/-- L's decoder and then the array format; the result is the length that was read. -/
def lengthThenArray (source : Source σ) (element : EStateM Failure (σ × α) Unit) (Length : Nat) :
    EStateM Failure (σ × List.Vector α Length) Nat := do
  let size ← withLocal 0 (length.deserialize source (sizeType P))
  Array.deserialize element Length
  pure size.toNat

theorem deserializeArray_ok_iff (element : EStateM Failure (σ × α) Unit) (Length : Nat)
    (start final : σ × List.Vector α Length) :
    deserializeArray P length source element Length start = .ok () final ↔
      lengthThenArray P length source element Length start = .ok Length final := by
  rw [deserializeArray, lengthThenArray, bind_ok_iff, bind_ok_iff]
  apply exists_congr
  intro size
  apply exists_congr
  intro middle
  apply and_congr_right
  intro _
  by_cases same : size.toNat = Length
  · simp only [same, ne_eq, not_true_eq_false, if_false]
    constructor
    · intro done
      exact (bind_ok_iff _ _ _ _ _).mpr ⟨(), final, done, rfl⟩
    · intro done
      obtain ⟨_, _, done, returned⟩ := (bind_ok_iff _ _ _ _ _).mp done
      cases returned
      exact done
  · simp only [ne_eq, same, not_false_eq_true, if_true]
    refine iff_of_false ?_ ?_
    · intro done
      cases done
    · intro done
      obtain ⟨_, _, _, returned⟩ := (bind_ok_iff _ _ _ _ _).mp done
      rw [pure_run] at returned
      cases returned
      exact same rfl

section Elements

variable (delivers : source.Delivers D)

include delivers in
theorem deserializeArray_mismatch (element : EStateM Failure (σ × α) Unit)
    (small : length.byteSize ≤ 8) (wide : 8 * length.byteSize ≤ P.sizeBits) (k : Nat)
    (inside : k < 2 ^ (8 * length.byteSize)) (state : σ) (ready : D.ready state)
    (rest : List Byte)
    (unread : D.unread state = length.order.digits length.byteSize k ++ rest) {Length : Nat}
    (mismatch : k ≠ Length) (array : List.Vector α Length) :
    ∃ after, deserializeArray P length source element Length (state, array) =
        .error (.runtimeError "array length mismatch") (after, array) ∧ D.unread after = rest := by
  obtain ⟨after, done, -, left⟩ :=
    length.deserialize_digits delivers small k inside P.sizeBits state 0 rest ready unread
  have held : k < 2 ^ P.sizeBits := lt_of_lt_of_le inside (Nat.pow_le_pow_right (by decide) wide)
  have count : (BitVec.ofNat P.sizeBits k).toNat = k := Nat.mod_eq_of_lt held
  have local_ : (withLocal 0 (length.deserialize source (sizeType P)) :
      EStateM Failure (σ × List.Vector α Length) _) (state, array) =
        .ok (BitVec.ofNat P.sizeBits k) (after, array) := by
    simp only [withLocal, done]
  refine ⟨after, (bind_of_ok _ _ _ _ _ local_).trans ?_, left⟩
  simp only [count, ne_eq, mismatch, not_false_eq_true, if_true]
  rfl

variable {element : EStateM Failure (σ × α) Unit} {spec : α → Parser Byte Failure α}
  (reads : Deserializes D element spec) (fresh : α)

include delivers reads in
theorem deserializeArray_iff_deserialize (maxSize : Abi → Nat) (state : σ) (ready : D.ready state)
    (reserves : ∀ after size, length.deserialize source (sizeType P) (state, 0) =
      .ok () (after, size) → size.toNat ≤ maxSize P.toAbi)
    {Length : Nat} (array values : List.Vector α Length)
    (same : ∀ part ∈ array.toList, spec part = spec fresh) (old : List α) (left : List Byte) :
    (∃ after, deserializeArray P length source element Length (state, array) =
        .ok () (after, values) ∧ D.unread after = left) ↔
      ∃ after, deserialize P length (.vector maxSize) source fresh element (state, old) =
        .ok () (after, values.toList) ∧ D.unread after = left := by
  cases parsed : (length.parse (sizeType P)).run (D.unread state) with
  | error failure =>
      rw [Deserializes.ok_iff (deserializeArray_implements P delivers length reads Length) ready,
        Deserializes.ok_iff (deserialize_elements P delivers length reads fresh _) ready,
        run_bind_error _ _ _ _ parsed, run_bind_error _ _ _ _ parsed]
      simp
  | ok found =>
      obtain ⟨size, rest⟩ := found
      have room : size.toNat ≤ maxSize P.toAbi := by
        have deserializes : Deserializes D (length.deserialize source (sizeType P)) _ :=
          length.deserialize_implements delivers (sizeType P)
        have read : ∃ after, length.deserialize source (sizeType P) (state, 0) =
            .ok () (after, size) ∧ D.unread after = rest :=
          (deserializes.ok_iff ready).mpr parsed
        obtain ⟨after, done, -⟩ := read
        exact reserves after size done
      rw [deserializeArray_returns P delivers length reads Length array state ready size rest
          parsed,
        deserialize_returns P delivers length reads fresh _ old state ready size rest parsed,
        visit_eq_repeatN array same]
      constructor
      · rintro ⟨rfl, found, run, rfl⟩
        exact ⟨room, found, run, rfl⟩
      · rintro ⟨-, found, run, listed⟩
        have count : size.toNat = Length := by
          have lengths := congrArg List.length listed
          simpa using lengths
        subst count
        exact ⟨rfl, found, run, List.Vector.toList_injective listed⟩

end Elements

end Vector

theorem fixed_size_agrees (P : Platform) {σ : Type} (source : Source σ) (D : Delivery σ Byte)
    (delivers : source.Delivers D) (length : Integer) (small : length.byteSize ≤ 8)
    (wide : 8 * length.byteSize ≤ P.sizeBits) (F : Format) (maxSize : Abi → Nat) (state : σ)
    (ready : D.ready state)
    (reserves : ∀ after size, length.deserialize source (sizeType P) (state, 0) =
      .ok () (after, size) → size.toNat ≤ maxSize P.toAbi)
    (Length : Nat) (array : List.Vector F.Value Length)
    (fresh : ∀ part ∈ array.toList, F.Blank part) (old : List F.Value) :
    (∀ (values : List.Vector F.Value Length) (left : List Byte),
      (∃ after, Vector.deserializeArray P length source (F.deserialize P source) Length
          (state, array) = .ok () (after, values) ∧ D.unread after = left) ↔
        ∃ after, Vector.deserialize P length (.vector maxSize) source F.fresh
            (F.deserialize P source) (state, old) = .ok () (after, values.toList) ∧
          D.unread after = left) ∧
    (∀ final, Vector.deserializeArray P length source (F.deserialize P source) Length
        (state, array) = .ok () final ↔
      Vector.lengthThenArray P length source (F.deserialize P source) Length (state, array) =
        .ok Length final) ∧
    ∀ (k : Nat) (rest : List Byte), k < 2 ^ (8 * length.byteSize) →
      D.unread state = length.order.digits length.byteSize k ++ rest → k ≠ Length →
        ∃ after, Vector.deserializeArray P length source (F.deserialize P source) Length
            (state, array) = .error (.runtimeError "array length mismatch") (after, array) ∧
          D.unread after = rest := by
  have implements := F.deserialize_implements P delivers
  refine ⟨?_, ?_, ?_⟩
  · intro values left
    apply Vector.deserializeArray_iff_deserialize P length delivers implements F.fresh maxSize
      state ready reserves array values
    intro part member
    exact F.decode_blank P part (fresh part member)
  · intro final
    exact Vector.deserializeArray_ok_iff P length _ Length _ final
  · intro k rest inside unread mismatch
    exact Vector.deserializeArray_mismatch P length delivers _ small wide k inside state ready
      rest unread mismatch array

theorem fixed_size_agrees_octets :
    let element := (Format.integer ⟨be8, by decide⟩ (.unsigned 8)).deserialize amd64
      (rangeSource amd64)
    (∃ after, Vector.deserializeArray amd64 be8 (rangeSource amd64) element 2
        (makeRangeSource [2, 7, 9, 1], 0 ::ᵥ 0 ::ᵥ .nil) = .ok () (after, 7 ::ᵥ 9 ::ᵥ .nil) ∧
      rangeDelivery.unread after = [1]) ∧
    ∃ after, Vector.deserializeArray amd64 be8 (rangeSource amd64) element 2
        (makeRangeSource [3, 7, 9, 1], 0 ::ᵥ 0 ::ᵥ .nil) =
        .error (.runtimeError "array length mismatch") (after, 0 ::ᵥ 0 ::ᵥ .nil) ∧
      rangeDelivery.unread after = [7, 9, 1] := by
  intro element
  have delivers := range_delivers amd64
  have reserves (k : Byte) : ∀ after size, be8.deserialize (rangeSource amd64) (sizeType amd64)
      (makeRangeSource [k, 7, 9, 1], 0) = .ok () (after, size) → size.toNat ≤ amd64.bufferMax := by
    intro after size done
    have deserializes : Deserializes rangeDelivery _ _ :=
      be8.deserialize_implements delivers (sizeType amd64)
    have parsed := deserializes.parsed (Nat.zero_le _) done
    exact (be8.parse_unsigned_lt rfl 64 _ _ _ parsed).le.trans (by decide)
  have agrees (k : Byte) := fixed_size_agrees amd64 (rangeSource amd64) rangeDelivery delivers be8
    (by decide) (by decide) (.integer ⟨be8, by decide⟩ (.unsigned 8)) Abi.bufferMax
    (makeRangeSource [k, 7, 9, 1]) (Nat.zero_le _) (reserves k) 2 (0 ::ᵥ 0 ::ᵥ .nil)
    (fun _ _ => trivial) []
  constructor
  · exact ((agrees 2).1 (7 ::ᵥ 9 ::ᵥ .nil) [1]).mpr ⟨⟨[2, 7, 9, 1], 3⟩, by decide +kernel, rfl⟩
  · exact (agrees 3).2.2 3 [7, 9, 1] (by decide) rfl (by decide)

end Szn
