import Szn.Model.Sets
import Szn.Spec.Map

set_option autoImplicit false

namespace Szn

open Stateful Parsing

namespace Sets

variable {σ α τ : Type} (P : Platform) (length : Integer) (small : length.byteSize ≤ 8)
  {element : TypedFormat α} {encode : α → List Byte} (inverse : element.Inverse encode)
  (S : SetContainer α τ) {source : Source σ} {D : Delivery σ Byte} (delivers : source.Delivers D)

def layout (encode : α → List Byte) (count : Nat) (entries : List α) : List Byte :=
  length.order.digits length.byteSize count ++ entries.flatMap encode

include small inverse in
theorem serialize_layout (v : τ) (before : List Byte)
    (counts : (S.elements v).length < 2 ^ (8 * length.byteSize))
    (held : (S.elements v).length < 2 ^ P.sizeBits) :
    serialize P length element S insertionSink v before =
      .ok () (before ++ layout length encode (S.elements v).length (S.elements v)) := by
  have size := length.serialize_encode P (sizeType P)
    (BitVec.ofNat P.sizeBits (S.elements v).length) before
  rw [length.encode_digits small _ _ counts held] at size
  rw [serialize, Vector.serializeImpl, Vector.serializeSize, bind_run, size, layout,
    ← List.append_assoc]
  exact inverse.writes_all (S.elements v) _

include inverse delivers in
theorem insertElements_reads (entries : List α) (v : τ) (state : σ) (rest : List Byte)
    (ready : D.ready state) (unread : D.unread state = entries.flatMap encode ++ rest) :
    ∃ after, insertElements element S source entries.length (state, v) =
        .ok () (after, S.insertAll entries v) ∧ D.ready after ∧ D.unread after = rest := by
  induction entries generalizing v state with
  | nil => exact ⟨state, rfl, ready, unread⟩
  | cons e others ih =>
      rw [List.flatMap_cons, List.append_assoc] at unread
      obtain ⟨middle, read, ready', left⟩ :=
        inverse.reads source D delivers state e _ ready unread
      obtain ⟨after, done, ready'', left'⟩ := ih (S.insert e v) middle ready' left
      refine ⟨after, ?_, ready'', left'⟩
      simp [insertElements, withLocal, read, readTarget, assignTarget, done,
        SetContainer.insertAll]

include inverse delivers in
theorem insertElements_consumed (count : Nat) (v final : τ) (state after : σ)
    (ready : D.ready state)
    (done : insertElements element S source count (state, v) = .ok () (after, final)) :
    ∃ entries, entries.length = count ∧ final = S.insertAll entries v ∧
      D.unread state = entries.flatMap encode ++ D.unread after := by
  induction count generalizing v state with
  | zero =>
      cases done
      exact ⟨[], rfl, rfl, rfl⟩
  | succ count ih =>
      obtain ⟨e, ⟨middle, target⟩, read, done⟩ := (bind_ok_iff _ _ _ _ _).mp done
      obtain ⟨field, rfl⟩ := (withLocal_ok_iff _ _ _ _ _ _ _).mp read
      obtain ⟨ready', unread⟩ := inverse.consumed source D delivers _ _ _ ready field
      obtain ⟨entries, size, rfl, unread'⟩ := ih (S.insert e v) middle ready' done
      refine ⟨e :: entries, by rw [List.length_cons, size], rfl, ?_⟩
      rw [unread, unread', List.flatMap_cons, List.append_assoc]

include small inverse delivers in
theorem deserialize_layout (entries : List α) (counts : entries.length < 2 ^ (8 * length.byteSize))
    (held : entries.length < 2 ^ P.sizeBits) (state : σ) (old : τ) (rest : List Byte)
    (ready : D.ready state)
    (unread : D.unread state = layout length encode entries.length entries ++ rest) :
    ∃ after, deserialize P length element S source (state, old) =
        .ok () (after, S.insertAll entries S.empty) ∧
      D.ready after ∧ D.unread after = rest := by
  rw [layout, List.append_assoc] at unread
  obtain ⟨middle, field, ready', left⟩ := length.deserialize_digits delivers small entries.length
    counts P.sizeBits state 0 _ ready unread
  obtain ⟨after, done, ready'', left'⟩ :=
    insertElements_reads inverse S delivers entries S.empty middle rest ready' left
  refine ⟨after, ?_, ready'', left'⟩
  rw [← Nat.mod_eq_of_lt held, ← BitVec.toNat_ofNat] at done
  rw [deserialize, bind_ok_iff]
  exact ⟨_, (middle, old), (withLocal_ok_iff _ _ _ _ _ _ _).mpr ⟨field, rfl⟩, done⟩

include small inverse delivers in
theorem deserialize_consumed (state after : σ) (old v : τ) (ready : D.ready state)
    (done : deserialize P length element S source (state, old) = .ok () (after, v)) :
    ∃ count entries, count < 2 ^ (8 * length.byteSize) ∧
      entries.length = count % 2 ^ P.sizeBits ∧ v = S.insertAll entries S.empty ∧
        D.unread state = layout length encode count entries ++ D.unread after := by
  obtain ⟨size, ⟨middle, target⟩, field, done⟩ := (bind_ok_iff _ _ _ _ _).mp done
  obtain ⟨read, rfl⟩ := (withLocal_ok_iff _ _ _ _ _ _ _).mp field
  obtain ⟨ready', count, counts, unread, rfl⟩ :=
    length.deserialize_consumed delivers small _ _ _ _ _ ready read
  obtain ⟨entries, wrapped, rfl, unread'⟩ :=
    insertElements_consumed inverse S delivers _ _ _ _ _ ready' done
  rw [BitVec.toNat_ofNat] at wrapped
  refine ⟨count, entries, counts, wrapped, rfl, ?_⟩
  rw [unread, unread', layout, List.append_assoc]

end Sets

theorem set_reserialize {σ α τ : Type} (P : Platform) (length : Integer)
    (small : length.byteSize ≤ 8) {element : TypedFormat α} {encode : α → List Byte}
    (inverse : element.Inverse encode) (S : SetContainer α τ) (lawful : S.Lawful)
    (source : Source σ) (D : Delivery σ Byte) (delivers : source.Delivers D) :
    (∀ state after old v, D.ready state →
      Sets.deserialize P length element S source (state, old) = .ok () (after, v) →
        ∃ count entries text again, count < 2 ^ (8 * length.byteSize) ∧
          entries.length = count % 2 ^ P.sizeBits ∧
          text = length.order.digits length.byteSize count ++ entries.flatMap encode ∧
          D.unread state = text ++ D.unread after ∧
          (∀ x, x ∈ S.elements v ↔ x ∈ entries) ∧ (S.elements v).length ≤ entries.length ∧
          Sets.serialize P length element S insertionSink v [] = .ok () again ∧
          (again = text ↔ S.elements v = entries ∧ count < 2 ^ P.sizeBits)) ∧
    ∀ v, (S.elements v).length < 2 ^ (8 * length.byteSize) →
      (S.elements v).length < 2 ^ P.sizeBits →
      ∃ written, Sets.serialize P length element S insertionSink v [] = .ok () written ∧
        ∀ state old rest, D.ready state → D.unread state = written ++ rest →
          ∃ after again, Sets.deserialize P length element S source (state, old) =
              .ok () (after, again) ∧ S.Same again v ∧ D.unread after = rest := by
  constructor
  · intro state after old v ready done
    obtain ⟨count, entries, counts, wrapped, rfl, unread⟩ :=
      Sets.deserialize_consumed P length small inverse S delivers state after old v ready done
    have kept := SetContainer.filled_length lawful entries
    have below : entries.length ≤ count := wrapped ▸ Nat.mod_le _ _
    have narrow : entries.length < 2 ^ P.sizeBits := wrapped ▸ Nat.mod_lt _ (Nat.two_pow_pos _)
    have wraps : count % 2 ^ P.sizeBits = count ↔ count < 2 ^ P.sizeBits :=
      Nat.mod_eq_iff_lt (Nat.two_pow_pos _).ne'
    refine ⟨count, entries, _, _, counts, wrapped, rfl, unread,
      SetContainer.mem_filled lawful entries, kept,
      Sets.serialize_layout P length small inverse S _ [] (by omega) (by omega), ?_⟩
    rw [List.nil_append]
    constructor
    · intro same
      obtain ⟨fields, elements⟩ := List.append_inj same (by simp)
      have size := length.digits_inj small _ _ (by omega) counts fields
      have whole : entries.length = count := by omega
      exact ⟨inverse.prefixFree.flatMap _ _ (by omega) elements, wraps.mp (by omega)⟩
    · rintro ⟨same, fits⟩
      rw [Sets.layout, same, wrapped, wraps.mpr fits]
  · intro v counts held
    refine ⟨_, Sets.serialize_layout P length small inverse S v [] counts held, ?_⟩
    intro state old rest ready unread
    obtain ⟨after, done, -, left⟩ := Sets.deserialize_layout P length small inverse S delivers
      (S.elements v) counts held state old rest ready unread
    exact ⟨after, _, done, SetContainer.refilled lawful v, left⟩

section Repeated

attribute [local instance] unsignedOrder

-- A std::set is read from entries that repeat, and is written shorter than it was read.
theorem set_reserialize_repeated :
    let octets := (Format.integer ⟨be8, List.mem_cons_self⟩ (.unsigned 8)).typed amd64
    let text : List Byte := [3, 5, 3, 5, 9]
    let v : SortedMap (BitVec 8) Unit := ⟨[(3, ()), (5, ())], by decide⟩
    Sets.deserialize amd64 be8 octets SortedMap.keys (rangeSource amd64)
        (makeRangeSource text, SortedMap.keys.empty) = .ok () (⟨text, 4⟩, v) ∧
      ∃ (entries : List (BitVec 8)) (again : List Byte),
        (∀ x : BitVec 8, x ∈ SortedMap.keys.elements v ↔ x ∈ entries) ∧
        Sets.serialize amd64 be8 octets SortedMap.keys insertionSink v [] = .ok () again ∧
          again.length < 4 := by
  intro octets text v
  have inverse : octets.Inverse _ := IntegerFormat.typed_inverse amd64 ⟨be8, by decide⟩
  have done : Sets.deserialize amd64 be8 octets SortedMap.keys (rangeSource amd64)
      (makeRangeSource text, SortedMap.keys.empty) = .ok () (⟨text, 4⟩, v) := by
    decide +kernel
  have written : Sets.serialize amd64 be8 octets SortedMap.keys insertionSink v [] =
      .ok () [2, 3, 5] := by
    decide +kernel
  obtain ⟨count, entries, _, again, -, -, -, -, holds, -, serialized, -⟩ :=
    (set_reserialize amd64 be8 (by decide) inverse SortedMap.keys SortedMap.keys_lawful
      (rangeSource amd64) rangeDelivery (range_delivers amd64)).1 (makeRangeSource text) _ _ _
        (Nat.zero_le _) done
  have same := written.symm.trans serialized
  cases same
  exact ⟨done, entries, _, holds, serialized, by decide⟩

end Repeated

end Szn
