import Szn.Model.Map
import Szn.Spec.Canonical
import Szn.Spec.Source

set_option autoImplicit false

namespace Szn

open Stateful Parsing Tracing

variable {σ α κ ν : Type}

namespace TypedFormat

structure Inverse (format : TypedFormat α) (encode : α → List Byte) : Prop where
  writes : ∀ value before, format.serialize insertionSink value before =
    .ok () (before ++ encode value)
  reads : ∀ {σ : Type} (source : Source σ) (D : Delivery σ Byte), source.Delivers D →
    ∀ state value rest, D.ready state → D.unread state = encode value ++ rest →
      ∃ after, format.deserialize source (state, format.fresh) = .ok () (after, value) ∧
        D.ready after ∧ D.unread after = rest
  consumed : ∀ {σ : Type} (source : Source σ) (D : Delivery σ Byte), source.Delivers D →
    ∀ state after value, D.ready state →
      format.deserialize source (state, format.fresh) = .ok () (after, value) →
        D.ready after ∧ D.unread state = encode value ++ D.unread after

theorem Inverse.prefixFree {format : TypedFormat α} {encode : α → List Byte}
    (inverse : format.Inverse encode) : PrefixFree encode := by
  intro value other rest more same
  have delivers := range_delivers amd64
  obtain ⟨after, done, -, left⟩ := inverse.reads (rangeSource amd64) rangeDelivery delivers
    (makeRangeSource (encode value ++ rest)) value rest (Nat.zero_le _) rfl
  obtain ⟨final, again, -, left'⟩ := inverse.reads (rangeSource amd64) rangeDelivery delivers
    (makeRangeSource (encode value ++ rest)) other more (Nat.zero_le _) same
  rw [done] at again
  cases again
  exact ⟨rfl, left.symm.trans left'⟩

theorem Inverse.writes_all {format : TypedFormat α} {encode : α → List Byte}
    (inverse : format.Inverse encode) (values : List α) (before : List Byte) :
    (values.forM (format.serialize insertionSink) : EStateM Failure (List Byte) PUnit) before =
      .ok () (before ++ values.flatMap encode) := by
  induction values generalizing before with
  | nil => simp
  | cons value rest ih =>
      rw [List.forM, bind_run, inverse.writes]
      simp only [ih, List.flatMap_cons, List.append_assoc]

theorem Inverse.pair {key : TypedFormat κ} {value : TypedFormat ν} {encodeKey : κ → List Byte}
    {encodeValue : ν → List Byte} (keyInverse : key.Inverse encodeKey)
    (valueInverse : value.Inverse encodeValue) :
    (key.pair value).Inverse fun entry => encodeKey entry.1 ++ encodeValue entry.2 where
  writes entry before := by
    simp [TypedFormat.pair, Pair.serialize, keyInverse.writes, valueInverse.writes]
  reads source D delivers state entry rest ready unread := by
    rw [List.append_assoc] at unread
    obtain ⟨middle, first, ready', left⟩ :=
      keyInverse.reads source D delivers state entry.1 _ ready unread
    obtain ⟨after, second, ready'', left'⟩ :=
      valueInverse.reads source D delivers middle entry.2 rest ready' left
    refine ⟨after, ?_, ready'', left'⟩
    simp [TypedFormat.pair, Pair.deserialize, onFirst, onSecond, within, first, second]
  consumed source D delivers state after entry ready done := by
    have parts : (onFirst (key.deserialize source) >>= fun _ =>
        onSecond (value.deserialize source)) (state, (key.fresh, value.fresh)) =
          .ok () (after, entry) := by
      simpa [TypedFormat.pair, Pair.deserialize] using done
    obtain ⟨⟨⟩, ⟨middle, target⟩, first, second⟩ := (bind_ok_iff _ _ _ _ _).mp parts
    obtain ⟨keyRead, readsKey, rfl⟩ := (within_ok_iff _ _ _ _ _ _ _ _).mp first
    obtain ⟨valueRead, readsValue, rfl⟩ := (within_ok_iff _ _ _ _ _ _ _ _).mp second
    obtain ⟨ready', unread⟩ := keyInverse.consumed source D delivers _ _ _ ready readsKey
    obtain ⟨ready'', unread'⟩ := valueInverse.consumed source D delivers _ _ _ ready' readsValue
    refine ⟨ready'', ?_⟩
    rw [unread, unread', List.append_assoc]

end TypedFormat

-- A format that can write all its values, and reads nothing that has another spelling.
theorem Format.typed_inverse (P : Platform) (F : Format) (typed : F.DefaultTyped)
    (total : ∀ value, F.Fits P value)
    (canonical : ∀ input found rest, (F.marks P).run input = .ok (found, rest) →
      ∀ mark ∈ found.2, mark.Canonical P) :
    (F.typed P).Inverse fun value => (F.trace P value).chunks.flatten where
  writes value before := by
    obtain ⟨text, emits, -⟩ := F.fits_codes P value (total value)
    have written := F.serialize_emits P value before text emits
    rwa [← emits.2] at written
  reads source D delivers state value rest ready unread := by
    obtain ⟨text, emits, reads⟩ := F.fits_codes P value (total value)
    rw [emits.2] at unread
    exact F.deserialize_reads P delivers F.fresh value state text rest ready unread F.fresh_blank
      reads
  consumed source D delivers state after value ready done := by
    have implements := F.deserialize_implements P delivers
    refine ⟨(Implements.parsed implements ready done).2, ?_⟩
    have parsed : (F.parse P).run (D.unread state) = .ok (value, D.unread after) :=
      Deserializes.parsed implements ready done
    rw [← F.fst_marks P] at parsed
    obtain ⟨⟨other, marks⟩, marked, same⟩ := (run_map_ok _ _ _ _ _).mp parsed
    obtain rfl : other = value := same
    obtain ⟨-, text, again, whole, emits, -, exact⟩ := F.reencodes P typed _ _ _ _ marked
    rw [whole, emits.2, exact.mpr (canonical _ _ _ marked)]

theorem IntegerFormat.typed_inverse (P : Platform) (format : IntegerFormat) :
    ((Format.integer format format.defaultType).typed P).Inverse
      fun value => (format.trace format.defaultType value).chunks.flatten := by
  apply (Format.integer format format.defaultType).typed_inverse P rfl
  · intro value
    have inside : BitVec.toNat value < 2 ^ format.defaultBits := BitVec.isLt value
    rwa [format.defaultBits_eq] at inside
  · intro input found rest parsed mark member
    obtain ⟨value, -, rfl⟩ := (run_map_ok _ _ _ _ _).mp parsed
    exact absurd member List.not_mem_nil

namespace Map

variable [LinearOrder κ] {keyValue : TypedFormat (κ × ν)} {encode : κ × ν → List Byte}
  (inverse : keyValue.Inverse encode) {source : Source σ} {D : Delivery σ Byte}
  (delivers : source.Delivers D)

include inverse delivers in
theorem insertElements_reads (entries : List (κ × ν)) (m : SortedMap κ ν) (state : σ)
    (rest : List Byte) (ready : D.ready state)
    (unread : D.unread state = entries.flatMap encode ++ rest) :
    ∃ after, insertElements keyValue source entries.length (state, m) =
        .ok () (after, m.insertAll entries) ∧ D.ready after ∧ D.unread after = rest := by
  induction entries generalizing m state with
  | nil => exact ⟨state, rfl, ready, unread⟩
  | cons entry others ih =>
      rw [List.flatMap_cons, List.append_assoc] at unread
      obtain ⟨middle, read, ready', left⟩ :=
        inverse.reads source D delivers state entry _ ready unread
      obtain ⟨after, done, ready'', left'⟩ := ih (m.insert entry) middle ready' left
      refine ⟨after, ?_, ready'', left'⟩
      simp [insertElements, withLocal, read, readTarget, assignTarget, done,
        SortedMap.insertAll]

include inverse delivers in
theorem insertElements_consumed (count : Nat) (m final : SortedMap κ ν) (state after : σ)
    (ready : D.ready state)
    (done : insertElements keyValue source count (state, m) = .ok () (after, final)) :
    D.ready after ∧ ∃ entries, entries.length = count ∧ final = m.insertAll entries ∧
      D.unread state = entries.flatMap encode ++ D.unread after := by
  induction count generalizing m state with
  | zero =>
      cases done
      exact ⟨ready, [], rfl, rfl, rfl⟩
  | succ count ih =>
      obtain ⟨entry, ⟨middle, target⟩, read, done⟩ := (bind_ok_iff _ _ _ _ _).mp done
      obtain ⟨element, rfl⟩ := (withLocal_ok_iff _ _ _ _ _ _ _).mp read
      obtain ⟨ready', unread⟩ := inverse.consumed source D delivers _ _ _ ready element
      obtain ⟨ready'', entries, size, rfl, unread'⟩ := ih (m.insert entry) middle ready' done
      refine ⟨ready'', entry :: entries, by rw [List.length_cons, size], rfl, ?_⟩
      rw [unread, unread', List.flatMap_cons, List.append_assoc]

end Map

end Szn
