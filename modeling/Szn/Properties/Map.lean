import Szn.Spec.Map

set_option autoImplicit false

namespace Szn

open Stateful Parsing Tracing

variable {σ κ ν : Type} [LinearOrder κ]

namespace Map

variable (P : Platform) (length : Integer) {keyValue : TypedFormat (κ × ν)}
  {encode : κ × ν → List Byte}

def bytes (encode : κ × ν → List Byte) (count : Nat) (entries : List (κ × ν)) : List Byte :=
  length.order.digits length.byteSize count ++ entries.flatMap encode

section Runs

variable (small : length.byteSize ≤ 8) (inverse : keyValue.Inverse encode)

include small inverse in
theorem serialize_bytes (m : SortedMap κ ν)
    (counts : m.entries.length < 2 ^ (8 * length.byteSize))
    (held : m.entries.length < 2 ^ P.sizeBits) :
    serialize P length keyValue insertionSink m [] =
      .ok () (bytes length encode m.entries.length m.entries) := by
  have size := length.serialize_encode P (sizeType P) (BitVec.ofNat P.sizeBits m.entries.length) []
  rw [length.encode_digits small _ _ counts held, List.nil_append] at size
  rw [serialize, Vector.serializeImpl, Vector.serializeSize, bind_run, size]
  exact inverse.writes_all m.entries _

variable {source : Source σ} {D : Delivery σ Byte} (delivers : source.Delivers D)

include small inverse delivers in
theorem deserialize_bytes (count : Nat) (entries : List (κ × ν))
    (counts : count < 2 ^ (8 * length.byteSize))
    (wrapped : entries.length = count % 2 ^ P.sizeBits) (state : σ) (old : SortedMap κ ν)
    (rest : List Byte) (ready : D.ready state)
    (unread : D.unread state = bytes length encode count entries ++ rest) :
    ∃ after, deserialize P length keyValue source (state, old) =
        .ok () (after, SortedMap.empty.insertAll entries) ∧
      D.ready after ∧ D.unread after = rest := by
  rw [bytes, List.append_assoc] at unread
  obtain ⟨middle, field, ready', left⟩ := length.deserialize_digits delivers small count counts
    P.sizeBits state 0 _ ready unread
  obtain ⟨after, done, ready'', left'⟩ :=
    insertElements_reads inverse delivers entries SortedMap.empty middle rest ready' left
  refine ⟨after, ?_, ready'', left'⟩
  rw [wrapped, ← BitVec.toNat_ofNat] at done
  rw [deserialize, bind_ok_iff]
  exact ⟨_, (middle, old), (withLocal_ok_iff _ _ _ _ _ _ _).mpr ⟨field, rfl⟩, done⟩

include small inverse delivers in
theorem deserialize_consumed (state after : σ) (old m : SortedMap κ ν) (ready : D.ready state)
    (done : deserialize P length keyValue source (state, old) = .ok () (after, m)) :
    ∃ count entries, count < 2 ^ (8 * length.byteSize) ∧
      entries.length = count % 2 ^ P.sizeBits ∧ m = SortedMap.empty.insertAll entries ∧
        D.unread state = bytes length encode count entries ++ D.unread after := by
  obtain ⟨size, ⟨middle, target⟩, field, done⟩ := (bind_ok_iff _ _ _ _ _).mp done
  obtain ⟨read, rfl⟩ := (withLocal_ok_iff _ _ _ _ _ _ _).mp field
  obtain ⟨ready', count, counts, unread, rfl⟩ :=
    length.deserialize_consumed delivers small _ _ _ _ _ ready read
  obtain ⟨-, entries, wrapped, rfl, unread'⟩ :=
    insertElements_consumed inverse delivers _ _ _ _ _ ready' done
  rw [BitVec.toNat_ofNat] at wrapped
  refine ⟨count, entries, counts, wrapped, rfl, ?_⟩
  rw [unread, unread', bytes, List.append_assoc]

end Runs

theorem bytes_eq_iff (small : length.byteSize ≤ 8) (free : PrefixFree encode) (count : Nat)
    (entries : List (κ × ν)) (counts : count < 2 ^ (8 * length.byteSize))
    (wrapped : entries.length = count % 2 ^ P.sizeBits) :
    let m := SortedMap.empty.insertAll entries
    bytes length encode m.entries.length m.entries = bytes length encode count entries ↔
      SortedMap.Ascending entries ∧ count < 2 ^ P.sizeBits := by
  intro m
  have kept : m.entries.length ≤ entries.length := SortedMap.empty_insertAll_length entries
  have wraps : count % 2 ^ P.sizeBits = count ↔ count < 2 ^ P.sizeBits :=
    Nat.mod_eq_iff_lt (Nat.two_pow_pos _).ne'
  have below : entries.length ≤ count := wrapped ▸ Nat.mod_le _ _
  constructor
  · intro same
    obtain ⟨fields, elements⟩ := List.append_inj same (by simp)
    have size : m.entries.length = count :=
      length.digits_inj small _ _ (by omega) counts fields
    have whole : entries.length = count := by omega
    have equal : m.entries = entries := free.flatMap _ _ (by omega) elements
    refine ⟨?_, wraps.mp (wrapped.symm.trans whole)⟩
    rw [← equal]
    exact m.ascending
  · rintro ⟨ascending, fits⟩
    have same : m.entries = entries :=
      SortedMap.insertAll_ascending entries SortedMap.empty ascending
    rw [same, wrapped, wraps.mpr fits]

/-- The map is written as `written`, and read back from that. -/
def Survives (keyValue : TypedFormat (κ × ν)) (source : Source σ) (D : Delivery σ Byte)
    (m : SortedMap κ ν) (written : List Byte) : Prop :=
  serialize P length keyValue insertionSink m [] = .ok () written ∧
    ∀ state old rest, D.ready state → D.unread state = written ++ rest →
      ∃ after, deserialize P length keyValue source (state, old) = .ok () (after, m) ∧
        D.ready after ∧ D.unread after = rest

theorem bytes_survive (small : length.byteSize ≤ 8) (inverse : keyValue.Inverse encode)
    {source : Source σ} {D : Delivery σ Byte} (delivers : source.Delivers D) (m : SortedMap κ ν)
    (counts : m.entries.length < 2 ^ (8 * length.byteSize))
    (held : m.entries.length < 2 ^ P.sizeBits) :
    Survives P length keyValue source D m (bytes length encode m.entries.length m.entries) := by
  refine ⟨serialize_bytes P length small inverse m counts held, ?_⟩
  intro state old rest ready unread
  have read := deserialize_bytes P length small inverse delivers m.entries.length m.entries
    counts (Nat.mod_eq_of_lt held).symm state old rest ready unread
  rwa [SortedMap.empty_insertAll] at read

end Map

theorem map_reserialize_iff (P : Platform) (length : Integer) (small : length.byteSize ≤ 8)
    {key : TypedFormat κ} {value : TypedFormat ν} {encodeKey : κ → List Byte}
    {encodeValue : ν → List Byte} (keyInverse : key.Inverse encodeKey)
    (valueInverse : value.Inverse encodeValue) (source : Source σ) (D : Delivery σ Byte)
    (delivers : source.Delivers D) :
    let keyValue := key.pair value
    let encode := fun entry : κ × ν => encodeKey entry.1 ++ encodeValue entry.2
    let Survives := Map.Survives P length keyValue source D
    (∀ state after old m, D.ready state →
      Map.deserialize P length keyValue source (state, old) = .ok () (after, m) →
        ∃ count entries text again, count < 2 ^ (8 * length.byteSize) ∧
          entries.length = count % 2 ^ P.sizeBits ∧
          text = length.order.digits length.byteSize count ++ entries.flatMap encode ∧
          D.unread state = text ++ D.unread after ∧
          (∀ key, m.lookup key = entries.lookup key) ∧ Survives m again ∧
          (again = text ↔ SortedMap.Ascending entries ∧ count < 2 ^ P.sizeBits) ∧
          ((again = text ↔ SortedMap.Ascending entries) ↔
            count < 2 ^ P.sizeBits ∨ ¬ SortedMap.Ascending entries)) ∧
    ∀ m : SortedMap κ ν, m.entries.length < 2 ^ (8 * length.byteSize) →
      m.entries.length < 2 ^ P.sizeBits → ∃ written, Survives m written := by
  intro keyValue encode Survives
  have inverse : keyValue.Inverse encode := keyInverse.pair valueInverse
  have survives := Map.bytes_survive P length small inverse delivers
  refine ⟨?_, fun m counts held => ⟨_, survives m counts held⟩⟩
  intro state after old m ready done
  obtain ⟨count, entries, counts, wrapped, rfl, unread⟩ :=
    Map.deserialize_consumed P length small inverse delivers state after old m ready done
  have kept := SortedMap.empty_insertAll_length entries
  have below : entries.length ≤ count := wrapped ▸ Nat.mod_le _ _
  have narrow : entries.length < 2 ^ P.sizeBits := wrapped ▸ Nat.mod_lt _ (Nat.two_pow_pos _)
  have same := Map.bytes_eq_iff P length small inverse.prefixFree count entries counts wrapped
  refine ⟨count, entries, _, _, counts, wrapped, rfl, unread, ?_,
    survives _ (by omega) (by omega), same, ?_⟩
  · intro key
    rw [SortedMap.lookup_insertAll]
    exact Option.none_or
  · refine (iff_congr same Iff.rfl).trans ?_
    rw [and_iff_left_iff_imp, imp_iff_or_not]

section Unsorted

attribute [local instance] unsignedOrder

def typedBe8 (P : Platform) : TypedFormat (BitVec 8) :=
  (Format.integer ⟨be8, List.mem_cons_self⟩ be8.defaultType).typed P

theorem map_reserialize_unsorted :
    let octets := typedBe8 amd64
    let text : List Byte := [3, 5, 1, 3, 2, 5, 9]
    ∃ m again, Map.deserialize amd64 be8 (octets.pair octets) (rangeSource amd64)
        (makeRangeSource text, SortedMap.empty) = .ok () (⟨text, 7⟩, m) ∧
      Map.Survives amd64 be8 (octets.pair octets) (rangeSource amd64) rangeDelivery m again ∧
        again ≠ text := by
  intro octets text
  let m : SortedMap (BitVec 8) (BitVec 8) := ⟨[(3, 2), (5, 1)], by decide⟩
  have inverse : octets.Inverse _ := IntegerFormat.typed_inverse amd64 ⟨be8, by decide⟩
  have done : Map.deserialize amd64 be8 (octets.pair octets) (rangeSource amd64)
      (makeRangeSource text, SortedMap.empty) = .ok () (⟨text, 7⟩, m) := by
    decide +kernel
  have written : Map.serialize amd64 be8 (octets.pair octets) insertionSink m [] =
      .ok () [2, 3, 2, 5, 1] := by
    decide +kernel
  obtain ⟨_, _, _, again, -, -, -, -, -, survives, -⟩ :=
    (map_reserialize_iff amd64 be8 (by decide) inverse inverse (rangeSource amd64) rangeDelivery
      (range_delivers amd64)).1 (makeRangeSource text) _ _ _ (Nat.zero_le _) done
  have same := written.symm.trans survives.1
  cases same
  exact ⟨m, _, done, survives, by decide⟩

theorem map_count_wraps :
    let octets := typedBe8 ilp32
    let text : List Byte := [0, 0, 0, 1, 0, 0, 0, 0]
    let m : SortedMap (BitVec 8) (BitVec 8) := SortedMap.empty
    Map.deserialize ilp32 be64 (octets.pair octets) (rangeSource ilp32) (makeRangeSource text, m) =
        .ok () (⟨text, 8⟩, m) ∧
      Map.serialize ilp32 be64 (octets.pair octets) insertionSink m [] =
        .ok () [0, 0, 0, 0, 0, 0, 0, 0] ∧
      SortedMap.Ascending m.entries := by
  refine ⟨by decide +kernel, by decide +kernel, by decide⟩

end Unsorted

end Szn
