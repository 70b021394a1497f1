import Szn.Spec.RoundTrip

set_option autoImplicit false

namespace Szn

open Stateful Parsing Tracing Octets

namespace Integer

variable (format : Integer)

theorem deserialize_encode {σ : Type} {source : Source σ} {D : Delivery σ Byte}
    (delivers : source.Delivers D) (type : ValueType) (value target : BitVec type.bits)
    (state : σ) (rest : List Byte) (ready : D.ready state)
    (unread : D.unread state = format.encode type value ++ rest) :
    ∃ after, format.deserialize source type (state, target) =
        .ok () (after, format.truncate type value) ∧ D.ready after ∧ D.unread after = rest := by
  have deserializes : Deserializes D (format.deserialize source type) fun _ =>
      format.parse type := format.deserialize_implements delivers type
  apply deserializes.ok ready
  rw [unread]
  exact format.parse_reads type value rest

end Integer

theorem integer_round_trip_iff (P : Platform) (format : IntegerFormat) (type : ValueType)
    (value : BitVec type.bits) :
    ∃ written, format.serialize P insertionSink type value [] = .ok () written ∧
      ∀ {σ : Type} (source : Source σ) (D : Delivery σ Byte) (state : σ)
        (target : BitVec type.bits) (rest : List Byte), source.Delivers D → D.ready state →
        D.unread state = written ++ rest →
        ∃ after found, format.deserialize source type (state, target) = .ok () (after, found) ∧
          D.unread after = rest ∧ (found = value ↔ format.Represents type value) := by
  refine ⟨_, format.serialize_encode P type value [], ?_⟩
  intro σ source D state target rest delivers ready unread
  obtain ⟨after, done, -, left⟩ :=
    format.deserialize_encode delivers type value target state rest ready unread
  exact ⟨after, _, done, left,
    format.truncate_eq_iff format.defaultBits_eq format.byteSize_pos type value⟩

theorem integer_round_trip_enumeration :
    ∃ written, Integer.serialize amd64 ⟨2, .littleEndian⟩ insertionSink (.enumeration 32 true)
        (0xff : BitVec 32) [] = .ok () written ∧
      ∃ after, Integer.deserialize ⟨2, .littleEndian⟩ (rangeSource amd64) (.enumeration 32 true)
        (makeRangeSource (written ++ [7]), 0) = .ok () (after, (0xff : BitVec 32)) := by
  obtain ⟨written, done, read⟩ := integer_round_trip_iff amd64 ⟨⟨2, .littleEndian⟩, by decide⟩
    (.enumeration 32 true) (0xff : BitVec 32)
  refine ⟨written, done, ?_⟩
  obtain ⟨after, found, again, -, same⟩ := read (rangeSource amd64) rangeDelivery
    (makeRangeSource (written ++ [7])) 0 [7] (range_delivers amd64) (Nat.zero_le _) rfl
  rw [same.mpr (by decide)] at again
  exact ⟨after, again⟩

theorem Integer.truncate_signed_wider (format : Integer)
    (wider : 8 * format.byteSize < format.defaultBits) {bits : Nat} (value : BitVec bits) :
    format.truncate (.signed bits) value =
      (value.setWidth (8 * format.byteSize)).setWidth bits :=
  Casts.truncated_signExtend value _ _ wider

-- Three, five, six and seven bytes are read through a wider type, whose sign bit is clear.
theorem odd_width_round_trip_iff (P : Platform) (format : Integer)
    (odd : format.byteSize ∈ [3, 5, 6, 7]) (bits : Nat) (wide : 8 * format.byteSize ≤ bits)
    (value : BitVec bits) (low : -(2 : Int) ^ (8 * format.byteSize - 1) ≤ value.toInt)
    (high : value.toInt < (2 : Int) ^ (8 * format.byteSize - 1)) :
    ∃ written, format.serialize P insertionSink (.signed bits) value [] = .ok () written ∧
      ∀ {σ : Type} (source : Source σ) (D : Delivery σ Byte) (state : σ) (target : BitVec bits)
        (rest : List Byte), source.Delivers D → D.ready state →
        D.unread state = written ++ rest →
        ∃ after found, format.deserialize source (.signed bits) (state, target) =
            .ok () (after, found) ∧ D.unread after = rest ∧
          (found = value ↔ 0 ≤ value.toInt ∨ bits = 8 * format.byteSize) := by
  have wider : 8 * format.byteSize < format.defaultBits := by
    simp only [List.mem_cons, List.not_mem_nil, or_false] at odd
    rcases odd with size | size | size | size <;> simp [Integer.defaultBits, leastBits, size]
  have positive : 0 < 8 * format.byteSize := by
    simp only [List.mem_cons, List.not_mem_nil, or_false] at odd
    omega
  refine ⟨_, format.serialize_encode P (.signed bits) value [], ?_⟩
  intro σ source D state target rest delivers ready unread
  obtain ⟨after, done, -, left⟩ :=
    format.deserialize_encode delivers (.signed bits) value target state rest ready unread
  refine ⟨after, _, done, left, ?_⟩
  rw [format.truncate_signed_wider wider, Casts.setWidth_setWidth_iff]
  exact Casts.toNat_lt_iff value _ positive wide low high

theorem odd_width_round_trip_positive :
    ∃ written, Integer.serialize amd64 ⟨3, .bigEndian⟩ insertionSink (.signed 32)
        (5 : BitVec 32) [] = .ok () written ∧
      ∃ after, Integer.deserialize ⟨3, .bigEndian⟩ (rangeSource amd64) (.signed 32)
        (makeRangeSource (written ++ [7]), 0) = .ok () (after, (5 : BitVec 32)) := by
  obtain ⟨written, done, read⟩ := odd_width_round_trip_iff amd64 ⟨3, .bigEndian⟩ (by decide) 32
    (by decide) (5 : BitVec 32) (by decide) (by decide)
  refine ⟨written, done, ?_⟩
  obtain ⟨after, found, again, -, same⟩ := read (rangeSource amd64) rangeDelivery
    (makeRangeSource (written ++ [7])) 0 [7] (range_delivers amd64) (Nat.zero_le _) rfl
  rw [same.mpr (by decide)] at again
  exact ⟨after, again⟩

theorem odd_width_loses_sign :
    Integer.serialize amd64 ⟨3, .bigEndian⟩ insertionSink (.signed 32) (-1 : BitVec 32) [] =
        .ok () [255, 255, 255] ∧
      Integer.deserialize ⟨3, .bigEndian⟩ (rangeSource amd64) (.signed 32)
          (makeRangeSource [255, 255, 255], 0) =
        .ok () (⟨[255, 255, 255], 3⟩, (16777215 : BitVec 32)) ∧
      (-1 : BitVec 32) ≠ 16777215 := by
  refine ⟨by decide +kernel, by decide +kernel, by decide⟩

namespace IntegerSerializer

variable {w : Nat} (order host : ByteOrder) (size : Nat)

theorem serializeLoop_split (value : BitVec w) :
    serializeLoop order size insertionSink value [] =
      .ok () (split (order.placement size) value) := by
  have emits := Trace.Emits.all (fun byte => (.emit [byte] : Trace Byte Failure))
    (fun byte => [byte]) (split (order.placement size) value) fun byte _ => Trace.Emits.emit [byte]
  rw [Integer.serializeLoop_replay]
  refine (Trace.replay_append_ok _ _ _).mpr ⟨_, emits, ?_⟩
  simp

theorem serializePod_split (value prepared : BitVec w) (exact : w = 8 * size)
    (made : order.makeSerializablePod host size value = some prepared) :
    serializePod host size insertionSink prepared [] =
      .ok () (split (order.placement size) value) := by
  rw [Integer.serializePod_split order host size insertionSink value prepared exact made]
  rfl

end IntegerSerializer

theorem Integer.deserialize_split {σ : Type} {source : Source σ} {D : Delivery σ Byte}
    (delivers : source.Delivers D) (format : Integer)
    (exact : format.defaultBits = 8 * format.byteSize) (positive : 0 < format.byteSize)
    (value target : BitVec format.defaultBits) (state : σ) (rest : List Byte)
    (ready : D.ready state)
    (unread : D.unread state = split (format.order.placement format.byteSize) value ++ rest) :
    ∃ after, format.deserialize source format.defaultType (state, target) =
        .ok () (after, value) ∧ D.unread after = rest := by
  have encoded : split (format.order.placement format.byteSize) value =
      format.encode format.defaultType value := by
    simp [Integer.encode, Integer.placement, ValueType.toUnsigned, ValueType.isSigned]
  have kept : format.truncate format.defaultType value = value := by
    rw [format.truncate_eq_iff exact positive]
    change value.toNat < 2 ^ (8 * format.byteSize)
    rw [← exact]
    exact value.isLt
  rw [encoded] at unread
  obtain ⟨after, done, -, left⟩ :=
    format.deserialize_encode delivers format.defaultType value target state rest ready unread
  rw [kept] at done
  exact ⟨after, done, left⟩

open IntegerSerializer in
theorem intrinsic_matches_loop :
    (∀ (format : Integer) (host : ByteOrder) (value : BitVec format.defaultBits),
      format.byteSize = 2 ∨ format.byteSize = 4 →
      ∃ prepared written,
        format.order.makeSerializablePod host format.byteSize value = some prepared ∧
        serializePod host format.byteSize insertionSink prepared [] = .ok () written ∧
        serializeLoop format.order format.byteSize insertionSink value [] = .ok () written ∧
        ∀ {σ : Type} (source : Source σ) (D : Delivery σ Byte) (state : σ)
          (target : BitVec format.defaultBits) (rest : List Byte), source.Delivers D →
          D.ready state → D.unread state = written ++ rest →
          ∃ after, format.deserialize source format.defaultType (state, target) =
              .ok () (after, value) ∧ D.unread after = rest) ∧
    (∀ (format : Integer) (value : BitVec format.defaultBits),
      1 ≤ format.byteSize → format.byteSize ≤ 8 →
      serializeLoop format.order format.byteSize insertionSink value [] =
          .ok () (format.order.digits format.byteSize value.toNat) ∧
        ∀ b, b < format.byteSize →
          8 * format.order.getByteShift b format.byteSize < format.defaultBits) := by
  constructor
  · intro format host value size
    have exact : format.defaultBits = 8 * format.byteSize := by
      rcases size with size | size <;> simp [Integer.defaultBits, leastBits, size]
    obtain ⟨prepared, made⟩ : ∃ prepared,
        format.order.makeSerializablePod host format.byteSize value = some prepared := by
      rw [← Option.isSome_iff_exists, Integer.makeSerializablePod_isSome]
      exact decide_eq_true size
    refine ⟨prepared, _, made, serializePod_split _ _ _ value prepared exact made,
      serializeLoop_split _ _ value, ?_⟩
    intro σ source D state target rest delivers ready unread
    exact format.deserialize_split delivers exact (by omega) value target state rest ready unread
  · intro format value positive small
    refine ⟨?_, ?_⟩
    · rw [serializeLoop_split, split_digits]
    · intro b inside
      have shift := getByteShift_lt format.order format.byteSize b inside
      have wide : 8 * format.byteSize ≤ format.defaultBits := Integer.le_leastBits _ (by omega)
      omega

open IntegerSerializer in
theorem intrinsic_matches_loop_le32 :
    ∃ prepared written,
      ByteOrder.littleEndian.makeSerializablePod .bigEndian 4 (0x01020304 : BitVec 32) =
        some prepared ∧
      serializePod .bigEndian 4 insertionSink prepared [] = .ok () written ∧
      serializeLoop .littleEndian 4 insertionSink (0x01020304 : BitVec 32) [] = .ok () written := by
  obtain ⟨prepared, written, made, pod, loop, -⟩ :=
    intrinsic_matches_loop.1 ⟨4, .littleEndian⟩ .bigEndian (0x01020304 : BitVec 32)
      (Or.inr rfl)
  exact ⟨prepared, written, made, pod, loop⟩

end Szn
