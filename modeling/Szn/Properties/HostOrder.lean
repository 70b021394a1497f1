import Szn.Model.Pod
import Szn.Spec.RoundTrip

set_option autoImplicit false

namespace Szn

open Stateful Parsing Octets Intrinsics

theorem object_join (host : ByteOrder) (size : Nat) (data : List Byte) :
    host.object size data = join (host.placement size) (8 * size) data := rfl

theorem object_memory (host : ByteOrder) (size : Nat) (value : BitVec (8 * size)) :
    host.object size (host.memory size value) = value := by
  rw [object_join, memory_split, join_split, BitVec.setWidth_eq, BitVec.setWidth_eq]

theorem memory_digits (host : ByteOrder) (size : Nat) (value : BitVec (8 * size)) :
    host.memory size value = host.digits size value.toNat := by
  rw [memory_split, split_digits]

theorem memory_reversed (first second : ByteOrder) (size : Nat) (value : BitVec (8 * size))
    (other : first ≠ second) :
    second.memory size (reverseBytes size value) = first.memory size value := by
  cases first with
  | bigEndian =>
      cases second with
      | bigEndian => exact absurd rfl other
      | littleEndian =>
          rw [reverseBytes_little, memory_split, split_join _ _ (split_length _ _) (Nat.le_refl _)]
          rfl
  | littleEndian =>
      cases second with
      | littleEndian => exact absurd rfl other
      | bigEndian =>
          rw [reverseBytes_big, memory_split, split_join _ _ (split_length _ _) (Nat.le_refl _)]
          rfl

theorem object_across (writer reader : ByteOrder) (size : Nat) (value : BitVec (8 * size)) :
    reader.object size (writer.memory size value) =
      if writer = reader then value else reverseBytes size value := by
  split
  · next same => rw [same, object_memory]
  · next other => rw [← memory_reversed writer reader size value other, object_memory]

theorem digits_reversed (first second : ByteOrder) (size : Nat) (value : BitVec (8 * size))
    (other : first ≠ second) :
    second.digits size (reverseBytes size value).toNat = first.digits size value.toNat := by
  rw [← memory_digits, ← memory_digits, memory_reversed first second size value other]

theorem pod_written (P : Platform) (size : Nat) (value : BitVec (8 * size))
    (before : List Byte) :
    Pod.serialize P size insertionSink value before =
      .ok () (before ++ P.host.digits size value.toNat) := by
  rw [← memory_digits]
  rfl

theorem pod_read {σ : Type} {source : Source σ} {D : Delivery σ Byte} (P : Platform)
    (delivers : source.Delivers D) (size : Nat) (positive : 0 < size) (state : σ)
    (old : BitVec (8 * size)) (data rest : List Byte) (ready : D.ready state)
    (complete : data.length = size) (unread : D.unread state = data ++ rest) :
    ∃ after, Pod.deserialize P size source (state, old) =
        .ok () (after, P.host.object size data) ∧ D.ready after ∧ D.unread after = rest := by
  have held : (P.host.memory size old).length = size := by
    rw [memory_split, split_length]
  obtain ⟨after, done, ready', left⟩ := delivers.enough state (P.host.memory size old) size ready
    positive held.ge (by rw [unread, List.length_append]; omega)
  rw [unread, List.take_left' complete, List.drop_of_length_le held.le, List.append_nil] at done
  rw [unread, List.drop_left' complete] at left
  exact ⟨after, by simp only [Pod.deserialize, within, done], ready', left⟩

theorem pod_across_hosts (writer reader : Platform) (size : Nat) (positive : 0 < size)
    (small : size ≤ 8) (value : BitVec (8 * size)) (before : List Byte) :
    ∃ text, text.length = size ∧
      Pod.serialize writer size insertionSink value before = .ok () (before ++ text) ∧
      ∀ {σ : Type} (source : Source σ) (D : Delivery σ Byte) (state : σ)
        (old : BitVec (8 * size)) (rest : List Byte), source.Delivers D → D.ready state →
        D.unread state = text ++ rest →
          (∃ after, Pod.deserialize reader size source (state, old) =
              .ok () (after, if writer.host = reader.host then value
                else reverseBytes size value) ∧ D.unread after = rest) ∧
          ∃ after, (Integer.mk size writer.host).deserialize source (.unsigned (8 * size))
              (state, old) = .ok () (after, value) ∧ D.unread after = rest := by
  refine ⟨writer.host.digits size value.toNat, by simp, pod_written writer size value before, ?_⟩
  intro σ source D state old rest delivers ready unread
  constructor
  · obtain ⟨after, done, -, left⟩ := pod_read reader delivers size positive state old
      (writer.host.memory size value) rest ready (by rw [memory_split, split_length])
        (by rw [unread, memory_digits])
    rw [object_across] at done
    exact ⟨after, done, left⟩
  · obtain ⟨after, done, -, left⟩ := (Integer.mk size writer.host).deserialize_digits delivers
      small value.toNat value.isLt (8 * size) state old rest ready unread
    rw [BitVec.ofNat_toNat, BitVec.setWidth_eq] at done
    exact ⟨after, done, left⟩

theorem pod_across_hosts_swapped :
    let powerpc : Platform := { amd64 with host := .bigEndian }
    ∃ after, Pod.deserialize powerpc 2 (rangeSource powerpc)
        (makeRangeSource [2, 1, 9], (0 : BitVec 16)) = .ok () (after, (0x0201 : BitVec 16)) ∧
      rangeDelivery.unread after = [9] := by
  intro powerpc
  obtain ⟨text, -, written, reads⟩ :=
    pod_across_hosts amd64 powerpc 2 (by decide) (by decide) (0x0102 : BitVec 16) []
  have bytes : Pod.serialize amd64 2 insertionSink (0x0102 : BitVec 16) [] =
      .ok () [2, 1] := by decide +kernel
  rw [bytes] at written
  cases written
  exact (reads (rangeSource powerpc) rangeDelivery (makeRangeSource [2, 1, 9]) 0 [9]
    (range_delivers powerpc) (Nat.zero_le _) rfl).1

theorem byte_orders_dual (P : Platform) (first second : ByteOrder) (other : first ≠ second)
    (size : Nat) (small : size ≤ 8) :
    (∀ (value : BitVec (8 * size)) (before : List Byte),
      (Integer.mk size second).serialize P insertionSink (.unsigned (8 * size))
          (reverseBytes size value) before =
        (Integer.mk size first).serialize P insertionSink (.unsigned (8 * size)) value before) ∧
    (∀ {σ : Type} (source : Source σ) (D : Delivery σ Byte) (state after : σ)
      (old value : BitVec (8 * size)), source.Delivers D → D.ready state →
      (Integer.mk size first).deserialize source (.unsigned (8 * size)) (state, old) =
        .ok () (after, value) →
      ∃ final, (Integer.mk size second).deserialize source (.unsigned (8 * size)) (state, old) =
        .ok () (final, reverseBytes size value) ∧ D.unread final = D.unread after) ∧
    ∀ value : BitVec (8 * size), reverseBytes size (reverseBytes size value) = value := by
  have encoded (order : ByteOrder) (value : BitVec (8 * size)) :
      (Integer.mk size order).encode (.unsigned (8 * size)) value =
        order.digits size value.toNat := by
    have digits := (Integer.mk size order).encode_digits small value.toNat (8 * size) value.isLt
      value.isLt
    rwa [BitVec.ofNat_toNat, BitVec.setWidth_eq] at digits
  refine ⟨?_, ?_, fun value => reverseBytes_reverseBytes size value rfl⟩
  · intro value before
    rw [Integer.serialize_encode, Integer.serialize_encode, encoded, encoded,
      digits_reversed first second size value other]
  · intro σ source D state after old value delivers ready done
    obtain ⟨ready', number, inside, unread, rfl⟩ :=
      (Integer.mk size first).deserialize_consumed delivers small _ _ _ _ _ ready done
    have swapped := digits_reversed first second size (BitVec.ofNat (8 * size) number) other
    rw [BitVec.toNat_ofNat, Nat.mod_eq_of_lt inside] at swapped
    rw [← swapped] at unread
    obtain ⟨final, again, -, left⟩ := (Integer.mk size second).deserialize_digits delivers small _
      (BitVec.isLt _) (8 * size) state old _ ready unread
    rw [BitVec.ofNat_toNat, BitVec.setWidth_eq] at again
    exact ⟨final, again, left⟩

theorem byte_orders_dual_four :
    (Integer.mk 4 .littleEndian).serialize amd64 insertionSink (.unsigned 32)
        (reverseBytes 4 (0x01020304 : BitVec 32)) [] =
      (Integer.mk 4 .bigEndian).serialize amd64 insertionSink (.unsigned 32)
        (0x01020304 : BitVec 32) [] :=
  (byte_orders_dual amd64 .bigEndian .littleEndian (by decide) 4 (by decide)).1 0x01020304 []

theorem binary_float_portable (writer reader : Platform) (format : IntegerFormat) (size : Nat)
    (value : BitVec (8 * size)) (before : List Byte) :
    ∃ text returned, text.length = format.byteSize ∧
      BinaryFloat.serialize writer format.toInteger size insertionSink value before =
        .ok () (before ++ text) ∧
      (∀ {σ : Type} (source : Source σ) (D : Delivery σ Byte) (state : σ)
        (old : BitVec (8 * size)) (rest : List Byte), source.Delivers D → D.ready state →
        D.unread state = text ++ rest →
          ∃ after, BinaryFloat.deserialize reader format.toInteger size source (state, old) =
              .ok () (after, returned) ∧ D.unread after = rest) ∧
      (returned = value ↔ format.Represents (.signed (8 * size)) value) ∧
      (size ≤ format.byteSize → returned = value) := by
  have kept := format.truncate_eq_iff format.defaultBits_eq format.byteSize_pos
    (.signed (8 * size)) value
  refine ⟨format.encode (.signed (8 * size)) value, format.truncate (.signed (8 * size)) value,
    by simp, ?_, ?_, kept, ?_⟩
  · unfold BinaryFloat.serialize
    rw [object_memory]
    exact format.serialize_encode writer (.signed (8 * size)) value before
  · intro σ source D state old rest delivers ready unread
    have reads := format.parse_reads (.signed (8 * size)) value
    obtain ⟨after, done, -, left⟩ := Deserializes.local_ok
      (format.toInteger.deserialize_implements delivers (.signed (8 * size))) ready 0 old _ rest
        (by rw [unread]; exact reads rest)
    refine ⟨after, ?_, left⟩
    refine (bind_of_ok _ _ _ _ _ done).trans ?_
    rw [object_memory]
    rfl
  · intro wide
    rw [kept]
    have low := BitVec.le_toInt value
    have high := BitVec.toInt_lt (x := value)
    have power : (2 : Int) ^ (8 * size - 1) ≤ 2 ^ (8 * format.byteSize - 1) :=
      mod_cast Nat.pow_le_pow_right Nat.two_pos (by omega)
    exact ⟨by omega, by omega⟩

end Szn
