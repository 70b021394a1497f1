import Szn.Spec.Serialize
import Szn.Spec.Source

set_option autoImplicit false

namespace Szn

open Stateful Parsing Tracing

def PrefixCorrect (P : Platform) (length : Integer) (count : Nat)
    (run : EStateM.Result Failure (List Byte) Unit) : Prop :=
  ∀ written, run = .ok () written →
    ∃ after size, length.deserialize (rangeSource P) (sizeType P) (makeRangeSource written, 0) =
        .ok () (after, size) ∧ size.toNat = count

theorem read_prefix (P : Platform) (length : Integer) (size : BitVec P.sizeBits)
    (rest : List Byte) :
    ∃ after, length.deserialize (rangeSource P) (sizeType P)
        (makeRangeSource (length.encode (sizeType P) size ++ rest), 0) =
      .ok () (after, length.truncate (sizeType P) size) := by
  have implements := length.deserialize_implements (range_delivers P) (sizeType P)
  have ready : rangeDelivery.ready
      (makeRangeSource (length.encode (sizeType P) size ++ rest)) := Nat.zero_le _
  have parsed := length.parse_reads (sizeType P) size rest
  obtain ⟨after, done, -⟩ := implements.ok ready ((run_map_ok _ _ _ _ _).mpr ⟨_, parsed, rfl⟩)
  exact ⟨after, done⟩

theorem entry_written (P : Platform) (length : Integer) {α : Type}
    (element : α → Trace Byte Failure) (entry : Vector.EntryPoint) (sequence : List α)
    (written : List Byte) :
    entry.serialize P length insertionSink
        (fun value => (element value).replay insertionSink.write) sequence [] =
      .ok () written ↔
      ∃ rest, (Trace.all element sequence).Emits rest ∧
        written = length.encode (sizeType P) (BitVec.ofNat P.sizeBits sequence.length) ++ rest := by
  have prefixed := length.trace_emits (sizeType P) (BitVec.ofNat P.sizeBits sequence.length)
  rw [Vector.EntryPoint.serialize_replay]
  refine (Trace.replay_append_ok _ [] written).trans ?_
  simp only [List.nil_append, Trace.emits_andThen]
  constructor
  · intro ⟨text, ⟨head, rest, emits, elements, whole⟩, same⟩
    exact ⟨rest, elements, by rw [same, ← whole, emits.unique prefixed]⟩
  · intro ⟨rest, elements, same⟩
    exact ⟨written, ⟨_, rest, prefixed, elements, same.symm⟩, rfl⟩

theorem prefix_correct_iff (P : Platform) (length : Integer) (small : length.byteSize ≤ 8)
    {α : Type} (element : α → Trace Byte Failure) (entry : Vector.EntryPoint)
    (sequence : List α) (held : sequence.length < 2 ^ P.sizeBits) :
    PrefixCorrect P length sequence.length
        (entry.serialize P length insertionSink
          (fun value => (element value).replay insertionSink.write) sequence []) ↔
      sequence.length < 2 ^ (8 * length.byteSize) ∨
        ∃ value ∈ sequence, (element value).ending ≠ none := by
  have size : (length.truncate (sizeType P) (BitVec.ofNat P.sizeBits sequence.length)).toNat =
      sequence.length % 2 ^ (8 * length.byteSize) := by
    rw [length.truncate_unsigned small, BitVec.toNat_ofNat, Nat.mod_eq_of_lt held]
  constructor
  · intro correct
    by_cases failing : ∃ value ∈ sequence, (element value).ending ≠ none
    · exact Or.inr failing
    · left
      have ends : (Trace.all element sequence).ending = none := by
        rw [Trace.all_ending]
        intro value member
        by_contra ended
        exact failing ⟨value, member, ended⟩
      obtain ⟨after, read, done, count⟩ := correct _
        ((entry_written P length element entry sequence _).mpr ⟨_, ⟨ends, rfl⟩, rfl⟩)
      obtain ⟨other, again⟩ := read_prefix P length (BitVec.ofNat P.sizeBits sequence.length)
        (Trace.all element sequence).chunks.flatten
      rw [again] at done
      cases done
      rw [size] at count
      rw [← count]
      exact Nat.mod_lt _ (Nat.two_pow_pos _)
  · intro either written done
    obtain ⟨rest, elements, rfl⟩ := (entry_written P length element entry sequence _).mp done
    have ends := (Trace.all_ending element sequence).mp elements.1
    obtain ⟨after, read⟩ := read_prefix P length (BitVec.ofNat P.sizeBits sequence.length) rest
    refine ⟨after, _, read, ?_⟩
    rw [size]
    apply Nat.mod_eq_of_lt
    apply either.resolve_right
    intro ⟨value, member, failing⟩
    exact failing (ends value member)

theorem prefix_correct_string :
    PrefixCorrect amd64 ⟨2, .littleEndian⟩ 3
      (Vector.EntryPoint.serialize amd64 ⟨2, .littleEndian⟩ insertionSink
        (fun value : BitVec 8 => (be8.trace (.unsigned 8) value).replay insertionSink.write)
        [97, 98, 99] (.container .string) []) :=
  (prefix_correct_iff amd64 ⟨2, .littleEndian⟩ (by decide) (be8.trace (.unsigned 8))
    (.container .string) [97, 98, 99] (by decide)).mpr (Or.inl (by decide))

theorem prefix_wraps :
    ¬ PrefixCorrect amd64 be8 256
      (Vector.EntryPoint.serialize amd64 be8 insertionSink
        (be8.serialize amd64 insertionSink (.unsigned 8)) (List.replicate 256 (0 : BitVec 8))
        (.container (.vector Abi.bufferMax)) []) := by
  intro correct
  have done : Vector.EntryPoint.serialize amd64 be8 insertionSink
      (be8.serialize amd64 insertionSink (.unsigned 8)) (List.replicate 256 (0 : BitVec 8))
      (.container (.vector Abi.bufferMax)) [] = .ok () (List.replicate 257 0) := by
    decide +kernel
  have read : be8.deserialize (rangeSource amd64) (sizeType amd64)
      (makeRangeSource (List.replicate 257 0), 0) = .ok () (⟨List.replicate 257 0, 1⟩, 0) := by
    decide +kernel
  obtain ⟨after, size, again, count⟩ := correct _ done
  rw [read] at again
  cases again
  exact absurd count (by decide)

end Szn
