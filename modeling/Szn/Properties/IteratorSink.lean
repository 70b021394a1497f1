import Szn.Spec.Serialize

set_option autoImplicit false

namespace Szn

open Stateful Tracing

namespace OutputIterator

variable {ι μ : Type} (iterator : OutputIterator ι μ)

theorem copy_append (data more : List Byte) (position : ι) (memory : μ) :
    iterator.copy (data ++ more) position memory =
      iterator.copy more (iterator.copy data position memory).1
        (iterator.copy data position memory).2 := by
  induction data generalizing position memory with
  | nil => rfl
  | cons byte rest ih => exact ih _ _

/-- Writing on through the incremented iterator does what the iterator itself does. -/
def PositionFree : Prop :=
  ∀ byte data position memory,
    (iterator.copy data (iterator.put byte position memory).1
        (iterator.put byte position memory).2).2 =
      (iterator.copy data position (iterator.put byte position memory).2).2

def Delivered (program : (σ : Type) → Sink σ → EStateM Failure σ Unit) (position : ι)
    (memory : μ) : Prop :=
  ∀ appended, program _ insertionSink [] = .ok () appended →
    ∃ kept, program _ (iteratorSink iterator) (position, memory) =
      .ok () (kept, (iterator.copy appended position memory).2)

def overwrite (chunks : List (List Byte)) (position : ι) (memory : μ) : μ :=
  chunks.foldl (fun memory chunk => (iterator.copy chunk position memory).2) memory

theorem write_chunks (chunks : List (List Byte)) (position : ι) (memory : μ) :
    (chunks.forM (iteratorSink iterator).write) (position, memory) =
      .ok () (position, iterator.overwrite chunks position memory) := by
  induction chunks generalizing memory with
  | nil => rfl
  | cons chunk rest ih => exact ih _

theorem delivered_iff (program : (σ : Type) → Sink σ → EStateM Failure σ Unit)
    (trace : Trace Byte Failure)
    (replays : ∀ (σ : Type) (sink : Sink σ), program σ sink = trace.replay sink.write)
    (position : ι) (memory : μ) :
    iterator.Delivered program position memory ↔
      (trace.ending = none → iterator.overwrite trace.chunks position memory =
        (iterator.copy trace.chunks.flatten position memory).2) := by
  have appends (appended : List Byte) : trace.replay insertionSink.write [] = .ok () appended ↔
      trace.Emits appended := by
    refine (Trace.replay_append_ok trace [] appended).trans ?_
    simp
  simp only [Delivered, replays, appends]
  constructor
  · intro delivered ends
    obtain ⟨kept, done⟩ := delivered _ ⟨ends, rfl⟩
    simp only [Trace.replay, ends, bind_run, write_chunks, pure_run, EStateM.Result.ok.injEq,
      Prod.mk.injEq] at done
    exact done.2.2
  · intro same appended emits
    refine ⟨position, ?_⟩
    simp only [Trace.replay, emits.1, bind_run, write_chunks, pure_run, same emits.1, emits.2]

section PositionFree

variable {iterator} (free : iterator.PositionFree)

include free

theorem restart (data more : List Byte) (position : ι) (memory : μ) :
    (iterator.copy more (iterator.copy data position memory).1
        (iterator.copy data position memory).2).2 =
      (iterator.copy more position (iterator.copy data position memory).2).2 := by
  induction data generalizing position memory with
  | nil => rfl
  | cons byte rest ih =>
      have whole := free byte (rest ++ more) position memory
      have same := free byte rest position memory
      simp only [copy_append] at whole
      -- Both runs can start over at the first position.
      rw [ih position, ← same] at whole
      exact whole

theorem overwrite_free (chunks : List (List Byte)) (position : ι) (memory : μ) :
    iterator.overwrite chunks position memory =
      (iterator.copy chunks.flatten position memory).2 := by
  induction chunks generalizing memory with
  | nil => rfl
  | cons chunk rest ih =>
      rw [List.flatten_cons, copy_append, restart free]
      exact ih _

theorem delivered_free (program : (σ : Type) → Sink σ → EStateM Failure σ Unit)
    (trace : Trace Byte Failure)
    (replays : ∀ (σ : Type) (sink : Sink σ), program σ sink = trace.replay sink.write)
    (position : ι) (memory : μ) : iterator.Delivered program position memory :=
  (iterator.delivered_iff program trace replays position memory).mpr fun _ =>
    overwrite_free free trace.chunks position memory

end PositionFree

def writes (chunks : List (List Byte)) (σ : Type) (sink : Sink σ) : EStateM Failure σ Unit :=
  chunks.forM sink.write

theorem writes_replay (chunks : List (List Byte)) (σ : Type) (sink : Sink σ) :
    writes chunks σ sink = (⟨chunks, none⟩ : Trace Byte Failure).replay sink.write := by
  simp [writes, Trace.replay]

theorem delivered_writes_iff (chunks : List (List Byte)) (position : ι) (memory : μ) :
    iterator.Delivered (writes chunks) position memory ↔
      iterator.overwrite chunks position memory =
        (iterator.copy chunks.flatten position memory).2 := by
  rw [iterator.delivered_iff _ _ (writes_replay chunks)]
  simp

theorem delivered_all_iff :
    (∀ chunks position memory, iterator.Delivered (writes chunks) position memory) ↔
      iterator.PositionFree := by
  constructor
  · intro delivered byte data position memory
    have both := (iterator.delivered_writes_iff [[byte], data] position memory).mp
      (delivered [[byte], data] position memory)
    simpa [overwrite, copy] using both.symm
  · intro free chunks position memory
    exact delivered_free free _ _ (writes_replay chunks) position memory

end OutputIterator

theorem backInserter_free : backInserter.PositionFree := by
  intro byte data position memory
  rfl

section Pointer

open OutputIterator

theorem pointer_copy (data : List Byte) (position : Nat) (buffer : List Byte)
    (room : position + data.length ≤ buffer.length) :
    pointer.copy data position buffer =
      (position + data.length,
        buffer.take position ++ data ++ buffer.drop (position + data.length)) := by
  induction data generalizing position buffer with
  | nil => simp [copy]
  | cons byte rest ih =>
      simp only [List.length_cons] at room
      have next := ih (position + 1) (buffer.set position byte) (by simp; omega)
      have inside : position < buffer.length := by omega
      have written : (buffer.set position byte).take (position + 1) =
          buffer.take position ++ [byte] := by
        rw [List.take_add_one, List.take_set_of_le (Nat.le_refl _)]
        simp [inside]
      have later : (buffer.set position byte).drop (position + 1 + rest.length) =
          buffer.drop (position + 1 + rest.length) := List.drop_set_of_lt (by omega)
      simp only [copy, pointer] at next ⊢
      rw [next, written, later]
      simp [Nat.add_assoc, Nat.add_comm 1]

theorem pointer_copy_untouched (data : List Byte) (position index : Nat) (buffer : List Byte)
    (behind : position + data.length ≤ index) :
    (pointer.copy data position buffer).2[index]? = buffer[index]? := by
  induction data generalizing position buffer with
  | nil => rfl
  | cons byte rest ih =>
      simp only [List.length_cons] at behind
      have next := ih (position + 1) (buffer.set position byte) (by omega)
      rw [List.getElem?_set_ne (by omega)] at next
      exact next

theorem pointer_overwrite_untouched (chunks : List (List Byte)) (position index : Nat)
    (buffer : List Byte) (behind : ∀ chunk ∈ chunks, position + chunk.length ≤ index) :
    (pointer.overwrite chunks position buffer)[index]? = buffer[index]? := by
  induction chunks generalizing buffer with
  | nil => rfl
  | cons chunk rest ih =>
      have later := ih (pointer.copy chunk position buffer).2
        fun other member => behind other (by simp [member])
      rw [pointer_copy_untouched chunk position index buffer (behind chunk (by simp))] at later
      exact later

def AtMostOneWrite (chunks : List (List Byte)) : Prop :=
  (chunks.filter fun chunk => chunk ≠ []).length ≤ 1

theorem overwrite_filter {ι μ : Type} (iterator : OutputIterator ι μ) (chunks : List (List Byte))
    (position : ι) (memory : μ) :
    iterator.overwrite (chunks.filter fun chunk => chunk ≠ []) position memory =
      iterator.overwrite chunks position memory := by
  induction chunks generalizing memory with
  | nil => rfl
  | cons chunk rest ih =>
      by_cases empty : chunk = []
      · rw [List.filter_cons_of_neg (by simpa using empty), ih, empty]
        rfl
      · rw [List.filter_cons_of_pos (by simpa using empty)]
        exact ih _

theorem overwrite_once {ι μ : Type} (iterator : OutputIterator ι μ) (chunks : List (List Byte))
    (once : AtMostOneWrite chunks) (position : ι) (memory : μ) :
    iterator.overwrite chunks position memory =
      (iterator.copy chunks.flatten position memory).2 := by
  rw [← overwrite_filter, ← List.flatten_filter_ne_nil]
  unfold AtMostOneWrite at once
  match parts : chunks.filter fun chunk => chunk ≠ [] with
  | [] => rfl
  | [chunk] => simp [overwrite]
  | first :: second :: rest =>
      rw [parts] at once
      simp at once

theorem length_le_flatten (chunks : List (List Byte)) (nonempty : ∀ chunk ∈ chunks, chunk ≠ []) :
    chunks.length ≤ chunks.flatten.length := by
  induction chunks with
  | nil => simp
  | cons chunk rest ih =>
      have first := List.length_pos_of_ne_nil (nonempty chunk (by simp))
      have others := ih fun other member => nonempty other (by simp [member])
      simp only [List.length_cons, List.flatten_cons, List.length_append]
      omega

theorem shorter_of_many (chunks : List (List Byte)) (many : ¬ AtMostOneWrite chunks)
    (chunk : List Byte) (member : chunk ∈ chunks) :
    chunk.length < chunks.flatten.length := by
  unfold AtMostOneWrite at many
  have nonempty : ∀ other ∈ chunks.filter fun chunk => chunk ≠ [], other ≠ [] := by simp
  rw [← List.flatten_filter_ne_nil]
  by_cases empty : chunk = []
  · have total := length_le_flatten _ nonempty
    rw [empty, List.length_nil]
    omega
  · have inside : chunk ∈ chunks.filter fun chunk => chunk ≠ [] := by simp [member, empty]
    obtain ⟨before, after, split⟩ := List.append_of_mem inside
    rw [split] at many nonempty ⊢
    have left := length_le_flatten before fun other inBefore => nonempty other (by simp [inBefore])
    have right := length_le_flatten after fun other inAfter => nonempty other (by simp [inAfter])
    simp only [List.length_append, List.length_cons, List.flatten_append, List.flatten_cons]
      at many ⊢
    omega

-- A second write goes over the first one, and the last byte is never reached.
theorem overwrite_delivers_iff (chunks : List (List Byte)) (position : Nat) :
    (∀ buffer : List Byte, position + chunks.flatten.length ≤ buffer.length →
      pointer.overwrite chunks position buffer =
        (pointer.copy chunks.flatten position buffer).2) ↔
      AtMostOneWrite chunks := by
  constructor
  · intro delivered
    by_contra many
    have shorter := shorter_of_many chunks many
    have positive : 0 < chunks.flatten.length := by
      by_contra none
      have empty : chunks.flatten = [] := List.length_eq_zero_iff.mp (by omega)
      exact many (by
        unfold AtMostOneWrite
        rw [← List.length_eq_zero_iff] at empty
        have total := length_le_flatten (chunks.filter fun chunk => chunk ≠ []) (by simp)
        rw [List.flatten_filter_ne_nil] at total
        omega)
    let last := chunks.flatten[chunks.flatten.length - 1]
    let buffer := List.replicate (position + chunks.flatten.length) (last + 1)
    have room : position + chunks.flatten.length ≤ buffer.length := by simp [buffer]
    have same := congrArg (fun memory => memory[position + chunks.flatten.length - 1]?)
      (delivered buffer room)
    have untouched := pointer_overwrite_untouched chunks position
      (position + chunks.flatten.length - 1) buffer fun chunk member => by
        have below := shorter chunk member
        omega
    simp only [untouched, pointer_copy _ _ _ room] at same
    have before : (buffer.take position).length = position := by simp [buffer]
    have old : buffer[position + chunks.flatten.length - 1]? = some (last + 1) := by
      rw [List.getElem?_replicate, if_pos (by omega)]
    have new : (buffer.take position ++ chunks.flatten ++
        buffer.drop (position + chunks.flatten.length))[position + chunks.flatten.length - 1]? =
          some last := by
      rw [List.append_assoc, List.getElem?_append_right (by omega), before,
        List.getElem?_append_left (by omega), List.getElem?_eq_getElem (by omega)]
      congr 2
      omega
    rw [old, new] at same
    exact absurd (Option.some.inj same) (by simp)
  · intro once buffer _
    exact overwrite_once pointer chunks once position buffer

end Pointer

namespace Format

variable (P : Platform) (F : Format) (value : F.Value)

def writesOf (σ : Type) (sink : Sink σ) : EStateM Failure σ Unit := F.serialize P sink value

theorem writesOf_replay (σ : Type) (sink : Sink σ) :
    F.writesOf P value σ sink = (F.trace P value).replay sink.write :=
  F.serialize_replay P sink value

end Format

open OutputIterator in
theorem iterator_sink_delivers_iff (P : Platform) :
    (∀ {ι μ : Type} (iterator : OutputIterator ι μ),
      (∀ chunks position memory, iterator.Delivered (writes chunks) position memory) ↔
        iterator.PositionFree) ∧
    (∀ {ι μ : Type} (iterator : OutputIterator ι μ), iterator.PositionFree →
      ∀ (F : Format) (value : F.Value) position memory,
        iterator.Delivered (F.writesOf P value) position memory) ∧
    backInserter.PositionFree ∧
    (∀ (chunks : List (List Byte)) (position : Nat),
      (∀ buffer : List Byte, position + chunks.flatten.length ≤ buffer.length →
        pointer.Delivered (writes chunks) position buffer) ↔ AtMostOneWrite chunks) ∧
    (∀ (F : Format) (value : F.Value) (position : Nat),
      (∀ buffer : List Byte,
        position + (F.trace P value).chunks.flatten.length ≤ buffer.length →
          pointer.Delivered (F.writesOf P value) position buffer) ↔
        (F.trace P value).ending ≠ none ∨ AtMostOneWrite (F.trace P value).chunks) := by
  refine ⟨fun iterator => iterator.delivered_all_iff, ?_, backInserter_free, ?_, ?_⟩
  · intro ι μ iterator free F value position memory
    exact delivered_free free _ _ (F.writesOf_replay P value) position memory
  · intro chunks position
    simp only [delivered_writes_iff]
    exact overwrite_delivers_iff chunks position
  · intro F value position
    simp only [pointer.delivered_iff _ _ (F.writesOf_replay P value)]
    by_cases ends : (F.trace P value).ending = none
    · simp only [ends, forall_true_left, ne_eq, not_true_eq_false, false_or]
      exact overwrite_delivers_iff _ position
    · simp [ends]

theorem back_inserter_delivers :
    backInserter.Delivered (OutputIterator.writes [[1, 2], [], [3]]) () [9] :=
  ((iterator_sink_delivers_iff amd64).1 backInserter).mpr
    ((iterator_sink_delivers_iff amd64).2.2.1) [[1, 2], [], [3]] () [9]

theorem pointer_loses_bytes :
    ¬ pointer.Delivered (Format.writesOf amd64
      (.integer ⟨be64, by decide⟩ (.unsigned 64)) (0x0102030405060708 : BitVec 64)) 0
        (List.replicate 8 0) := by
  intro delivered
  obtain ⟨kept, done⟩ := delivered [1, 2, 3, 4, 5, 6, 7, 8] (by decide)
  have run : Format.writesOf amd64 (.integer ⟨be64, by decide⟩ (.unsigned 64))
      (0x0102030405060708 : BitVec 64) _ (iteratorSink pointer) (0, List.replicate 8 0) =
        .ok () (0, [8, 0, 0, 0, 0, 0, 0, 0]) := by decide
  rw [run] at done
  simp [OutputIterator.copy, pointer] at done

end Szn
