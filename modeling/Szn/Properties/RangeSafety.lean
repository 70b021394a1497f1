import Szn.Model.ReaderWriter
import Szn.Spec.Range

set_option autoImplicit false

namespace Szn

open Stateful Simulation

-- A read reaches no element that is not there, neither by the pointer to the first one nor by
-- the copy.
structure StaysInside (read : EStateM Failure (RangeSource × List Byte) Unit) (state : RangeSource)
    (destination : List Byte) (length : Nat) : Prop where
  defined : ∀ after, read (state, destination) ≠ .error .undefined after
  copied : ∀ after left, read (state, destination) = .ok () (after, left) →
    state.position + length ≤ state.range.length ∧
      left = (state.range.drop state.position).take length ++ destination.drop length

namespace StaysInside

variable {read : EStateM Failure (RangeSource × List Byte) Unit} {state : RangeSource}
  {destination : List Byte} {length : Nat}

theorem of_error {failure : Failure} {after : RangeSource × List Byte}
    (fails : read (state, destination) = .error failure after) (defined : failure ≠ .undefined) :
    StaysInside read state destination length where
  defined other failed := by
    rw [fails] at failed
    cases failed
    exact defined rfl
  copied other left done := by
    rw [fails] at done
    cases done

theorem of_ok {after : RangeSource}
    (done : read (state, destination) =
      .ok () (after, (state.range.drop state.position).take length ++ destination.drop length))
    (inside : state.position + length ≤ state.range.length) :
    StaysInside read state destination length where
  defined other failed := by
    rw [done] at failed
    cases failed
  copied other left finished := by
    rw [done] at finished
    cases finished
    exact ⟨inside, rfl⟩

end StaysInside

theorem insufficientInput_defined : insufficientInput ≠ .undefined := by
  simp [insufficientInput]

-- The elements to be copied lie in memory behind the first one.
def Layout.Covers (layout : Layout) (range : List Byte) (position length : Nat) : Prop :=
  length = 0 ∨ position + length ≤ (layout.reached range).length

theorem Layout.contiguous_covers (state : RangeSource) (length : Nat)
    (enough : length ≤ state.size) :
    Layout.contiguous.Covers state.range state.position length := by
  rcases Nat.eq_zero_or_pos length with none | positive
  · exact Or.inl none
  · right
    change length ≤ state.range.length - state.position at enough
    change state.position + length ≤ state.range.length
    omega

theorem range_copies (layout : Layout) (range : List Byte) (position length : Nat)
    (covers : layout.Covers range position length) :
    ((layout.reached range).drop position).take length = (range.drop position).take length := by
  obtain ⟨behind, whole⟩ := layout.reached_prefix range
  rcases covers with rfl | covers
  · simp
  · conv_rhs => rw [← whole]
    rw [List.drop_append_of_le_length (by omega), List.take_append_of_le_length]
    rw [List.length_drop]
    omega

section Read

variable (layout : Layout) (P : Platform) (state : RangeSource) (destination : List Byte)
  (length : Nat) (ready : (rangeView state.range).ready state) (room : length ≤ destination.length)

include room

include ready in
theorem range_read_inside (used : 0 < length ∨ state.range ≠ [])
    (covers : length ≤ state.size → layout.Covers state.range state.position length) :
    StaysInside ((rangeSourceIn layout P).read length) state destination length := by
  have within : state.position ≤ state.range.length := ready.2
  have read := range_read layout P length state destination
  by_cases short : state.size < length
  · rw [if_pos short] at read
    exact StaysInside.of_error read insufficientInput_defined
  · have enough : length ≤ state.range.length - state.position := Nat.not_lt.mp short
    have covers := covers enough
    have present : state.range ≠ [] := by
      rintro empty
      rw [empty] at enough
      rcases used with positive | present
      · simp only [List.length_nil] at enough
        omega
      · exact present empty
    have inside : ¬ (((layout.reached state.range).drop state.position).length < length ∨
        destination.length < length) := by
      rw [List.length_drop]
      rcases covers with none | covers <;> omega
    rw [if_neg short, if_neg present, if_neg inside, range_copies _ _ _ _ covers] at read
    exact StaysInside.of_ok read (by omega)

theorem range_read_leaves (empty : length = 0 ∧ state.range = [] ∨
      length ≤ state.size ∧ ¬ layout.Covers state.range state.position length) :
    ∃ after, (rangeSourceIn layout P).read length (state, destination) =
      .error .undefined after := by
  have read := range_read layout P length state destination
  by_cases none : state.range = []
  · have covered : ¬ state.size < length := by
      rcases empty with ⟨rfl, -⟩ | ⟨enough, -⟩ <;> omega
    rw [if_neg covered, if_pos none] at read
    exact ⟨_, read⟩
  · obtain ⟨enough, outside⟩ := empty.resolve_left fun both => none both.2
    have short : ((layout.reached state.range).drop state.position).length < length := by
      simp only [Layout.Covers, not_or] at outside
      rw [List.length_drop]
      omega
    rw [if_neg (Nat.not_lt.mpr enough), if_neg none, if_pos (Or.inl short)] at read
    exact ⟨_, read⟩

end Read

theorem raw_stays_inside_iff (layout : Layout) (P : Platform) (range : List Byte)
    (state : RangeSource)
    (reached : Reachable (rangeSourceIn layout P).perform (rangeSourceIn layout P).Permits
      (makeRangeSource range) state)
    (destination : List Byte) (length : Nat) (room : length ≤ destination.length) :
    (StaysInside ((rangeSourceIn layout P).read length) state destination length ∧
      StaysInside (Reader.raw (rangeSourceIn layout P) length) state destination length) ↔
        (0 < length ∨ range ≠ []) ∧
          (length ≤ state.size → layout.Covers range state.position length) := by
  have ready := range_reached layout P range state reached
  obtain ⟨rfl, -⟩ := id ready
  constructor
  · intro inside
    have defined : ¬ (length = 0 ∧ state.range = [] ∨
        length ≤ state.size ∧ ¬ layout.Covers state.range state.position length) := by
      intro leaves
      obtain ⟨after, fails⟩ :=
        range_read_leaves layout P state destination length room leaves
      exact inside.1.defined after fails
    simp only [not_or, not_and, not_not] at defined
    exact ⟨(Nat.eq_zero_or_pos length).symm.imp_right defined.1, defined.2⟩
  · rintro ⟨used, covers⟩
    have inside := range_read_inside layout P state destination length ready room used covers
    exact ⟨inside, inside⟩

theorem raw_stays_inside_iff_tail :
    (StaysInside ((rangeSourceIn (.segmented 3) amd64).read 1) ⟨[7, 8, 9, 10], 2⟩ [0] 1 ∧
      StaysInside (Reader.raw (rangeSourceIn (.segmented 3) amd64) 1) ⟨[7, 8, 9, 10], 2⟩ [0] 1) ↔
        (0 < 1 ∨ ([7, 8, 9, 10] : List Byte) ≠ []) ∧
          (1 ≤ RangeSource.size ⟨[7, 8, 9, 10], 2⟩ →
            (Layout.segmented 3).Covers [7, 8, 9, 10] 2 1) :=
  raw_stays_inside_iff (.segmented 3) amd64 [7, 8, 9, 10] ⟨[7, 8, 9, 10], 2⟩
    ⟨[.read [0, 0] 2], ⟨Nat.le_refl 2, trivial⟩, rfl⟩ [0] 1 (Nat.le_refl 1)

-- The first range is empty, and the second one goes on in another block behind two elements.
theorem raw_leaves_ranges :
    let blocks := rangeSourceIn (.segmented 2) amd64
    (Reachable (rangeSource amd64).perform (rangeSource amd64).Permits (makeRangeSource [])
        (makeRangeSource []) ∧
      ¬ StaysInside (Reader.raw (rangeSource amd64) 0) (makeRangeSource []) [] 0) ∧
    Reachable blocks.perform blocks.Permits (makeRangeSource [7, 8, 9])
        (makeRangeSource [7, 8, 9]) ∧
      ¬ StaysInside (Reader.raw blocks 3) (makeRangeSource [7, 8, 9]) [0, 0, 0] 3 := by
  intro blocks
  refine ⟨⟨⟨[], trivial, rfl⟩, ?_⟩, ⟨[], trivial, rfl⟩, ?_⟩
  · exact fun inside => inside.defined (makeRangeSource [], []) rfl
  · exact fun inside => inside.defined (makeRangeSource [7, 8, 9], [0, 0, 0]) rfl

-- The function template asks the source for nothing when the count is zero.
theorem read_container_defined (P : Platform) (range : List Byte) (state : RangeSource)
    (reached : Reachable (rangeSource P).perform (rangeSource P).Permits (makeRangeSource range)
      state)
    (destination : List Byte) (byteCount : Nat) (after : RangeSource × List Byte) :
    Szn.read (rangeSource P) byteCount (state, destination) ≠ .error .undefined after := by
  have ready := range_reached .contiguous P range state reached
  obtain ⟨rfl, -⟩ := id ready
  simp only [Szn.read, bind_run, readTarget, assignTarget]
  by_cases positive : byteCount > 0
  · rw [if_pos positive]
    have room : byteCount ≤ (StreamSource.resize byteCount destination).length := by
      rw [StreamSource.resize, List.length_append, List.length_take, List.length_replicate]
      omega
    have inside := range_read_inside .contiguous P state _ byteCount ready room (Or.inl positive)
      (Layout.contiguous_covers state byteCount)
    exact inside.defined after
  · rw [if_neg positive, pure_run]
    simp

end Szn
