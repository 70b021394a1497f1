import Szn.Spec.Stream

set_option autoImplicit false

namespace Szn

open Stateful Simulation

theorem Layout.reached_prefix (layout : Layout) (range : List Byte) :
    layout.reached range <+: range := by
  cases layout with
  | contiguous => exact List.prefix_refl range
  | segmented first => exact List.take_prefix first range

theorem copyTo_run {σ : Type} (data : List Byte) (length : Nat) (state : σ)
    (destination : List Byte) :
    copyTo data length (state, destination) =
      if data.length < length ∨ destination.length < length then
        .error .undefined (state, destination)
      else .ok () (state, data.take length ++ destination.drop length) := by
  unfold copyTo
  split
  · rename_i outside
    simp [readTarget, outside]
  · rename_i inside
    simp [readTarget, assignTarget, inside]

theorem range_data (layout : Layout) (P : Platform) (state : RangeSource) :
    (rangeSourceIn layout P).data state =
      if state.range = [] then .error .undefined state
      else .ok ((layout.reached state.range).drop state.position) state := by
  change RangeSource.data layout state = _
  unfold RangeSource.data
  split
  · rename_i empty
    rw [if_pos empty]
  · rename_i present
    rw [if_neg present]

theorem range_drop (layout : Layout) (P : Platform) (n : Nat) (state : RangeSource)
    (inside : n ≤ state.size) :
    (rangeSourceIn layout P).drop n state =
      .ok () { state with position := state.position + n } := by
  have allowed : decide (n ≤ state.size) = true := decide_eq_true inside
  simp [rangeSourceIn, RangeSource.drop, assert, allowed]

theorem range_read (layout : Layout) (P : Platform) (length : Nat) (state : RangeSource)
    (destination : List Byte) :
    (rangeSourceIn layout P).read length (state, destination) =
      if state.size < length then .error insufficientInput (state, destination)
      else if state.range = [] then .error .undefined (state, destination)
      else if ((layout.reached state.range).drop state.position).length < length ∨
          destination.length < length then .error .undefined (state, destination)
      else .ok () ({ state with position := state.position + length },
        ((layout.reached state.range).drop state.position).take length ++
          destination.drop length) := by
  have load : (rangeSourceIn layout P).load length state = .ok () state := rfl
  have size : (rangeSourceIn layout P).size state = .ok state.size state := rfl
  have data := range_data layout P state
  by_cases short : state.size < length
  · simp [Source.read, onEnvironment, load, size, short]
  · have drop := range_drop layout P length state (Nat.not_lt.mp short)
    rw [if_neg short]
    by_cases empty : state.range = []
    · rw [if_pos empty] at data ⊢
      simp only [Source.read, onEnvironment, bind_run, load, size, if_neg short, data]
    · rw [if_neg empty] at data ⊢
      have copied := copyTo_run ((layout.reached state.range).drop state.position) length state
        destination
      by_cases outside : ((layout.reached state.range).drop state.position).length < length ∨
          destination.length < length
      · rw [if_pos outside] at copied ⊢
        simp only [Source.read, onEnvironment, bind_run, load, size, if_neg short, data, copied]
      · rw [if_neg outside] at copied ⊢
        simp only [Source.read, onEnvironment, bind_run, load, size, if_neg short, data, copied,
          drop]

theorem range_read_empty (P : Platform) (state : RangeSource) (empty : state.range = [])
    (length : Nat) (destination : List Byte) :
    (rangeSource P).read length (state, destination) =
      .error (if 0 < length then insufficientInput else .undefined) (state, destination) := by
  have none : state.size = 0 := by
    simp [RangeSource.size, empty]
  rw [rangeSource, range_read, none, if_pos empty]
  split <;> rfl

theorem range_step (layout : Layout) (P : Platform) (text : List Byte) (operation : Operation)
    (state : RangeSource) (ready : (rangeView text).ready state)
    (permitted : (rangeSourceIn layout P).Permits operation state) :
    (rangeView text).ready ((rangeSourceIn layout P).perform operation state).2 := by
  have presents := range_presents P text
  cases operation with
  | load n => exact ready
  | get index =>
      obtain ⟨size, after, shown, inside⟩ := permitted
      cases shown
      obtain ⟨byte, -, done⟩ := presents.get state index ready inside
      have done : (rangeSourceIn layout P).get index state = .ok byte state := done
      simpa [Source.perform, observe, onEnvironment, done] using ready
  | drop n =>
      obtain ⟨size, after, shown, inside⟩ := permitted
      cases shown
      obtain ⟨after, done, ready', -⟩ := presents.drop state n ready inside
      have done : (rangeSourceIn layout P).drop n state = .ok () after := done
      simpa [Source.perform, observe, onEnvironment, done] using ready'
  | read destination length =>
      have read := range_read layout P length state destination
      simp only [Source.perform, observe, bind_run]
      split_ifs at read with short empty outside
      · simpa [read] using ready
      · simpa [read] using ready
      · simpa [read] using ready
      · obtain ⟨rfl, within⟩ := ready
        have covered : length ≤ state.range.length - state.position := Nat.not_lt.mp short
        have inside : state.position + length ≤ state.range.length := by omega
        rw [read]
        exact ⟨rfl, inside⟩

theorem range_reached (layout : Layout) (P : Platform) (text : List Byte) (state : RangeSource)
    (reached : Reachable (rangeSourceIn layout P).perform (rangeSourceIn layout P).Permits
      (makeRangeSource text) state) :
    (rangeView text).ready state :=
  reached.invariant (rangeView text).ready (range_step layout P text) ⟨rfl, Nat.zero_le _⟩

end Szn
