import Szn.Model.Source

set_option autoImplicit false

namespace Szn

open Stateful Parsing

variable {σ : Type}

structure Source.Delivers (source : Source σ) (D : Delivery σ Byte) : Prop where
  enough : ∀ state destination length, D.ready state → 0 < length →
    length ≤ destination.length → length ≤ (D.unread state).length →
    ∃ after, source.read length (state, destination) =
        .ok () (after, (D.unread state).take length ++ destination.drop length) ∧
      D.ready after ∧ D.unread after = (D.unread state).drop length
  short : ∀ state destination length, D.ready state → (D.unread state).length < length →
    ∃ after, source.read length (state, destination) =
        .error insufficientInput (after, destination) ∧
      D.ready after ∧ D.unread after = D.unread state

theorem read_byte_implements {source : Source σ} {D : Delivery σ Byte}
    (delivers : source.Delivers D) {τ : Type} :
    Implements D (withLocal [0] (source.read 1) : EStateM Failure (σ × τ) (List Byte))
      (fun target => do
        let byte ← item insufficientInput
        pure ([byte], target)) := by
  intro state target ready
  cases unread : D.unread state with
  | nil =>
      obtain ⟨after, failed, ready', -⟩ := delivers.short state [0] 1 ready (by simp [unread])
      exact ⟨after, target, by simp only [withLocal, failed], ready'⟩
  | cons byte rest =>
      obtain ⟨after, done, ready', left⟩ :=
        delivers.enough state [0] 1 ready (by simp) (by simp) (by simp [unread])
      rw [unread] at done left
      exact ⟨after, by simp only [withLocal, done]; rfl, ready', left⟩

structure View (σ : Type) extends Delivery σ Byte where
  visible : σ → Nat
  -- All unread bytes are visible, whatever was loaded.
  whole : Bool
  -- data() is defined even where no byte is visible.
  pointed : Prop

def View.shown (view : View σ) (n : Nat) (unread : List Byte) : Nat :=
  if view.whole then unread.length else min n unread.length

structure Source.Presents (source : Source σ) (view : View σ) : Prop where
  size : ∀ state, view.ready state → source.size state = .ok (view.visible state) state
  load : ∀ state n, view.ready state → ∃ after, source.load n state = .ok () after ∧
    view.ready after ∧ view.unread after = view.unread state ∧
      view.visible after = view.shown n (view.unread state)
  get : ∀ state index, view.ready state → index < view.visible state →
    ∃ byte, (view.unread state)[index]? = some byte ∧ source.get index state = .ok byte state
  drop : ∀ state n, view.ready state → n ≤ view.visible state →
    ∃ after, source.drop n state = .ok () after ∧ view.ready after ∧
      view.unread after = (view.unread state).drop n ∧
        view.visible after = view.visible state - n
  data : ∀ state, view.ready state → (0 < view.visible state ∨ view.pointed) →
    ∃ memory, source.data state = .ok memory state ∧ view.visible state ≤ memory.length ∧
      memory.take (view.visible state) = (view.unread state).take (view.visible state)

theorem View.shown_le (view : View σ) (n : Nat) (unread : List Byte) :
    view.shown n unread ≤ unread.length := by
  unfold shown
  by_cases whole : view.whole = true
  · simp [whole]
  · simp [whole]

theorem View.le_shown (view : View σ) (n : Nat) (unread : List Byte)
    (enough : n ≤ unread.length) : n ≤ view.shown n unread := by
  unfold shown
  by_cases whole : view.whole = true
  · simp [whole, enough]
  · simp [whole, enough]

namespace Source.Presents

variable {source : Source σ} {view : View σ} (presents : source.Presents view)

include presents in
theorem read_enough (state : σ) (destination : List Byte) (length : Nat)
    (ready : view.ready state) (used : 0 < length ∨ view.pointed)
    (room : length ≤ destination.length) (enough : length ≤ (view.unread state).length) :
    ∃ after, source.read length (state, destination) =
        .ok () (after, (view.unread state).take length ++ destination.drop length) ∧
      view.ready after ∧ view.unread after = (view.unread state).drop length ∧
        view.visible after = view.shown length (view.unread state) - length := by
  obtain ⟨loaded, load, ready, unread, visible⟩ := presents.load state length ready
  have covered : length ≤ view.visible loaded := by
    rw [visible]
    exact view.le_shown length _ enough
  obtain ⟨memory, data, mapped, same⟩ := presents.data loaded ready
    (used.imp_left fun positive => lt_of_lt_of_le positive covered)
  obtain ⟨after, drop, ready', left, rest⟩ := presents.drop loaded length ready covered
  have copied : memory.take length = (view.unread state).take length := by
    have shorter := congrArg (List.take length) same
    simpa [List.take_take, min_eq_left covered, unread] using shorter
  refine ⟨after, ?_, ready', by rw [left, unread], by rw [rest, visible]⟩
  have noFailure : ¬ view.visible loaded < length := by omega
  have inBounds : ¬ (memory.length < length ∨ destination.length < length) := by omega
  simp [Source.read, copyTo, onEnvironment, readTarget, assignTarget, bind, EStateM.bind,
    load, presents.size loaded ready, noFailure, data, inBounds, drop, copied]

include presents in
theorem read_short (state : σ) (destination : List Byte) (length : Nat)
    (ready : view.ready state) (short : (view.unread state).length < length) :
    ∃ after, source.read length (state, destination) =
        .error insufficientInput (after, destination) ∧
      view.ready after ∧ view.unread after = view.unread state ∧
        view.visible after = view.shown length (view.unread state) := by
  obtain ⟨loaded, load, ready, unread, visible⟩ := presents.load state length ready
  have failure : view.visible loaded < length := by
    rw [visible]
    exact lt_of_le_of_lt (view.shown_le length _) short
  refine ⟨loaded, ?_, ready, unread, visible⟩
  simp [Source.read, onEnvironment, bind, EStateM.bind, load, presents.size loaded ready,
    failure, Stateful.throw_run]

include presents in
theorem delivers : source.Delivers view.toDelivery where
  enough state destination length ready positive room enough := by
    obtain ⟨after, done, ready', left, -⟩ :=
      presents.read_enough state destination length ready (Or.inl positive) room enough
    exact ⟨after, done, ready', left⟩
  short state destination length ready short := by
    obtain ⟨after, failed, ready', left, -⟩ :=
      presents.read_short state destination length ready short
    exact ⟨after, failed, ready', left⟩

end Source.Presents

def rangeView (text : List Byte) : View RangeSource where
  ready source := source.range = text ∧ source.position ≤ text.length
  unread source := source.range.drop source.position
  visible source := source.size
  whole := true
  pointed := text ≠ []

theorem range_presents (P : Platform) (text : List Byte) :
    (rangeSource P).Presents (rangeView text) where
  size _ _ := rfl
  load state n ready := ⟨state, rfl, ready, rfl, by simp [rangeView, View.shown, RangeSource.size]⟩
  get state index ready visible := by
    have inside : state.position + index < state.range.length := by
      have shown : index < state.range.length - state.position := visible
      omega
    refine ⟨state.range[state.position + index], by simp [rangeView, inside], ?_⟩
    have allowed : decide (index < state.size) = true := decide_eq_true visible
    simp [rangeSource, rangeSourceIn, RangeSource.get, assert, allowed, inside]
  drop state n ready visible := by
    obtain ⟨rfl, within⟩ := ready
    have allowed : decide (n ≤ state.size) = true := decide_eq_true visible
    have shown : n ≤ state.range.length - state.position := visible
    refine ⟨{ state with position := state.position + n }, ?_, ⟨rfl, ?_⟩, ?_, ?_⟩
    · simp [rangeSource, rangeSourceIn, RangeSource.drop, assert, allowed]
    · dsimp only
      omega
    · simp [rangeView]
    · simp only [rangeView, RangeSource.size]
      omega
  data state ready used := by
    obtain ⟨rfl, within⟩ := ready
    have present : state.range ≠ [] := by
      intro empty
      rcases used with visible | pointed
      · simp [rangeView, RangeSource.size, empty] at visible
      · exact pointed empty
    refine ⟨state.range.drop state.position, ?_, by simp [rangeView, RangeSource.size], rfl⟩
    change RangeSource.data .contiguous state = _
    unfold RangeSource.data
    split
    · contradiction
    · rfl

def rangeDelivery : Delivery RangeSource Byte where
  ready source := source.position ≤ source.range.length
  unread source := source.range.drop source.position

theorem rangeView_ready (text : List Byte) (state : RangeSource)
    (ready : (rangeView text).ready state) : rangeDelivery.ready state := by
  obtain ⟨rfl, inside⟩ := ready
  exact inside

theorem range_delivers (P : Platform) : (rangeSource P).Delivers rangeDelivery where
  enough state destination length ready positive room enough := by
    obtain ⟨after, done, ready', left⟩ := (range_presents P state.range).delivers.enough
      state destination length ⟨rfl, ready⟩ positive room enough
    exact ⟨after, done, rangeView_ready _ _ ready', left⟩
  short state destination length ready short := by
    obtain ⟨after, failed, ready', left⟩ := (range_presents P state.range).delivers.short
      state destination length ⟨rfl, ready⟩ short
    exact ⟨after, failed, rangeView_ready _ _ ready', left⟩

def streamView (P : Platform) : View StreamSource where
  ready source := source.size ≤ source.buffer.length ∧ source.input.exceptions = false ∧
    source.buffer.length + source.input.undelivered.length ≤ P.bufferMax
  unread source := source.buffer ++ source.input.undelivered
  visible source := source.size
  whole := false
  pointed := True

namespace StreamSource

theorem resize_append (buffer more : List Byte) :
    resize (buffer ++ more).length buffer =
      buffer ++ List.replicate more.length 0 := by
  simp [resize]

theorem resize_shorter (buffer more : List Byte) (length : Nat)
    (here : length = buffer.length) : resize length (buffer ++ more) = buffer := by
  subst here
  simp [resize]

theorem load_eq (P : Platform) (n : Nat) (state : StreamSource)
    (calm : (state.input.exceptions && decide (state.input.undelivered.length <
      min n P.bufferMax - state.buffer.length)) = false) :
    ∃ gcount, load P n state = .ok ()
      { input :=
          { undelivered :=
              state.input.undelivered.drop (min n P.bufferMax - state.buffer.length)
            gcount := gcount
            exceptions := state.input.exceptions }
        buffer := state.buffer ++
          state.input.undelivered.take (min n P.bufferMax - state.buffer.length)
        size := min (min n P.bufferMax) (state.buffer ++
          state.input.undelivered.take (min n P.bufferMax - state.buffer.length)).length } := by
  obtain ⟨⟨undelivered, gcount, exceptions⟩, buffer, size⟩ := state
  simp only [load, bind_run, get_run]
  revert calm
  generalize min n P.bufferMax = clampedN
  intro calm
  by_cases grows : clampedN > buffer.length
  · have resized : resize clampedN buffer =
        buffer ++ List.replicate (clampedN - buffer.length) 0 := by
      have same := resize_append buffer (List.replicate (clampedN - buffer.length) (0 : Byte))
      simpa [grows.le] using same
    have stored : (undelivered.take (clampedN - buffer.length)).length < clampedN - buffer.length ↔
        undelivered.length < clampedN - buffer.length := by
      rw [List.length_take]
      omega
    refine ⟨(undelivered.take (clampedN - buffer.length)).length, ?_⟩
    rw [if_pos grows]
    have delivered : resize (buffer.length +
          min (clampedN - buffer.length) undelivered.length)
        (buffer ++ (undelivered.take (clampedN - buffer.length) ++
          List.replicate (clampedN - buffer.length -
            min (clampedN - buffer.length) undelivered.length) 0#8)) =
        buffer ++ undelivered.take (clampedN - buffer.length) := by
      rw [← List.append_assoc]
      exact resize_shorter _ _ _ (by simp)
    simp only [readInput, resized, assert, bind_run, get_run, modify_run, stored, calm]
    simp [delivered]
  · have none : clampedN - buffer.length = 0 := by omega
    refine ⟨gcount, ?_⟩
    rw [if_neg grows]
    simp [none]

theorem load_throws (P : Platform) (n : Nat) (state : StreamSource)
    (throws : (state.input.exceptions && decide (state.input.undelivered.length <
      min n P.bufferMax - state.buffer.length)) = true) :
    ∃ gcount, load P n state = .error .streamFailure
      { input := { undelivered := [], gcount := gcount, exceptions := state.input.exceptions }
        buffer := state.buffer ++ state.input.undelivered ++ List.replicate
          (min n P.bufferMax - (state.buffer ++ state.input.undelivered).length) 0
        size := state.size } := by
  obtain ⟨⟨undelivered, gcount, exceptions⟩, buffer, size⟩ := state
  simp only [load, bind_run, get_run]
  revert throws
  generalize min n P.bufferMax = clampedN
  intro throws
  simp only [Bool.and_eq_true, decide_eq_true_eq] at throws
  obtain ⟨loud, short⟩ := throws
  have grows : clampedN > buffer.length := by omega
  have resized : resize clampedN buffer =
      buffer ++ List.replicate (clampedN - buffer.length) 0 := by
    have same := resize_append buffer (List.replicate (clampedN - buffer.length) (0 : Byte))
    simpa [grows.le] using same
  have whole : undelivered.take (clampedN - buffer.length) = undelivered :=
    List.take_of_length_le short.le
  have none : undelivered.drop (clampedN - buffer.length) = [] :=
    List.drop_of_length_le short.le
  refine ⟨undelivered.length, ?_⟩
  rw [if_pos grows]
  have rest : clampedN - buffer.length - undelivered.length =
      clampedN - (buffer.length + undelivered.length) := by omega
  simp [readInput, resized, whole, none, short, loud, rest]

theorem get_eq (P : Platform) (index : Nat) (state : StreamSource) (shown : index < state.size)
    (buffered : index < state.buffer.length) :
    get P index state = .ok state.buffer[index] state := by
  simp [get, assert, shown, buffered]

theorem drop_eq (P : Platform) (n : Nat) (state : StreamSource) (shown : n ≤ state.size)
    (buffered : n ≤ state.buffer.length) :
    drop P n state =
      .ok () { state with buffer := state.buffer.drop n, size := state.size - n } := by
  have noFailure : ¬ state.buffer.length < n := by omega
  simp [drop, assert, shown, buffered, noFailure]

end StreamSource

theorem stream_presents (P : Platform) : (streamSource P).Presents (streamView P) where
  size _ _ := rfl
  load state n ready := by
    obtain ⟨inside, quiet, room⟩ := ready
    obtain ⟨gcount, loaded⟩ := StreamSource.load_eq P n state (by simp [quiet])
    refine ⟨_, loaded, ⟨by simp, quiet, ?_⟩, by simp [streamView], ?_⟩
    · simp only [List.length_append, List.length_take, List.length_drop]
      omega
    · simp only [streamView, View.shown, Bool.false_eq_true, if_false, List.length_append,
        List.length_take]
      omega
  get state index ready visible := by
    have shown : index < state.size := visible
    have buffered : index < state.buffer.length := lt_of_lt_of_le shown ready.1
    refine ⟨state.buffer[index], by simp [streamView, List.getElem?_append_left, buffered], ?_⟩
    exact StreamSource.get_eq P index state shown buffered
  drop state n ready visible := by
    obtain ⟨inside, quiet, room⟩ := ready
    have shown : n ≤ state.size := visible
    refine ⟨_, StreamSource.drop_eq P n state shown (by omega), ⟨?_, quiet, ?_⟩, ?_, rfl⟩
    · simp only [List.length_drop]
      omega
    · simp only [List.length_drop]
      omega
    · simp [streamView, List.drop_append, Nat.sub_eq_zero_of_le (shown.trans inside)]
  data state ready _ := by
    obtain ⟨inside, -, -⟩ := ready
    refine ⟨state.buffer, rfl, inside, ?_⟩
    simp [streamView, List.take_append, Nat.sub_eq_zero_of_le inside]

end Szn
