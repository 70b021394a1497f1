import Szn.Library.Simulation
import Szn.Spec.Source

set_option autoImplicit false

namespace Szn

open Stateful Simulation

variable {σ : Type}

inductive Operation where
  | load (n : Nat)
  | get (index : Nat)
  | drop (n : Nat)
  | read (destination : List Byte) (length : Nat)

-- What the caller sees: how the call ended, and the destination behind it.
structure Observation where
  result : Except Failure (Option Byte)
  destination : List Byte

def observe (step : EStateM Failure (σ × List Byte) (Option Byte)) (destination : List Byte)
    (state : σ) : Observation × σ :=
  match step (state, destination) with
  | .ok value after => (⟨.ok value, after.2⟩, after.1)
  | .error failure after => (⟨.error failure, after.2⟩, after.1)

def Source.perform (source : Source σ) : Operation → σ → Observation × σ
  | .load n => observe (do onEnvironment (source.load n); pure none) []
  | .get index => observe (do return some (← onEnvironment (source.get index))) []
  | .drop n => observe (do onEnvironment (source.drop n); pure none) []
  | .read destination length => observe (do source.read length; pure none) destination

structure Queue where
  dropped : List Byte
  unread : List Byte
  visible : Nat

namespace Queue

def start (text : List Byte) : Queue := ⟨[], text, 0⟩

def load (n : Nat) (queue : Queue) : Queue :=
  { queue with visible := min n queue.unread.length }

def drop (n : Nat) (queue : Queue) : Queue :=
  { dropped := queue.dropped ++ queue.unread.take n
    unread := queue.unread.drop n
    visible := queue.visible - n }

def perform : Operation → Queue → Observation × Queue
  | .load n, queue => (⟨.ok none, []⟩, queue.load n)
  | .get index, queue => (⟨.ok queue.unread[index]?, []⟩, queue)
  | .drop n, queue => (⟨.ok none, []⟩, queue.drop n)
  | .read destination length, queue =>
      if length ≤ queue.unread.length then
        (⟨.ok none, queue.unread.take length ++ destination.drop length⟩,
          (queue.load length).drop length)
      else
        (⟨.error insufficientInput, destination⟩, queue.load length)

/-- get and drop stay within size(), and an empty text is not read in zero bytes. -/
def Allows (text : List Byte) : Operation → Queue → Prop
  | .load _, _ => True
  | .get index, queue => index < queue.visible
  | .drop n, queue => n ≤ queue.visible
  | .read destination length, _ => length ≤ destination.length ∧ (0 < length ∨ text ≠ [])

def Consistent (text : List Byte) (queue : Queue) : Prop :=
  queue.dropped ++ queue.unread = text ∧ queue.visible ≤ queue.unread.length

theorem start_consistent (text : List Byte) : (start text).Consistent text :=
  ⟨rfl, Nat.zero_le _⟩

theorem load_consistent (text : List Byte) (n : Nat) (queue : Queue)
    (consistent : queue.Consistent text) : (queue.load n).Consistent text :=
  ⟨consistent.1, Nat.min_le_right _ _⟩

theorem drop_consistent (text : List Byte) (n : Nat) (queue : Queue)
    (consistent : queue.Consistent text) : (queue.drop n).Consistent text := by
  obtain ⟨whole, visible⟩ := consistent
  constructor
  · simp [drop, whole]
  · simp only [drop, List.length_drop]
    omega

theorem perform_consistent (text : List Byte) (operation : Operation) (queue : Queue)
    (consistent : queue.Consistent text) : (perform operation queue).2.Consistent text := by
  cases operation with
  | load n => exact load_consistent text n queue consistent
  | get index => exact consistent
  | drop n => exact drop_consistent text n queue consistent
  | read destination length =>
      by_cases enough : length ≤ queue.unread.length
      · rw [perform, if_pos enough]
        exact drop_consistent text length _ (load_consistent text length queue consistent)
      · rw [perform, if_neg enough]
        exact load_consistent text length queue consistent

end Queue

/-- The source is in the state of the queue, up to what size() shows beyond it. -/
def View.Shows (view : View σ) (state : σ) (queue : Queue) : Prop :=
  view.ready state ∧ view.unread state = queue.unread ∧
    queue.visible ≤ queue.unread.length ∧
      view.visible state = if view.whole then queue.unread.length else queue.visible

namespace Source.Presents

variable {source : Source σ} {view : View σ} (presents : source.Presents view)

theorem shows_visible {state : σ} {queue : Queue} (shows : view.Shows state queue) :
    queue.visible ≤ view.visible state := by
  obtain ⟨-, -, inside, visible⟩ := shows
  rw [visible]
  by_cases whole : view.whole = true <;> simp [whole, inside]

include presents in
theorem load_refines (n : Nat) (state : σ) (queue : Queue) (shows : view.Shows state queue) :
    ∃ after, source.load n state = .ok () after ∧ view.Shows after (queue.load n) := by
  obtain ⟨ready, unread, inside, -⟩ := shows
  obtain ⟨after, done, ready', same, visible⟩ := presents.load state n ready
  refine ⟨after, done, ready', same.trans unread, Nat.min_le_right _ _, ?_⟩
  rw [visible, unread]
  rfl

include presents in
theorem drop_refines (n : Nat) (state : σ) (queue : Queue) (shows : view.Shows state queue)
    (allowed : n ≤ queue.visible) :
    ∃ after, source.drop n state = .ok () after ∧ view.Shows after (queue.drop n) := by
  have covered : n ≤ view.visible state := allowed.trans (shows_visible shows)
  obtain ⟨ready, unread, inside, shown⟩ := shows
  obtain ⟨after, done, ready', same, visible⟩ := presents.drop state n ready covered
  refine ⟨after, done, ready', by rw [same, unread, Queue.drop], ?_, ?_⟩
  · simp only [Queue.drop, List.length_drop]
    omega
  · rw [visible, shown]
    by_cases whole : view.whole = true <;> simp [whole, Queue.drop]

include presents in
theorem read_refines (length : Nat) (destination : List Byte) (state : σ) (queue : Queue)
    (shows : view.Shows state queue) (room : length ≤ destination.length)
    (used : 0 < length ∨ view.pointed) :
    (source.perform (.read destination length) state).1 =
        (Queue.perform (.read destination length) queue).1 ∧
      view.Shows (source.perform (.read destination length) state).2
        (Queue.perform (.read destination length) queue).2 := by
  obtain ⟨ready, unread, inside, -⟩ := shows
  by_cases enough : length ≤ queue.unread.length
  · obtain ⟨after, done, ready', left, visible⟩ :=
      presents.read_enough state destination length ready used room (by rwa [unread])
    rw [Queue.perform, if_pos enough]
    simp only [Source.perform, observe, bind_run, done, pure_run, unread]
    refine ⟨trivial, ready', by rw [left, unread]; rfl, ?_, ?_⟩
    · simp only [Queue.drop, Queue.load, List.length_drop]
      omega
    · rw [visible, unread, View.shown]
      by_cases whole : view.whole = true <;> simp [whole, Queue.drop, Queue.load]
  · obtain ⟨after, failed, ready', same, visible⟩ :=
      presents.read_short state destination length ready (by rw [unread]; omega)
    rw [Queue.perform, if_neg enough]
    simp only [Source.perform, observe, bind_run, failed]
    refine ⟨trivial, ready', same.trans unread, Nat.min_le_right _ _, ?_⟩
    rw [visible, unread]
    rfl

include presents in
theorem refines (text : List Byte) (pointed : text ≠ [] → view.pointed) :
    Refines view.Shows (Queue.Allows text) source.perform Queue.perform := by
  intro operation state queue shows allowed
  cases operation with
  | load n =>
      obtain ⟨after, done, shows'⟩ := presents.load_refines n state queue shows
      simp only [Source.perform, observe, bind_run, onEnvironment, done, pure_run]
      exact ⟨rfl, shows'⟩
  | get index =>
      have covered := lt_of_lt_of_le allowed (shows_visible shows)
      obtain ⟨byte, found, done⟩ := presents.get state index shows.1 covered
      simp only [Source.perform, observe, bind_run, onEnvironment, done, pure_run]
      rw [shows.2.1] at found
      exact ⟨by rw [Queue.perform, found], shows⟩
  | drop n =>
      obtain ⟨after, done, shows'⟩ := presents.drop_refines n state queue shows allowed
      simp only [Source.perform, observe, bind_run, onEnvironment, done, pure_run]
      exact ⟨rfl, shows'⟩
  | read destination length =>
      exact presents.read_refines length destination state queue shows allowed.1
        (allowed.2.imp_right pointed)

end Source.Presents

end Szn
