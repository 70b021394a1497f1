import Szn.Spec.Queue

set_option autoImplicit false

namespace Szn

open Stateful Simulation

-- The preconditions that the calls assert, and a destination that is large enough.
def Source.Permits {σ : Type} (source : Source σ) : Operation → σ → Prop
  | .load _, _ => True
  | .get index, state => ∃ size after, source.size state = .ok size after ∧ index < size
  | .drop n, state => ∃ size after, source.size state = .ok size after ∧ n ≤ size
  | .read destination length, _ => length ≤ destination.length

/-- A stream with exceptions: a load that fails appends zeros to the unread bytes. -/
structure Window where
  unread : List Byte
  visible : Nat

namespace Window

variable (limit : Nat) (loud : Bool)

def Fails (n : Nat) (window : Window) : Prop :=
  loud = true ∧ window.unread.length < min n limit

instance (n : Nat) (window : Window) : Decidable (window.Fails limit loud n) :=
  inferInstanceAs (Decidable (_ ∧ _))

def grow (n : Nat) (window : Window) : Window :=
  { window with
    unread := window.unread ++ List.replicate (min n limit - window.unread.length) 0 }

def load (n : Nat) (window : Window) : Window :=
  if window.Fails limit loud n then window.grow limit n
  else { window with visible := min (min n limit) window.unread.length }

def drop (n : Nat) (window : Window) : Window :=
  ⟨window.unread.drop n, window.visible - n⟩

def perform : Operation → Window → Observation × Window
  | .load n, window =>
      (⟨if window.Fails limit loud n then .error .streamFailure else .ok none, []⟩,
        window.load limit loud n)
  | .get index, window => (⟨.ok window.unread[index]?, []⟩, window)
  | .drop n, window => (⟨.ok none, []⟩, window.drop n)
  | .read destination length, window =>
      if window.Fails limit loud length then
        (⟨.error .streamFailure, destination⟩, window.load limit loud length)
      else if limit < length ∨ window.unread.length < length then
        (⟨.error insufficientInput, destination⟩, window.load limit loud length)
      else
        (⟨.ok none, window.unread.take length ++ destination.drop length⟩,
          (window.load limit loud length).drop length)

def Allows : Operation → Window → Prop
  | .load _, _ => True
  | .get index, window => index < window.visible
  | .drop n, window => n ≤ window.visible
  | .read destination length, _ => length ≤ destination.length

end Window

namespace StreamSource

variable (P : Platform) (loud : Bool)

structure Shows (state : StreamSource) (window : Window) : Prop where
  exceptions : state.input.exceptions = loud
  unread : state.buffer ++ state.input.undelivered = window.unread
  visible : state.size = window.visible
  inside : state.size ≤ state.buffer.length

variable {P loud}

theorem Shows.fails_iff {state : StreamSource} {window : Window} (shows : Shows loud state window)
    (n : Nat) :
    window.Fails P.bufferMax loud n ↔
      (state.input.exceptions && decide (state.input.undelivered.length <
        min n P.bufferMax - state.buffer.length)) = true := by
  have whole := congrArg List.length shows.unread
  rw [List.length_append] at whole
  rw [Window.Fails, shows.exceptions, Bool.and_eq_true, decide_eq_true_eq]
  apply and_congr_right
  intro _
  omega

theorem Shows.load_fails {state : StreamSource} {window : Window}
    (shows : Shows loud state window) (n : Nat) (fails : window.Fails P.bufferMax loud n) :
    ∃ after, load P n state = .error .streamFailure after ∧
      Shows loud after (window.grow P.bufferMax n) ∧
        after.buffer = (window.grow P.bufferMax n).unread := by
  obtain ⟨gcount, thrown⟩ := load_throws P n state ((shows.fails_iff n).mp fails)
  have inside := shows.inside
  have grown : state.buffer ++ state.input.undelivered ++ List.replicate
      (min n P.bufferMax - (state.buffer ++ state.input.undelivered).length) 0 =
        (window.grow P.bufferMax n).unread := by
    rw [shows.unread, Window.grow]
  refine ⟨_, thrown, ⟨shows.exceptions, ?_, shows.visible, ?_⟩, grown⟩
  · rw [List.append_nil, grown]
  · simp only [List.length_append]
    omega

theorem Shows.load_ok {state : StreamSource} {window : Window}
    (shows : Shows loud state window) (n : Nat) (calm : ¬ window.Fails P.bufferMax loud n) :
    ∃ after, load P n state = .ok () after ∧
      Shows loud after { window with visible := min (min n P.bufferMax) window.unread.length } := by
  rw [shows.fails_iff n, Bool.not_eq_true] at calm
  obtain ⟨gcount, loaded⟩ := load_eq P n state calm
  have whole := congrArg List.length shows.unread
  rw [List.length_append] at whole
  refine ⟨_, loaded, shows.exceptions, ?_, ?_, Nat.min_le_right _ _⟩
  · rw [List.append_assoc, List.take_append_drop, shows.unread]
  · simp only [List.length_append, List.length_take]
    omega

theorem Shows.drop_ok {state : StreamSource} {window : Window}
    (shows : Shows loud state window) (n : Nat) (covered : n ≤ window.visible) :
    ∃ after, drop P n state = .ok () after ∧ Shows loud after (window.drop n) := by
  have inside := shows.inside
  have shown : n ≤ state.size := by rwa [shows.visible]
  have buffered : n ≤ state.buffer.length := shown.trans inside
  refine ⟨_, drop_eq P n state shown buffered, shows.exceptions, ?_, ?_, ?_⟩
  · rw [Window.drop, ← shows.unread, List.drop_append_of_le_length buffered]
  · rw [Window.drop, shows.visible]
  · simp only [List.length_drop]
    omega

theorem Shows.read_fails {state : StreamSource} {window : Window}
    (shows : Shows loud state window) (length : Nat) (destination : List Byte)
    (fails : window.Fails P.bufferMax loud length) :
    ∃ after, (streamSource P).read length (state, destination) =
        .error .streamFailure (after, destination) ∧
      Shows loud after (window.grow P.bufferMax length) := by
  obtain ⟨after, thrown, shows', -⟩ := shows.load_fails length fails
  refine ⟨after, ?_, shows'⟩
  simp only [Source.read, bind_run, onEnvironment, streamSource, thrown]

theorem Shows.read_short {state : StreamSource} {window : Window}
    (shows : Shows loud state window) (length : Nat) (destination : List Byte)
    (calm : ¬ window.Fails P.bufferMax loud length)
    (short : P.bufferMax < length ∨ window.unread.length < length) :
    ∃ after, (streamSource P).read length (state, destination) =
        .error insufficientInput (after, destination) ∧
      Shows loud after (window.load P.bufferMax loud length) := by
  obtain ⟨after, loaded, shows'⟩ := shows.load_ok length calm
  refine ⟨after, ?_, by rwa [Window.load, if_neg calm]⟩
  have size : after.size = min (min length P.bufferMax) window.unread.length := shows'.visible
  have failure : after.size < length := by omega
  simp [Source.read, onEnvironment, streamSource, loaded, failure]

theorem Shows.read_ok {state : StreamSource} {window : Window}
    (shows : Shows loud state window) (length : Nat) (destination : List Byte)
    (room : length ≤ destination.length) (held : length ≤ P.bufferMax)
    (enough : length ≤ window.unread.length) :
    ∃ after, (streamSource P).read length (state, destination) =
        .ok () (after, window.unread.take length ++ destination.drop length) ∧
      Shows loud after ⟨window.unread.drop length, 0⟩ := by
  have calm : ¬ window.Fails P.bufferMax loud length := by
    intro fails
    have short := fails.2
    omega
  obtain ⟨loaded, done, shows'⟩ := shows.load_ok length calm
  have whole : min (min length P.bufferMax) window.unread.length = length := by omega
  rw [whole] at shows'
  have size : loaded.size = length := shows'.visible
  have inside : length ≤ loaded.buffer.length := size ▸ shows'.inside
  obtain ⟨after, dropped, shows''⟩ := shows'.drop_ok (P := P) length (Nat.le_refl _)
  refine ⟨after, ?_, by simpa [Window.drop] using shows''⟩
  have copied : loaded.buffer.take length = window.unread.take length := by
    have same : loaded.buffer ++ loaded.input.undelivered = window.unread := shows'.unread
    rw [← same, List.take_append_of_le_length inside]
  have noFailure : ¬ loaded.size < length := by omega
  have inBounds : ¬ (loaded.buffer.length < length ∨ destination.length < length) := by omega
  simp [Source.read, copyTo, onEnvironment, readTarget, assignTarget, streamSource, done,
    noFailure, inBounds, dropped, copied]

theorem permits_iff (operation : Operation) (state : StreamSource) (window : Window)
    (shows : Shows loud state window) :
    (streamSource P).Permits operation state ↔ window.Allows operation := by
  have size (other : Nat) (after : StreamSource) :
      (streamSource P).size state = .ok other after ↔ window.visible = other ∧ state = after := by
    rw [← shows.visible]
    exact (EStateM.Result.ok.injEq _ _ _ _).to_iff
  cases operation with
  | load n => exact Iff.rfl
  | read destination length => exact Iff.rfl
  | get index => simp [Source.Permits, Window.Allows, size]
  | drop n => simp [Source.Permits, Window.Allows, size]

variable (P loud)

theorem stream_refines :
    Refines (Shows loud) Window.Allows (streamSource P).perform
      (Window.perform P.bufferMax loud) := by
  intro operation state window shows allowed
  cases operation with
  | load n =>
      by_cases fails : window.Fails P.bufferMax loud n
      · obtain ⟨after, thrown, shows', -⟩ := shows.load_fails n fails
        have thrown' : (streamSource P).load n state = .error .streamFailure after := thrown
        simp only [Source.perform, observe, bind_run, onEnvironment, thrown', Window.perform,
          Window.load, if_pos fails]
        exact ⟨trivial, shows'⟩
      · obtain ⟨after, loaded, shows'⟩ := shows.load_ok n fails
        have loaded' : (streamSource P).load n state = .ok () after := loaded
        simp only [Source.perform, observe, bind_run, onEnvironment, loaded', pure_run,
          Window.perform, Window.load, if_neg fails]
        exact ⟨trivial, shows'⟩
  | get index =>
      have shown : index < state.size := by rwa [shows.visible]
      have buffered := lt_of_lt_of_le shown shows.inside
      have done : (streamSource P).get index state = .ok state.buffer[index] state :=
        get_eq P index state shown buffered
      simp only [Source.perform, observe, bind_run, onEnvironment, done, pure_run,
        Window.perform, ← shows.unread]
      exact ⟨by simp [List.getElem?_append_left, buffered], shows⟩
  | drop n =>
      obtain ⟨after, dropped, shows'⟩ := shows.drop_ok (P := P) n allowed
      have dropped' : (streamSource P).drop n state = .ok () after := dropped
      simp only [Source.perform, observe, bind_run, onEnvironment, dropped', pure_run,
        Window.perform]
      exact ⟨trivial, shows'⟩
  | read destination length =>
      by_cases fails : window.Fails P.bufferMax loud length
      · obtain ⟨after, thrown, shows'⟩ := shows.read_fails length destination fails
        simp only [Source.perform, observe, bind_run, thrown, Window.perform, Window.load,
          if_pos fails]
        exact ⟨trivial, shows'⟩
      · by_cases short : P.bufferMax < length ∨ window.unread.length < length
        · obtain ⟨after, thrown, shows'⟩ := shows.read_short length destination fails short
          simp only [Source.perform, observe, bind_run, thrown, Window.perform, if_neg fails,
            if_pos short]
          exact ⟨trivial, shows'⟩
        · obtain ⟨after, done, shows'⟩ :=
            shows.read_ok (P := P) length destination allowed (by omega) (by omega)
          simp only [Source.perform, observe, bind_run, done, pure_run, Window.perform,
            Window.load, if_neg fails, if_neg short, Window.drop]
          refine ⟨trivial, ?_⟩
          have emptied : min (min length P.bufferMax) window.unread.length - length = 0 := by omega
          rwa [emptied]

theorem start_shows (text : List Byte) (gcount : Nat) :
    Shows loud (makeStreamSource ⟨text, gcount, loud⟩) ⟨text, 0⟩ :=
  ⟨rfl, rfl, rfl, Nat.le_refl _⟩

end StreamSource

end Szn
