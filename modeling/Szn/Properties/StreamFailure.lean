import Szn.Spec.Stream

set_option autoImplicit false

namespace Szn

open Stateful Simulation

def Operation.taken : Operation → Observation → Nat
  | .drop n, ⟨.ok _, _⟩ => n
  | .read _ length, ⟨.ok _, _⟩ => length
  | _, _ => 0

section Tally

variable {σ τ : Type}

-- The number beside the state counts the bytes that the calls took.
def tallying (step : Operation → σ → Observation × σ) (operation : Operation)
    (state : σ × Nat) : Observation × (σ × Nat) :=
  let next := step operation state.1
  (next.1, (next.2, state.2 + operation.taken next.1))

theorem tallying_refines {relates : σ → τ → Prop} {allowed : Operation → τ → Prop}
    {concrete : Operation → σ → Observation × σ} {abstract : Operation → τ → Observation × τ}
    (refines : Refines relates allowed concrete abstract) :
    Refines (fun state model => relates state.1 model.1 ∧ state.2 = model.2)
      (fun operation model => allowed operation model.1) (tallying concrete)
      (tallying abstract) := by
  rintro operation ⟨state, taken⟩ ⟨model, _⟩ ⟨related, rfl⟩ permitted
  obtain ⟨same, related'⟩ := refines operation state model related permitted
  exact ⟨same, related', by rw [tallying, tallying, same]⟩

end Tally

namespace StreamSource

variable (P : Platform)

def Reaches (initial later : StreamSource × Nat) : Prop :=
  Reachable (tallying (streamSource P).perform)
    (fun operation state => (streamSource P).Permits operation state.1) initial later

/-- Whatever is called later, every byte that is obtained is the pending one at its place. -/
def ObtainsOnly (state : StreamSource) (pending : List Byte) : Prop :=
  ∀ later taken, Reaches P (state, 0) (later, taken) →
    (∀ index byte after, (streamSource P).get index later = .ok byte after →
      pending[taken + index]? = some byte) ∧
    ∀ length destination after bytes, length ≤ destination.length →
      (streamSource P).read length (later, destination) = .ok () (after, bytes) →
        bytes.take length <+: pending.drop taken

theorem tally_length (limit : Nat) (loud : Bool) (total : Nat) (operation : Operation)
    (state : Window × Nat) (holds : total ≤ state.2 + state.1.unread.length) :
    total ≤ (tallying (Window.perform limit loud) operation state).2.2 +
      (tallying (Window.perform limit loud) operation state).2.1.unread.length := by
  have kept (n : Nat) :
      state.1.unread.length ≤ (state.1.load limit loud n).unread.length := by
    unfold Window.load
    split
    · simp [Window.grow]
    · exact Nat.le_refl _
  cases operation with
  | load n => exact holds.trans (Nat.add_le_add_left (kept n) _)
  | get index => exact holds
  | drop n =>
      simp only [tallying, Window.perform, Operation.taken, Window.drop, List.length_drop]
      omega
  | read destination length =>
      have grown := kept length
      simp only [tallying, Window.perform]
      split
      · simp only [Operation.taken]
        omega
      · split
        · simp only [Operation.taken]
          omega
        · simp only [Operation.taken, Window.drop, List.length_drop]
          omega

theorem reached_shows (text : List Byte) (gcount : Nat)
    (state : StreamSource) (dropped : Nat)
    (reached : Reaches P (makeStreamSource ⟨text, gcount, true⟩, 0) (state, dropped)) :
    ∃ window, Shows true state window ∧
      (text.drop dropped).length ≤ window.unread.length := by
  obtain ⟨⟨window, taken⟩, ⟨operations, follows, final⟩, shows, same⟩ :=
    (tallying_refines (stream_refines P true)).reachable
      (fun operation state model related => permits_iff operation state.1 model.1 related.1)
      _ _ (⟨text, 0⟩, 0) ⟨start_shows true text gcount, rfl⟩ reached
  obtain rfl : dropped = taken := same
  have counted := run_invariant (fun state : Window × Nat =>
      text.length ≤ state.2 + state.1.unread.length)
    (fun operation state holds _ => tally_length P.bufferMax true text.length operation state holds)
    operations (⟨text, 0⟩, 0) (by simp) follows
  rw [final] at counted
  refine ⟨window, shows, ?_⟩
  rw [List.length_drop]
  dsimp only at counted
  omega

variable {P}

theorem Shows.of_throwing_load {state after : StreamSource} {window : Window}
    (shows : Shows true state window) (n : Nat)
    (thrown : load P n state = .error .streamFailure after) :
    window.Fails P.bufferMax true n ∧ Shows true after (window.grow P.bufferMax n) ∧
      after.buffer = (window.grow P.bufferMax n).unread := by
  by_cases fails : window.Fails P.bufferMax true n
  · obtain ⟨other, same, shows', held⟩ := shows.load_fails n fails
    rw [thrown] at same
    cases same
    exact ⟨fails, shows', held⟩
  · obtain ⟨other, loaded, -⟩ := shows.load_ok n fails
    rw [thrown] at loaded
    cases loaded

theorem Shows.load_of_throwing_read {state after : StreamSource} {window : Window}
    (shows : Shows true state window) (n : Nat) (destination left : List Byte)
    (room : n ≤ destination.length)
    (thrown : (streamSource P).read n (state, destination) = .error .streamFailure (after, left)) :
    load P n state = .error .streamFailure after := by
  by_cases fails : window.Fails P.bufferMax true n
  · obtain ⟨other, same, -⟩ := shows.load_fails n fails
    simp only [Source.read, bind_run, onEnvironment, streamSource, same] at thrown
    cases thrown
    exact same
  · by_cases short : P.bufferMax < n ∨ window.unread.length < n
    · obtain ⟨other, done, -⟩ := shows.read_short n destination fails short
      rw [thrown] at done
      cases done
    · obtain ⟨other, done, -⟩ := shows.read_ok (P := P) n destination room (by omega) (by omega)
      rw [thrown] at done
      cases done

variable (P)

-- The buffer of a failed load keeps the zeros it was grown by, and they can be read.
theorem failed_load_invents_bytes (text : List Byte) (gcount : Nat)
    (state after : StreamSource) (dropped n : Nat)
    (reached : Reaches P (makeStreamSource ⟨text, gcount, true⟩, 0) (state, dropped))
    (thrown : (streamSource P).load n state = .error .streamFailure after ∨
      ∃ destination left, n ≤ destination.length ∧
        (streamSource P).read n (state, destination) = .error .streamFailure (after, left)) :
    ¬ after.buffer <+: text.drop dropped ∧ ¬ ObtainsOnly P after (text.drop dropped) := by
  obtain ⟨window, shows, pending⟩ := reached_shows P text gcount state dropped reached
  have thrownLoad : load P n state = .error .streamFailure after := by
    rcases thrown with thrown | ⟨destination, left, room, thrown⟩
    · exact thrown
    · exact shows.load_of_throwing_read n destination left room thrown
  obtain ⟨fails, shows', held⟩ := shows.of_throwing_load n thrownLoad
  have short := fails.2
  have filled : after.buffer.length = min n P.bufferMax := by
    rw [held, Window.grow, List.length_append, List.length_replicate]
    omega
  have longer : (text.drop dropped).length < after.buffer.length := by omega
  have bounded : after.buffer.length ≤ P.bufferMax := by omega
  constructor
  · intro inside
    exact absurd inside.length_le (Nat.not_le.mpr longer)
  · intro only
    obtain ⟨final, done, -⟩ := shows'.read_ok after.buffer.length
      (List.replicate after.buffer.length 0) (by simp) bounded (by rw [held])
    have obtained := (only after 0 ⟨[], trivial, rfl⟩).2 after.buffer.length _ final _
      (by simp) done
    rw [← held, List.take_length, List.drop_zero] at obtained
    have bound := obtained.length_le
    simp only [List.length_take, List.length_append] at bound
    omega

theorem failed_load_invents_bytes_hi :
    let text : List Byte := [72, 105]
    let after : StreamSource := ⟨⟨[], 2, true⟩, [72, 105, 0, 0], 0⟩
    ¬ after.buffer <+: text ∧ ¬ ObtainsOnly amd64 after text :=
  failed_load_invents_bytes amd64 [72, 105] 0 (makeStreamSource ⟨[72, 105], 0, true⟩)
    ⟨⟨[], 2, true⟩, [72, 105, 0, 0], 0⟩ 0 4 ⟨[], trivial, rfl⟩ (Or.inl (by decide))

theorem failed_load_shows_zero :
    let failed : StreamSource := ⟨⟨[], 2, true⟩, [72, 105, 0], 0⟩
    (streamSource amd64).load 3 (makeStreamSource ⟨[72, 105], 0, true⟩) =
        .error .streamFailure failed ∧
      (streamSource amd64).read 3 (failed, [1, 1, 1]) =
        .ok () (⟨⟨[], 2, true⟩, [], 0⟩, [72, 105, 0]) := by
  refine ⟨by decide, by decide⟩

end StreamSource

end Szn
