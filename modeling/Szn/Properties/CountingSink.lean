import Szn.Library.Projection
import Szn.Model.ReaderWriter
import Szn.Spec.Serialize

set_option autoImplicit false

namespace Szn

open Stateful Tracing

variable {σ τ : Type} (P : Platform)

namespace Writer

variable (sink : Sink σ) (items : List Item) (state : σ)

theorem values_project (other : Sink τ) (f : σ → τ)
    (projects : ∀ chunk, Projects f (sink.write chunk) (other.write chunk)) :
    tryEach (value P other) items (f state) =
      ((tryEach (value P sink) items state).1, f (tryEach (value P sink) items state).2) := by
  apply tryEach_projects
  intro item
  rw [value, value, Format.serialize_replay, Format.serialize_replay]
  exact Trace.replay_projects projects _

theorem values_return (other : Sink τ) (f : σ → τ)
    (returns : ∀ chunk, ReturnsAs f (sink.write chunk) (other.write chunk))
    (succeeds : ∀ result ∈ (tryEach (value P sink) items state).1, result = .ok ()) :
    tryEach (value P other) items (f state) =
      ((tryEach (value P sink) items state).1, f (tryEach (value P sink) items state).2) := by
  refine tryEach_returnsAs ?_ items state succeeds
  intro item
  rw [value, value, Format.serialize_replay, Format.serialize_replay]
  exact Trace.replay_returnsAs returns _

theorem values_keep (invariant : σ → Prop)
    (keeps : ∀ chunk, Keeps invariant (sink.write chunk)) (holds : invariant state) :
    invariant (tryEach (value P sink) items state).2 := by
  refine tryEach_keeps ?_ items state holds
  intro item
  rw [value, Format.serialize_replay]
  exact Trace.replay_keeps keeps _

end Writer

def Sink.recording (next : Sink σ) : Sink (σ × Record Byte) where
  write := Tracing.recording next.write

def Counted (initial : BitVec 64) (state : (σ × Record Byte) × BitVec 64) : Prop :=
  state.2 = initial + BitVec.ofNat 64 state.1.2.accepted.flatten.length

section Adaptor

variable (next : Sink σ) (chunk : List Byte)

theorem adaptor_run :
    (countingSinkAdaptor next).write chunk = fun state =>
      match next.write chunk state.1 with
      | .ok _ after => .ok () (after, state.2 + BitVec.ofNat 64 chunk.length)
      | .error failure after => .error failure (after, state.2) := by
  funext state
  simp only [countingSinkAdaptor, countingSink, onEnvironment, onTarget, bind_run, modify_run]
  cases next.write chunk state.1 with
  | ok _ after => rfl
  | error failure after => rfl

theorem adaptor_projects :
    Projects Prod.fst ((countingSinkAdaptor next).write chunk) (next.write chunk) := by
  intro state
  rw [adaptor_run]
  cases done : next.write chunk state.1 with
  | ok _ after => simp only [done, mapState]
  | error failure after => simp only [done, mapState]

theorem adaptor_returnsAs :
    ReturnsAs Prod.snd ((countingSinkAdaptor next).write chunk) (countingSink.write chunk) := by
  intro state value after done
  rw [adaptor_run] at done
  cases written : next.write chunk state.1 with
  | ok _ final =>
      simp only [written] at done
      cases done
      rfl
  | error failure final =>
      simp only [written] at done
      cases done

theorem adaptor_of_projection {other : Sink τ} {f : σ → τ}
    (projects : Projects f (next.write chunk) (other.write chunk)) :
    Projects (Prod.map f id) ((countingSinkAdaptor next).write chunk)
      ((countingSinkAdaptor other).write chunk) := by
  intro state
  have here := projects state.1
  rw [adaptor_run, adaptor_run]
  simp only [Prod.map_fst, ← here]
  cases next.write chunk state.1 with
  | ok _ after => rfl
  | error failure after => rfl

theorem adaptor_counts (initial : BitVec 64) :
    Keeps (Counted initial) ((countingSinkAdaptor next.recording).write chunk) := by
  intro state counted
  rw [adaptor_run]
  simp only [Sink.recording, recording]
  cases next.write chunk state.1.1 with
  | ok _ after =>
      simp only [finalState, Counted, List.flatten_append, List.length_append]
      rw [show state.2 = _ from counted, BitVec.ofNat_add, BitVec.add_assoc]
      simp
  | error failure after => exact counted

end Adaptor

theorem counting_adaptor_exact (next : Sink σ) (items : List Item) (state : σ)
    (count : BitVec 64) :
    let direct := tryEach (Writer.value P next) items state
    let recorded := tryEach (Writer.value P next.recording) items (state, Record.empty)
    let record := recorded.2.2
    let counted := count + BitVec.ofNat 64 record.accepted.flatten.length
    recorded = (direct.1, direct.2, record) ∧
      tryEach (Writer.value P (countingSinkAdaptor next.recording)) items
          ((state, Record.empty), count) = (direct.1, (direct.2, record), counted) ∧
      tryEach (Writer.value P (countingSinkAdaptor next)) items (state, count) =
        (direct.1, direct.2, counted) ∧
      ((∀ result ∈ direct.1, result = .ok ()) →
        tryEach (Writer.value P countingSink) items count = (direct.1, counted)) := by
  intro direct recorded record counted
  let both := tryEach (Writer.value P (countingSinkAdaptor next.recording)) items
    ((state, Record.empty), count)
  have forgets : direct = (recorded.1, recorded.2.1) :=
    Writer.values_project P next.recording items (state, Record.empty) next Prod.fst
      recording_projects
  have passes : recorded = (both.1, both.2.1) :=
    Writer.values_project P (countingSinkAdaptor next.recording) items
      ((state, Record.empty), count) next.recording Prod.fst (adaptor_projects next.recording)
  have counts : Counted count both.2 :=
    Writer.values_keep P _ items _ (Counted count) (fun chunk => adaptor_counts next chunk count)
      (by simp [Counted, Record.empty])
  have whole : both = (direct.1, (direct.2, record), counted) := by
    rw [show counted = count + BitVec.ofNat 64 record.accepted.flatten.length from rfl,
      show record = recorded.2.2 from rfl, forgets, passes]
    exact Prod.ext rfl (Prod.ext rfl counts)
  refine ⟨by rw [forgets], whole, ?_, ?_⟩
  · have plain : tryEach (Writer.value P (countingSinkAdaptor next)) items (state, count) =
        (both.1, Prod.map Prod.fst id both.2) :=
      Writer.values_project P (countingSinkAdaptor next.recording) items
        ((state, Record.empty), count) (countingSinkAdaptor next) (Prod.map Prod.fst id)
        fun chunk => adaptor_of_projection next.recording chunk (recording_projects chunk)
    rwa [whole] at plain
  · intro succeeds
    have same : both.1 = direct.1 := by rw [whole]
    rw [← same] at succeeds
    have alone : tryEach (Writer.value P countingSink) items count = (both.1, both.2.2) :=
      Writer.values_return P (countingSinkAdaptor next.recording) items
        ((state, Record.empty), count) countingSink Prod.snd (adaptor_returnsAs next.recording)
        succeeds
    rwa [whole] at alone

end Szn
