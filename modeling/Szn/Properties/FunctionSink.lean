import Szn.Library.Projection
import Szn.Model.ReaderWriter
import Szn.Spec.Serialize

set_option autoImplicit false

namespace Szn

open Stateful Tracing

variable (P : Platform)

def keepCalls (data : List Byte) : EStateM Failure (List (List Byte)) Unit := fun calls =>
  .ok () (calls ++ [data])

def repeatCalls {φ : Type} (call : List Byte → EStateM Failure φ Unit)
    (kept : EStateM.Result Failure (List (List Byte)) Unit) : EStateM Failure φ Unit := do
  (finalState kept).forM call
  match outcome kept with
  | .ok _ => pure ()
  | .error failure => throw failure

theorem Writer.values_replay {σ : Type} (sink : Sink σ) (items : List Item) :
    Writer.values P sink items =
      (Trace.all (fun item : Item => item.1.trace P item.2) items).replay sink.write := by
  rw [Trace.replay_all]
  exact congrArg items.forM (funext fun item => item.1.serialize_replay P sink item.2)

theorem replay_keepCalls (trace : Trace Byte Failure) (before : List (List Byte)) :
    trace.replay keepCalls before =
      match trace.ending with
      | some failure => .error failure (before ++ trace.chunks)
      | none => .ok () (before ++ trace.chunks) := by
  obtain ⟨chunks, ending⟩ := trace
  induction chunks generalizing before with
  | nil =>
      rw [List.append_nil]
      cases ending <;> rfl
  | cons chunk rest ih =>
      have kept : keepCalls chunk before = .ok () (before ++ [chunk]) := rfl
      rw [Trace.replay_cons, bind_of_ok _ _ _ _ _ kept, ih, List.append_assoc]
      rfl

theorem function_sink_calls (items : List Item) {φ : Type}
    (call : List Byte → EStateM Failure φ Unit) :
    Writer.values P (functionSink call) items =
      repeatCalls call (Writer.values P (functionSink keepCalls) items []) := by
  rw [Writer.values_replay, Writer.values_replay]
  change _ = repeatCalls call (Trace.replay keepCalls _ _)
  rw [replay_keepCalls, List.nil_append, repeatCalls]
  change Trace.replay call _ = _
  rw [Trace.replay]
  cases (Trace.all (fun item : Item => item.1.trace P item.2) items).ending <;> rfl

end Szn
