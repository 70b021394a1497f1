import Szn.Properties.CountingSink
import Szn.Spec.Serialize

set_option autoImplicit false

namespace Szn

open Stateful Tracing

namespace Ostream

def accept (out : Ostream) (data : List Byte) : Ostream :=
  if out.bad then out
  else
    { out with
      written := out.written ++ data.take out.room
      room := out.room - data.length
      bad := decide (out.room < data.length) }

@[simp] theorem accept_exceptions (out : Ostream) (data : List Byte) :
    (out.accept data).exceptions = out.exceptions := by
  unfold accept
  split <;> rfl

theorem accept_append (out : Ostream) (data more : List Byte) :
    out.accept (data ++ more) = (out.accept data).accept more := by
  obtain ⟨written, room, bad, exceptions⟩ := out
  cases bad with
  | true => rfl
  | false =>
      by_cases short : room < data.length
      · have shorter : room < data.length + more.length := by omega
        have none : room - data.length = 0 := by omega
        have none' : room - (data.length + more.length) = 0 := by omega
        simp [accept, short, shorter, none, none', List.take_append]
      · have rest : room < data.length + more.length ↔ room - data.length < more.length := by
          omega
        have left : data.take room = data := List.take_of_length_le (by omega)
        simp [accept, short, rest, left, List.take_append, Nat.sub_sub]

@[simp] theorem accept_nil (out : Ostream) : out.accept [] = out := by
  obtain ⟨written, room, bad, exceptions⟩ := out
  cases bad <;> simp [accept]

theorem write_eq (out : Ostream) (data : List Byte) :
    streamSink.write data out =
      if (out.accept data).bad && out.exceptions then .error .streamFailure (out.accept data)
      else .ok () (out.accept data) := by
  rw [← accept_exceptions out data]
  rfl

end Ostream

open Ostream

-- With exceptions off, the stream is what the bytes of a container sink make of it.
theorem stream_sink_projects (out : Ostream) (quiet : out.exceptions = false)
    (chunk : List Byte) :
    Projects out.accept (insertionSink.write chunk) (streamSink.write chunk) := by
  intro before
  rw [write_eq, accept_exceptions, quiet, Bool.and_false, if_neg Bool.false_ne_true,
    ← accept_append]
  rfl

theorem replay_loud (trace : Trace Byte Failure) (out : Ostream) (good : out.bad = false)
    (loud : out.exceptions = true) :
    trace.replay streamSink.write out =
      if trace.chunks.flatten.length ≤ out.room then
        match trace.ending with
        | some failure => .error failure (out.accept trace.chunks.flatten)
        | none => .ok () (out.accept trace.chunks.flatten)
      else .error .streamFailure (out.accept trace.chunks.flatten) := by
  obtain ⟨chunks, ending⟩ := trace
  induction chunks generalizing out with
  | nil =>
      dsimp only
      rw [List.flatten_nil, accept_nil]
      cases ending <;> simp [Trace.replay]
  | cons chunk rest ih =>
      simp only [Trace.replay_cons, List.flatten_cons, List.length_append]
      by_cases fits : chunk.length ≤ out.room
      · have good' : (out.accept chunk).bad = false := by
          simp [accept, good, Nat.not_lt.mpr fits]
        have room : (out.accept chunk).room = out.room - chunk.length := by
          simp [accept, good]
        have written : streamSink.write chunk out = .ok () (out.accept chunk) := by
          rw [write_eq, good']
          rfl
        have later := ih (out.accept chunk) good' (by rw [accept_exceptions, loud])
        have counts : chunk.length + rest.flatten.length ≤ out.room ↔
            rest.flatten.length ≤ out.room - chunk.length := by
          omega
        rw [bind_of_ok _ _ _ _ _ written, accept_append]
        simp only [counts]
        rw [room] at later
        exact later
      · have bad : (out.accept chunk).bad = true := by
          simp [accept, good, Nat.not_le.mp fits]
        have thrown : streamSink.write chunk out =
            .error .streamFailure (out.accept chunk) := by
          rw [write_eq, bad, loud]
          rfl
        have stays : (out.accept chunk).accept rest.flatten = out.accept chunk := by
          rw [accept, if_pos bad]
        have long : ¬ chunk.length + rest.flatten.length ≤ out.room := by omega
        rw [bind_of_error _ _ _ _ _ thrown, accept_append, stays, if_neg long]

theorem stream_sink_delivers (P : Platform) :
    (∀ (items : List Item) (out : Ostream), out.bad = false → out.exceptions = false →
      let container := tryEach (Writer.value P insertionSink) items []
      let stream := tryEach (Writer.value P streamSink) items out
      stream.1 = container.1 ∧
        stream.2.written = out.written ++ container.2.take out.room ∧
        (stream.2.bad = false ↔ container.2.length ≤ out.room)) ∧
    ∀ (F : Format) (value : F.Value) (out : Ostream), out.bad = false → out.exceptions = true →
      let container := F.serialize P insertionSink value []
      let stream := F.serialize P streamSink value out
      (finalState stream).written = out.written ++ (finalState container).take out.room ∧
        outcome stream = if (finalState container).length ≤ out.room then outcome container
          else .error .streamFailure := by
  constructor
  · intro items out good quiet container stream
    have same := Writer.values_project P insertionSink items [] streamSink _
      (stream_sink_projects out quiet)
    rw [accept_nil] at same
    have final : stream.2 = out.accept container.2 := congrArg Prod.snd same
    refine ⟨congrArg Prod.fst same, ?_, ?_⟩
    · rw [final]
      simp [accept, good]
    · rw [final]
      simp [accept, good]
  · intro F value out good loud container stream
    have appended : container = (F.trace P value).replay insertionSink.write [] :=
      congrFun (F.serialize_replay P insertionSink value) []
    have replayed : stream = (F.trace P value).replay streamSink.write out :=
      congrFun (F.serialize_replay P streamSink value) out
    rw [show insertionSink.write = fun chunk => modify (· ++ chunk) from rfl,
      Trace.replay_append, List.nil_append] at appended
    rw [replay_loud _ out good loud] at replayed
    rw [appended, replayed]
    generalize (F.trace P value).chunks.flatten = text
    by_cases fits : text.length ≤ out.room
    · cases (F.trace P value).ending <;> simp [finalState, outcome, accept, good, fits]
    · cases (F.trace P value).ending <;> simp [finalState, outcome, accept, good, fits]

theorem stream_sink_delivers_short :
    let numbers : List Item :=
      [⟨.integer ⟨be16, by decide⟩ (.unsigned 16), (0x0102 : BitVec 16)⟩,
        ⟨.integer ⟨be16, by decide⟩ (.unsigned 16), (0x0304 : BitVec 16)⟩]
    let stream := tryEach (Writer.value amd64 streamSink) numbers ⟨[], 3, false, false⟩
    stream.1 = [.ok (), .ok ()] ∧ stream.2.written = [1, 2, 3] := by
  intro numbers stream
  obtain ⟨results, written, -⟩ :=
    (stream_sink_delivers amd64).1 numbers ⟨[], 3, false, false⟩ rfl rfl
  refine ⟨results.trans (by decide +kernel), written.trans (by decide +kernel)⟩

end Szn
