import Mathlib.Data.List.Basic

set_option autoImplicit false

namespace Tracing

variable {ε σ κ α : Type}

structure Trace (κ ε : Type) where
  chunks : List (List κ)
  ending : Option ε

namespace Trace

def empty : Trace κ ε := ⟨[], none⟩

def emit (chunk : List κ) : Trace κ ε := ⟨[chunk], none⟩

def fail (failure : ε) : Trace κ ε := ⟨[], some failure⟩

def andThen (first second : Trace κ ε) : Trace κ ε :=
  match first.ending with
  | some _ => first
  | none => ⟨first.chunks ++ second.chunks, second.ending⟩

def all (write : α → Trace κ ε) : List α → Trace κ ε
  | [] => empty
  | value :: rest => (write value).andThen (all write rest)

def replay (write : List κ → EStateM ε σ Unit) (trace : Trace κ ε) : EStateM ε σ Unit := do
  trace.chunks.forM write
  match trace.ending with
  | some failure => throw failure
  | none => pure ()

def Emits (trace : Trace κ ε) (text : List κ) : Prop :=
  trace.ending = none ∧ trace.chunks.flatten = text

section Replay

variable (write : List κ → EStateM ε σ Unit)

theorem replay_empty : replay write empty = pure () := by
  simp [replay, empty]

theorem replay_emit (chunk : List κ) : replay write (emit chunk) = write chunk := by
  simp [replay, emit]

theorem throw_bind (failure : ε) (next : α → EStateM ε σ Unit) :
    ((throw failure : EStateM ε σ α) >>= next) = throw failure := rfl

theorem replay_fail (failure : ε) : replay write (fail failure) = throw failure := by
  simp [replay, fail]

theorem replay_cons (chunk : List κ) (rest : List (List κ)) (ending : Option ε) :
    replay write ⟨chunk :: rest, ending⟩ = (do write chunk; replay write ⟨rest, ending⟩) := by
  simp [replay]

theorem replay_andThen (first second : Trace κ ε) :
    replay write (first.andThen second) =
      (do replay write first; replay write second) := by
  cases ended : first.ending with
  | some failure => simp [replay, andThen, ended, throw_bind]
  | none => simp [replay, andThen, ended, List.forM_append]

theorem replay_all (emitted : α → Trace κ ε) (values : List α) :
    replay write (all emitted values) = values.forM fun value => replay write (emitted value) := by
  induction values with
  | nil => exact replay_empty write
  | cons value rest ih =>
      rw [all, replay_andThen, ih]
      rfl

end Replay

theorem Emits.empty : Emits (empty : Trace κ ε) [] := ⟨rfl, rfl⟩

theorem Emits.emit (chunk : List κ) : Emits (emit chunk : Trace κ ε) chunk :=
  ⟨rfl, by simp [Trace.emit]⟩

theorem emits_andThen (first second : Trace κ ε) (text : List κ) :
    Emits (first.andThen second) text ↔
      ∃ head tail, Emits first head ∧ Emits second tail ∧ head ++ tail = text := by
  cases ended : first.ending with
  | some failure => simp [Emits, andThen, ended]
  | none =>
      simp only [Emits, andThen, ended, List.flatten_append, true_and]
      constructor
      · rintro ⟨ends, same⟩
        exact ⟨_, _, rfl, ⟨ends, rfl⟩, same⟩
      · rintro ⟨_, _, rfl, ⟨ends, rfl⟩, same⟩
        exact ⟨ends, same⟩

theorem Emits.andThen {first second : Trace κ ε} {head tail : List κ}
    (begins : Emits first head) (ends : Emits second tail) :
    Emits (first.andThen second) (head ++ tail) :=
  (emits_andThen first second _).mpr ⟨head, tail, begins, ends, rfl⟩

theorem emits_fail (failure : ε) (text : List κ) : ¬ Emits (fail failure : Trace κ ε) text := by
  simp [Emits, fail]

theorem Emits.unique {trace : Trace κ ε} {text other : List κ} (emits : Emits trace text)
    (again : Emits trace other) : text = other :=
  emits.2.symm.trans again.2

theorem Emits.all (emitted : α → Trace κ ε) (text : α → List κ) (values : List α)
    (each : ∀ value ∈ values, Emits (emitted value) (text value)) :
    Emits (all emitted values) (values.flatMap text) := by
  induction values with
  | nil => exact Emits.empty
  | cons value rest ih =>
      exact Emits.andThen (each value (by simp))
        (ih fun other member => each other (by simp [member]))

theorem all_congr {emitted other : α → Trace κ ε} {values : List α}
    (same : ∀ value ∈ values, emitted value = other value) :
    all emitted values = all other values := by
  induction values with
  | nil => rfl
  | cons value rest ih =>
      rw [all, all, same value (by simp), ih fun part member => same part (by simp [member])]

theorem andThen_ending (first second : Trace κ ε) :
    (first.andThen second).ending = none ↔ first.ending = none ∧ second.ending = none := by
  cases ended : first.ending <;> simp [andThen, ended]

theorem all_ending (emitted : α → Trace κ ε) (values : List α) :
    (all emitted values).ending = none ↔ ∀ value ∈ values, (emitted value).ending = none := by
  induction values with
  | nil => simp [all, Trace.empty]
  | cons value rest ih => simp [all, andThen_ending, ih]

theorem replay_append (trace : Trace κ ε) (before : List κ) :
    replay (fun chunk => modify (· ++ chunk)) trace before =
      match trace.ending with
      | some failure => .error failure (before ++ trace.chunks.flatten)
      | none => .ok () (before ++ trace.chunks.flatten) := by
  have writes (chunks : List (List κ)) (text : List κ) (next : EStateM ε (List κ) Unit) :
      ((chunks.forM fun chunk => (modify (· ++ chunk) : EStateM ε (List κ) Unit)) >>=
        fun _ => next) text = next (text ++ chunks.flatten) := by
    induction chunks generalizing text with
    | nil => simp
    | cons chunk rest ih =>
        simp only [List.forM_eq_forM, List.forM_cons, bind_assoc, List.flatten_cons]
        rw [← List.append_assoc]
        exact ih _
  unfold replay
  rw [writes]
  cases trace.ending <;> rfl

theorem replay_append_ok (trace : Trace κ ε) (before after : List κ) :
    replay (fun chunk => modify (· ++ chunk)) trace before = .ok () after ↔
      ∃ text, Emits trace text ∧ after = before ++ text := by
  rw [replay_append]
  cases ended : trace.ending with
  | some failure => simp [Emits, ended]
  | none => simp [Emits, ended, eq_comm]

end Trace

end Tracing
