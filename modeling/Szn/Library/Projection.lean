import Szn.Library.Stateful
import Szn.Library.Trace

set_option autoImplicit false

-- A projection forgets a part of the state and leaves the outcome as it was. An invariant says what
-- the forgotten part holds.

namespace Stateful

variable {ε σ τ α β κ : Type}

def mapState (f : σ → τ) : EStateM.Result ε σ α → EStateM.Result ε τ α
  | .ok value state => .ok value (f state)
  | .error failure state => .error failure (f state)

def finalState : EStateM.Result ε σ α → σ
  | .ok _ state | .error _ state => state

def outcome : EStateM.Result ε σ α → Except ε α
  | .ok value _ => .ok value
  | .error failure _ => .error failure

/-- The step does to `f state` what the other step does. -/
def Projects (f : σ → τ) (step : EStateM ε σ α) (other : EStateM ε τ α) : Prop :=
  ∀ state, mapState f (step state) = other (f state)

def ReturnsAs (f : σ → τ) (step : EStateM ε σ α) (other : EStateM ε τ α) : Prop :=
  ∀ state value after, step state = .ok value after → other (f state) = .ok value (f after)

def Keeps (invariant : σ → Prop) (step : EStateM ε σ α) : Prop :=
  ∀ state, invariant state → invariant (finalState (step state))

section Rules

variable {f : σ → τ} {invariant : σ → Prop}

theorem Projects.pure (value : α) :
    Projects f (pure value : EStateM ε σ α) (Pure.pure value) := fun _ => rfl

theorem Projects.throw (failure : ε) :
    Projects f (throw failure : EStateM ε σ α) (MonadExcept.throw failure) := fun _ => rfl

theorem Projects.bind {step : EStateM ε σ α} {other : EStateM ε τ α}
    {next : α → EStateM ε σ β} {otherNext : α → EStateM ε τ β} (first : Projects f step other)
    (second : ∀ value, Projects f (next value) (otherNext value)) :
    Projects f (step >>= next) (other >>= otherNext) := by
  intro state
  have here := first state
  cases done : step state with
  | ok value after =>
      rw [done] at here
      rw [bind_of_ok _ _ _ _ _ done, bind_of_ok _ _ _ _ _ here.symm]
      exact second value after
  | error failure after =>
      rw [done] at here
      rw [bind_of_error _ _ _ _ _ done, bind_of_error _ _ _ _ _ here.symm]
      rfl

theorem ReturnsAs.pure (value : α) :
    ReturnsAs f (pure value : EStateM ε σ α) (Pure.pure value) := by
  intro state result after done
  cases done
  rfl

theorem ReturnsAs.throw (failure : ε) (other : EStateM ε τ α) :
    ReturnsAs f (throw failure : EStateM ε σ α) other := by
  intro state result after done
  cases done

theorem ReturnsAs.bind {step : EStateM ε σ α} {other : EStateM ε τ α}
    {next : α → EStateM ε σ β} {otherNext : α → EStateM ε τ β} (first : ReturnsAs f step other)
    (second : ∀ value, ReturnsAs f (next value) (otherNext value)) :
    ReturnsAs f (step >>= next) (other >>= otherNext) := by
  intro state result after done
  obtain ⟨value, middle, here, there⟩ := (bind_ok_iff _ _ _ _ _).mp done
  rw [bind_of_ok _ _ _ _ _ (first state value middle here)]
  exact second value middle result after there

theorem Keeps.pure (value : α) : Keeps invariant (pure value : EStateM ε σ α) :=
  fun _ holds => holds

theorem Keeps.throw (failure : ε) : Keeps invariant (throw failure : EStateM ε σ α) :=
  fun _ holds => holds

theorem Keeps.bind {step : EStateM ε σ α} {next : α → EStateM ε σ β}
    (first : Keeps invariant step) (second : ∀ value, Keeps invariant (next value)) :
    Keeps invariant (step >>= next) := by
  intro state holds
  have here := first state holds
  cases done : step state with
  | ok value after =>
      rw [done] at here
      rw [bind_of_ok _ _ _ _ _ done]
      exact second value after here
  | error failure after =>
      rw [done] at here
      rw [bind_of_error _ _ _ _ _ done]
      exact here

theorem Keeps.foldlM {step : β → κ → EStateM ε σ β}
    (each : ∀ value item, Keeps invariant (step value item)) (items : List κ) (initial : β) :
    Keeps invariant (items.foldlM step initial) := by
  induction items generalizing initial with
  | nil => exact Keeps.pure initial
  | cons item rest ih =>
      rw [List.foldlM_cons]
      exact (each initial item).bind ih

end Rules

section Target

variable (target : τ)

theorem Keeps.withLocal (initial : α) (step : EStateM ε (σ × α) Unit) :
    Keeps (fun state : σ × τ => state.2 = target) (withLocal initial step) := by
  rintro ⟨state, _⟩ rfl
  unfold Stateful.withLocal
  cases step (state, initial) with
  | ok value next => rfl
  | error failure next => rfl

theorem Keeps.readTarget :
    Keeps (fun state => state.2 = target) (readTarget : EStateM ε (σ × τ) τ) := fun _ holds => holds

/-- When the step fails, the target holds what it held before. -/
def Untouched (step : EStateM ε (σ × τ) α) : Prop :=
  ∀ state after left failure, step (state, target) = .error failure (after, left) → left = target

theorem Untouched.pure (value : α) :
    Untouched target (pure value : EStateM ε (σ × τ) α) := by
  intro state after left failure failed
  cases failed

theorem Untouched.assignTarget (value : τ) :
    Untouched target (assignTarget value : EStateM ε (σ × τ) Unit) := by
  intro state after left failure failed
  cases failed

theorem Untouched.bind {step : EStateM ε (σ × τ) α} {next : α → EStateM ε (σ × τ) β}
    (keeps : Keeps (fun state => state.2 = target) step)
    (untouched : ∀ value, Untouched target (next value)) : Untouched target (step >>= next) := by
  intro state after left failure failed
  have kept := keeps (state, target) rfl
  cases done : step (state, target) with
  | ok value middle =>
      rw [done] at kept
      obtain ⟨reached, held⟩ := middle
      obtain rfl : held = target := kept
      rw [bind_of_ok _ _ _ _ _ done] at failed
      exact untouched value reached after left failure failed
  | error other middle =>
      rw [bind_of_error _ _ _ _ _ done] at failed
      cases failed
      rwa [done] at kept

end Target

def tryEach (step : α → EStateM ε σ Unit) : List α → σ → List (Except ε Unit) × σ
  | [], state => ([], state)
  | value :: rest, state =>
      let result := step value state
      let later := tryEach step rest (finalState result)
      (outcome result :: later.1, later.2)

section Each

variable {f : σ → τ} {step : α → EStateM ε σ Unit} {other : α → EStateM ε τ Unit}

theorem tryEach_projects (projects : ∀ value, Projects f (step value) (other value))
    (values : List α) (state : σ) :
    tryEach other values (f state) =
      ((tryEach step values state).1, f (tryEach step values state).2) := by
  induction values generalizing state with
  | nil => rfl
  | cons value rest ih =>
      have here := projects value state
      have later := ih (finalState (step value state))
      simp only [tryEach, ← here]
      cases done : step value state with
      | ok _ after =>
          rw [done] at later
          simp only [mapState, finalState, outcome] at later ⊢
          rw [later]
      | error failure after =>
          rw [done] at later
          simp only [mapState, finalState, outcome] at later ⊢
          rw [later]

theorem tryEach_returnsAs (returns : ∀ value, ReturnsAs f (step value) (other value))
    (values : List α) (state : σ)
    (succeeds : ∀ result ∈ (tryEach step values state).1, result = .ok ()) :
    tryEach other values (f state) =
      ((tryEach step values state).1, f (tryEach step values state).2) := by
  induction values generalizing state with
  | nil => rfl
  | cons value rest ih =>
      simp only [tryEach, List.forall_mem_cons] at succeeds ⊢
      obtain ⟨first, others⟩ := succeeds
      cases done : step value state with
      | ok _ after =>
          have later := ih after
          rw [done] at others
          rw [returns value state _ after done]
          simp only [finalState, outcome] at others ⊢
          rw [later others]
      | error failure after =>
          rw [done] at first
          cases first

theorem tryEach_keeps {invariant : σ → Prop} (keeps : ∀ value, Keeps invariant (step value))
    (values : List α) (state : σ) (holds : invariant state) :
    invariant (tryEach step values state).2 := by
  induction values generalizing state with
  | nil => exact holds
  | cons value rest ih => exact ih _ (keeps value state holds)

end Each

end Stateful

namespace Tracing

open Stateful

variable {ε σ τ κ : Type} {f : σ → τ}
  {write : List κ → EStateM ε σ Unit} {other : List κ → EStateM ε τ Unit}

theorem Trace.replay_projects (projects : ∀ chunk, Projects f (write chunk) (other chunk))
    (trace : Trace κ ε) : Projects f (trace.replay write) (trace.replay other) := by
  apply Projects.bind
  · induction trace.chunks with
    | nil => exact Projects.pure _
    | cons chunk rest ih => exact (projects chunk).bind fun _ => ih
  · intro _
    cases trace.ending with
    | none => exact Projects.pure _
    | some failure => exact Projects.throw failure

theorem Trace.replay_returnsAs (returns : ∀ chunk, ReturnsAs f (write chunk) (other chunk))
    (trace : Trace κ ε) : ReturnsAs f (trace.replay write) (trace.replay other) := by
  apply ReturnsAs.bind
  · induction trace.chunks with
    | nil => exact ReturnsAs.pure _
    | cons chunk rest ih => exact (returns chunk).bind fun _ => ih
  · intro _
    cases trace.ending with
    | none => exact ReturnsAs.pure _
    | some failure => exact ReturnsAs.throw failure _

theorem Trace.replay_keeps {invariant : σ → Prop} (keeps : ∀ chunk, Keeps invariant (write chunk))
    (trace : Trace κ ε) : Keeps invariant (trace.replay write) := by
  apply Keeps.bind
  · induction trace.chunks with
    | nil => exact Keeps.pure _
    | cons chunk rest ih => exact (keeps chunk).bind fun _ => ih
  · intro _
    cases trace.ending with
    | none => exact Keeps.pure _
    | some failure => exact Keeps.throw failure

structure Record (κ : Type) where
  passed : List (List κ)
  accepted : List (List κ)
  deriving DecidableEq, Repr

def Record.empty : Record κ := ⟨[], []⟩

def recording (write : List κ → EStateM ε σ Unit) (chunk : List κ) :
    EStateM ε (σ × Record κ) Unit := fun state =>
  match write chunk state.1 with
  | .ok _ after =>
      .ok () (after, ⟨state.2.passed ++ [chunk], state.2.accepted ++ [chunk]⟩)
  | .error failure after =>
      .error failure (after, ⟨state.2.passed ++ [chunk], state.2.accepted⟩)

theorem recording_projects (chunk : List κ) :
    Projects Prod.fst (recording write chunk) (write chunk) := by
  intro state
  unfold recording
  cases done : write chunk state.1 with
  | ok _ after => rfl
  | error failure after => rfl

end Tracing
