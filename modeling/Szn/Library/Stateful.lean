import Mathlib.Data.Vector.Basic
import Szn.Library.Parser

set_option autoImplicit false

-- A step runs on a pair: an environment it reads from or writes to, and a target object it fills in
-- place. A failure keeps whatever was done to both.

namespace Stateful

variable {ε σ τ α β ι : Type}

def within (get : τ → α) (set : α → τ → τ) (step : EStateM ε (σ × α) β) :
    EStateM ε (σ × τ) β := fun state =>
  match step (state.1, get state.2) with
  | .ok value next => .ok value (next.1, set next.2 state.2)
  | .error failure next => .error failure (next.1, set next.2 state.2)

def onFirst (step : EStateM ε (σ × α) Unit) : EStateM ε (σ × (α × β)) Unit :=
  within Prod.fst (fun first target => (first, target.2)) step

def onSecond (step : EStateM ε (σ × β) Unit) : EStateM ε (σ × (α × β)) Unit :=
  within Prod.snd (fun second target => (target.1, second)) step

def onHead {n : Nat} (step : EStateM ε (σ × α) Unit) :
    EStateM ε (σ × List.Vector α (n + 1)) Unit :=
  within List.Vector.head (fun head target => head ::ᵥ target.tail) step

def onTail {n : Nat} (step : EStateM ε (σ × List.Vector α n) Unit) :
    EStateM ε (σ × List.Vector α (n + 1)) Unit :=
  within List.Vector.tail (fun tail target => target.head ::ᵥ tail) step

/-- Run a step on a local variable; a failure discards it. -/
def withLocal (initial : α) (step : EStateM ε (σ × α) Unit) : EStateM ε (σ × τ) α :=
  fun state =>
    match step (state.1, initial) with
    | .ok _ next => .ok next.2 (next.1, state.2)
    | .error failure next => .error failure (next.1, state.2)

def onEnvironment (step : EStateM ε σ α) : EStateM ε (σ × τ) α := fun state =>
  match step state.1 with
  | .ok value next => .ok value (next, state.2)
  | .error failure next => .error failure (next, state.2)

def onTarget (step : EStateM ε τ α) : EStateM ε (σ × τ) α := fun state =>
  match step state.2 with
  | .ok value next => .ok value (state.1, next)
  | .error failure next => .error failure (state.1, next)

def readTarget : EStateM ε (σ × τ) τ := fun state => .ok state.2 state

def assignTarget (target : τ) : EStateM ε (σ × τ) Unit := fun state =>
  .ok () (state.1, target)

instance decidableEqResult [DecidableEq ε] [DecidableEq σ] [DecidableEq α] :
    DecidableEq (EStateM.Result ε σ α)
  | .ok value state, .ok other final =>
      decidable_of_iff (value = other ∧ state = final) (by simp)
  | .error failure state, .error other final =>
      decidable_of_iff (failure = other ∧ state = final) (by simp)
  | .ok _ _, .error _ _ => .isFalse nofun
  | .error _ _, .ok _ _ => .isFalse nofun

section Run

variable (state : σ)

@[simp] theorem pure_run (value : α) : (pure value : EStateM ε σ α) state = .ok value state := rfl

@[simp] theorem throw_run (failure : ε) :
    (throw failure : EStateM ε σ α) state = .error failure state := rfl

@[simp] theorem get_run : (get : EStateM ε σ σ) state = .ok state state := rfl

@[simp] theorem set_run (next : σ) : (set next : EStateM ε σ PUnit) state = .ok ⟨⟩ next := rfl

@[simp] theorem modify_run (f : σ → σ) :
    (modify f : EStateM ε σ PUnit) state = .ok ⟨⟩ (f state) := rfl

@[simp] theorem bind_run (step : EStateM ε σ α) (next : α → EStateM ε σ β) :
    (step >>= next) state =
      match step state with
      | .ok value middle => next value middle
      | .error failure middle => .error failure middle := rfl

end Run

theorem bind_of_ok (step : EStateM ε σ α) (next : α → EStateM ε σ β) (state middle : σ)
    (value : α) (done : step state = .ok value middle) :
    (step >>= next) state = next value middle := by
  change EStateM.bind step next state = _
  rw [EStateM.bind, done]

theorem bind_of_error (step : EStateM ε σ α) (next : α → EStateM ε σ β) (state middle : σ)
    (failure : ε) (failed : step state = .error failure middle) :
    (step >>= next) state = .error failure middle := by
  change EStateM.bind step next state = _
  rw [EStateM.bind, failed]

theorem catch_of_ok (step : EStateM ε σ α) (handle : ε → EStateM ε σ α) (state after : σ)
    (value : α) (done : step state = .ok value after) :
    (tryCatch step handle) state = .ok value after := by
  change EStateM.tryCatch step handle state = _
  rw [EStateM.tryCatch, done]

theorem catch_of_error (step : EStateM ε σ α) (handle : ε → EStateM ε σ α) (state after : σ)
    (failure : ε) (failed : step state = .error failure after) :
    (tryCatch step handle) state = handle failure after := by
  change EStateM.tryCatch step handle state = _
  rw [EStateM.tryCatch, failed]
  rfl

theorem map_of_ok (f : α → β) (step : EStateM ε σ α) (state after : σ) (value : α)
    (done : step state = .ok value after) : (f <$> step) state = .ok (f value) after := by
  rw [map_eq_pure_bind, bind_of_ok _ _ _ _ _ done]
  rfl

theorem bind_ok_iff (step : EStateM ε σ α) (next : α → EStateM ε σ β) (state final : σ)
    (result : β) :
    (step >>= next) state = .ok result final ↔
      ∃ value middle, step state = .ok value middle ∧ next value middle = .ok result final := by
  rw [bind_run]
  cases step state with
  | ok value middle =>
      constructor
      · exact fun done => ⟨value, middle, rfl, done⟩
      · rintro ⟨_, _, same, done⟩
        cases same
        exact done
  | error failure middle => simp

theorem within_ok_iff (get : τ → α) (set : α → τ → τ) (step : EStateM ε (σ × α) β) (state after : σ)
    (target final : τ) (value : β) :
    within get set step (state, target) = .ok value (after, final) ↔
      ∃ part, step (state, get target) = .ok value (after, part) ∧ set part target = final := by
  unfold within
  cases done : step (state, get target) with
  | ok found next => simp [Prod.ext_iff, and_assoc]
  | error failure next => simp

theorem withLocal_ok_iff (initial value : α) (step : EStateM ε (σ × α) Unit) (state after : σ)
    (target final : τ) :
    withLocal initial step (state, target) = .ok value (after, final) ↔
      step (state, initial) = .ok () (after, value) ∧ target = final := by
  unfold withLocal
  cases done : step (state, initial) with
  | ok found next => simp [Prod.ext_iff, and_assoc, and_comm, and_left_comm]
  | error failure next => simp

open Parsing

structure Delivery (σ ι : Type) where
  ready : σ → Prop
  unread : σ → List ι

/-- The step does to the target and the unread symbols what the parser says. -/
def Implements (D : Delivery σ ι) (step : EStateM ε (σ × τ) α)
    (spec : τ → Parser ι ε (α × τ)) : Prop :=
  ∀ state target, D.ready state →
    match (spec target).run (D.unread state) with
    | .ok ((value, final), rest) =>
        ∃ after, step (state, target) = .ok value (after, final) ∧
          D.ready after ∧ D.unread after = rest
    | .error failure =>
        ∃ after left, step (state, target) = .error failure (after, left) ∧ D.ready after

variable {D : Delivery σ ι}

theorem Implements.ok {step : EStateM ε (σ × τ) α} {spec : τ → Parser ι ε (α × τ)}
    (implements : Implements D step spec) {state : σ} {target final : τ} {value : α}
    {rest : List ι} (ready : D.ready state)
    (parsed : (spec target).run (D.unread state) = .ok ((value, final), rest)) :
    ∃ after, step (state, target) = .ok value (after, final) ∧
      D.ready after ∧ D.unread after = rest := by
  have run := implements state target ready
  rwa [parsed] at run

theorem Implements.error {step : EStateM ε (σ × τ) α} {spec : τ → Parser ι ε (α × τ)}
    (implements : Implements D step spec) {state : σ} {target : τ} {failure : ε}
    (ready : D.ready state)
    (failed : (spec target).run (D.unread state) = .error failure) :
    ∃ after left, step (state, target) = .error failure (after, left) ∧ D.ready after := by
  have run := implements state target ready
  rwa [failed] at run

theorem Implements.parsed {step : EStateM ε (σ × τ) α} {spec : τ → Parser ι ε (α × τ)}
    (implements : Implements D step spec) {state after : σ} {target final : τ} {value : α}
    (ready : D.ready state) (done : step (state, target) = .ok value (after, final)) :
    (spec target).run (D.unread state) = .ok ((value, final), D.unread after) ∧
      D.ready after := by
  have run := implements state target ready
  cases parsed : (spec target).run (D.unread state) with
  | error failure =>
      rw [parsed] at run
      obtain ⟨other, left, failed, -⟩ := run
      rw [done] at failed
      cases failed
  | ok found =>
      rw [parsed] at run
      obtain ⟨other, same, ready', unread⟩ := run
      rw [done] at same
      cases same
      exact ⟨by rw [unread], ready'⟩

theorem Implements.congr {step : EStateM ε (σ × τ) α} {spec other : τ → Parser ι ε (α × τ)}
    (implements : Implements D step spec) (same : ∀ target, spec target = other target) :
    Implements D step other := by
  rwa [show other = spec from funext fun target => (same target).symm]

theorem Implements.pure (value : α) :
    Implements D (pure value : EStateM ε (σ × τ) α) (fun target => pure (value, target)) :=
  fun state _ ready => ⟨state, rfl, ready, rfl⟩

theorem Implements.throw (failure : ε) :
    Implements D (throw failure : EStateM ε (σ × τ) α) (fun _ => throw failure) :=
  fun state target ready => ⟨state, target, rfl, ready⟩

theorem Implements.readTarget :
    Implements D (readTarget : EStateM ε (σ × τ) τ) (fun target => Pure.pure (target, target)) :=
  fun state _ ready => ⟨state, rfl, ready, rfl⟩

theorem Implements.assignTarget (value : τ) :
    Implements D (assignTarget value : EStateM ε (σ × τ) Unit)
      (fun _ => Pure.pure ((), value)) :=
  fun state _ ready => ⟨state, rfl, ready, rfl⟩

theorem Implements.bind {step : EStateM ε (σ × τ) α} {next : α → EStateM ε (σ × τ) β}
    {spec : τ → Parser ι ε (α × τ)} {specNext : α → τ → Parser ι ε (β × τ)}
    (first : Implements D step spec)
    (second : ∀ value, Implements D (next value) (specNext value)) :
    Implements D (step >>= next)
      (fun target => spec target >>= fun found => specNext found.1 found.2) := by
  intro state target ready
  cases parsed : (spec target).run (D.unread state) with
  | error failure =>
      obtain ⟨after, left, failed, ready'⟩ := first.error ready parsed
      rw [run_bind_error _ _ _ _ parsed]
      exact ⟨after, left, bind_of_error step next _ _ _ failed, ready'⟩
  | ok found =>
      obtain ⟨⟨value, middle⟩, rest⟩ := found
      obtain ⟨after, done, ready', rfl⟩ := first.ok ready parsed
      rw [run_bind_of_ok _ _ _ _ _ parsed, bind_of_ok step next _ _ _ done]
      exact second value after middle ready'

theorem Implements.within {get : τ → α} {set : α → τ → τ} {step : EStateM ε (σ × α) β}
    {spec : α → Parser ι ε (β × α)} (part : Implements D step spec) :
    Implements D (within get set step) (fun target => do
      let found ← spec (get target)
      Pure.pure (found.1, set found.2 target)) := by
  intro state target ready
  cases parsed : (spec (get target)).run (D.unread state) with
  | error failure =>
      obtain ⟨after, left, failed, ready'⟩ := part.error ready parsed
      rw [run_bind_error _ _ _ _ parsed]
      exact ⟨after, set left target, by simp [Stateful.within, failed], ready'⟩
  | ok found =>
      obtain ⟨⟨value, final⟩, rest⟩ := found
      obtain ⟨after, done, ready', rfl⟩ := part.ok ready parsed
      rw [run_bind_of_ok _ _ _ _ _ parsed]
      exact ⟨after, by simp [Stateful.within, done], ready', rfl⟩

theorem Implements.withLocal {initial : α} {step : EStateM ε (σ × α) Unit}
    {spec : α → Parser ι ε (Unit × α)} (part : Implements D step spec) :
    Implements D (withLocal initial step : EStateM ε (σ × τ) α) (fun target => do
      let found ← spec initial
      Pure.pure (found.2, target)) := by
  intro state target ready
  cases parsed : (spec initial).run (D.unread state) with
  | error failure =>
      obtain ⟨after, left, failed, ready'⟩ := part.error ready parsed
      rw [run_bind_error _ _ _ _ parsed]
      exact ⟨after, target, by simp [Stateful.withLocal, failed], ready'⟩
  | ok found =>
      obtain ⟨⟨_, final⟩, rest⟩ := found
      obtain ⟨after, done, ready', rfl⟩ := part.ok ready parsed
      rw [run_bind_of_ok _ _ _ _ _ parsed]
      exact ⟨after, by simp [Stateful.withLocal, done], ready', rfl⟩

abbrev Deserializes (D : Delivery σ ι) (step : EStateM ε (σ × τ) Unit)
    (spec : τ → Parser ι ε τ) : Prop :=
  Implements D step fun target => (fun value => ((), value)) <$> spec target

theorem Deserializes.ok {step : EStateM ε (σ × τ) Unit} {spec : τ → Parser ι ε τ}
    (deserializes : Deserializes D step spec) {state : σ} {target value : τ} {rest : List ι}
    (ready : D.ready state) (parsed : (spec target).run (D.unread state) = .ok (value, rest)) :
    ∃ after, step (state, target) = .ok () (after, value) ∧
      D.ready after ∧ D.unread after = rest := by
  apply Implements.ok deserializes ready
  rw [run_map_ok]
  exact ⟨value, parsed, rfl⟩

theorem Deserializes.error {step : EStateM ε (σ × τ) Unit} {spec : τ → Parser ι ε τ}
    (deserializes : Deserializes D step spec) {state : σ} {target : τ} {failure : ε}
    (ready : D.ready state) (failed : (spec target).run (D.unread state) = .error failure) :
    ∃ after left, step (state, target) = .error failure (after, left) ∧ D.ready after :=
  Implements.error deserializes ready (run_map_error _ _ _ _ failed)

theorem Deserializes.parsed {step : EStateM ε (σ × τ) Unit} {spec : τ → Parser ι ε τ}
    (deserializes : Deserializes D step spec) {state after : σ} {target value : τ}
    (ready : D.ready state) (done : step (state, target) = .ok () (after, value)) :
    (spec target).run (D.unread state) = .ok (value, D.unread after) := by
  have whole := (Implements.parsed deserializes ready done).1
  obtain ⟨found, parsed, same⟩ := (run_map_ok _ _ _ _ _).mp whole
  obtain rfl : found = value := congrArg Prod.snd same
  exact parsed

def ending (D : Delivery σ ι) : EStateM.Result ε (σ × τ) Unit → Except ε (τ × List ι)
  | .ok _ (after, target) => .ok (target, D.unread after)
  | .error failure _ => .error failure

theorem Deserializes.ending_eq {step : EStateM ε (σ × τ) Unit} {spec : τ → Parser ι ε τ}
    (deserializes : Deserializes D step spec) {state : σ} (target : τ) (ready : D.ready state) :
    ending D (step (state, target)) = (spec target).run (D.unread state) := by
  cases parsed : (spec target).run (D.unread state) with
  | error failure =>
      obtain ⟨after, left, failed, -⟩ := deserializes.error ready parsed
      rw [failed, ending]
  | ok found =>
      obtain ⟨after, done, -, unread⟩ := deserializes.ok ready parsed
      rw [done, ending, unread]

theorem Deserializes.ok_iff {step : EStateM ε (σ × τ) Unit} {spec : τ → Parser ι ε τ}
    (deserializes : Deserializes D step spec) {state : σ} {target value : τ} {rest : List ι}
    (ready : D.ready state) :
    (∃ after, step (state, target) = .ok () (after, value) ∧ D.unread after = rest) ↔
      (spec target).run (D.unread state) = .ok (value, rest) := by
  constructor
  · rintro ⟨after, done, rfl⟩
    exact deserializes.parsed ready done
  · intro parsed
    obtain ⟨after, done, -, unread⟩ := deserializes.ok ready parsed
    exact ⟨after, done, unread⟩

section Local

variable {step : EStateM ε (σ × α) Unit} {spec : α → Parser ι ε α}
  (deserializes : Deserializes D step spec) {state : σ} (ready : D.ready state)
  (initial : α) (target : τ)

include deserializes ready

theorem Deserializes.local_ok (value : α) (rest : List ι)
    (parsed : (spec initial).run (D.unread state) = .ok (value, rest)) :
    ∃ after, withLocal initial step (state, target) = .ok value (after, target) ∧
      D.ready after ∧ D.unread after = rest := by
  have reached : ∃ after, step (state, initial) = .ok () (after, value) ∧
      D.ready after ∧ D.unread after = rest := deserializes.ok ready parsed
  obtain ⟨after, done, ready', left⟩ := reached
  exact ⟨after, by simp only [withLocal, done], ready', left⟩

theorem Deserializes.local_error (failure : ε)
    (failed : (spec initial).run (D.unread state) = .error failure) :
    ∃ after, withLocal initial step (state, target) = .error failure (after, target) := by
  have reached : ∃ after left, step (state, initial) = .error failure (after, left) ∧
      D.ready after := deserializes.error ready failed
  obtain ⟨after, left, ended, -⟩ := reached
  exact ⟨after, by simp only [withLocal, ended]⟩

end Local

end Stateful
