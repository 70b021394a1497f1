import Mathlib.Data.List.Basic

set_option autoImplicit false

namespace Simulation

variable {ω ο σ τ : Type}

def run (step : ω → σ → ο × σ) : List ω → σ → List ο × σ
  | [], state => ([], state)
  | operation :: rest, state =>
      let next := step operation state
      let later := run step rest next.2
      (next.1 :: later.1, later.2)

-- Every operation is allowed in the state it meets.
def Follows (step : ω → σ → ο × σ) (allowed : ω → σ → Prop) : List ω → σ → Prop
  | [], _ => True
  | operation :: rest, state =>
      allowed operation state ∧ Follows step allowed rest (step operation state).2

theorem follows_unrestricted (step : ω → σ → ο × σ) (operations : List ω) (state : σ) :
    Follows step (fun _ _ => True) operations state := by
  induction operations generalizing state with
  | nil => trivial
  | cons operation rest ih => exact ⟨trivial, ih _⟩

/-- Allowed operations show the same on both sides and keep the relation. -/
def Refines (relates : σ → τ → Prop) (allowed : ω → τ → Prop) (concrete : ω → σ → ο × σ)
    (abstract : ω → τ → ο × τ) : Prop :=
  ∀ operation state model, relates state model → allowed operation model →
    (concrete operation state).1 = (abstract operation model).1 ∧
      relates (concrete operation state).2 (abstract operation model).2

theorem Refines.run {relates : σ → τ → Prop} {allowed : ω → τ → Prop}
    {concrete : ω → σ → ο × σ} {abstract : ω → τ → ο × τ}
    (refines : Refines relates allowed concrete abstract) (operations : List ω)
    (state : σ) (model : τ) (related : relates state model)
    (follows : Follows abstract allowed operations model) :
    (Simulation.run concrete operations state).1 = (Simulation.run abstract operations model).1 ∧
      relates (Simulation.run concrete operations state).2
        (Simulation.run abstract operations model).2 := by
  induction operations generalizing state model with
  | nil => exact ⟨rfl, related⟩
  | cons operation rest ih =>
      have step := refines operation state model related follows.1
      have later := ih _ _ step.2 follows.2
      simp only [Simulation.run]
      exact ⟨by rw [step.1, later.1], later.2⟩

theorem run_invariant {step : ω → σ → ο × σ} {allowed : ω → σ → Prop} (invariant : σ → Prop)
    (preserved : ∀ operation state, invariant state → allowed operation state →
      invariant (step operation state).2)
    (operations : List ω) (state : σ) (holds : invariant state)
    (follows : Follows step allowed operations state) :
    invariant (run step operations state).2 := by
  induction operations generalizing state with
  | nil => exact holds
  | cons operation rest ih => exact ih _ (preserved operation state holds follows.1) follows.2

def Reachable (step : ω → σ → ο × σ) (allowed : ω → σ → Prop) (initial state : σ) : Prop :=
  ∃ operations, Follows step allowed operations initial ∧ (run step operations initial).2 = state

theorem Reachable.invariant {step : ω → σ → ο × σ} {allowed : ω → σ → Prop} {initial state : σ}
    (reachable : Reachable step allowed initial state) (invariant : σ → Prop)
    (preserved : ∀ operation state, invariant state → allowed operation state →
      invariant (step operation state).2)
    (holds : invariant initial) : invariant state := by
  obtain ⟨operations, follows, rfl⟩ := reachable
  exact run_invariant invariant preserved operations initial holds follows

/-- Whatever may be done in `state` may be done in `other`, and shows the same. -/
def Indistinguishable (step : ω → σ → ο × σ) (allowed : ω → σ → Prop) (state other : σ) : Prop :=
  ∀ operations, Follows step allowed operations state →
    Follows step allowed operations other ∧
      (run step operations state).1 = (run step operations other).1

section Relation

variable {relates : σ → τ → Prop} {permitted : ω → σ → Prop} {allowed : ω → τ → Prop}
  {concrete : ω → σ → ο × σ} {abstract : ω → τ → ο × τ}

theorem Refines.follows (refines : Refines relates allowed concrete abstract)
    (permits : ∀ operation state model, relates state model →
      (permitted operation state ↔ allowed operation model))
    (operations : List ω) (state : σ) (model : τ) (related : relates state model) :
    Follows concrete permitted operations state ↔ Follows abstract allowed operations model := by
  induction operations generalizing state model with
  | nil => exact Iff.rfl
  | cons operation rest ih =>
      rw [Follows, Follows, permits operation state model related]
      apply and_congr_right
      intro here
      exact ih _ _ (refines operation state model related here).2

theorem Refines.indistinguishable (refines : Refines relates allowed concrete abstract)
    (permits : ∀ operation state model, relates state model →
      (permitted operation state ↔ allowed operation model))
    (state other : σ) (model : τ) (related : relates state model)
    (again : relates other model) : Indistinguishable concrete permitted state other := by
  intro operations follows
  have abstractly := (refines.follows permits operations state model related).mp follows
  refine ⟨(refines.follows permits operations other model again).mpr abstractly, ?_⟩
  rw [(refines.run operations state model related abstractly).1,
    (refines.run operations other model again abstractly).1]

theorem Refines.reachable (refines : Refines relates allowed concrete abstract)
    (permits : ∀ operation state model, relates state model →
      (permitted operation state ↔ allowed operation model))
    (initial state : σ) (model : τ) (related : relates initial model)
    (reachable : Reachable concrete permitted initial state) :
    ∃ final, Reachable abstract allowed model final ∧ relates state final := by
  obtain ⟨operations, follows, rfl⟩ := reachable
  have abstractly := (refines.follows permits operations initial model related).mp follows
  exact ⟨_, ⟨operations, abstractly, rfl⟩,
    (refines.run operations initial model related abstractly).2⟩

end Relation

theorem Indistinguishable.refl (step : ω → σ → ο × σ) (allowed : ω → σ → Prop) (state : σ) :
    Indistinguishable step allowed state state :=
  fun _ follows => ⟨follows, rfl⟩

end Simulation
