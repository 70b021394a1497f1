import Szn.Library.Stateful

set_option autoImplicit false

-- A program that uses its environment only through some operations ends the same way on two
-- environments on which these operations do.

namespace Stateful

variable {ε σ ρ τ α β : Type}

structure Coupling (ε σ ρ : Type) where
  related : σ → ρ → Prop
  -- Failures on the first side that say nothing about the second side.
  excused : ε → Prop
  failed : ε → σ → ρ → Prop

inductive Coupling.Ends (C : Coupling ε σ ρ) :
    EStateM.Result ε (σ × τ) α → EStateM.Result ε (ρ × τ) α → Prop where
  | ok (value : α) (target : τ) (state : σ) (other : ρ) (related : C.related state other) :
      Ends C (.ok value (state, target)) (.ok value (other, target))
  | error (failure : ε) (target : τ) (state : σ) (other : ρ)
      (failed : C.failed failure state other) :
      Ends C (.error failure (state, target)) (.error failure (other, target))
  | excused (failure : ε) (left : σ × τ) (other : EStateM.Result ε (ρ × τ) α)
      (excused : C.excused failure) : Ends C (.error failure left) other

variable {C : Coupling ε σ ρ}

def CouplesAt (C : Coupling ε σ ρ) (target : τ) (step : EStateM ε (σ × τ) α)
    (other : EStateM ε (ρ × τ) α) : Prop :=
  ∀ first second, C.related first second →
    C.Ends (step (first, target)) (other (second, target))

def Couples (C : Coupling ε σ ρ) (step : EStateM ε (σ × τ) α)
    (other : EStateM ε (ρ × τ) α) : Prop :=
  ∀ target, CouplesAt C target step other

namespace Couples

theorem pure (value : α) :
    Couples C (pure value : EStateM ε (σ × τ) α) (Pure.pure value) :=
  fun target first second related => .ok value target first second related

theorem throw (failure : ε) (kept : ∀ first second, C.related first second →
    C.failed failure first second) :
    Couples C (throw failure : EStateM ε (σ × τ) α) (MonadExcept.throw failure) :=
  fun target first second related => .error failure target first second (kept _ _ related)

theorem readTarget :
    Couples C (readTarget : EStateM ε (σ × τ) τ) Stateful.readTarget :=
  fun target first second related => .ok target target first second related

theorem assignTarget (target : τ) :
    Couples C (assignTarget target : EStateM ε (σ × τ) Unit) (Stateful.assignTarget target) :=
  fun _ first second related => .ok () target first second related

theorem bind {step : EStateM ε (σ × τ) α} {other : EStateM ε (ρ × τ) α}
    {next : α → EStateM ε (σ × τ) β} {otherNext : α → EStateM ε (ρ × τ) β}
    (first : Couples C step other) (second : ∀ value, Couples C (next value) (otherNext value)) :
    Couples C (step >>= next) (other >>= otherNext) := by
  intro target state another related
  have here := first target state another related
  rw [bind_run, bind_run]
  generalize step (state, target) = done at here ⊢
  generalize other (another, target) = done' at here ⊢
  cases here with
  | ok value middle after after' related => exact second value middle after after' related
  | error failure left after after' failed => exact .error failure left after after' failed
  | excused failure left result excused => exact .excused failure left _ excused

theorem within {get : τ → α} {set : α → τ → τ} {step : EStateM ε (σ × α) β}
    {other : EStateM ε (ρ × α) β} (part : Couples C step other) :
    Couples C (within get set step) (Stateful.within get set other) := by
  intro target state another related
  have here := part (get target) state another related
  unfold Stateful.within
  generalize step (state, get target) = done at here ⊢
  generalize other (another, get target) = done' at here ⊢
  cases here with
  | ok value final after after' related => exact .ok value _ after after' related
  | error failure left after after' failed => exact .error failure _ after after' failed
  | excused failure left result excused => exact .excused failure _ _ excused

theorem withLocal {initial : α} {step : EStateM ε (σ × α) Unit}
    {other : EStateM ε (ρ × α) Unit} (part : CouplesAt C initial step other) :
    Couples C (withLocal initial step : EStateM ε (σ × τ) α)
      (Stateful.withLocal initial other) := by
  intro target state another related
  have here := part state another related
  unfold Stateful.withLocal
  generalize step (state, initial) = done at here ⊢
  generalize other (another, initial) = done' at here ⊢
  cases here with
  | ok value final after after' related => exact .ok final target after after' related
  | error failure left after after' failed => exact .error failure target after after' failed
  | excused failure left result excused => exact .excused failure _ _ excused

theorem ite (condition : Prop) [Decidable condition] {step next : EStateM ε (σ × τ) α}
    {other otherNext : EStateM ε (ρ × τ) α} (first : condition → Couples C step other)
    (second : ¬ condition → Couples C next otherNext) :
    Couples C (if condition then step else next) (if condition then other else otherNext) := by
  split
  · next holds => exact first holds
  · next fails => exact second fails

theorem foldlM {γ : Type} {step : β → γ → EStateM ε (σ × τ) β}
    {other : β → γ → EStateM ε (ρ × τ) β}
    (each : ∀ value item, Couples C (step value item) (other value item)) (items : List γ)
    (initial : β) : Couples C (items.foldlM step initial) (items.foldlM other initial) := by
  induction items generalizing initial with
  | nil => exact pure initial
  | cons item rest ih =>
      rw [List.foldlM_cons, List.foldlM_cons]
      exact bind (each initial item) ih

end Couples

def Coupling.exact (related : σ → ρ → Prop) : Coupling ε σ ρ :=
  ⟨related, fun _ => False, fun _ => related⟩

/-- One run: what holds as long as it goes on, and what holds behind a failure. -/
def Coupling.invariant (holds : σ → Prop) (behind : ε → σ → Prop) : Coupling ε σ σ :=
  ⟨fun state other => state = other ∧ holds state, fun _ => False,
    fun failure state _ => behind failure state⟩

theorem Couples.kept {holds : σ → Prop} {behind : ε → σ → Prop} {step : EStateM ε (σ × τ) α}
    (couples : Couples (.invariant holds behind) step step) (state : σ) (target : τ)
    (initially : holds state) :
    match step (state, target) with
    | .ok _ after => holds after.1
    | .error failure after => behind failure after.1 := by
  have here := couples target state state ⟨rfl, initially⟩
  generalize step (state, target) = done at here ⊢
  cases here with
  | ok value final after _ related => exact related.2
  | error failure left after _ failed => exact failed
  | excused failure left _ excused => exact excused.elim

end Stateful
