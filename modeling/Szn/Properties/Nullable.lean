import Szn.Model.Nullable

set_option autoImplicit false

namespace Szn

open Stateful

namespace Nullable

variable {σ α : Type}

def leftover (created : α) : Nullable → Option α
  | boostOptional => none
  | boostScopedPtr | boostSharedPtr | stdAutoPtr | stdUniquePtr | stdSharedPtr => some created

variable (P : Platform) (condition : EStateM Failure (σ × Bool) Unit) (fresh : α)
  (value : EStateM Failure (σ × α) Unit) (state middle after : σ) (nullable : Nullable)

section Cases

attribute [local simp] deserialize Optional.deserialize Optional.deserializeAutoPtrLike
  Optional.deserializeSharedPtr Optional.deserializeNew Optional.parseCondition withLocal within
  readTarget assignTarget assert

variable {condition value state middle after}

theorem deserialize_condition_fails {failure : Failure} {left : Bool}
    (fails : condition (state, false) = .error failure (middle, left)) :
    nullable.deserialize P condition fresh value (state, none) =
      .error failure (middle, none) := by
  cases nullable <;> simp [fails]

theorem deserialize_unset (unset : condition (state, false) = .ok () (middle, false)) :
    nullable.deserialize P condition fresh value (state, none) = .ok () (middle, none) := by
  cases nullable <;> simp [unset]

theorem deserialize_set {found : α} (set : condition (state, false) = .ok () (middle, true))
    (done : value (middle, fresh) = .ok () (after, found)) :
    nullable.deserialize P condition fresh value (state, none) = .ok () (after, some found) := by
  cases nullable <;> simp [set, done]

theorem deserialize_value_fails {failure : Failure} {left : α}
    (set : condition (state, false) = .ok () (middle, true))
    (fails : value (middle, fresh) = .error failure (after, left)) :
    nullable.deserialize P condition fresh value (state, none) =
      .error failure (after, nullable.leftover left) := by
  cases nullable <;> simp [leftover, set, fails]

end Cases

theorem deserialize_cases :
    (∃ failure middle left, condition (state, false) = .error failure (middle, left) ∧
      ∀ nullable : Nullable, nullable.deserialize P condition fresh value (state, none) =
        .error failure (middle, none)) ∨
    (∃ middle, condition (state, false) = .ok () (middle, false) ∧
      ∀ nullable : Nullable, nullable.deserialize P condition fresh value (state, none) =
        .ok () (middle, none)) ∨
    (∃ middle after found, condition (state, false) = .ok () (middle, true) ∧
      value (middle, fresh) = .ok () (after, found) ∧
      ∀ nullable : Nullable, nullable.deserialize P condition fresh value (state, none) =
        .ok () (after, some found)) ∨
    ∃ failure middle after left, condition (state, false) = .ok () (middle, true) ∧
      value (middle, fresh) = .error failure (after, left) ∧
      ∀ nullable : Nullable, nullable.deserialize P condition fresh value (state, none) =
        .error failure (after, nullable.leftover left) := by
  cases run : condition (state, false) with
  | error failure next =>
      exact Or.inl ⟨failure, next.1, next.2, rfl, fun nullable =>
        deserialize_condition_fails P fresh nullable run⟩
  | ok _ next =>
      obtain ⟨middle, isSet⟩ := next
      cases isSet with
      | false =>
          exact Or.inr (Or.inl ⟨middle, rfl, fun nullable =>
            deserialize_unset P fresh nullable run⟩)
      | true =>
          cases filled : value (middle, fresh) with
          | ok _ final =>
              exact Or.inr (Or.inr (Or.inl ⟨middle, final.1, final.2, rfl, filled, fun nullable =>
                deserialize_set P fresh nullable run filled⟩))
          | error failure final =>
              exact Or.inr (Or.inr (Or.inr ⟨failure, middle, final.1, final.2, rfl, filled,
                fun nullable => deserialize_value_fails P fresh nullable run filled⟩))

def LeftEmpty (nullable : Nullable) : Prop :=
  ∀ failure after left,
    nullable.deserialize P condition fresh value (state, none) = .error failure (after, left) →
      left = none

theorem left_empty_iff :
    LeftEmpty P condition fresh value state nullable ↔
      nullable = .boostOptional ∨ ∀ middle, condition (state, false) = .ok () (middle, true) →
        ∃ after found, value (middle, fresh) = .ok () (after, found) := by
  rw [LeftEmpty]
  rcases deserialize_cases P condition fresh value state with
    ⟨failure, middle, left, failed, run⟩ | ⟨middle, unset, run⟩ |
    ⟨middle, after, found, set, done, run⟩ | ⟨failure, middle, after, left, set, fails, run⟩
  · rw [run, failed]
    simp only [reduceCtorEq, false_implies, implies_true, or_true, iff_true]
    intro other final held fails
    cases fails
    rfl
  · rw [run, unset]
    simp
  · rw [run, set]
    simp [done]
  · rw [run, set]
    cases nullable <;> simp [leftover, fails]

theorem deserialize_ok_agrees (other : Nullable) (found : Option α)
    (done : nullable.deserialize P condition fresh value (state, none) =
      .ok () (after, found)) :
    other.deserialize P condition fresh value (state, none) = .ok () (after, found) := by
  rcases deserialize_cases P condition fresh value state with
    ⟨_, _, _, _, run⟩ | ⟨_, _, run⟩ | ⟨_, _, _, _, _, run⟩ | ⟨_, _, _, _, _, _, run⟩
  · rw [run] at done
    cases done
  · rw [run, ← done, run]
  · rw [run, ← done, run]
  · rw [run] at done
    cases done

end Nullable

theorem failed_decode_leaves_empty_iff {σ α : Type} (P : Platform)
    (condition : EStateM Failure (σ × Bool) Unit) (fresh : α)
    (value : EStateM Failure (σ × α) Unit) (state : σ) :
    (∀ nullable, Nullable.LeftEmpty P condition fresh value state nullable ↔
      nullable = .boostOptional ∨ ∀ middle, condition (state, false) = .ok () (middle, true) →
        ∃ after found, value (middle, fresh) = .ok () (after, found)) ∧
    ∀ (nullable other : Nullable) after found,
      nullable.deserialize P condition fresh value (state, none) = .ok () (after, found) →
        other.deserialize P condition fresh value (state, none) = .ok () (after, found) := by
  constructor
  · intro nullable
    exact Nullable.left_empty_iff P condition fresh value state nullable
  · intro nullable other after found done
    exact Nullable.deserialize_ok_agrees P condition fresh value state after nullable other found
      done

theorem unique_ptr_not_empty :
    let start := makeRangeSource [1, 17]
    Nullable.stdUniquePtr.deserialize amd64 (Boolean.boolean.deserialize (rangeSource amd64))
        (0 : BitVec 16) (Integer.deserialize ⟨2, .bigEndian⟩ (rangeSource amd64) (.unsigned 16))
        (start, none) = .error insufficientInput (⟨[1, 17], 2⟩, some 0) ∧
      Nullable.boostOptional.deserialize amd64
        (Boolean.boolean.deserialize (rangeSource amd64)) (0 : BitVec 16)
        (Integer.deserialize ⟨2, .bigEndian⟩ (rangeSource amd64) (.unsigned 16))
        (start, none) = .error insufficientInput (⟨[1, 17], 2⟩, none) := by
  refine ⟨by decide, by decide⟩

end Szn
