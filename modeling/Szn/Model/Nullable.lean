import Szn.Model.Formats

set_option autoImplicit false

namespace Szn

open Stateful

variable {σ α : Type}

namespace Optional

variable (P : Platform) (condition : EStateM Failure (σ × Bool) Unit) (fresh : α)
  (value : EStateM Failure (σ × α) Unit)

-- The pointer gets a new object, which is then deserialized in place.
def deserializeNew : EStateM Failure (σ × Option α) Unit := do
  let ptr ← readTarget
  assert P ptr.isNone
  let isSet ← parseCondition condition
  if isSet then
    assignTarget (some fresh)
    within (fun ptr => ptr.getD fresh) (fun found _ => some found) value

-- ptr.reset(new Value)
def deserializeAutoPtrLike : EStateM Failure (σ × Option α) Unit :=
  deserializeNew P condition fresh value

-- ptr = make_shared<Value>()
def deserializeSharedPtr : EStateM Failure (σ × Option α) Unit :=
  deserializeNew P condition fresh value

end Optional

/-- The types for which optional::deserialize has an overload. -/
inductive Nullable where
  | boostOptional
  | boostScopedPtr
  | boostSharedPtr
  | stdAutoPtr
  | stdUniquePtr
  | stdSharedPtr
  deriving DecidableEq, Repr

def Nullable.deserialize (P : Platform) (condition : EStateM Failure (σ × Bool) Unit) (fresh : α)
    (value : EStateM Failure (σ × α) Unit) : Nullable → EStateM Failure (σ × Option α) Unit
  | boostOptional => Optional.deserialize P condition fresh value
  | boostScopedPtr | stdAutoPtr | stdUniquePtr =>
      Optional.deserializeAutoPtrLike P condition fresh value
  | boostSharedPtr | stdSharedPtr => Optional.deserializeSharedPtr P condition fresh value

end Szn
