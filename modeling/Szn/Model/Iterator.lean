import Szn.Model.Language

set_option autoImplicit false

namespace Szn

open Stateful

variable {σ τ : Type} (P : Platform) (source : Source σ) (F : Format)

def deserializeEach : Nat → EStateM Failure (σ × τ) (List F.Value)
  | 0 => pure []
  | n + 1 => do
      let element ← withLocal F.fresh (F.deserialize P source)
      let others ← deserializeEach n
      pure (element :: others)

namespace DeserializingIterator

-- The target is m_current of an iterator that was given a source.
def increment : EStateM Failure (σ × F.Value) Unit := F.deserialize P source

def dereference : EStateM Failure (σ × F.Value) F.Value := readTarget

-- From a default-constructed m_current: the constructor increments once, then `k` times.
def values : (k : Nat) → EStateM Failure (σ × F.Value) (List F.Value)
  | 0 => do
      increment P source F
      let current ← dereference F
      pure [current]
  | k + 1 => do
      increment P source F
      let current ← dereference F
      let later ← values k
      pure (current :: later)

-- `k` increments of an iterator, each followed by a dereference.
def advance : (k : Nat) → EStateM Failure (σ × F.Value) (List F.Value)
  | 0 => pure []
  | k + 1 => do
      increment P source F
      let current ← dereference F
      let later ← advance k
      pure (current :: later)

-- `k` times: the element the iterator points to, and then an increment.
def takeEach : (k : Nat) → EStateM Failure (σ × F.Value) (List F.Value)
  | 0 => pure []
  | k + 1 => do
      let current ← dereference F
      increment P source F
      let later ← takeEach k
      pure (current :: later)

-- The constructor increments before the first element is asked for.
def traverse (k : Nat) : EStateM Failure (σ × F.Value) (List F.Value) := do
  increment P source F
  takeEach P source F k

-- operator== of the iterator_facade
def equal (_ _ : F.Value) : Bool := false

end DeserializingIterator

end Szn
