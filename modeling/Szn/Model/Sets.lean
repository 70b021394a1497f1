import Szn.Library.SetContainer
import Szn.Model.Map

set_option autoImplicit false

namespace Szn

open Stateful

-- vector<LengthFormat, ElementFormat>, used with a std::set or an unordered set.
namespace Sets

variable {σ α τ : Type} (P : Platform) (length : Integer) (element : TypedFormat α)
  (S : SetContainer α τ)

-- The iterators are no random access iterators.
def serialize (sink : Sink σ) (v : τ) : EStateM Failure σ Unit :=
  Vector.serializeImpl P length .other sink (element.serialize sink) (S.elements v)

-- insert with a hint leaves the set as it is where the element is present.
def insertElements (source : Source σ) : Nat → EStateM Failure (σ × τ) Unit
  | 0 => pure ()
  | count + 1 => do
      let e ← withLocal element.fresh (element.deserialize source)
      let v ← readTarget
      assignTarget (S.insert e v)
      insertElements source count

def deserialize (source : Source σ) : EStateM Failure (σ × τ) Unit := do
  let size ← withLocal 0 (length.deserialize source (sizeType P))
  assignTarget S.empty
  insertElements element S source size.toNat

end Sets

end Szn
