import Mathlib.Data.Nat.Basic
import Szn.Library.SortedMap
import Szn.Model.Language

set_option autoImplicit false

namespace Szn

open Stateful

variable {σ κ ν : Type}

-- std::less of an unsigned type
@[reducible] def unsignedOrder (bits : Nat) : LinearOrder (BitVec bits) :=
  LinearOrder.lift' BitVec.toNat fun _ _ => BitVec.eq_of_toNat_eq

-- A format with the default_type `α`, whose default-constructed object is `fresh`.
structure TypedFormat (α : Type) where
  fresh : α
  serialize : {σ : Type} → Sink σ → α → EStateM Failure σ Unit
  deserialize : {σ : Type} → Source σ → EStateM Failure (σ × α) Unit

def Format.typed (P : Platform) (F : Format) : TypedFormat F.Value :=
  ⟨F.fresh, F.serialize P, F.deserialize P⟩

-- pair<KeyFormat, ValueFormat>
def TypedFormat.pair (key : TypedFormat κ) (value : TypedFormat ν) : TypedFormat (κ × ν) where
  fresh := (key.fresh, value.fresh)
  serialize sink := Pair.serialize .firstSecond (key.serialize sink) (value.serialize sink)
  deserialize source :=
    Pair.deserialize .firstSecond (key.deserialize source) (value.deserialize source)

-- map<LengthFormat, KeyFormat, ValueFormat> is a vector of pairs, used with a std::map.
namespace Map

variable [LinearOrder κ] (P : Platform) (length : Integer) (keyValue : TypedFormat (κ × ν))

-- The iterators of a std::map are no random access iterators.
def serialize (sink : Sink σ) (m : SortedMap κ ν) : EStateM Failure σ Unit :=
  Vector.serializeImpl P length .other sink (keyValue.serialize sink) m.entries

-- insert leaves the map as it is where the key is present; the hint does not matter.
def insertElements (source : Source σ) : Nat → EStateM Failure (σ × SortedMap κ ν) Unit
  | 0 => pure ()
  | count + 1 => do
      let e ← withLocal keyValue.fresh (keyValue.deserialize source)
      let m ← readTarget
      assignTarget (m.insert e)
      insertElements source count

def deserialize (source : Source σ) : EStateM Failure (σ × SortedMap κ ν) Unit := do
  let size ← withLocal 0 (length.deserialize source (sizeType P))
  assignTarget SortedMap.empty
  insertElements keyValue source size.toNat

end Map

end Szn
