import Szn.Model.Language

set_option autoImplicit false

namespace Szn

open Stateful

variable {σ : Type} (P : Platform)

abbrev Item := (F : Format) × F.Value

namespace Writer

def value (destination : Sink σ) (item : Item) : EStateM Failure σ Unit :=
  item.1.serialize P destination item.2

def values (destination : Sink σ) (items : List Item) : EStateM Failure σ Unit :=
  items.forM (value P destination)

end Writer

namespace Reader

def raw (source : Source σ) (length : Nat) : EStateM Failure (σ × List Byte) Unit :=
  source.read length

def value (source : Source σ) (F : Format) : EStateM Failure (σ × F.Value) Unit :=
  F.deserialize P source

-- One new object for each format.
def values {τ : Type} (source : Source σ) : List Format → EStateM Failure (σ × τ) (List Item)
  | [] => pure []
  | F :: rest => do
      let first ← withLocal F.fresh (value P source F)
      let others ← values source rest
      pure (⟨F, first⟩ :: others)

end Reader

end Szn
