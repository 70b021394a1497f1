import Szn.Model.Formats

set_option autoImplicit false

namespace Szn

open Stateful

-- A structure with a be64 value and a vector<be32, structure<tree>> of children.
inductive Tree where
  | node (value : BitVec 64) (children : List Tree)
  deriving Repr

namespace Tree

abbrev Fields := BitVec 64 × List Tree × Unit

def fields : Tree → Fields
  | node value children => (value, children, ())

def ofFields (fields : Fields) : Tree := node fields.1 fields.2.1

-- The test's tree has no default constructor, which deserialize needs for a new child.
def fresh : Tree := node 0 []

mutual

def nodes : Tree → Nat
  | node _ children => 1 + nodesOf children

def nodesOf : List Tree → Nat
  | [] => 0
  | tree :: rest => tree.nodes + nodesOf rest

end

mutual

def height : Tree → Nat
  | node _ children => 1 + heightOf children

def heightOf : List Tree → Nat
  | [] => 0
  | tree :: rest => max tree.height (heightOf rest)

end

-- The test's tree_flattener: `iterate` shows it the value and then the children.
mutual

def visit : Tree → List (BitVec 64)
  | node value children => value :: acceptChildren children

def acceptChildren : List Tree → List (BitVec 64)
  | [] => []
  | child :: rest => child.visit ++ acceptChildren rest

end

variable {σ : Type} (P : Platform) (maxSize : Abi → Nat)

-- The format contains itself: both run to a depth, and fail below it.
def serialize (sink : Sink σ) : Nat → Tree → EStateM Failure σ Unit
  | 0, _ => throw Failure.unrolled
  | depth + 1, tree =>
      Structure.serialize (be64.serialize P sink (.unsigned 64))
        (Structure.serialize
          (Vector.serialize P be32 (.vector maxSize) sink (serialize sink depth)) pure)
        tree.fields

def deserialize (source : Source σ) : Nat → EStateM Failure (σ × Tree) Unit
  | 0 => throw Failure.unrolled
  | depth + 1 =>
      within fields (fun fields _ => ofFields fields)
        (Structure.deserialize (be64.deserialize source (.unsigned 64))
          (Structure.deserialize
            (Vector.deserialize P be32 (.vector maxSize) source fresh (deserialize source depth))
            (pure ())))

end Tree

end Szn
