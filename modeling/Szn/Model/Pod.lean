import Szn.Model.Integer

set_option autoImplicit false

namespace Szn

open Stateful

variable {σ : Type} (P : Platform)

def ByteOrder.object (host : ByteOrder) (size : Nat) (data : List Byte) : BitVec (8 * size) :=
  ((List.range size).zip data).foldl
    (fun value byte =>
      let extended : BitVec (8 * size) := byte.2.setWidth (8 * size)
      value ||| extended <<< (8 * host.getByteShift byte.1 size))
    (BitVec.ofNat _ 0)

-- pod<Value>, for an integral type of `size` bytes.
namespace Pod

variable (size : Nat)

def serialize (sink : Sink σ) (value : BitVec (8 * size)) : EStateM Failure σ Unit :=
  sink.write (P.host.memory size value)

-- The bytes are read into the object itself.
def deserialize (source : Source σ) : EStateM Failure (σ × BitVec (8 * size)) Unit :=
  within (P.host.memory size) (fun data _ => P.host.object size data) (source.read size)

end Pod

-- binary_float<IntegerFormat>, for a Float of `size` bytes; a value is its bit pattern.
namespace BinaryFloat

variable (format : Integer) (size : Nat)

-- compatible_int: boost::int_t<sizeof(Float) * 8>::exact
@[reducible] def compatibleInt : ValueType := .signed (8 * size)

def serialize (sink : Sink σ) (value : BitVec (8 * size)) : EStateM Failure σ Unit :=
  let intValue := P.host.object size (P.host.memory size value)
  format.serialize P sink (compatibleInt size) intValue

def deserialize (source : Source σ) : EStateM Failure (σ × BitVec (8 * size)) Unit := do
  let intValue ← withLocal 0 (format.deserialize source (compatibleInt size))
  assignTarget (P.host.object size (P.host.memory size intValue))

end BinaryFloat

end Szn
