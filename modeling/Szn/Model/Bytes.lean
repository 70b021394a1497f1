import Szn.Model.Formats

set_option autoImplicit false

namespace Szn

open Stateful

-- bytes<LengthFormat>: a vector of be8. `charSigned` says whether the type char is signed.
namespace Bytes

variable {σ : Type} (P : Platform) (length : Integer) (charSigned : Bool)

def serializeChar (sink : Sink σ) (c : Byte) : EStateM Failure σ Unit :=
  match charSigned with
  | true => be8.serialize P sink (.signed 8) c
  | false => be8.serialize P sink (.unsigned 8) c

def deserializeChar (source : Source σ) : EStateM Failure (σ × Byte) Unit :=
  match charSigned with
  | true => be8.deserialize source (.signed 8)
  | false => be8.deserialize source (.unsigned 8)

-- The array that a string literal denotes ends in a terminator.
def literal (s : List Byte) : List Byte := s ++ [0]

-- std::string's constructor takes the characters in front of the terminator.
def string (arr : List Byte) : List Byte := arr.takeWhile (· ≠ 0)

-- A literal is an lvalue of array type, so the array overload is the more specialized one.
def serializeLiteral (sink : Sink σ) (arr : List Byte) : EStateM Failure σ Unit :=
  Vector.serializeArray P length sink (serializeChar P charSigned sink) arr

def serializeString (sink : Sink σ) (s : List Byte) : EStateM Failure σ Unit :=
  Vector.serialize P length .string sink (serializeChar P charSigned sink) s

def deserializeString (source : Source σ) : EStateM Failure (σ × List Byte) Unit :=
  Vector.deserialize P length .string source 0 (deserializeChar charSigned source)

end Bytes

end Szn
