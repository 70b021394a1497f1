import Szn.Library.Stateful
import Szn.Library.Trace

set_option autoImplicit false

namespace Szn

open Stateful

abbrev Byte := BitVec 8

inductive Failure where
  | runtimeError (what : String)
  | lengthError
  | invalidArgument (what : String)
  | logicError (what : String)
  | streamFailure
  -- An assert that does not hold, and undefined behaviour, are no exceptions.
  | assertion
  | undefined
  -- A bounded unrolling of a recursive structure reached its bound.
  | unrolled
  deriving DecidableEq, Repr

inductive ByteOrder where
  | bigEndian
  | littleEndian
  deriving DecidableEq, Repr

structure Abi where
  -- The width of std::size_t.
  sizeBits : Nat
  host : ByteOrder
  -- std::vector<char>::max_size()
  bufferMax : Nat
  deriving DecidableEq, Repr

structure Platform extends Abi where
  -- Whether NDEBUG is left undefined.
  asserts : Bool
  deriving DecidableEq, Repr

def amd64 : Platform := ⟨⟨64, .littleEndian, 2 ^ 63 - 1⟩, true⟩

def ilp32 : Platform := ⟨⟨32, .littleEndian, 2 ^ 31 - 1⟩, true⟩

-- The largest length_type, a 64-bit unsigned integer.
def lengthMax : Nat := 2 ^ 64 - 1

def assert {σ : Type} (P : Platform) (condition : Bool) : EStateM Failure σ Unit :=
  if P.asserts && !condition then throw Failure.assertion else pure ()

structure Sink (σ : Type) where
  write : List Byte → EStateM Failure σ Unit

def nullSink : Sink Unit where
  write _ := pure ()

/-- Assign a byte through the iterator and increment it; `μ` is the memory it writes to. -/
structure OutputIterator (ι μ : Type) where
  put : Byte → ι → μ → ι × μ

-- std::copy: the iterator behind the last byte, and the memory.
def OutputIterator.copy {ι μ : Type} (iterator : OutputIterator ι μ) :
    List Byte → ι → μ → ι × μ
  | [], position, memory => (position, memory)
  | byte :: rest, position, memory =>
      let next := iterator.put byte position memory
      iterator.copy rest next.1 next.2

def iteratorSink {ι μ : Type} (iterator : OutputIterator ι μ) : Sink (ι × μ) where
  -- std::copy gets a copy of m_pos, and the iterator it returns is not kept.
  write data := fun (position, memory) =>
    .ok () (position, (iterator.copy data position memory).2)

def pointer : OutputIterator Nat (List Byte) where
  put byte position buffer := (position + 1, buffer.set position byte)

def backInserter : OutputIterator Unit (List Byte) where
  put byte _ container := ((), container ++ [byte])

def insertionSink : Sink (List Byte) where
  write data := modify (· ++ data)

-- The state is m_count, a 64-bit length_type.
def countingSink : Sink (BitVec 64) where
  write data := modify (· + BitVec.ofNat 64 data.length)

def countingSinkAdaptor {σ : Type} (next : Sink σ) : Sink (σ × BitVec 64) where
  write data := do
    onEnvironment (next.write data)
    onTarget (countingSink.write data)

-- A std::ostream over a device that takes `room` more bytes.
structure Ostream where
  written : List Byte
  room : Nat
  bad : Bool
  -- Whether badbit is in the exception mask.
  exceptions : Bool
  deriving DecidableEq, Repr

-- std::ostream::write: nothing on a bad stream, and badbit where the device falls short.
def Ostream.write (data : List Byte) : EStateM Failure Ostream Unit := fun out =>
  let after : Ostream :=
    if out.bad then out
    else
      { out with
        written := out.written ++ data.take out.room
        room := out.room - data.length
        bad := decide (out.room < data.length) }
  if after.bad && after.exceptions then .error .streamFailure after else .ok () after

def streamSink : Sink Ostream where
  write data := Ostream.write data

def failingSink : Sink Unit where
  write _ := throw (.logicError "You cannot write to an szn::failing_sink")

-- `call` is operator() of m_function, an object with the state `φ`.
def functionSink {φ : Type} (call : List Byte → EStateM Failure φ Unit) : Sink φ where
  write data := call data

end Szn
