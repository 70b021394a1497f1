import Szn.Model.Sink

set_option autoImplicit false

namespace Szn

open Stateful

structure Source (σ : Type) where
  load : Nat → EStateM Failure σ Unit
  size : EStateM Failure σ Nat
  get : Nat → EStateM Failure σ Byte
  drop : Nat → EStateM Failure σ Unit
  -- The bytes from the returned pointer to the end of the memory behind it.
  data : EStateM Failure σ (List Byte)

def insufficientInput : Failure :=
  .runtimeError "Insufficient input from source to read"

def copyTo {σ : Type} (data : List Byte) (length : Nat) : EStateM Failure (σ × List Byte) Unit := do
  let destination ← readTarget
  if data.length < length ∨ destination.length < length then
    throw Failure.undefined
  assignTarget (data.take length ++ destination.drop length)

def Source.read {σ : Type} (source : Source σ) (length : Nat) :
    EStateM Failure (σ × List Byte) Unit := do
  onEnvironment (source.load length)
  let size ← onEnvironment source.size
  if size < length then
    throw insufficientInput
  let data ← onEnvironment source.data
  copyTo data length
  onEnvironment (source.drop length)

-- How the elements of a range lie in memory: one behind the other, or only the first ones of
-- them, such as those in the first block of a std::deque.
inductive Layout where
  | contiguous
  | segmented (first : Nat)
  deriving DecidableEq, Repr

-- The elements that a pointer to the first one reaches.
def Layout.reached (layout : Layout) (range : List Byte) : List Byte :=
  match layout with
  | contiguous => range
  | segmented first => range.take first

structure RangeSource where
  range : List Byte
  position : Nat
  deriving DecidableEq, Repr

namespace RangeSource

variable (P : Platform)

def size (source : RangeSource) : Nat := source.range.length - source.position

def get (index : Nat) : EStateM Failure RangeSource Byte := fun source =>
  (do
    assert P (index < source.size)
    match source.range[source.position + index]? with
    | some byte => pure byte
    | none => throw Failure.undefined) source

def drop (n : Nat) : EStateM Failure RangeSource Unit := fun source =>
  (do
    assert P (n ≤ source.size)
    set { source with position := source.position + n }) source

def data (layout : Layout) : EStateM Failure RangeSource (List Byte) := fun source =>
  -- The begin iterator is dereferenced, and the position is added to a pointer.
  match source.range with
  | [] => .error .undefined source
  | range => .ok ((layout.reached range).drop source.position) source

end RangeSource

def rangeSourceIn (layout : Layout) (P : Platform) : Source RangeSource where
  load _ := pure ()
  size := fun source => .ok source.size source
  get := RangeSource.get P
  drop := RangeSource.drop P
  data := RangeSource.data layout

-- Over contiguous memory, such as memory_source and a source over a std::vector or std::string.
def rangeSource (P : Platform) : Source RangeSource := rangeSourceIn .contiguous P

def makeRangeSource (range : List Byte) : RangeSource := ⟨range, 0⟩

def emptySource : Source Unit where
  load _ := pure ()
  size := pure 0
  get _ := throw (.runtimeError "szn::EmptySource cannot be read from")
  drop _ := pure ()
  -- A null pointer: there is no memory behind it.
  data := pure []

def zeroSource : Source Unit where
  load _ := pure ()
  size := pure 1
  get _ := pure 0
  drop _ := pure ()
  -- The empty string literal: its terminator is the only byte.
  data := pure [0]

def failingSource (P : Platform) : Source Unit where
  load _ := throw (.logicError "You cannot load from an szn::failing_source")
  size := pure 0
  get _ := do
    assert P false
    pure 0
  drop _ := pure ()
  data := pure []

-- A std::istream: a short read sets gcount and, with exceptions enabled, throws.
structure Istream where
  undelivered : List Byte
  gcount : Nat
  exceptions : Bool
  deriving DecidableEq, Repr

structure StreamSource where
  input : Istream
  buffer : List Byte
  size : Nat
  deriving DecidableEq, Repr

namespace StreamSource

variable (P : Platform)

-- std::vector<char>::resize
def resize (length : Nat) (buffer : List Byte) : List Byte :=
  buffer.take length ++ List.replicate (length - buffer.length) 0

-- m_in.read into the buffer at an offset
def readInput (offset count : Nat) : EStateM Failure StreamSource Unit := fun source =>
  let stored := source.input.undelivered.take count
  let after : StreamSource :=
    { source with
      input :=
        { source.input with
          undelivered := source.input.undelivered.drop count
          gcount := stored.length }
      buffer := source.buffer.take offset ++ stored ++ source.buffer.drop (offset + stored.length) }
  if source.input.exceptions && decide (stored.length < count) then
    .error .streamFailure after
  else
    .ok () after

def load (n : Nat) : EStateM Failure StreamSource Unit := do
  let clampedN := min n P.bufferMax
  let prevSize := (← get).buffer.length
  if clampedN > prevSize then
    modify fun source => { source with buffer := resize clampedN source.buffer }
    let bytesToRead := clampedN - prevSize
    readInput prevSize bytesToRead
    let read := (← get).input.gcount
    assert P (read ≤ bytesToRead)
    modify fun source => { source with buffer := resize (prevSize + read) source.buffer }
  modify fun source => { source with size := min clampedN source.buffer.length }

def get (index : Nat) : EStateM Failure StreamSource Byte := fun source =>
  (do
    assert P (index < source.size)
    assert P (index < source.buffer.length)
    match source.buffer[index]? with
    | some byte => pure byte
    | none => throw Failure.undefined) source

def drop (n : Nat) : EStateM Failure StreamSource Unit := fun source =>
  (do
    assert P (n ≤ source.size)
    assert P (n ≤ source.buffer.length)
    if source.buffer.length < n then
      throw Failure.undefined
    set { source with buffer := source.buffer.drop n, size := source.size - n }) source

end StreamSource

def streamSource (P : Platform) : Source StreamSource where
  load := StreamSource.load P
  size := fun source => .ok source.size source
  get := StreamSource.get P
  drop := StreamSource.drop P
  data := fun source => .ok source.buffer source

def makeStreamSource (input : Istream) : StreamSource := ⟨input, [], 0⟩

-- The function template szn::read: into a container that is resized first.
protected def read {σ : Type} (source : Source σ) (byteCount : Nat) :
    EStateM Failure (σ × List Byte) Unit := do
  let destination ← readTarget
  assignTarget (StreamSource.resize byteCount destination)
  if byteCount > 0 then
    source.read byteCount

end Szn
