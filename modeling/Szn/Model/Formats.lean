import Szn.Model.Integer

set_option autoImplicit false

namespace Szn

open Stateful

variable {σ α β : Type}

def be8 : Integer := ⟨1, .bigEndian⟩
def be16 : Integer := ⟨2, .bigEndian⟩
def be32 : Integer := ⟨4, .bigEndian⟩
def be64 : Integer := ⟨8, .bigEndian⟩

def Integer.le8 : Integer := ⟨1, .littleEndian⟩
def Integer.le16 : Integer := ⟨2, .littleEndian⟩
def Integer.le32 : Integer := ⟨4, .littleEndian⟩
def Integer.le64 : Integer := ⟨8, .littleEndian⟩

namespace ByteBool

@[reducible] def valueType : ValueType := .unsigned 8

def fromBool (value : Bool) : BitVec 8 := if value then 1 else 0

def toBool (value : BitVec 8) : Bool := value != 0

end ByteBool

namespace BasicBool

def serialize (P : Platform) (format : Integer) (sink : Sink σ) (value : Bool) :
    EStateM Failure σ Unit :=
  format.serialize P sink ByteBool.valueType (ByteBool.fromBool value)

def deserialize (format : Integer) (source : Source σ) : EStateM Failure (σ × Bool) Unit := do
  let buffer ← withLocal 0 (format.deserialize source ByteBool.valueType)
  assignTarget (ByteBool.toBool buffer)

end BasicBool

inductive Boolean where
  | boolean
  | booleanNot (underlying : Boolean)
  deriving DecidableEq, Repr

namespace Boolean

def serialize (P : Platform) (sink : Sink σ) : Boolean → Bool → EStateM Failure σ Unit
  | boolean, value => BasicBool.serialize P be8 sink value
  | booleanNot underlying, value => serialize P sink underlying (!value)

def deserialize (source : Source σ) : Boolean → EStateM Failure (σ × Bool) Unit
  | boolean => BasicBool.deserialize be8 source
  | booleanNot underlying => do
      let underlyingValue ← withLocal false (deserialize source underlying)
      assignTarget (!underlyingValue)

end Boolean

inductive PairOrder where
  | firstSecond
  | secondFirst
  deriving DecidableEq, Repr

namespace Pair

def serialize (order : PairOrder) (first : α → EStateM Failure σ Unit)
    (second : β → EStateM Failure σ Unit) (value : α × β) : EStateM Failure σ Unit := do
  if order = .firstSecond then
    first value.1
  second value.2
  if order ≠ .firstSecond then
    first value.1

def deserialize (order : PairOrder) (first : EStateM Failure (σ × α) Unit)
    (second : EStateM Failure (σ × β) Unit) : EStateM Failure (σ × (α × β)) Unit := do
  if order = .firstSecond then
    onFirst first
  onSecond second
  if order ≠ .firstSecond then
    onFirst first

end Pair

namespace Array

def serialize (element : α → EStateM Failure σ Unit) {length : Nat}
    (a : List.Vector α length) : EStateM Failure σ Unit :=
  a.toList.forM element

-- The elements are visited in place, from the first to the last.
def deserialize (element : EStateM Failure (σ × α) Unit) :
    (length : Nat) → EStateM Failure (σ × List.Vector α length) Unit
  | 0 => pure ()
  | length + 1 => do
      onHead element
      onTail (deserialize element length)

end Array

-- A target of vector::deserialize; std::vector<T> comes with its max_size() under each ABI.
inductive Container where
  | vector (maxSize : Abi → Nat)
  | list
  | deque
  | string

inductive IteratorCategory where
  | randomAccess
  | other
  deriving DecidableEq, Repr

namespace Container

def iteratorCategory : Container → IteratorCategory
  | list => .other
  | vector _ | deque | string => .randomAccess

def reserve (P : Platform) (target : Container) (size : Nat) : EStateM Failure σ Unit :=
  match target with
  | vector maxSize => if maxSize P.toAbi < size then throw Failure.lengthError else pure ()
  | list | deque | string => pure ()

end Container

@[reducible] def sizeType (P : Platform) : ValueType := .unsigned P.sizeBits

namespace Vector

variable (P : Platform) (length : Integer)

def serializeSize (sink : Sink σ) (size : Nat) : EStateM Failure σ Unit :=
  length.serialize P sink (sizeType P) (BitVec.ofNat P.sizeBits size)

def serializeRawRange (element : α → EStateM Failure σ Unit) (sequence : List α) :
    EStateM Failure σ Unit :=
  sequence.forM element

def serializeImpl (category : IteratorCategory) (sink : Sink σ)
    (element : α → EStateM Failure σ Unit) (sequence : List α) : EStateM Failure σ Unit :=
  match category with
  | .other => do
      -- sequence.size()
      serializeSize P length sink sequence.length
      serializeRawRange element sequence
  | .randomAccess => do
      -- boost::size(sequence)
      serializeSize P length sink sequence.length
      serializeRawRange element sequence

def serialize (container : Container) (sink : Sink σ) (element : α → EStateM Failure σ Unit)
    (v : List α) : EStateM Failure σ Unit :=
  serializeImpl P length container.iteratorCategory sink element v

-- The overload for std::pair; the count is the int literal 2.
def serializePair (sink : Sink σ) (first : α → EStateM Failure σ Unit)
    (second : β → EStateM Failure σ Unit) (elements : α × β) : EStateM Failure σ Unit := do
  length.serialize P sink (.signed 32) 2
  first elements.1
  second elements.2

-- The overload for a C array of `arr.length` elements.
def serializeArray (sink : Sink σ) (element : α → EStateM Failure σ Unit) (arr : List α) :
    EStateM Failure σ Unit := do
  serializeSize P length sink arr.length
  serializeRawRange element arr

def serializeFrom (element : α → EStateM Failure σ Unit) :
    (count : Nat) → (pos : List α) → EStateM Failure σ Unit
  | 0, _ => pure ()
  | _ + 1, [] => throw Failure.undefined
  | count + 1, value :: pos => do
      element value
      serializeFrom element count pos

-- The overload for an iterator and a count; `pos` is what the iterator still yields.
def serializeCount (sink : Sink σ) (element : α → EStateM Failure σ Unit) (pos : List α)
    (count : Nat) : EStateM Failure σ Unit := do
  serializeSize P length sink count
  serializeFrom element count pos

inductive EntryPoint where
  | container (v : Container)
  | array
  | iteratorAndCount

def EntryPoint.serialize (sink : Sink σ) (element : α → EStateM Failure σ Unit)
    (sequence : List α) : EntryPoint → EStateM Failure σ Unit
  | container v => Vector.serialize P length v sink element sequence
  | array => serializeArray P length sink element sequence
  | iteratorAndCount => serializeCount P length sink element sequence sequence.length

/-- The arguments by which the elements of a list can be passed, one constructor an overload. -/
inductive Overload (α : Type) : List α → Type where
  | container (v : Container) (sequence : List α) : Overload α sequence
  | pair (first second : α) : Overload α [first, second]
  | array (arr : List α) : Overload α arr
  -- The iterator may yield more than the elements that are counted.
  | iteratorAndCount (sequence more : List α) : Overload α sequence

def Overload.serialize (sink : Sink σ) (element : α → EStateM Failure σ Unit) :
    {sequence : List α} → Overload α sequence → EStateM Failure σ Unit
  | _, container v sequence => Vector.serialize P length v sink element sequence
  | _, pair first second => serializePair P length sink element element (first, second)
  | _, array arr => serializeArray P length sink element arr
  | _, iteratorAndCount sequence more =>
      serializeCount P length sink element (sequence ++ more) sequence.length

def insertElements (fresh : α) (element : EStateM Failure (σ × α) Unit) :
    Nat → EStateM Failure (σ × List α) Unit
  | 0 => pure ()
  | count + 1 => do
      let e ← withLocal fresh element
      let v ← readTarget
      assignTarget (v ++ [e])
      insertElements fresh element count

def deserialize (target : Container) (source : Source σ) (fresh : α)
    (element : EStateM Failure (σ × α) Unit) : EStateM Failure (σ × List α) Unit := do
  let size ← withLocal 0 (length.deserialize source (sizeType P))
  assignTarget []
  target.reserve P size.toNat
  insertElements fresh element size.toNat

-- For boost::array and std::array.
def deserializeArray (source : Source σ) (element : EStateM Failure (σ × α) Unit)
    (Length : Nat) : EStateM Failure (σ × List.Vector α Length) Unit := do
  let size ← withLocal 0 (length.deserialize source (sizeType P))
  if size.toNat ≠ Length then
    throw (Failure.runtimeError "array length mismatch")
  Array.deserialize element Length

end Vector

namespace Optional

def serializeIndirect (condition : Bool → EStateM Failure σ Unit)
    (value : α → EStateM Failure σ Unit) (isSet : Bool) (deref : Option α) :
    EStateM Failure σ Unit := do
  condition isSet
  if isSet then
    match deref with
    | some found => value found
    | none => throw Failure.undefined

def serialize (condition : Bool → EStateM Failure σ Unit) (value : α → EStateM Failure σ Unit)
    (nullable : Option α) : EStateM Failure σ Unit :=
  serializeIndirect condition value nullable.isSome nullable

def parseCondition (condition : EStateM Failure (σ × Bool) Unit) :
    EStateM Failure (σ × α) Bool :=
  withLocal false condition

-- The overload for boost::optional.
def deserialize (P : Platform) (condition : EStateM Failure (σ × Bool) Unit) (fresh : α)
    (value : EStateM Failure (σ × α) Unit) : EStateM Failure (σ × Option α) Unit := do
  let target ← readTarget
  assert P target.isNone
  let isSet ← parseCondition condition
  if isSet then
    let temporary ← withLocal fresh value
    assignTarget (some temporary)

end Optional

namespace UniquePtr

def serialize (pointee : α → EStateM Failure σ Unit) (p : Option α) : EStateM Failure σ Unit :=
  match p with
  | some value => pointee value
  | none => throw Failure.undefined

def deserialize (fresh : α) (pointee : EStateM Failure (σ × α) Unit) :
    EStateM Failure (σ × Option α) Unit := do
  let p ← readTarget
  if p.isNone then
    assignTarget (some fresh)
  within (fun p => p.getD fresh) (fun value _ => some value) pointee

end UniquePtr

namespace Substitute

variable [DecidableEq α]

def serialize (constant value : α) : EStateM Failure σ Unit :=
  if value ≠ constant then throw (Failure.invalidArgument "Substitute value mismatch") else pure ()

def deserialize (constant : α) : EStateM Failure (σ × α) Unit :=
  assignTarget constant

end Substitute

namespace Structure

-- The visitor accepts a field, then the fields behind it.
def serialize (field : α → EStateM Failure σ Unit) (rest : β → EStateM Failure σ Unit)
    (object : α × β) : EStateM Failure σ Unit := do
  field object.1
  rest object.2

def deserialize (field : EStateM Failure (σ × α) Unit) (rest : EStateM Failure (σ × β) Unit) :
    EStateM Failure (σ × (α × β)) Unit := do
  onFirst field
  onSecond rest

end Structure

end Szn
