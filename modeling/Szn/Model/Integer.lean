import Szn.Library.Octets
import Szn.Model.Source

set_option autoImplicit false

namespace Szn

open Stateful Octets

def ByteOrder.getByteShift (order : ByteOrder) (byteIndex wordSize : Nat) : Nat :=
  match order with
  | .bigEndian => wordSize - 1 - byteIndex
  | .littleEndian => byteIndex

/-- The bytes of an object as they lie in memory. -/
def ByteOrder.memory {w : Nat} (host : ByteOrder) (size : Nat) (value : BitVec w) : List Byte :=
  (List.range size).map fun index =>
    (value >>> (8 * host.getByteShift index size)).setWidth 8

namespace Intrinsics

def reverseBytes (size : Nat) {w : Nat} (value : BitVec w) : BitVec w :=
  (List.range size).foldl
    (fun result index =>
      result ||| ((value >>> (8 * (size - 1 - index))).setWidth 8).setWidth w <<< (8 * index)) 0

def bswap16 (value : BitVec 16) : BitVec 16 := (value >>> 8) ||| (value <<< 8)

def bswap32 (value : BitVec 32) : BitVec 32 := reverseBytes 4 value

-- htons and htonl: the object that has the bytes of the value in network order.
def hton16 (host : ByteOrder) (value : BitVec 16) : BitVec 16 :=
  match host with
  | .bigEndian => value
  | .littleEndian => reverseBytes 2 value

def hton32 (host : ByteOrder) (value : BitVec 32) : BitVec 32 :=
  match host with
  | .bigEndian => value
  | .littleEndian => reverseBytes 4 value

end Intrinsics

open Intrinsics

-- None where only the overload that returns void is declared.
def ByteOrder.makeSerializablePod {w : Nat} (order host : ByteOrder) (size : Nat)
    (value : BitVec w) : Option (BitVec w) :=
  match order, size with
  | .bigEndian, 2 => some ((hton16 host (value.setWidth 16)).setWidth w)
  | .bigEndian, 4 => some ((hton32 host (value.setWidth 32)).setWidth w)
  | .littleEndian, 2 => some ((bswap16 (hton16 host (value.setWidth 16))).setWidth w)
  | .littleEndian, 4 => some ((bswap32 (hton32 host (value.setWidth 32))).setWidth w)
  | _, _ => none

-- The width of boost::uint_t<Bits>::least and of boost::int_t<Bits>::least.
def leastBits (bits : Nat) : Nat :=
  if bits ≤ 8 then 8 else if bits ≤ 16 then 16 else if bits ≤ 32 then 32 else 64

-- An integral or enumeration type; an enumeration has a fixed underlying type.
inductive ValueType where
  | unsigned (bits : Nat)
  | signed (bits : Nat)
  | enumeration (bits : Nat) (signed : Bool)
  deriving DecidableEq, Repr

namespace ValueType

@[reducible] def bits : ValueType → Nat
  | unsigned bits | signed bits | enumeration bits _ => bits

def isSigned : ValueType → Bool
  | unsigned _ => false
  | signed _ => true
  | enumeration _ underlying => underlying

def isEnum : ValueType → Bool
  | enumeration _ _ => true
  | _ => false

-- static_cast to an unsigned type
def toUnsigned (type : ValueType) (width : Nat) (value : BitVec type.bits) : BitVec width :=
  if type.isSigned then value.signExtend width else value.setWidth width

end ValueType

namespace IntegerSerializer

variable {σ : Type} {w : Nat}

-- The overload where make_serializable_pod gives a value.
def serializePod (host : ByteOrder) (integerSize : Nat) (sink : Sink σ)
    (preparedForWriting : BitVec w) : EStateM Failure σ Unit :=
  sink.write (host.memory integerSize preparedForWriting)

-- The overload with the ellipsis.
def serializeLoop (order : ByteOrder) (integerSize : Nat) (sink : Sink σ) (arithValue : BitVec w) :
    EStateM Failure σ Unit :=
  (List.range integerSize).forM fun b =>
    let byteShift := order.getByteShift b integerSize
    sink.write [(arithValue >>> (8 * byteShift)).setWidth 8]

end IntegerSerializer

-- integer<ByteSize, ByteOrder>
structure Integer where
  byteSize : Nat
  order : ByteOrder
  deriving DecidableEq, Repr

namespace Integer

@[reducible] def defaultBits (format : Integer) : Nat := leastBits (8 * format.byteSize)

@[reducible] def defaultType (format : Integer) : ValueType := .unsigned format.defaultBits

variable {σ : Type}

def serialize (P : Platform) (format : Integer) (sink : Sink σ) (type : ValueType)
    (value : BitVec type.bits) : EStateM Failure σ Unit :=
  let arithValue : BitVec format.defaultBits := type.toUnsigned format.defaultBits value
  match format.order.makeSerializablePod P.host format.byteSize arithValue with
  | some preparedForWriting =>
      IntegerSerializer.serializePod P.host format.byteSize sink preparedForWriting
  | none => IntegerSerializer.serializeLoop format.order format.byteSize sink arithValue

def deserialize (format : Integer) (source : Source σ) (type : ValueType) :
    EStateM Failure (σ × BitVec type.bits) Unit := do
  let result ← (List.range format.byteSize).foldlM
    (fun result b => do
      let byte ← withLocal [0] (source.read 1)
      let byteShift := format.order.getByteShift b format.byteSize
      pure (result ||| (byte.headD 0).setWidth format.defaultBits <<< (8 * byteShift)))
    (0 : BitVec format.defaultBits)
  -- Only the cast through the signed type extends the sign.
  if type.isSigned && !type.isEnum then
    assignTarget (result.signExtend type.bits)
  else
    assignTarget (result.setWidth type.bits)

end Integer

end Szn
