import Szn.Model.Formats

set_option autoImplicit false

namespace Szn

open Stateful

/-- An integer format whose default type has exactly its width. -/
structure IntegerFormat extends Integer where
  builtin : byteSize ∈ [1, 2, 4, 8]
  deriving DecidableEq

theorem IntegerFormat.defaultBits_eq (format : IntegerFormat) :
    format.defaultBits = 8 * format.byteSize := by
  have builtin := format.builtin
  simp only [List.mem_cons, List.not_mem_nil, or_false] at builtin
  rcases builtin with size | size | size | size <;>
    simp [Integer.defaultBits, leastBits, size]

theorem IntegerFormat.byteSize_pos (format : IntegerFormat) : 0 < format.byteSize := by
  have builtin := format.builtin
  simp only [List.mem_cons, List.not_mem_nil, or_false] at builtin
  omega

theorem IntegerFormat.byteSize_le (format : IntegerFormat) : format.byteSize ≤ 8 := by
  have builtin := format.builtin
  simp only [List.mem_cons, List.not_mem_nil, or_false] at builtin
  omega

inductive BuiltinType where
  | int8
  | int16
  | int32
  | int64

def BuiltinType.size : BuiltinType → Nat
  | int8 => 1
  | int16 => 2
  | int32 => 4
  | int64 => 8

theorem builtin (type : BuiltinType) : type.size ∈ [1, 2, 4, 8] := by
  cases type <;> decide

-- A structure is the list of its fields: `done`, or a `field` before the others.
inductive Format where
  | integer (format : IntegerFormat) (value : ValueType)
  | boolean (format : Boolean)
  | pair (order : PairOrder) (first second : Format)
  | array (length : Nat) (element : Format)
  | vector (target : Container) (length : IntegerFormat) (element : Format)
  | optional (condition : Boolean) (value : Format)
  | uniquePtr (pointee : Format)
  | substitute (type : ValueType) (constant : BitVec type.bits)
  | done
  | field (format rest : Format)

namespace Format

def structureOf (fields : List Format) : Format :=
  fields.foldr field done

@[reducible] def Value : Format → Type
  | integer _ type => BitVec type.bits
  | boolean _ => Bool
  | pair _ first second => first.Value × second.Value
  | array length element => List.Vector element.Value length
  | vector _ _ element => List element.Value
  | optional _ value => Option value.Value
  | uniquePtr pointee => Option pointee.Value
  | substitute type _ => BitVec type.bits
  | done => Unit
  | field format rest => format.Value × rest.Value

instance decidableEqValue : (F : Format) → DecidableEq F.Value
  | integer _ type => inferInstanceAs (DecidableEq (BitVec type.bits))
  | boolean _ => inferInstanceAs (DecidableEq Bool)
  | pair _ first second =>
      have := decidableEqValue first
      have := decidableEqValue second
      inferInstanceAs (DecidableEq (first.Value × second.Value))
  | array length element =>
      have := decidableEqValue element
      inferInstanceAs (DecidableEq (List.Vector element.Value length))
  | vector _ _ element =>
      have := decidableEqValue element
      inferInstanceAs (DecidableEq (List element.Value))
  | optional _ value =>
      have := decidableEqValue value
      inferInstanceAs (DecidableEq (Option value.Value))
  | uniquePtr pointee =>
      have := decidableEqValue pointee
      inferInstanceAs (DecidableEq (Option pointee.Value))
  | substitute type _ => inferInstanceAs (DecidableEq (BitVec type.bits))
  | done => inferInstanceAs (DecidableEq Unit)
  | field format rest =>
      have := decidableEqValue format
      have := decidableEqValue rest
      inferInstanceAs (DecidableEq (format.Value × rest.Value))

-- A default-constructed object; an integer is left indeterminate, zero here.
def fresh : (F : Format) → F.Value
  | integer _ _ => (0 : BitVec _)
  | boolean _ => false
  | pair _ first second => (first.fresh, second.fresh)
  | array length element => List.Vector.replicate length element.fresh
  | vector _ _ _ => []
  | optional _ _ => none
  | uniquePtr _ => none
  | substitute _ _ => (0 : BitVec _)
  | done => ()
  | field format rest => (format.fresh, rest.fresh)

variable {σ : Type} (P : Platform)

def serialize (sink : Sink σ) : (F : Format) → F.Value → EStateM Failure σ Unit
  | integer format type => format.serialize P sink type
  | boolean format => format.serialize P sink
  | pair order first second => Pair.serialize order (serialize sink first) (serialize sink second)
  | array _ element => Array.serialize (serialize sink element)
  | vector target length element =>
      Vector.serialize P length.toInteger target sink (serialize sink element)
  | optional condition value =>
      Optional.serialize (condition.serialize P sink) (serialize sink value)
  | uniquePtr pointee => UniquePtr.serialize (serialize sink pointee)
  | substitute _ constant => Substitute.serialize constant
  | done => fun _ => pure ()
  | field format rest => Structure.serialize (serialize sink format) (serialize sink rest)

def deserialize (source : Source σ) : (F : Format) → EStateM Failure (σ × F.Value) Unit
  | integer format type => format.deserialize source type
  | boolean format => format.deserialize source
  | pair order first second =>
      Pair.deserialize order (deserialize source first) (deserialize source second)
  | array length element => Array.deserialize (deserialize source element) length
  | vector target length element =>
      Vector.deserialize P length.toInteger target source element.fresh (deserialize source element)
  | optional condition value =>
      Optional.deserialize P (condition.deserialize source) value.fresh (deserialize source value)
  | uniquePtr pointee => UniquePtr.deserialize pointee.fresh (deserialize source pointee)
  | substitute _ constant => Substitute.deserialize constant
  | done => pure ()
  | field format rest => Structure.deserialize (deserialize source format) (deserialize source rest)

/-- Default construction leaves every optional that is decoded in place empty. -/
def Blank : (F : Format) → F.Value → Prop
  | pair _ first second, value => first.Blank value.1 ∧ second.Blank value.2
  | array _ element, value => ∀ part ∈ value.toList, element.Blank part
  | optional _ _, value => value = none
  | uniquePtr pointee, value => ∀ part ∈ value, pointee.Blank part
  | field format rest, value => format.Blank value.1 ∧ rest.Blank value.2
  | integer _ _, _ | boolean _, _ | vector _ _ _, _ | substitute _ _, _ | done, _ => True

end Format

end Szn
