import Szn.Model.Language
import Szn.Spec.Integer

set_option autoImplicit false

namespace Szn

open Stateful Tracing

variable {σ : Type} (P : Platform) (sink : Sink σ)

def Boolean.trace : Boolean → Bool → Trace Byte Failure
  | boolean, value => be8.trace ByteBool.valueType (ByteBool.fromBool value)
  | booleanNot underlying, value => underlying.trace (!value)

theorem Boolean.serialize_replay (format : Boolean) (value : Bool) :
    format.serialize P sink value = (format.trace value).replay sink.write := by
  induction format generalizing value with
  | boolean =>
      rw [serialize, BasicBool.serialize, trace]
      exact Integer.serialize_replay P sink ByteBool.valueType _
  | booleanNot underlying ih => exact ih (!value)

section EntryPoints

variable {α : Type} (length : Integer)

def Vector.prefixed (element : α → EStateM Failure σ Unit) (sequence : List α) :
    EStateM Failure σ Unit := do
  Vector.serializeSize P length sink sequence.length
  sequence.forM element

theorem Vector.prefixed_replay (element : α → Trace Byte Failure) (sequence : List α) :
    Vector.prefixed P sink length (fun value => (element value).replay sink.write) sequence =
      ((length.trace (sizeType P) (BitVec.ofNat P.sizeBits sequence.length)).andThen
        (.all element sequence)).replay sink.write := by
  rw [prefixed, Trace.replay_andThen, Trace.replay_all, Vector.serializeSize,
    Integer.serialize_replay]

theorem Vector.prefixed_written (element : α → Trace Byte Failure) (text : α → List Byte)
    (sequence : List α) (each : ∀ value ∈ sequence, (element value).Emits (text value))
    (before : List Byte) :
    Vector.prefixed P insertionSink length
        (fun value => (element value).replay insertionSink.write) sequence before =
      .ok () (before ++ length.encode (sizeType P) (BitVec.ofNat P.sizeBits sequence.length) ++
        sequence.flatMap text) := by
  have size := length.trace_emits (sizeType P) (BitVec.ofNat P.sizeBits sequence.length)
  have elements := Trace.Emits.all element text sequence each
  rw [prefixed_replay, List.append_assoc]
  exact (Trace.replay_append_ok _ _ _).mpr ⟨_, size.andThen elements, rfl⟩

theorem Vector.serialize_eq (container : Container) (element : α → EStateM Failure σ Unit)
    (v : List α) :
    Vector.serialize P length container sink element v =
      Vector.prefixed P sink length element v := by
  unfold Vector.serialize Vector.serializeImpl
  cases container.iteratorCategory <;> rfl

-- The iterator is not asked for more than is counted.
theorem Vector.serializeFrom_append (element : α → EStateM Failure σ Unit)
    (sequence more : List α) :
    Vector.serializeFrom element sequence.length (sequence ++ more) = sequence.forM element := by
  induction sequence with
  | nil => rfl
  | cons value rest ih =>
      simp only [List.length_cons, List.cons_append, Vector.serializeFrom, ih]
      rfl

theorem Vector.EntryPoint.serialize_eq (element : α → EStateM Failure σ Unit) (sequence : List α)
    (entry : EntryPoint) :
    entry.serialize P length sink element sequence =
      Vector.prefixed P sink length element sequence := by
  cases entry with
  | container v => exact Vector.serialize_eq P sink length v element sequence
  | array => rfl
  | iteratorAndCount =>
      have counted := Vector.serializeFrom_append element sequence []
      rw [List.append_nil] at counted
      rw [EntryPoint.serialize, Vector.serializeCount, counted, prefixed]

theorem Vector.EntryPoint.serialize_replay (element : α → Trace Byte Failure)
    (sequence : List α) (entry : EntryPoint) :
    entry.serialize P length sink (fun value => (element value).replay sink.write) sequence =
      ((length.trace (sizeType P) (BitVec.ofNat P.sizeBits sequence.length)).andThen
        (.all element sequence)).replay sink.write := by
  rw [EntryPoint.serialize_eq, prefixed_replay]

-- The int literal and the std::size_t have the same value after the cast.
theorem serialize_two (held : 2 < 2 ^ P.sizeBits) :
    length.serialize P sink (.signed 32) 2 = Vector.serializeSize P length sink 2 := by
  have literal : (ValueType.signed 32).toUnsigned length.defaultBits 2 =
      BitVec.ofNat length.defaultBits 2 := by
    simp only [ValueType.toUnsigned, ValueType.isSigned, if_true]
    rw [BitVec.signExtend_eq_setWidth_of_msb_false (by decide)]
    apply BitVec.eq_of_toNat_eq
    rw [BitVec.toNat_setWidth, BitVec.toNat_ofNat]
    rfl
  have count : (sizeType P).toUnsigned length.defaultBits (BitVec.ofNat P.sizeBits 2) =
      BitVec.ofNat length.defaultBits 2 := by
    apply BitVec.eq_of_toNat_eq
    simp [ValueType.toUnsigned, ValueType.isSigned, Nat.mod_eq_of_lt held]
  simp only [Vector.serializeSize, Integer.serialize, literal, count]

theorem Vector.Overload.serialize_eq (element : α → EStateM Failure σ Unit) {sequence : List α}
    (held : sequence.length < 2 ^ P.sizeBits) (overload : Overload α sequence) :
    overload.serialize P length sink element = Vector.prefixed P sink length element sequence := by
  cases overload with
  | container v => exact Vector.serialize_eq P sink length v element sequence
  | pair first second =>
      rw [serialize, serializePair, serialize_two P sink length held, prefixed]
      simp
  | array => rfl
  | iteratorAndCount _ more =>
      rw [serialize, serializeCount, serializeFrom_append, prefixed]

end EntryPoints

namespace Format

def trace : (F : Format) → F.Value → Trace Byte Failure
  | integer format type, value => format.trace type value
  | boolean format, value => format.trace value
  | pair .firstSecond first second, value => (first.trace value.1).andThen (second.trace value.2)
  | pair .secondFirst first second, value => (second.trace value.2).andThen (first.trace value.1)
  | array _ element, value => .all element.trace value.toList
  | vector _ length element, value =>
      (length.trace (sizeType P) (BitVec.ofNat P.sizeBits value.length)).andThen
        (.all element.trace value)
  | optional condition value, nullable =>
      (condition.trace nullable.isSome).andThen (nullable.elim .empty value.trace)
  | uniquePtr pointee, p => p.elim (.fail .undefined) pointee.trace
  | substitute _ constant, value =>
      if value = constant then .empty else .fail (.invalidArgument "Substitute value mismatch")
  | done, _ => .empty
  | field format rest, object => (format.trace object.1).andThen (rest.trace object.2)

theorem serialize_replay (F : Format) (value : F.Value) :
    F.serialize P sink value = (F.trace P value).replay sink.write := by
  induction F with
  | integer format type => exact Integer.serialize_replay P sink type value
  | boolean format => exact format.serialize_replay P sink value
  | pair order first second ihFirst ihSecond =>
      cases order <;>
        simp [serialize, Pair.serialize, trace, Trace.replay_andThen, ihFirst, ihSecond]
  | array length element ih =>
      rw [serialize, Array.serialize, trace, Trace.replay_all]
      exact congrArg (fun element => List.forM _ element) (funext ih)
  | vector container length element ih =>
      rw [serialize, Vector.serialize_eq, trace, show element.serialize P sink = _ from funext ih,
        Vector.prefixed_replay]
  | optional condition format ih =>
      rw [serialize, Optional.serialize, trace, Trace.replay_andThen]
      cases value with
      | none =>
          simp [Optional.serializeIndirect, condition.serialize_replay, Trace.replay_empty]
      | some value =>
          simp [Optional.serializeIndirect, condition.serialize_replay, ih]
  | uniquePtr pointee ih =>
      cases value with
      | none => exact (Trace.replay_fail _ _).symm
      | some value => exact ih value
  | substitute type constant =>
      rw [serialize, Substitute.serialize, trace]
      by_cases same : value = constant
      · simp [same, Trace.replay_empty]
      · simp [same, Trace.replay_fail]
  | done => exact (Trace.replay_empty _).symm
  | field format rest ihFormat ihRest =>
      rw [serialize, Structure.serialize, trace, Trace.replay_andThen, ihFormat, ihRest]

end Format

end Szn
