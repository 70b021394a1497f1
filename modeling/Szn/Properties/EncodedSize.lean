import Szn.Properties.CountingSink
import Szn.Properties.Sizes
import Szn.Spec.RoundTrip

set_option autoImplicit false

namespace Szn

open Stateful Parsing Tracing

variable (P : Platform)

def Format.size : (F : Format) → F.Value → Nat
  | integer format _, _ => format.byteSize
  | boolean _, _ => 1
  | pair _ first second, value => first.size value.1 + second.size value.2
  | array _ element, value => (value.toList.map element.size).sum
  | vector _ length element, value => length.byteSize + (value.map element.size).sum
  | optional _ format, value => 1 + value.elim 0 format.size
  | uniquePtr pointee, value => value.elim 0 pointee.size
  | substitute _ _, _ | done, _ => 0
  | field format rest, value => format.size value.1 + rest.size value.2

theorem Trace.all_size {α : Type} {emitted : α → Trace Byte Failure} {size : α → Nat}
    (each : ∀ value text, (emitted value).Emits text → text.length = size value)
    (values : List α) (text : List Byte) (emits : (Trace.all emitted values).Emits text) :
    text.length = (values.map size).sum := by
  induction values generalizing text with
  | nil => rw [emits.unique Trace.Emits.empty, List.map_nil, List.sum_nil, List.length_nil]
  | cons value rest ih =>
      obtain ⟨head, tail, begins, ends, rfl⟩ := (Trace.emits_andThen _ _ _).mp emits
      rw [List.length_append, each value head begins, ih tail ends, List.map_cons, List.sum_cons]

theorem Format.emits_size (F : Format) (value : F.Value) (text : List Byte)
    (emits : (F.trace P value).Emits text) : text.length = F.size value := by
  induction F generalizing text with
  | integer format type => exact Integer.emits_length _ _ _ _ emits
  | boolean format => exact format.emits_length _ _ emits
  | pair order first second ihFirst ihSecond =>
      cases order with
      | firstSecond =>
          obtain ⟨head, tail, begins, ends, rfl⟩ := (Trace.emits_andThen _ _ _).mp emits
          rw [List.length_append, ihFirst _ _ begins, ihSecond _ _ ends, size]
      | secondFirst =>
          obtain ⟨head, tail, begins, ends, rfl⟩ := (Trace.emits_andThen _ _ _).mp emits
          rw [List.length_append, ihSecond _ _ begins, ihFirst _ _ ends, size, Nat.add_comm]
  | array length element ih => exact Trace.all_size ih value.toList text emits
  | vector target length element ih =>
      obtain ⟨head, tail, begins, ends, rfl⟩ := (Trace.emits_andThen _ _ _).mp emits
      rw [List.length_append, Integer.emits_length _ _ _ _ begins, Trace.all_size ih _ _ ends, size]
  | optional condition format ih =>
      obtain ⟨head, tail, begins, ends, rfl⟩ := (Trace.emits_andThen _ _ _).mp emits
      rw [List.length_append, condition.emits_length _ _ begins, size]
      cases value with
      | none => rw [ends.unique Trace.Emits.empty, List.length_nil, Option.elim_none]
      | some part => rw [ih part tail ends, Option.elim_some]
  | uniquePtr pointee ih =>
      cases value with
      | none => exact absurd emits (Trace.emits_fail _ _)
      | some part => exact ih part text emits
  | substitute type constant =>
      rw [trace] at emits
      split at emits
      · rw [emits.unique Trace.Emits.empty, size, List.length_nil]
      · exact absurd emits (Trace.emits_fail _ _)
  | done => rw [emits.unique Trace.Emits.empty, size, List.length_nil]
  | field format rest ihFormat ihRest =>
      obtain ⟨head, tail, begins, ends, rfl⟩ := (Trace.emits_andThen _ _ _).mp emits
      rw [List.length_append, ihFormat _ _ begins, ihRest _ _ ends, size]

theorem Format.serialize_size (F : Format) (value : F.Value) (before after : List Byte)
    (done : F.serialize P insertionSink value before = .ok () after) :
    after.length = before.length + F.size value := by
  rw [serialize_replay] at done
  obtain ⟨text, emits, rfl⟩ := (Trace.replay_append_ok _ _ _).mp done
  rw [List.length_append, F.emits_size P value text emits]

theorem Writer.values_size (items : List Item) (before : List Byte)
    (succeeds : ∀ result ∈ (tryEach (value P insertionSink) items before).1, result = .ok ()) :
    (tryEach (value P insertionSink) items before).2.length =
      before.length + (items.map fun item => item.1.size item.2).sum := by
  induction items generalizing before with
  | nil => rfl
  | cons item rest ih =>
      simp only [tryEach, List.forall_mem_cons, List.map_cons, List.sum_cons] at succeeds ⊢
      obtain ⟨first, others⟩ := succeeds
      cases done : value P insertionSink item before with
      | ok _ after =>
          rw [done] at others
          have here := item.1.serialize_size P item.2 before after done
          rw [finalState, ih after others, here, Nat.add_assoc]
      | error failure after =>
          rw [done] at first
          cases first

theorem Integer.parse_takes (format : Integer) (type : ValueType) :
    Takes (format.parse type) fun _ => format.byteSize := by
  refine Takes.map _ (Takes.repeatN (Takes.item insufficientInput) format.byteSize) ?_
  intro bytes
  simp

theorem Boolean.parse_takes (format : Boolean) : Takes format.parse fun _ => 1 := by
  induction format with
  | boolean => exact Takes.map _ (be8.parse_takes ByteBool.valueType) fun _ => rfl
  | booleanNot underlying ih => exact Takes.map _ ih fun _ => rfl

theorem Container.elements_takes {α : Type} (P : Platform) {size : α → Nat}
    {p : Parser Byte Failure α} (takes : Takes p size) (target : Container) (count : Nat) :
    Takes (target.elements P p count) fun values => (values.map size).sum := by
  intro input values rest parsed
  obtain ⟨-, elements, read, rfl⟩ := (target.elements_ok P p count _ _ _).mp parsed
  exact takes.repeatN count _ _ _ read

theorem Format.parse_size (F : Format) : Takes (F.parse P) F.size := by
  induction F with
  | integer format type => exact format.parse_takes type
  | boolean format => exact format.parse_takes
  | pair order first second ihFirst ihSecond =>
      cases order with
      | firstSecond => exact ihFirst.inSequence ihSecond _ fun _ _ => rfl
      | secondFirst =>
          exact ihSecond.inSequence ihFirst (fun second first => (first, second))
            fun _ _ => Nat.add_comm _ _
  | array length element ih =>
      rw [parse_array]
      exact ih.repeatN length
  | vector target length element ih =>
      exact (length.parse_takes (sizeType P)).after fun size =>
        target.elements_takes P ih size.toNat
  | optional condition value ih =>
      rw [parse_optional]
      refine condition.parse_takes.after fun isSet => ?_
      cases isSet with
      | true => exact ih.map some fun _ => rfl
      | false => exact Takes.pure none rfl
  | uniquePtr pointee ih => exact ih.map some fun _ => rfl
  | substitute type constant => exact Takes.pure constant rfl
  | done => exact Takes.pure () rfl
  | field format rest ihFormat ihRest => exact ihFormat.inSequence ihRest _ fun _ _ => rfl

theorem counting_projects (chunk : List Byte) :
    Projects (fun bytes : List Byte => BitVec.ofNat 64 bytes.length) (insertionSink.write chunk)
      (countingSink.write chunk) := by
  intro before
  change EStateM.Result.ok () (BitVec.ofNat 64 (before ++ chunk).length) = _
  rw [List.length_append, BitVec.ofNat_add]
  rfl

theorem encoded_size :
    (∀ items : List Item,
      let container := tryEach (Writer.value P insertionSink) items []
      tryEach (Writer.value P countingSink) items 0 =
          (container.1, BitVec.ofNat 64 container.2.length) ∧
        ((∀ result ∈ container.1, result = .ok ()) →
          container.2.length = (items.map fun item => item.1.size item.2).sum)) ∧
    ∀ (F : Format) {σ : Type} (source : Source σ) (D : Delivery σ Byte) (state after : σ)
      (target final : F.Value), source.Delivers D → D.ready state → F.Blank target →
      F.deserialize P source (state, target) = .ok () (after, final) →
        (D.unread state).length = F.size final + (D.unread after).length := by
  constructor
  · intro items container
    refine ⟨Writer.values_project P insertionSink items [] countingSink _ counting_projects, ?_⟩
    intro succeeds
    rw [Writer.values_size P items [] succeeds, List.length_nil, Nat.zero_add]
  · intro F σ source D state after target final delivers ready blank done
    have parsed := (F.deserialize_implements P delivers).parsed ready done
    rw [F.decode_blank P target blank] at parsed
    exact F.parse_size P _ _ _ parsed

theorem encoded_size_pair :
    let format : Format := .optional .boolean (.integer ⟨be16, by decide⟩ (.unsigned 16))
    (rangeDelivery.unread (makeRangeSource [1, 2, 3, 4])).length =
      format.size (some (0x0203 : BitVec 16)) +
        (rangeDelivery.unread ⟨[1, 2, 3, 4], 3⟩).length :=
  (encoded_size amd64).2 (.optional .boolean (.integer ⟨be16, by decide⟩ (.unsigned 16)))
    (rangeSource amd64) rangeDelivery (makeRangeSource [1, 2, 3, 4]) ⟨[1, 2, 3, 4], 3⟩ none
    (some (0x0203 : BitVec 16)) (range_delivers amd64) (Nat.zero_le _) rfl (by decide +kernel)

end Szn
