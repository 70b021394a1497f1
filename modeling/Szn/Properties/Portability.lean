import Szn.Spec.RoundTrip

set_option autoImplicit false

namespace Szn

open Stateful Parsing Tracing Octets

variable (P Q : Platform)

namespace Format

def Counted (bits : Nat) : (F : Format) → F.Value → Prop
  | pair _ first second, value => first.Counted bits value.1 ∧ second.Counted bits value.2
  | array _ element, value => ∀ part ∈ value.toList, element.Counted bits part
  | vector _ _ element, value =>
      value.length < 2 ^ bits ∧ ∀ part ∈ value, element.Counted bits part
  | optional _ format, value => ∀ part ∈ value, format.Counted bits part
  | uniquePtr pointee, value => ∀ part ∈ value, pointee.Counted bits part
  | field format rest, value => format.Counted bits value.1 ∧ rest.Counted bits value.2
  | integer _ _, _ | boolean _, _ | substitute _ _, _ | done, _ => True

def Narrow (bits : Nat) : Format → Prop
  | pair _ first second => first.Narrow bits ∧ second.Narrow bits
  | array _ element => element.Narrow bits
  | vector _ length element => 8 * length.byteSize ≤ bits ∧ element.Narrow bits
  | optional _ format => format.Narrow bits
  | uniquePtr pointee => pointee.Narrow bits
  | field format rest => format.Narrow bits ∧ rest.Narrow bits
  | integer _ _ | boolean _ | substitute _ _ | done => True

end Format

theorem Integer.trace_size (length : Integer) (size : Nat) (onP : size < 2 ^ P.sizeBits)
    (onQ : size < 2 ^ Q.sizeBits) :
    length.trace (sizeType P) (BitVec.ofNat P.sizeBits size) =
      length.trace (sizeType Q) (BitVec.ofNat Q.sizeBits size) := by
  have same : (sizeType P).toUnsigned length.defaultBits (BitVec.ofNat P.sizeBits size) =
      (sizeType Q).toUnsigned length.defaultBits (BitVec.ofNat Q.sizeBits size) := by
    apply BitVec.eq_of_toNat_eq
    simp [ValueType.toUnsigned, ValueType.isSigned, Nat.mod_eq_of_lt onP, Nat.mod_eq_of_lt onQ]
  simp only [Integer.trace, Integer.encode, same]

theorem Format.trace_portable (F : Format) (value : F.Value)
    (onP : F.Counted P.sizeBits value) (onQ : F.Counted Q.sizeBits value) :
    F.trace P value = F.trace Q value := by
  induction F with
  | integer format type => rfl
  | boolean format => rfl
  | pair order first second ihFirst ihSecond =>
      have begins := ihFirst value.1 onP.1 onQ.1
      have ends := ihSecond value.2 onP.2 onQ.2
      cases order <;> simp only [trace, begins, ends]
  | array length element ih =>
      exact Trace.all_congr fun part member => ih part (onP part member) (onQ part member)
  | vector target length element ih =>
      rw [trace, trace, Integer.trace_size P Q _ value.length onP.1 onQ.1]
      exact congrArg _ (Trace.all_congr fun part member =>
        ih part (onP.2 part member) (onQ.2 part member))
  | optional condition format ih =>
      cases value with
      | none => rfl
      | some part => exact congrArg _ (ih part (onP part rfl) (onQ part rfl))
  | uniquePtr pointee ih =>
      cases value with
      | none => rfl
      | some part => exact ih part (onP part rfl) (onQ part rfl)
  | substitute type constant => rfl
  | done => rfl
  | field format rest ihFormat ihRest =>
      rw [trace, trace, ihFormat value.1 onP.1 onQ.1, ihRest value.2 onP.2 onQ.2]

theorem serialize_portable (F : Format) (value : F.Value)
    (onP : F.Counted P.sizeBits value) (onQ : F.Counted Q.sizeBits value) :
    (∀ {σ : Type} (sink : Sink σ), F.serialize P sink value = F.serialize Q sink value) ∧
    (F.Fits Q value → ∃ text, F.serialize P insertionSink value [] = .ok () text ∧
      ∀ {σ : Type} (source : Source σ) (D : Delivery σ Byte) (state : σ) (target : F.Value)
        (rest : List Byte), source.Delivers D → D.ready state →
        D.unread state = text ++ rest → F.Blank target →
        ∃ after, F.deserialize Q source (state, target) = .ok () (after, value) ∧
          D.ready after ∧ D.unread after = rest) := by
  have writes {σ : Type} (sink : Sink σ) :
      F.serialize P sink value = F.serialize Q sink value := by
    rw [F.serialize_replay, F.serialize_replay, F.trace_portable P Q value onP onQ]
  refine ⟨writes, fun fits => ?_⟩
  obtain ⟨text, emits, reads⟩ := F.fits_codes Q value fits
  have written : F.serialize P insertionSink value [] = .ok () text :=
    (congrFun (writes insertionSink) []).trans (F.serialize_emits Q value [] text emits)
  refine ⟨text, written, ?_⟩
  intro σ source D state target rest delivers ready unread blank
  exact F.deserialize_reads Q delivers target value state text rest ready unread blank reads

def bigIlp32 : Platform := ⟨⟨32, .bigEndian, 2 ^ 31 - 1⟩, false⟩

theorem serialize_portable_names :
    let number : Format := .integer ⟨be32, by decide⟩ (.signed 32)
    let format : Format := .vector .list ⟨be16, by decide⟩ number
    ∃ text, format.serialize bigIlp32 insertionSink [(-2 : BitVec 32), (5 : BitVec 32)] [] =
        .ok () text ∧
      ∃ after, format.deserialize amd64 (rangeSource amd64) (makeRangeSource text, []) =
        .ok () (after, [(-2 : BitVec 32), (5 : BitVec 32)]) := by
  intro number format
  obtain ⟨text, written, read⟩ := (serialize_portable bigIlp32 amd64 format
    [(-2 : BitVec 32), (5 : BitVec 32)] ⟨by decide, fun _ _ => trivial⟩
    ⟨by decide, fun _ _ => trivial⟩).2 (by decide)
  obtain ⟨after, done, -⟩ := read (rangeSource amd64) rangeDelivery (makeRangeSource text) [] []
    (range_delivers amd64) (Nat.zero_le _) (List.append_nil text).symm trivial
  exact ⟨text, written, after, done⟩

theorem IntegerFormat.parse_size {α : Type} (length : IntegerFormat)
    (narrow : 8 * length.byteSize ≤ P.sizeBits) (next : Nat → Parser Byte Failure α) :
    (length.parse (sizeType P) >>= fun size => next size.toNat) =
      length.parseWord >>= fun word => next word.toNat := by
  have held (word : BitVec length.defaultBits) :
      ((sizeType P).ofUnsigned word).toNat = word.toNat := by
    have below : word.toNat < 2 ^ P.sizeBits :=
      lt_of_lt_of_le word.isLt
        (Nat.pow_le_pow_right (by decide) (length.defaultBits_eq.trans_le narrow))
    exact (BitVec.toNat_setWidth _ _).trans (Nat.mod_eq_of_lt below)
  simp only [Integer.parse_word, map_eq_pure_bind, bind_assoc, pure_bind, held]

theorem Container.elements_alike {α : Type} (target : Container) (p : Parser Byte Failure α)
    (size : Nat) (alike : target.Reserves P size ↔ target.Reserves Q size) :
    target.elements P p size = target.elements Q p size := by
  by_cases room : target.Reserves P size
  · rw [target.elements_reserves P p size room, target.elements_reserves Q p size (alike.mp room)]
  · have full := fun there => room (alike.mpr there)
    cases target with
    | vector maxSize =>
        simp only [elements, reserving, if_pos (Nat.not_le.mp room), if_pos (Nat.not_le.mp full)]
    | list | deque | string => exact absurd trivial room

namespace Format

-- The containers have room for the same lengths on both platforms.
def RoomAlike : Format → Prop
  | pair _ first second => first.RoomAlike ∧ second.RoomAlike
  | array _ element => element.RoomAlike
  | vector target length element =>
      (∀ size < 2 ^ (8 * length.byteSize), (target.Reserves P size ↔ target.Reserves Q size)) ∧
        element.RoomAlike
  | optional _ format => format.RoomAlike
  | uniquePtr pointee => pointee.RoomAlike
  | field format rest => format.RoomAlike ∧ rest.RoomAlike
  | integer _ _ | boolean _ | substitute _ _ | done => True

theorem parse_portable (F : Format) (onP : F.Narrow P.sizeBits) (onQ : F.Narrow Q.sizeBits)
    (room : F.RoomAlike P Q) : F.parse P = F.parse Q := by
  induction F with
  | integer format type => rfl
  | boolean format => rfl
  | pair order first second ihFirst ihSecond =>
      have begins : first.decode P first.fresh = first.decode Q first.fresh :=
        ihFirst onP.1 onQ.1 room.1
      have ends : second.decode P second.fresh = second.decode Q second.fresh :=
        ihSecond onP.2 onQ.2 room.2
      cases order <;> simp only [parse, decode, fresh, begins, ends]
  | array length element ih => rw [parse_array, parse_array, ih onP onQ room]
  | vector target length element ih =>
      have each : element.decode P element.fresh = element.decode Q element.fresh :=
        ih onP.2 onQ.2 room.2
      have here := length.parse_size P onP.1
        (target.elements P (element.decode Q element.fresh))
      have there := length.parse_size Q onQ.1
        (target.elements Q (element.decode Q element.fresh))
      simp only [parse, decode, each]
      refine here.trans (Eq.trans ?_ there.symm)
      apply bind_congr
      intro word
      apply target.elements_alike P Q
      exact room.1 word.toNat (word.isLt.trans_eq (by rw [length.defaultBits_eq]))
  | optional condition value ih => rw [parse_optional, parse_optional, ih onP onQ room]
  | uniquePtr pointee ih => exact congrArg _ (ih onP onQ room)
  | substitute type constant => rfl
  | done => rfl
  | field format rest ihFormat ihRest =>
      have begins : format.decode P format.fresh = format.decode Q format.fresh :=
        ihFormat onP.1 onQ.1 room.1
      have ends : rest.decode P rest.fresh = rest.decode Q rest.fresh :=
        ihRest onP.2 onQ.2 room.2
      simp only [parse, decode, fresh, begins, ends]

end Format

-- Every input ends alike: in the same object and the same unread bytes, or in the same failure.
theorem deserialize_portable (F : Format) (onP : F.Narrow P.sizeBits)
    (onQ : F.Narrow Q.sizeBits) (room : F.RoomAlike P Q) {σ : Type} (source : Source σ)
    (D : Delivery σ Byte) (delivers : source.Delivers D) (state : σ) (ready : D.ready state)
    (target : F.Value) (blank : F.Blank target) :
    ending D (F.deserialize P source (state, target)) =
      ending D (F.deserialize Q source (state, target)) := by
  rw [(F.deserialize_implements P delivers).ending_eq target ready,
    (F.deserialize_implements Q delivers).ending_eq target ready, F.decode_blank P target blank,
    F.decode_blank Q target blank, F.parse_portable P Q onP onQ room]

theorem deserialize_portable_truncated :
    let octet : Format := .integer ⟨be8, by decide⟩ (.unsigned 8)
    let format : Format := .vector (.vector Abi.bufferMax) ⟨be16, by decide⟩ octet
    let text : List Byte := [0, 2, 7]
    ending rangeDelivery (format.deserialize bigIlp32 (rangeSource amd64)
        (makeRangeSource text, [])) =
      ending rangeDelivery (format.deserialize amd64 (rangeSource amd64)
        (makeRangeSource text, [])) := by
  have room : ∀ size < 2 ^ (8 * be16.byteSize),
      ((Container.vector Abi.bufferMax).Reserves bigIlp32 size ↔
        (Container.vector Abi.bufferMax).Reserves amd64 size) := by
    intro size small
    have small : size < 65536 := small
    change size ≤ 2 ^ 31 - 1 ↔ size ≤ 2 ^ 63 - 1
    omega
  exact deserialize_portable bigIlp32 amd64
    (.vector (.vector Abi.bufferMax) ⟨be16, by decide⟩
      (.integer ⟨be8, by decide⟩ (.unsigned 8)))
    ⟨by decide, trivial⟩ ⟨by decide, trivial⟩ ⟨room, trivial⟩ (rangeSource amd64) rangeDelivery
    (range_delivers amd64) (makeRangeSource [0, 2, 7]) (Nat.zero_le _) [] trivial

end Szn
