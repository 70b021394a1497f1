import Szn.Model.Bytes
import Szn.Properties.DeclaredLength

set_option autoImplicit false

namespace Szn

open Stateful Parsing Tracing

namespace Bytes

variable {σ : Type} {source : Source σ} {D : Delivery σ Byte} (charSigned : Bool)

def traceChar (c : Byte) : Trace Byte Failure :=
  match charSigned with
  | true => be8.trace (.signed 8) c
  | false => be8.trace (.unsigned 8) c

def parseChar : Parser Byte Failure Byte :=
  match charSigned with
  | true => be8.parse (.signed 8)
  | false => be8.parse (.unsigned 8)

theorem serializeChar_replay (P : Platform) (sink : Sink σ) (c : Byte) :
    serializeChar P charSigned sink c = (traceChar charSigned c).replay sink.write := by
  unfold serializeChar traceChar
  cases charSigned with
  | true => exact Integer.serialize_replay P sink (.signed 8) c
  | false => exact Integer.serialize_replay P sink (.unsigned 8) c

theorem deserializeChar_implements (delivers : source.Delivers D) :
    Deserializes D (deserializeChar charSigned source) fun _ => parseChar charSigned := by
  cases charSigned with
  | true => exact be8.deserialize_implements delivers (.signed 8)
  | false => exact be8.deserialize_implements delivers (.unsigned 8)

theorem encode_octet (type : ValueType) (value : BitVec type.bits) (c : Byte)
    (cast : type.toUnsigned 8 value = c) : be8.encode type value = [c] := by
  change Octets.split be8.placement (type.toUnsigned 8 value) = [c]
  rw [cast]
  change [(c >>> 0).setWidth 8] = [c]
  rw [BitVec.ushiftRight_zero, BitVec.setWidth_eq]

theorem signed_encode (c : Byte) : be8.encode (.signed 8) c = [c] :=
  encode_octet (.signed 8) c c (BitVec.signExtend_eq c)

theorem unsigned_encode (c : Byte) : be8.encode (.unsigned 8) c = [c] :=
  encode_octet (.unsigned 8) c c (BitVec.setWidth_eq c)

theorem traceChar_emits (c : Byte) : (traceChar charSigned c).Emits [c] := by
  cases charSigned with
  | true =>
      have emits := be8.trace_emits (.signed 8) c
      rwa [signed_encode] at emits
  | false =>
      have emits := be8.trace_emits (.unsigned 8) c
      rwa [unsigned_encode] at emits

theorem parseChar_reads (c : Byte) : Reads (parseChar charSigned) [c] c := by
  cases charSigned with
  | true =>
      have reads := Integer.encode_reads be8 rfl (by decide) (.signed 8) c
        ⟨BitVec.le_toInt c, BitVec.toInt_lt⟩
      rwa [signed_encode] at reads
  | false =>
      have reads := Integer.encode_reads be8 rfl (by decide) (.unsigned 8) c c.isLt
      rwa [unsigned_encode] at reads

theorem chars_written (P : Platform) (length : Integer) (arr before : List Byte) :
    Vector.prefixed P insertionSink length (serializeChar P charSigned insertionSink) arr before =
      .ok ()
        (before ++ length.encode (sizeType P) (BitVec.ofNat P.sizeBits arr.length) ++ arr) := by
  have written := Vector.prefixed_written P length (traceChar charSigned) (fun c => [c]) arr
    (fun c _ => traceChar_emits charSigned c) before
  rw [List.flatMap_singleton'] at written
  rwa [show serializeChar P charSigned insertionSink = _ from
    funext (serializeChar_replay charSigned P insertionSink)]

theorem deserializeString_reads (P : Platform) (length : Integer) (small : length.byteSize ≤ 8)
    (delivers : source.Delivers D) (state : σ) (ready : D.ready state) (old arr : List Byte)
    (k : Nat) (inside : k < 2 ^ (8 * length.byteSize)) (held : k < 2 ^ P.sizeBits)
    (short : k ≤ arr.length)
    (unread : D.unread state = length.order.digits length.byteSize k ++ arr) :
    ∃ after, deserializeString P length charSigned source (state, old) =
        .ok () (after, arr.take k) ∧ D.ready after ∧ D.unread after = arr.drop k := by
  have deserializes := Vector.deserialize_elements P delivers length
    (deserializeChar_implements charSigned delivers) 0 .string
  apply deserializes.ok ready
  have count : (BitVec.ofNat P.sizeBits k).toNat = k := Nat.mod_eq_of_lt held
  rw [unread, run_bind_of_ok _ _ _ _ _ (length.parse_digits small k inside P.sizeBits arr), count,
    Container.elements_reserves P .string _ _ trivial, run_map_ok]
  have taken : (arr.take k).length = k := List.length_take_of_le short
  have reads := Reads.repeatN (fun c => [c]) (⟨arr.take k, taken⟩ : List.Vector Byte k)
    (fun c _ => parseChar_reads charSigned c) (arr.drop k)
  have whole : (arr.take k).flatMap (fun c => [c]) ++ arr.drop k = arr := by
    rw [List.flatMap_singleton', List.take_append_drop]
  exact ⟨_, whole ▸ reads, rfl⟩

theorem string_literal (s : List Byte) (plain : 0 ∉ s) : string (literal s) = s := by
  rw [string, literal, List.takeWhile_append_of_pos]
  · simp
  · intro c member
    exact decide_eq_true fun zero => plain (zero ▸ member)

end Bytes

theorem literal_not_written_as_string (P : Platform) (length : Integer)
    (small : length.byteSize ≤ 8) (charSigned : Bool) (s : List Byte) (plain : 0 ∉ s)
    (counted : s.length < 2 ^ (8 * length.byteSize)) (held : s.length + 1 < 2 ^ P.sizeBits) :
    ∃ written expected,
      Bytes.serializeLiteral P length charSigned insertionSink (Bytes.literal s) [] =
          .ok () written ∧
        Bytes.serializeString P length charSigned insertionSink
            (Bytes.string (Bytes.literal s)) [] = .ok () expected ∧
        expected = length.order.digits length.byteSize s.length ++ s ∧
        written = length.order.digits length.byteSize
          ((s.length + 1) % 2 ^ (8 * length.byteSize)) ++ Bytes.literal s ∧
        written ≠ expected ∧
        ∀ {σ : Type} (source : Source σ) (D : Delivery σ Byte) (state : σ) (old : List Byte),
          source.Delivers D → D.ready state → D.unread state = written →
          ∃ after value, Bytes.deserializeString P length charSigned source (state, old) =
              .ok () (after, value) ∧
            value = (Bytes.literal s).take ((s.length + 1) % 2 ^ (8 * length.byteSize)) ∧
              (0 < length.byteSize → value ≠ s) := by
  have terminated : (Bytes.literal s).length = s.length + 1 := by simp [Bytes.literal]
  have written := Bytes.chars_written charSigned P length (Bytes.literal s) []
  have expected := Bytes.chars_written charSigned P length s []
  rw [List.nil_append, terminated, length.encode_wrapped small _ _ held] at written
  rw [List.nil_append, length.encode_digits small _ _ counted (by omega)] at expected
  refine ⟨_, _, written, ?_, rfl, rfl, ?_, ?_⟩
  · rw [Bytes.string_literal s plain, Bytes.serializeString, Vector.serialize_eq]
    exact expected
  · intro same
    have lengths := congrArg List.length same
    simp [terminated] at lengths
  · intro σ source D state old delivers ready unread
    obtain ⟨after, done, -⟩ := Bytes.deserializeString_reads charSigned P length small delivers
      state ready old (Bytes.literal s) _ (Nat.mod_lt _ (Nat.two_pow_pos _))
      (lt_of_le_of_lt (Nat.mod_le _ _) held) (terminated ▸ Nat.mod_le _ _) unread
    refine ⟨after, _, done, rfl, ?_⟩
    intro positive same
    have lengths := congrArg List.length same
    rw [List.length_take_of_le (terminated ▸ Nat.mod_le _ _)] at lengths
    -- Only a count that wraps to zero could agree, and then the string is not empty.
    rcases Nat.lt_or_ge (s.length + 1) (2 ^ (8 * length.byteSize)) with fits | wraps
    · rw [Nat.mod_eq_of_lt fits] at lengths
      omega
    · have whole : s.length + 1 = 2 ^ (8 * length.byteSize) := by omega
      have wide : 2 ^ 1 ≤ 2 ^ (8 * length.byteSize) :=
        Nat.pow_le_pow_right (by decide) (by omega)
      rw [whole, Nat.mod_self] at lengths
      omega

theorem literal_not_written_as_string_abc :
    ∃ written, Bytes.serializeLiteral amd64 be8 true insertionSink (Bytes.literal [97, 98, 99]) [] =
        .ok () written ∧
      ∃ after value, Bytes.deserializeString amd64 be8 true (rangeSource amd64)
          (makeRangeSource written, []) = .ok () (after, value) ∧ value ≠ [97, 98, 99] := by
  obtain ⟨written, expected, done, -, -, -, -, read⟩ := literal_not_written_as_string amd64 be8
    (by decide) true [97, 98, 99] (by decide) (by decide) (by decide)
  obtain ⟨after, value, returns, -, differs⟩ := read (rangeSource amd64) rangeDelivery
    (makeRangeSource written) [] (range_delivers amd64) (Nat.zero_le _) rfl
  exact ⟨written, done, after, value, returns, differs (by decide)⟩

-- "Hello, world!"
def hello : List Byte := [72, 101, 108, 108, 111, 44, 32, 119, 111, 114, 108, 100, 33]

theorem hello_keeps_terminator :
    Bytes.serializeString amd64 be16 true insertionSink (Bytes.string (Bytes.literal hello)) [] =
        .ok () ([0, 13] ++ hello) ∧
      Bytes.serializeLiteral amd64 be16 true insertionSink (Bytes.literal hello) [] =
        .ok () ([0, 14] ++ hello ++ [0]) ∧
      Bytes.deserializeString amd64 be16 true (rangeSource amd64)
          (makeRangeSource ([0, 14] ++ hello ++ [0]), []) =
        .ok () (⟨[0, 14] ++ hello ++ [0], 16⟩, hello ++ [0]) := by
  refine ⟨by decide +kernel, by decide +kernel, by decide +kernel⟩

end Szn
