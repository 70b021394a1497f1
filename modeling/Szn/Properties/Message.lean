import Szn.Model.Message
import Szn.Properties.StringLiteral

set_option autoImplicit false

namespace Szn

open Stateful Parsing

variable {σ τ : Type} (P : Platform) (charSigned : Bool)

namespace Part

def layout : Part → List Byte
  | be8 v => ByteOrder.bigEndian.digits 1 v.toNat
  | be16 v => ByteOrder.bigEndian.digits 2 v.toNat
  | be32 v => ByteOrder.bigEndian.digits 4 v.toNat
  | be64 v => ByteOrder.bigEndian.digits 8 v.toNat
  | le8 v => ByteOrder.littleEndian.digits 1 v.toNat
  | le16 v => ByteOrder.littleEndian.digits 2 v.toNat
  | le32 v => ByteOrder.littleEndian.digits 4 v.toNat
  | le64 v => ByteOrder.littleEndian.digits 8 v.toNat
  | boolean8 v => [if v then 1 else 0]
  | raw data => data
  | bytes length _ data => length.order.digits length.byteSize data.length ++ data

/-- A length is held by its prefix and by std::size_t, and a raw read asks for some bytes. -/
def Fits : Part → Prop
  | bytes length _ data => data.length < 2 ^ (8 * length.byteSize) ∧ data.length < 2 ^ P.sizeBits
  | raw data => data ≠ []
  | _ => True

instance decidableFits : (part : Part) → Decidable (part.Fits P)
  | bytes _ _ _ => inferInstanceAs (Decidable (_ ∧ _))
  | raw _ => inferInstanceAs (Decidable (_ ≠ _))
  | be8 _ | be16 _ | be32 _ | be64 _ | le8 _ | le16 _ | le32 _ | le64 _ | boolean8 _ =>
      .isTrue trivial

/-- The variable that is passed to the call that reads a part, and the part. -/
inductive Receives : Part → Part → Prop where
  | be8 (old v : BitVec 8) : Receives (be8 old) (be8 v)
  | be16 (old v : BitVec 16) : Receives (be16 old) (be16 v)
  | be32 (old v : BitVec 32) : Receives (be32 old) (be32 v)
  | be64 (old v : BitVec 64) : Receives (be64 old) (be64 v)
  | le8 (old v : BitVec 8) : Receives (le8 old) (le8 v)
  | le16 (old v : BitVec 16) : Receives (le16 old) (le16 v)
  | le32 (old v : BitVec 32) : Receives (le32 old) (le32 v)
  | le64 (old v : BitVec 64) : Receives (le64 old) (le64 v)
  | boolean8 (old v : Bool) : Receives (boolean8 old) (boolean8 v)
  | raw (buffer data : List Byte) (room : buffer.length = data.length) :
      Receives (raw buffer) (raw data)
  | bytes (length : IntegerFormat) (arguments : BytesArguments) (old data : List Byte) :
      Receives (bytes length arguments old) (bytes length arguments data)

end Part

theorem unsigned_written (format : IntegerFormat) (v : BitVec (8 * format.byteSize))
    (before : List Byte) :
    Writer.value P insertionSink (unsignedItem format v) before =
      .ok () (before ++ format.order.digits format.byteSize v.toNat) := by
  have encoded := format.encode_digits format.byteSize_le v.toNat (8 * format.byteSize) v.isLt
    v.isLt
  have written := format.toInteger.serialize_encode P (.unsigned (8 * format.byteSize)) v before
  rw [BitVec.ofNat_toNat, BitVec.setWidth_eq] at encoded
  rw [encoded] at written
  exact written

theorem boolean_written (v : Bool) (before : List Byte) :
    Writer.boolean8 P insertionSink v before = .ok () (before ++ [ByteBool.fromBool v]) := by
  have written := be8.serialize_encode P ByteBool.valueType (ByteBool.fromBool v) before
  rw [Bytes.unsigned_encode] at written
  exact written

theorem bytes_written (length : IntegerFormat) (data before : List Byte)
    (inside : data.length < 2 ^ (8 * length.byteSize)) (held : data.length < 2 ^ P.sizeBits) :
    Writer.bytes P charSigned length insertionSink data before =
      .ok () (before ++ (length.order.digits length.byteSize data.length ++ data)) := by
  have encoded := length.encode_digits length.byteSize_le data.length P.sizeBits inside held
  have written := Bytes.chars_written charSigned P length.toInteger data before
  rw [encoded, List.append_assoc] at written
  unfold Writer.bytes Bytes.serializeString
  rw [Vector.serialize_eq]
  exact written

-- Both overloads of bytes write the same, whatever the iterator yields behind the count.
theorem bytesCount_eq {destination : Sink σ} (length : IntegerFormat) (data more : List Byte) :
    Writer.bytesCount P charSigned length destination (data ++ more) data.length =
      Writer.bytes P charSigned length destination data := by
  unfold Writer.bytesCount Writer.bytes Bytes.serializeString
  rw [Vector.serialize_eq, Vector.serializeCount, Vector.serializeFrom_append]
  rfl

theorem part_written (part : Part) (fits : part.Fits P) (before : List Byte) :
    Writer.part P charSigned insertionSink part before = .ok () (before ++ part.layout) := by
  cases part with
  | be8 v => exact unsigned_written P ⟨be8, by decide⟩ v before
  | be16 v => exact unsigned_written P ⟨be16, by decide⟩ v before
  | be32 v => exact unsigned_written P ⟨be32, by decide⟩ v before
  | be64 v => exact unsigned_written P ⟨be64, by decide⟩ v before
  | le8 v => exact unsigned_written P ⟨Integer.le8, by decide⟩ v before
  | le16 v => exact unsigned_written P ⟨Integer.le16, by decide⟩ v before
  | le32 v => exact unsigned_written P ⟨Integer.le32, by decide⟩ v before
  | le64 v => exact unsigned_written P ⟨Integer.le64, by decide⟩ v before
  | boolean8 v => exact boolean_written P v before
  | raw data => rfl
  | bytes length arguments data =>
      have written := bytes_written P charSigned length data before fits.1 fits.2
      cases arguments with
      | range => exact written
      | iteratorAndCount more =>
          rw [← bytesCount_eq P charSigned length data more] at written
          exact written

theorem message_written (parts : List Part) (fits : ∀ part ∈ parts, part.Fits P)
    (before : List Byte) :
    Writer.message P charSigned insertionSink parts before =
      .ok () (before ++ parts.flatMap Part.layout) := by
  induction parts generalizing before with
  | nil => simp [Writer.message]
  | cons part rest ih =>
      have each := List.forall_mem_cons.mp fits
      have first := part_written P charSigned part each.1 before
      have others := ih each.2 (before ++ part.layout)
      rw [List.flatMap_cons, ← List.append_assoc]
      exact (bind_of_ok _ _ _ _ _ first).trans others

section Read

variable {source : Source σ} {D : Delivery σ Byte} (delivers : source.Delivers D) (state : σ)
  (ready : D.ready state) (target : τ) (rest : List Byte)

include delivers ready

theorem unsigned_read (format : IntegerFormat) (old v : BitVec (8 * format.byteSize))
    (unread : D.unread state = format.order.digits format.byteSize v.toNat ++ rest) :
    ∃ after, withLocal old
        (Reader.value P source (.integer format (.unsigned (8 * format.byteSize))))
          (state, target) = .ok v (after, target) ∧ D.ready after ∧ D.unread after = rest := by
  have reads := format.parse_digits format.byteSize_le v.toNat v.isLt (8 * format.byteSize)
  rw [BitVec.ofNat_toNat, BitVec.setWidth_eq] at reads
  exact Deserializes.local_ok (format.toInteger.deserialize_implements delivers _) ready old
    target v rest (by rw [unread]; exact reads rest)

theorem boolean_read (old v : Bool) (unread : D.unread state = [ByteBool.fromBool v] ++ rest) :
    ∃ after, withLocal old (Reader.boolean8 P source) (state, target) =
        .ok v (after, target) ∧ D.ready after ∧ D.unread after = rest := by
  have reads := (Bytes.parseChar_reads false (ByteBool.fromBool v)).map ByteBool.toBool
  rw [ByteBool.toBool_fromBool] at reads
  exact Deserializes.local_ok (Boolean.boolean.deserialize_implements delivers) ready old target
    v rest (by rw [unread]; exact reads rest)

theorem raw_read (buffer data : List Byte) (some : data ≠ [])
    (room : buffer.length = data.length) (unread : D.unread state = data ++ rest) :
    ∃ after, withLocal buffer (Reader.raw source buffer.length) (state, target) =
        .ok data (after, target) ∧ D.ready after ∧ D.unread after = rest := by
  have positive : 0 < buffer.length := room ▸ List.length_pos_of_ne_nil some
  obtain ⟨after, done, ready', left⟩ := delivers.enough state buffer buffer.length ready positive
    (Nat.le_refl _) (by rw [unread, List.length_append]; omega)
  rw [unread, List.take_left' room.symm, List.drop_length, List.append_nil] at done
  rw [unread, List.drop_left' room.symm] at left
  exact ⟨after, by simp only [withLocal, Reader.raw, done], ready', left⟩

theorem bytes_read (length : IntegerFormat) (old data : List Byte)
    (inside : data.length < 2 ^ (8 * length.byteSize)) (held : data.length < 2 ^ P.sizeBits)
    (unread : D.unread state =
      length.order.digits length.byteSize data.length ++ data ++ rest) :
    ∃ after, withLocal old (Reader.bytes P charSigned length source) (state, target) =
        .ok data (after, target) ∧ D.ready after ∧ D.unread after = rest := by
  rw [List.append_assoc] at unread
  obtain ⟨after, done, ready', left⟩ := Bytes.deserializeString_reads charSigned P
    length.toInteger length.byteSize_le delivers state ready old (data ++ rest) data.length inside
      held (by simp) unread
  rw [List.take_left' rfl] at done
  rw [List.drop_left' rfl] at left
  exact ⟨after, by simp only [withLocal, Reader.bytes, done], ready', left⟩

theorem part_read (old part : Part) (receives : old.Receives part)
    (fits : part.Fits P) (unread : D.unread state = part.layout ++ rest) :
    ∃ after, Reader.part P charSigned source old (state, target) =
        .ok part (after, target) ∧ D.ready after ∧ D.unread after = rest := by
  have wrapped {α : Type} (wrap : α → Part) (step : EStateM Failure (σ × τ) α) (v : α)
      (read : ∃ after, step (state, target) = .ok v (after, target) ∧ D.ready after ∧
        D.unread after = rest) :
      ∃ after, (wrap <$> step) (state, target) = .ok (wrap v) (after, target) ∧ D.ready after ∧
        D.unread after = rest := by
    obtain ⟨after, done, kept⟩ := read
    exact ⟨after, map_of_ok _ _ _ _ _ done, kept⟩
  cases receives with
  | be8 old v =>
      exact wrapped _ _ v
        (unsigned_read P delivers state ready target rest ⟨be8, by decide⟩ old v unread)
  | be16 old v =>
      exact wrapped _ _ v
        (unsigned_read P delivers state ready target rest ⟨be16, by decide⟩ old v unread)
  | be32 old v =>
      exact wrapped _ _ v
        (unsigned_read P delivers state ready target rest ⟨be32, by decide⟩ old v unread)
  | be64 old v =>
      exact wrapped _ _ v
        (unsigned_read P delivers state ready target rest ⟨be64, by decide⟩ old v unread)
  | le8 old v =>
      exact wrapped _ _ v
        (unsigned_read P delivers state ready target rest ⟨Integer.le8, by decide⟩ old v unread)
  | le16 old v =>
      exact wrapped _ _ v
        (unsigned_read P delivers state ready target rest ⟨Integer.le16, by decide⟩ old v unread)
  | le32 old v =>
      exact wrapped _ _ v
        (unsigned_read P delivers state ready target rest ⟨Integer.le32, by decide⟩ old v unread)
  | le64 old v =>
      exact wrapped _ _ v
        (unsigned_read P delivers state ready target rest ⟨Integer.le64, by decide⟩ old v unread)
  | boolean8 old v =>
      exact wrapped _ _ v (boolean_read P delivers state ready target rest old v unread)
  | raw buffer data room =>
      exact wrapped _ _ data
        (raw_read delivers state ready target rest buffer data fits room unread)
  | bytes length arguments old data =>
      exact wrapped _ _ data (bytes_read P charSigned delivers state ready target rest length old
        data fits.1 fits.2 unread)

theorem message_read (filled parts : List Part)
    (receives : List.Forall₂ Part.Receives filled parts)
    (fits : ∀ part ∈ parts, part.Fits P)
    (unread : D.unread state = parts.flatMap Part.layout ++ rest) :
    ∃ after, Reader.message P charSigned source filled (state, target) =
        .ok parts (after, target) ∧ D.ready after ∧ D.unread after = rest := by
  induction receives generalizing state with
  | nil => exact ⟨state, rfl, ready, unread⟩
  | @cons old part filled parts first others ih =>
      have each := List.forall_mem_cons.mp fits
      rw [List.flatMap_cons, List.append_assoc] at unread
      obtain ⟨middle, begins, readyMiddle, left⟩ :=
        part_read P charSigned delivers state ready target _ old part first each.1 unread
      obtain ⟨after, ends, ready', left'⟩ := ih middle readyMiddle each.2 left
      refine ⟨after, ?_, ready', left'⟩
      exact (bind_of_ok _ _ _ _ _ begins).trans (bind_of_ok _ _ _ _ _ ends)

end Read

theorem message_round_trip (parts : List Part) (fits : ∀ part ∈ parts, part.Fits P)
    (before : List Byte) :
    Writer.message P charSigned insertionSink parts before =
        .ok () (before ++ parts.flatMap Part.layout) ∧
      ∀ {σ τ : Type} (source : Source σ) (D : Delivery σ Byte) (state : σ) (target : τ)
        (rest : List Byte) (filled : List Part), source.Delivers D → D.ready state →
        List.Forall₂ Part.Receives filled parts →
        D.unread state = parts.flatMap Part.layout ++ rest →
          ∃ after, Reader.message P charSigned source filled (state, target) =
            .ok parts (after, target) ∧ D.unread after = rest := by
  refine ⟨message_written P charSigned parts fits before, ?_⟩
  intro σ τ source D state target rest filled delivers ready receives unread
  obtain ⟨after, done, -, left⟩ :=
    message_read P charSigned delivers state ready target rest filled parts receives fits unread
  exact ⟨after, done, left⟩

theorem message_round_trip_hello :
    let parts : List Part := [.be16 0xaabb, .le32 12,
      .bytes ⟨be16, by decide⟩ (.iteratorAndCount [0]) [0x68, 0x69], .boolean8 true,
      .raw [1, 2, 3]]
    Writer.message amd64 true insertionSink parts [] =
      .ok () [0xaa, 0xbb, 12, 0, 0, 0, 0, 2, 0x68, 0x69, 1, 1, 2, 3] :=
  (message_round_trip amd64 true [.be16 0xaabb, .le32 12,
    .bytes ⟨be16, by decide⟩ (.iteratorAndCount [0]) [0x68, 0x69], .boolean8 true, .raw [1, 2, 3]]
    (by decide) []).1

end Szn
