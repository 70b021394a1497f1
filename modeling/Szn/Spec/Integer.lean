import Szn.Library.Casts
import Szn.Model.Formats
import Szn.Spec.Source

set_option autoImplicit false

namespace Szn

open Stateful Parsing Tracing Octets

section Order

variable (order host : ByteOrder) (size : Nat)

theorem getByteShift_lt (index : Nat) (inside : index < size) :
    order.getByteShift index size < size := by
  cases order <;> dsimp only [ByteOrder.getByteShift] <;> omega

theorem getByteShift_getByteShift (index : Nat) (inside : index < size) :
    order.getByteShift (order.getByteShift index size) size = index := by
  cases order with
  | bigEndian => dsimp only [ByteOrder.getByteShift]; omega
  | littleEndian => rfl

def ByteOrder.placement : Placement size where
  weight index := order.getByteShift index size
  position index := order.getByteShift index size
  weight_lt := getByteShift_lt order size
  position_lt := getByteShift_lt order size
  weight_position := getByteShift_getByteShift order size
  position_weight := getByteShift_getByteShift order size

variable {w : Nat} (value : BitVec w)

theorem memory_split : host.memory size value = split (host.placement size) value := rfl

open Intrinsics

theorem reverseBytes_little : reverseBytes size value =
    join (ByteOrder.littleEndian.placement size) w
      (split (ByteOrder.bigEndian.placement size) value) := by
  rw [join, split, List.zip_map_right, List.zip_eq_zipWith, List.zipWith_self, putAll,
    List.map_map, List.foldl_map]
  rfl

theorem reverseBytes_big : reverseBytes size value =
    join (ByteOrder.bigEndian.placement size) w
      (split (ByteOrder.littleEndian.placement size) value) := by
  rw [reverseBytes_little]
  apply BitVec.eq_of_getLsbD_eq
  intro bit inside
  rw [join_bit _ _ (split_length _ _) _ inside, join_bit _ _ (split_length _ _) _ inside]
  by_cases covered : bit < 8 * size
  · have weight : bit / 8 < size := by omega
    have mirrored : size - 1 - bit / 8 < size := by omega
    simp [split, ByteOrder.placement, ByteOrder.getByteShift, weight, mirrored]
  · simp [covered]

theorem reverseBytes_reverseBytes (exact : w = 8 * size) :
    reverseBytes size (reverseBytes size value) = value := by
  subst exact
  rw [reverseBytes_little, reverseBytes_big, split_join _ _ (split_length _ _) (le_refl _),
    join_split]
  simp

theorem bswap16_reverseBytes (word : BitVec 16) : bswap16 word = reverseBytes 2 word := by
  apply BitVec.eq_of_getLsbD_eq
  intro bit inside
  simp only [bswap16, reverseBytes, List.range_succ, List.range_zero, List.nil_append,
    List.foldl_append, List.foldl_cons, List.foldl_nil]
  by_cases low : bit < 8
  · simp [low]
    omega
  · have above : word.getLsbD (8 + bit) = false := BitVec.getLsbD_of_ge word _ (by omega)
    have close : bit - 8 < 8 := by omega
    simp [low, inside, above, close, BitVec.getLsbD_eq_getElem (show bit - 8 < 16 by omega)]

theorem memory_reverseBytes (exact : w = 8 * size) :
    host.memory size (reverseBytes size value) =
      match host with
      | .bigEndian => split (ByteOrder.littleEndian.placement size) value
      | .littleEndian => split (ByteOrder.bigEndian.placement size) value := by
  rw [memory_split]
  cases host with
  | bigEndian => rw [reverseBytes_big, split_join _ _ (split_length _ _) exact.ge]
  | littleEndian => rw [reverseBytes_little, split_join _ _ (split_length _ _) exact.ge]

theorem makeSerializablePod_memory (prepared : BitVec w) (exact : w = 8 * size)
    (made : order.makeSerializablePod host size value = some prepared) :
    host.memory size prepared = split (order.placement size) value := by
  unfold ByteOrder.makeSerializablePod at made
  split at made
  · obtain rfl : w = 16 := exact
    cases made
    cases host with
    | bigEndian => simp [hton16, memory_split]
    | littleEndian => simp [hton16, memory_reverseBytes]
  · obtain rfl : w = 32 := exact
    cases made
    cases host with
    | bigEndian => simp [hton32, memory_split]
    | littleEndian => simp [hton32, memory_reverseBytes]
  · obtain rfl : w = 16 := exact
    cases made
    cases host with
    | bigEndian => simp [hton16, bswap16_reverseBytes, memory_reverseBytes]
    | littleEndian =>
        simp [hton16, bswap16_reverseBytes, reverseBytes_reverseBytes, memory_split]
  · obtain rfl : w = 32 := exact
    cases made
    cases host with
    | bigEndian => simp [hton32, bswap32, memory_reverseBytes]
    | littleEndian => simp [hton32, bswap32, reverseBytes_reverseBytes, memory_split]
  · cases made

end Order

-- The digits of a number in base 256, the least significant first.
def base256 (count number : Nat) : List Byte :=
  (List.range count).map fun index => BitVec.ofNat 8 (number / 256 ^ index % 256)

def ByteOrder.digits (order : ByteOrder) (count number : Nat) : List Byte :=
  match order with
  | .bigEndian => (base256 count number).reverse
  | .littleEndian => base256 count number

theorem split_digits (order : ByteOrder) (size : Nat) {w : Nat} (value : BitVec w) :
    split (order.placement size) value = order.digits size value.toNat := by
  simp only [split, ByteOrder.digits, base256, octet_digit]
  cases order with
  | littleEndian => rfl
  | bigEndian =>
      apply List.ext_getElem
      · simp
      · intro index inside _
        simp [ByteOrder.placement, ByteOrder.getByteShift]

namespace ValueType

def ofUnsigned (type : ValueType) {width : Nat} (value : BitVec width) : BitVec type.bits :=
  if type.isSigned && !type.isEnum then value.signExtend type.bits else value.setWidth type.bits

end ValueType

namespace Integer

variable (format : Integer)

def placement : Placement format.byteSize := format.order.placement format.byteSize

def encode (type : ValueType) (value : BitVec type.bits) : List Byte :=
  split format.placement (type.toUnsigned format.defaultBits value)

-- Two and four bytes go out in one write, other sizes byte by byte.
def trace (type : ValueType) (value : BitVec type.bits) : Trace Byte Failure :=
  if format.byteSize = 2 ∨ format.byteSize = 4 then
    .emit (format.encode type value)
  else
    .all (fun byte => .emit [byte]) (format.encode type value)

def parse (type : ValueType) : Parser Byte Failure (BitVec type.bits) :=
  (fun bytes => type.ofUnsigned (join format.placement format.defaultBits bytes.toList)) <$>
    repeatN (item insufficientInput) format.byteSize

def parseWord : Parser Byte Failure (BitVec format.defaultBits) :=
  (fun bytes => join format.placement format.defaultBits bytes.toList) <$>
    repeatN (item insufficientInput) format.byteSize

theorem parse_word (type : ValueType) :
    format.parse type = type.ofUnsigned <$> format.parseWord := by
  simp [parse, parseWord, Functor.map_map]

variable {format}

theorem makeSerializablePod_isSome {w : Nat} (order host : ByteOrder) (size : Nat)
    (value : BitVec w) :
    (order.makeSerializablePod host size value).isSome = decide (size = 2 ∨ size = 4) := by
  unfold ByteOrder.makeSerializablePod
  split <;> simp_all
  cases order <;> simp_all

theorem replay_bytes {σ : Type} (sink : Sink σ) (bytes : List Byte) :
    (Trace.all (fun byte => .emit [byte]) bytes).replay sink.write =
      bytes.forM fun byte => sink.write [byte] := by
  simp only [Trace.replay_all, Trace.replay_emit]

theorem serializePod_split {σ : Type} {w : Nat} (order host : ByteOrder) (size : Nat)
    (sink : Sink σ) (value prepared : BitVec w) (exact : w = 8 * size)
    (made : order.makeSerializablePod host size value = some prepared) :
    IntegerSerializer.serializePod host size sink prepared =
      sink.write (split (order.placement size) value) := by
  rw [← makeSerializablePod_memory order host size value prepared exact made]
  rfl

theorem serializeLoop_replay {σ : Type} {w : Nat} (order : ByteOrder) (size : Nat) (sink : Sink σ)
    (value : BitVec w) :
    IntegerSerializer.serializeLoop order size sink value =
      (Trace.all (fun byte => .emit [byte]) (split (order.placement size) value)).replay
        sink.write := by
  rw [replay_bytes]
  simp [IntegerSerializer.serializeLoop, split, octet, ByteOrder.placement, List.forM_map]

theorem serialize_replay {σ : Type} (P : Platform) (sink : Sink σ) (type : ValueType)
    (value : BitVec type.bits) :
    format.serialize P sink type value = (format.trace type value).replay sink.write := by
  have intrinsic := makeSerializablePod_isSome format.order P.host format.byteSize
    (type.toUnsigned format.defaultBits value)
  unfold serialize trace
  cases made : format.order.makeSerializablePod P.host format.byteSize
      (type.toUnsigned format.defaultBits value) with
  | some prepared =>
      have size : format.byteSize = 2 ∨ format.byteSize = 4 := by simpa [made] using intrinsic
      have exact : format.defaultBits = 8 * format.byteSize := by
        rcases size with size | size <;> simp [defaultBits, leastBits, size]
      simp only [made, size, if_true, Trace.replay_emit]
      exact serializePod_split _ _ _ _ _ prepared exact made
  | none =>
      have size : ¬(format.byteSize = 2 ∨ format.byteSize = 4) := by simpa [made] using intrinsic
      simp only [made, size, if_false]
      exact serializeLoop_replay _ _ _ _

variable (format)

theorem trace_emits (type : ValueType) (value : BitVec type.bits) :
    (format.trace type value).Emits (format.encode type value) := by
  unfold trace
  split
  · exact Trace.Emits.emit _
  · have each := Trace.Emits.all (fun byte => (.emit [byte] : Trace Byte Failure))
      (fun byte => [byte]) (format.encode type value) fun byte _ => Trace.Emits.emit [byte]
    simpa using each

theorem serialize_encode (P : Platform) (type : ValueType) (value : BitVec type.bits)
    (before : List Byte) :
    format.serialize P insertionSink type value before =
      .ok () (before ++ format.encode type value) := by
  rw [serialize_replay]
  exact (Trace.replay_append_ok _ _ _).mpr ⟨_, format.trace_emits type value, rfl⟩

@[simp] theorem encode_length (type : ValueType) (value : BitVec type.bits) :
    (format.encode type value).length = format.byteSize := by
  simp [encode]

/-- What is read back from the bytes of a value, whether or not it fits the format. -/
def truncate (type : ValueType) (value : BitVec type.bits) :
    BitVec type.bits :=
  type.ofUnsigned (((type.toUnsigned format.defaultBits value).setWidth
    (8 * format.byteSize)).setWidth format.defaultBits)

def Represents : (type : ValueType) → BitVec type.bits → Prop
  | .unsigned _, value => value.toNat < 2 ^ (8 * format.byteSize)
  | .signed _, value =>
      -(2 : Int) ^ (8 * format.byteSize - 1) ≤ value.toInt ∧
        value.toInt < (2 : Int) ^ (8 * format.byteSize - 1)
  | .enumeration bits true, value =>
      bits ≤ 8 * format.byteSize ∨
        0 ≤ value.toInt ∧ value.toInt < (2 : Int) ^ (8 * format.byteSize)
  | .enumeration bits false, value =>
      bits ≤ 8 * format.byteSize ∨ value.toNat < 2 ^ (8 * format.byteSize)

instance :
    (type : ValueType) → (value : BitVec type.bits) → Decidable (format.Represents type value)
  | .unsigned _, value => inferInstanceAs (Decidable (value.toNat < _))
  | .signed _, _ => inferInstanceAs (Decidable (_ ∧ _))
  | .enumeration _ true, _ => inferInstanceAs (Decidable (_ ∨ _))
  | .enumeration _ false, _ => inferInstanceAs (Decidable (_ ∨ _))

theorem truncate_eq_iff (exact : format.defaultBits = 8 * format.byteSize)
    (positive : 0 < format.byteSize) (type : ValueType) (value : BitVec type.bits) :
    format.truncate type value = value ↔ format.Represents type value := by
  have whole (word : BitVec format.defaultBits) :
      (word.setWidth (8 * format.byteSize)).setWidth format.defaultBits = word := by
    rw [Casts.setWidth_setWidth_iff, ← exact]
    exact word.isLt
  unfold truncate
  rw [whole]
  match type, value with
  | .unsigned bits, value =>
      simp only [ValueType.toUnsigned, ValueType.ofUnsigned, ValueType.isSigned, Represents,
        Bool.false_and, Bool.false_eq_true, if_false]
      rw [Casts.setWidth_setWidth_iff, exact]
  | .signed bits, value =>
      simp only [ValueType.toUnsigned, ValueType.ofUnsigned, ValueType.isSigned,
        ValueType.isEnum, Represents, Bool.not_false, Bool.and_true, if_true]
      rw [Casts.signExtend_signExtend_iff _ _ (by omega), exact]
  | .enumeration bits true, value =>
      simp only [ValueType.toUnsigned, ValueType.ofUnsigned, ValueType.isSigned,
        ValueType.isEnum, Represents, Bool.not_true, Bool.and_false, Bool.false_eq_true,
        if_true, if_false]
      rw [Casts.setWidth_signExtend_iff, exact]
  | .enumeration bits false, value =>
      simp only [ValueType.toUnsigned, ValueType.ofUnsigned, ValueType.isSigned,
        ValueType.isEnum, Represents, Bool.not_true, Bool.and_false, Bool.false_eq_true,
        if_false]
      rw [Casts.setWidth_setWidth_iff, exact]
      constructor
      · exact Or.inr
      · rintro (narrow | bound)
        · exact lt_of_lt_of_le value.isLt (Nat.pow_le_pow_right (by decide) narrow)
        · exact bound

theorem le_leastBits (bits : Nat) (small : bits ≤ 64) : bits ≤ leastBits bits := by
  unfold leastBits
  split
  · assumption
  · split
    · assumption
    · split <;> assumption

theorem truncate_unsigned (small : format.byteSize ≤ 8) {bits : Nat} (value : BitVec bits) :
    (format.truncate (.unsigned bits) value).toNat =
      value.toNat % 2 ^ (8 * format.byteSize) := by
  have wide : 8 * format.byteSize ≤ format.defaultBits := le_leastBits _ (by omega)
  have whole : 2 ^ (8 * format.byteSize) ∣ 2 ^ format.defaultBits := Nat.pow_dvd_pow 2 wide
  change (BitVec.setWidth bits _).toNat = _
  simp only [ValueType.toUnsigned, ValueType.isSigned, Bool.false_eq_true, if_false,
    BitVec.toNat_setWidth, Nat.mod_mod_of_dvd _ whole]
  have below : value.toNat % 2 ^ (8 * format.byteSize) < 2 ^ format.defaultBits :=
    lt_of_lt_of_le (Nat.mod_lt _ (Nat.two_pow_pos _)) (Nat.pow_le_pow_right (by decide) wide)
  rw [Nat.mod_eq_of_lt below]
  exact Nat.mod_eq_of_lt (lt_of_le_of_lt (Nat.mod_le _ _) value.isLt)

theorem parse_split (type : ValueType) (word : BitVec format.defaultBits) :
    Reads (format.parse type) (split format.placement word)
      (type.ofUnsigned ((word.setWidth (8 * format.byteSize)).setWidth format.defaultBits)) := by
  have bytes := Reads.repeatN (fun byte => [byte])
    (⟨split format.placement word, split_length _ _⟩ : List.Vector Byte format.byteSize)
    fun byte _ => Reads.item insufficientInput byte
  have read := bytes.map fun bytes =>
    type.ofUnsigned (join format.placement format.defaultBits bytes.toList)
  simpa [parse, join_split] using read

theorem parse_reads (type : ValueType) (value : BitVec type.bits) :
    Reads (format.parse type) (format.encode type value) (format.truncate type value) :=
  format.parse_split type (type.toUnsigned format.defaultBits value)

theorem parse_digits (small : format.byteSize ≤ 8) (number : Nat)
    (inside : number < 2 ^ (8 * format.byteSize)) (bits : Nat) :
    Reads (format.parse (.unsigned bits)) (format.order.digits format.byteSize number)
      (BitVec.ofNat bits number) := by
  have wide : 8 * format.byteSize ≤ format.defaultBits := le_leastBits _ (by omega)
  have below : number < 2 ^ format.defaultBits :=
    lt_of_lt_of_le inside (Nat.pow_le_pow_right (by decide) wide)
  have whole : (BitVec.ofNat format.defaultBits number).toNat = number :=
    Nat.mod_eq_of_lt below
  have read := format.parse_split (.unsigned bits) (BitVec.ofNat format.defaultBits number)
  rw [placement, split_digits, whole] at read
  have kept : ((BitVec.ofNat format.defaultBits number).setWidth
      (8 * format.byteSize)).setWidth format.defaultBits =
        BitVec.ofNat format.defaultBits number := by
    rw [Casts.setWidth_setWidth_iff, whole]
    exact inside
  have cast : ValueType.ofUnsigned (.unsigned bits) (BitVec.ofNat format.defaultBits number) =
      BitVec.ofNat bits number := by
    apply BitVec.eq_of_toNat_eq
    simp [ValueType.ofUnsigned, ValueType.isSigned, Nat.mod_eq_of_lt below]
  rwa [kept, cast] at read

@[simp] theorem digits_length (order : ByteOrder) (count number : Nat) :
    (order.digits count number).length = count := by
  cases order <;> simp [ByteOrder.digits, base256]

theorem digits_inj (small : format.byteSize ≤ 8) (first second : Nat)
    (insideFirst : first < 2 ^ (8 * format.byteSize))
    (insideSecond : second < 2 ^ (8 * format.byteSize))
    (same : format.order.digits format.byteSize first =
      format.order.digits format.byteSize second) : first = second := by
  have readFirst := format.parse_digits small first insideFirst (8 * format.byteSize)
  have readSecond := format.parse_digits small second insideSecond (8 * format.byteSize)
  rw [← same] at readSecond
  have equal := congrArg BitVec.toNat (readFirst.unique readSecond)
  rwa [BitVec.toNat_ofNat, BitVec.toNat_ofNat, Nat.mod_eq_of_lt insideFirst,
    Nat.mod_eq_of_lt insideSecond] at equal

theorem digits_of_bytes (bytes : List Byte) (complete : bytes.length = format.byteSize) :
    ∃ number, number < 2 ^ (8 * format.byteSize) ∧
      bytes = format.order.digits format.byteSize number := by
  refine ⟨(join format.placement (8 * format.byteSize) bytes).toNat, BitVec.isLt _, ?_⟩
  rw [← split_digits]
  exact (split_join _ _ complete (Nat.le_refl _)).symm

theorem digits_mod (order : ByteOrder) (count number : Nat) :
    order.digits count (number % 2 ^ (8 * count)) = order.digits count number := by
  have low : base256 count (number % 2 ^ (8 * count)) = base256 count number := by
    apply List.map_congr_left
    intro index inside
    have below := List.mem_range.mp inside
    have powers : 2 ^ (8 * count) = 256 ^ index * 256 ^ (count - index) := by
      rw [Nat.pow_mul, ← Nat.pow_add, Nat.add_sub_cancel' below.le]
    have divides : 256 ∣ 256 ^ (count - index) := dvd_pow_self 256 (by omega)
    rw [powers, Nat.mod_mul_right_div_self, Nat.mod_mod_of_dvd _ divides]
  simp only [ByteOrder.digits, low]

theorem encode_wrapped (small : format.byteSize ≤ 8) (number bits : Nat)
    (held : number < 2 ^ bits) :
    format.encode (.unsigned bits) (BitVec.ofNat bits number) =
      format.order.digits format.byteSize (number % 2 ^ (8 * format.byteSize)) := by
  have wide : 8 * format.byteSize ≤ format.defaultBits := le_leastBits _ (by omega)
  have cast : ((ValueType.unsigned bits).toUnsigned format.defaultBits
      (BitVec.ofNat bits number)).toNat = number % 2 ^ format.defaultBits := by
    simp [ValueType.toUnsigned, ValueType.isSigned, Nat.mod_eq_of_lt held]
  rw [encode, placement, split_digits, cast, ← digits_mod,
    Nat.mod_mod_of_dvd _ (Nat.pow_dvd_pow 2 wide)]

theorem encode_digits (small : format.byteSize ≤ 8) (number bits : Nat)
    (inside : number < 2 ^ (8 * format.byteSize)) (held : number < 2 ^ bits) :
    format.encode (.unsigned bits) (BitVec.ofNat bits number) =
      format.order.digits format.byteSize number := by
  rw [format.encode_wrapped small number bits held, Nat.mod_eq_of_lt inside]

theorem byte_fold_implements {σ τ α : Type} {source : Source σ} {D : Delivery σ Byte}
    (delivers : source.Delivers D) (store : α → Nat → Byte → α) (positions : List Nat)
    (count : Nat) (all : positions.length = count) (initial : α) :
    Implements D
      (positions.foldlM (fun result b => do
        let byte ← withLocal [0] (source.read 1)
        pure (store result b (byte.headD 0))) initial : EStateM Failure (σ × τ) α)
      (fun target => do
        let bytes ← repeatN (item insufficientInput) count
        pure ((positions.zip bytes.toList).foldl
          (fun result byte => store result byte.1 byte.2) initial, target)) := by
  subst all
  induction positions generalizing initial with
  | nil => exact Implements.pure initial
  | cons b rest ih =>
      rw [List.foldlM_cons]
      refine (Implements.bind (Implements.bind (read_byte_implements delivers)
        fun byte => Implements.pure (store initial b (byte.headD 0)))
          fun result => ih result).congr ?_
      intro target
      simp [repeatN]

theorem deserialize_implements {σ : Type} {source : Source σ} {D : Delivery σ Byte}
    (delivers : source.Delivers D) (type : ValueType) :
    Implements D (format.deserialize source type)
      (fun _ => (fun value => ((), value)) <$> format.parse type) := by
  have assigned (result : BitVec format.defaultBits) :
      (if (type.isSigned && !type.isEnum) = true then assignTarget (result.signExtend type.bits)
        else assignTarget (result.setWidth type.bits) :
        EStateM Failure (σ × BitVec type.bits) Unit) = assignTarget (type.ofUnsigned result) := by
    unfold ValueType.ofUnsigned
    split <;> rfl
  unfold deserialize
  simp only [assigned]
  refine (Implements.bind (byte_fold_implements delivers
    (fun result b byte => result ||| byte.setWidth format.defaultBits <<<
      (8 * format.order.getByteShift b format.byteSize)) (List.range format.byteSize)
    format.byteSize List.length_range 0)
    fun result => Implements.assignTarget (type.ofUnsigned result)).congr ?_
  intro target
  simp only [bind_assoc, pure_bind, parse, map_eq_pure_bind]
  rfl

theorem deserialize_digits {σ : Type} {source : Source σ} {D : Delivery σ Byte}
    (delivers : source.Delivers D) (small : format.byteSize ≤ 8) (number : Nat)
    (inside : number < 2 ^ (8 * format.byteSize)) (bits : Nat) (state : σ) (target : BitVec bits)
    (rest : List Byte) (ready : D.ready state)
    (unread : D.unread state = format.order.digits format.byteSize number ++ rest) :
    ∃ after, format.deserialize source (.unsigned bits) (state, target) =
        .ok () (after, BitVec.ofNat bits number) ∧ D.ready after ∧ D.unread after = rest := by
  have deserializes : Deserializes D (format.deserialize source (.unsigned bits)) fun _ =>
      format.parse (.unsigned bits) := format.deserialize_implements delivers (.unsigned bits)
  apply deserializes.ok ready
  rw [unread]
  exact format.parse_digits small number inside bits rest

theorem parseWord_ok (input rest : List Byte) (word : BitVec format.defaultBits)
    (parsed : format.parseWord.run input = .ok (word, rest)) :
    ∃ bytes, bytes.length = format.byteSize ∧ input = bytes ++ rest ∧
      word = join format.placement format.defaultBits bytes := by
  obtain ⟨bytes, taken, rfl⟩ := (run_map_ok _ _ _ _ _).mp parsed
  exact ⟨bytes.toList, bytes.toList_length, repeatN_item_ok _ _ _ _ _ taken, rfl⟩

theorem parse_ok (type : ValueType) (input rest : List Byte) (value : BitVec type.bits)
    (parsed : (format.parse type).run input = .ok (value, rest)) :
    ∃ bytes, bytes.length = format.byteSize ∧ input = bytes ++ rest ∧
      value = type.ofUnsigned (join format.placement format.defaultBits bytes) := by
  rw [parse_word] at parsed
  obtain ⟨word, read, rfl⟩ := (run_map_ok _ _ _ _ _).mp parsed
  obtain ⟨bytes, complete, whole, rfl⟩ := format.parseWord_ok input rest word read
  exact ⟨bytes, complete, whole, rfl⟩

theorem parse_unsigned_lt (sized : format.defaultBits = 8 * format.byteSize) (bits : Nat)
    (input rest : List Byte) (value : BitVec bits)
    (parsed : (format.parse (.unsigned bits)).run input = .ok (value, rest)) :
    value.toNat < 2 ^ (8 * format.byteSize) := by
  obtain ⟨bytes, -, -, rfl⟩ := format.parse_ok _ _ _ _ parsed
  rw [← sized]
  exact Casts.setWidth_toNat_lt _

theorem parse_represents (sized : format.defaultBits = 8 * format.byteSize)
    (positive : 0 < format.byteSize) (type : ValueType) (input rest : List Byte)
    (value : BitVec type.bits)
    (parsed : (format.parse type).run input = .ok (value, rest)) :
    format.Represents type value := by
  obtain ⟨bytes, -, -, rfl⟩ := format.parse_ok _ _ _ _ parsed
  generalize join format.placement format.defaultBits bytes = word
  unfold Represents
  rw [← sized]
  cases type with
  | unsigned bits => exact Casts.setWidth_toNat_lt word
  | signed bits => exact Casts.signExtend_toInt_bounds word (by omega)
  | enumeration bits underlying =>
      cases underlying with
      | true =>
          apply or_iff_not_imp_left.mpr
          intro wider
          exact Casts.setWidth_toInt_bounds word (Nat.not_le.mp wider)
      | false => exact Or.inr (Casts.setWidth_toNat_lt word)

theorem deserialize_consumed {σ : Type} {source : Source σ} {D : Delivery σ Byte}
    (delivers : source.Delivers D) (small : format.byteSize ≤ 8) (bits : Nat) (state after : σ)
    (target value : BitVec bits) (ready : D.ready state)
    (done : format.deserialize source (.unsigned bits) (state, target) =
      .ok () (after, value)) :
    D.ready after ∧ ∃ number, number < 2 ^ (8 * format.byteSize) ∧
      D.unread state = format.order.digits format.byteSize number ++ D.unread after ∧
        value = BitVec.ofNat bits number := by
  have deserializes : Deserializes D (format.deserialize source (.unsigned bits)) fun _ =>
      format.parse (.unsigned bits) := format.deserialize_implements delivers (.unsigned bits)
  have parsed := deserializes.parsed ready done
  obtain ⟨bytes, complete, whole, -⟩ := format.parse_ok _ _ _ _ parsed
  obtain ⟨number, inside, rfl⟩ := format.digits_of_bytes bytes complete
  refine ⟨(Implements.parsed deserializes ready done).2, number, inside, whole, ?_⟩
  rw [whole, format.parse_digits small number inside bits] at parsed
  cases parsed
  rfl

theorem parse_delimited (type : ValueType) :
    Delimited insufficientInput (format.parse type) :=
  Delimited.map _ (Delimited.repeatN (Delimited.item insufficientInput) _)

end Integer

end Szn
