import Szn.Model.Zip
import Szn.Properties.StreamSink
import Szn.Spec.Layout

set_option autoImplicit false

namespace Szn

open Stateful Parsing

variable {σ : Type} {source : Source σ} {D : Delivery σ Byte} (P : Platform)

namespace Zip

namespace LocalFileHeader

def Sized (header : LocalFileHeader) : Prop :=
  header.name.length < 2 ^ 16 ∧ header.extra.length < 2 ^ 16

instance decidableSized (header : LocalFileHeader) : Decidable header.Sized :=
  inferInstanceAs (Decidable (_ ∧ _))

def layout (header : LocalFileHeader) : List Byte :=
  localFileHeaderBegin.layout header.start ++
    (ByteOrder.littleEndian.digits 2 header.name.length ++
      ByteOrder.littleEndian.digits 2 header.extra.length) ++ header.name ++ header.extra

def lengths (header : LocalFileHeader) : localFileHeaderLengths.Value :=
  (BitVec.ofNat 16 header.name.length, BitVec.ofNat 16 header.extra.length, ())

def parse : Parser Byte Failure LocalFileHeader := do
  let start ← localFileHeaderBegin.parse P
  let lengths ← localFileHeaderLengths.parse P
  let name ← List.Vector.toList <$> repeatN (item insufficientInput) lengths.1.toNat
  let extra ← List.Vector.toList <$> repeatN (item insufficientInput) lengths.2.1.toNat
  pure ⟨start, name, extra⟩

theorem deserializes (delivers : source.Delivers D) :
    Deserializes D (deserialize P source) fun _ => parse P := by
  refine (Implements.bind (Implements.within (localFileHeaderBegin.plain_deserializes P delivers
    (by exact ⟨rfl, rfl, rfl, rfl, rfl, rfl, rfl, rfl, trivial⟩))) fun _ =>
    Implements.bind (Implements.withLocal (localFileHeaderLengths.plain_deserializes P delivers
      (by exact ⟨rfl, rfl, trivial⟩))) fun lengths =>
    Implements.bind (Implements.within (read_deserializes delivers lengths.1.toNat)) fun _ =>
      Implements.within (read_deserializes delivers lengths.2.1.toNat)).congr fun target => ?_
  simp only [parse, map_eq_pure_bind, bind_assoc, pure_bind]

theorem toNat_ofNat_iff (number : Nat) :
    number = (BitVec.ofNat 16 number).toNat ↔ number < 2 ^ 16 := by
  rw [BitVec.toNat_ofNat]
  omega

theorem recognizes : Recognizes insufficientInput (parse P) Sized layout := by
  have last (start : localFileHeaderBegin.Value) (name extra : List Byte) :
      Recognizes insufficientInput
        (pure (LocalFileHeader.mk start name extra) : Parser Byte Failure _)
        (fun header => header = LocalFileHeader.mk start name extra) fun _ => [] :=
    Recognizes.pure _ _
  have extras (start : localFileHeaderBegin.Value) (name : List Byte) (count : Nat) :=
    (Recognizes.symbols insufficientInput count).bind (last start name) extra
      fun value result same => congrArg extra same
  have names (start : localFileHeaderBegin.Value) (lengths : localFileHeaderLengths.Value) :=
    (Recognizes.symbols insufficientInput lengths.1.toNat).bind
      (fun text => extras start text lengths.2.1.toNat) name
      fun value result holds => congrArg name holds.2
  have lengths (start : localFileHeaderBegin.Value) :=
    (localFileHeaderLengths.plain_recognizes P (by exact ⟨rfl, rfl, trivial⟩)).bind
      (names start) lengths fun value result holds => by
        obtain ⟨first, second, ⟨⟩⟩ := value
        obtain ⟨long, longExtra, -⟩ := holds
        unfold LocalFileHeader.lengths
        rw [long, longExtra, BitVec.ofNat_toNat, BitVec.ofNat_toNat, BitVec.setWidth_eq,
          BitVec.setWidth_eq]
  have whole := (localFileHeaderBegin.plain_recognizes P
    (by exact ⟨rfl, rfl, rfl, rfl, rfl, rfl, rfl, rfl, trivial⟩)).bind lengths start
      fun value result holds => congrArg start holds.2.2.2
  have decoded (header : LocalFileHeader) : header.Sized ↔
      header.name.length = header.lengths.1.toNat ∧
        header.extra.length = header.lengths.2.1.toNat :=
    and_congr (toNat_ofNat_iff _).symm (toNat_ofNat_iff _).symm
  refine whole.congr (fun header => ?_) fun header holds => ?_
  · rw [decoded]
    simp
  · obtain ⟨-, -, long, longExtra, -⟩ := holds
    have fields : localFileHeaderLengths.layout header.lengths =
        ByteOrder.littleEndian.digits 2 header.name.length ++
          ByteOrder.littleEndian.digits 2 header.extra.length := by
      rw [long, longExtra, ← List.append_nil (ByteOrder.digits _ _ header.lengths.2.1.toNat)]
      rfl
    simp only [layout, fields, id_eq, List.append_assoc, List.append_nil]

theorem deserialize_iff (delivers : source.Delivers D) (state : σ) (ready : D.ready state)
    (target : LocalFileHeader) :
    (∀ (header : LocalFileHeader) (rest : List Byte),
      (∃ after, deserialize P source (state, target) = .ok () (after, header) ∧
          D.unread after = rest) ↔
        header.Sized ∧ D.unread state = header.layout ++ rest) ∧
      ((∀ (header : LocalFileHeader) (rest : List Byte),
          header.Sized → D.unread state ≠ header.layout ++ rest) →
        ∃ after left, deserialize P source (state, target) =
          .error insufficientInput (after, left)) := by
  obtain ⟨accepts, rejects⟩ := (deserializes P delivers).recognizes (recognizes P) ready target
  refine ⟨accepts, fun none => ?_⟩
  obtain ⟨after, left, failed, -⟩ := rejects none
  exact ⟨after, left, failed⟩

end LocalFileHeader

theorem deserialize_iff_stored :
    let header : LocalFileHeader := ⟨(20, 0, 0, 0, 0, 7, 5, 9, ()), [0x61, 0x62], []⟩
    ∃ after, LocalFileHeader.deserialize amd64 (rangeSource amd64)
        (makeRangeSource (header.layout ++ [1, 2]), LocalFileHeader.fresh) =
          .ok () (after, header) ∧ rangeDelivery.unread after = [1, 2] := by
  intro header
  exact ((LocalFileHeader.deserialize_iff amd64 (range_delivers amd64)
    (makeRangeSource (header.layout ++ [1, 2])) (Nat.zero_le _) LocalFileHeader.fresh).1
      header [1, 2]).mpr ⟨by decide, rfl⟩

-- What the program prints for a header.
def summary (header : LocalFileHeader) : List Byte :=
  chars "first file name: " ++ (header.name ++ (chars "\n" ++ (chars "compressed size: " ++
    (chars (toString header.compressedSize.toNat) ++ (chars "\n" ++ (chars "uncompressed size: " ++
      (chars (toString header.uncompressedSize.toNat) ++ chars "\n")))))))

def Prints (step : EStateM Failure Console Unit) (text : List Byte) : Prop :=
  ∀ console : Console, console.cout.exceptions = false →
    step console = .ok () { console with cout := console.cout.accept text }

theorem print_prints (text : List Byte) : Prints (print text) text := by
  intro console quiet
  have written := Ostream.write_eq console.cout text
  rw [quiet, Bool.and_false, if_neg Bool.false_ne_true] at written
  have wrote : Ostream.write text console.cout = .ok () (console.cout.accept text) := written
  simp only [print, wrote]

theorem Prints.andThen {first second : EStateM Failure Console Unit} {text more : List Byte}
    (begins : Prints first text) (ends : Prints second more) :
    Prints (do first; second) (text ++ more) := by
  intro console quiet
  refine (bind_of_ok _ _ _ _ _ (begins console quiet)).trans ((ends _ ?_).trans ?_)
  · rw [Ostream.accept_exceptions, quiet]
  · rw [Ostream.accept_append]

theorem report_prints (header : LocalFileHeader) : Prints (report header) (summary header) :=
  (print_prints _).andThen <| (print_prints _).andThen <| (print_prints _).andThen <|
    (print_prints _).andThen <| (print_prints _).andThen <| (print_prints _).andThen <|
      (print_prints _).andThen <| (print_prints _).andThen <| print_prints _

theorem signature_recognizes : Recognizes insufficientInput (Integer.le32.parse (.unsigned 32))
    (fun _ => True) fun value => ByteOrder.littleEndian.digits 4 value.toNat :=
  Integer.le32.recognizes (by decide)

section Inspect

variable (source : StreamSource) (ready : (streamView P).ready source) (console : Console)

include ready

theorem inspect_signature (value : BitVec 32) (rest : List Byte)
    (unread : (streamView P).unread source =
      ByteOrder.littleEndian.digits 4 value.toNat ++ rest) :
    ∃ after, (streamView P).ready after ∧ (streamView P).unread after = rest ∧
      inspect P (source, console) =
        (if localFileSignature = value then do
          let header ← withLocal LocalFileHeader.fresh
            (LocalFileHeader.deserialize P (streamSource P))
          onTarget (report header)
        else
          onTarget do
            complain "Unrecognized signature 0x"
            complain (hex value.toNat)
            complain "\n") (after, console) := by
  have parsed := (signature_recognizes.ok_iff _ value rest).mpr ⟨trivial, unread⟩
  obtain ⟨after, done, ready', left⟩ := Deserializes.local_ok (Integer.le32.deserialize_implements
    (stream_presents P).delivers (.unsigned 32)) ready 0 console value rest parsed
  exact ⟨after, ready', left, bind_of_ok _ _ _ _ _ done⟩

theorem inspect_cases (quiet : console.cout.exceptions = false) (text : List Byte)
    (unread : (streamView P).unread source = text) :
    (∀ (header : LocalFileHeader) (rest : List Byte), header.Sized →
        text = ByteOrder.littleEndian.digits 4 localFileSignature.toNat ++ header.layout ++ rest →
        ∃ after, inspect P (source, console) =
          .ok () (after, { console with cout := console.cout.accept (summary header) })) ∧
      (∀ (value : BitVec 32) (rest : List Byte), value ≠ localFileSignature →
        text = ByteOrder.littleEndian.digits 4 value.toNat ++ rest →
        ∃ after, inspect P (source, console) =
          .ok () (after, { console with
            cerr := console.cerr ++ "Unrecognized signature 0x" ++ hex value.toNat ++ "\n" })) ∧
      ((∀ (header : LocalFileHeader) (rest : List Byte), header.Sized →
          text ≠ ByteOrder.littleEndian.digits 4 localFileSignature.toNat ++ header.layout ++
            rest) →
        (∀ (value : BitVec 32) (rest : List Byte), value ≠ localFileSignature →
          text ≠ ByteOrder.littleEndian.digits 4 value.toNat ++ rest) →
        ∃ after, inspect P (source, console) = .error insufficientInput (after, console)) := by
  have reads := LocalFileHeader.deserializes P (stream_presents P).delivers
  refine ⟨?_, ?_, ?_⟩
  · intro header rest sized same
    rw [List.append_assoc] at same
    obtain ⟨middle, ready', left, goesOn⟩ := inspect_signature P source ready console
      localFileSignature _ (unread.trans same)
    obtain ⟨after, done, -, -⟩ := reads.local_ok ready' LocalFileHeader.fresh console header
      rest (((LocalFileHeader.recognizes P).ok_iff _ _ _).mpr ⟨sized, left⟩)
    refine ⟨after, ?_⟩
    rw [goesOn, if_pos rfl]
    refine (bind_of_ok _ _ _ _ _ done).trans ?_
    simp only [onTarget, report_prints header console quiet]
  · intro value rest other same
    obtain ⟨middle, ready', left, goesOn⟩ := inspect_signature P source ready console
      value rest (unread.trans same)
    refine ⟨middle, ?_⟩
    rw [goesOn, if_neg fun same => other same.symm]
    simp [onTarget, complain]
  · intro noHeader noSignature
    cases parsed : (Integer.le32.parse (.unsigned 32)).run text with
    | error failure =>
        obtain rfl := signature_recognizes.error _ _ parsed
        obtain ⟨after, failed⟩ := Deserializes.local_error
          (Integer.le32.deserialize_implements (stream_presents P).delivers (.unsigned 32)) ready 0
            console insufficientInput (by rw [unread]; exact parsed)
        exact ⟨after, bind_of_error _ _ _ _ _ failed⟩
    | ok found =>
        obtain ⟨value, rest⟩ := found
        obtain ⟨-, same⟩ := (signature_recognizes.ok_iff _ _ _).mp parsed
        obtain rfl : value = localFileSignature :=
          Decidable.byContradiction fun other => noSignature value rest other same
        obtain ⟨middle, ready', left, goesOn⟩ := inspect_signature P source ready console
          localFileSignature rest (unread.trans same)
        cases header : (LocalFileHeader.parse P).run rest with
        | ok found =>
            obtain ⟨sized, whole⟩ := ((LocalFileHeader.recognizes P).ok_iff _ _ _).mp header
            refine absurd ?_ (noHeader found.1 found.2 sized)
            rw [same, whole, List.append_assoc]
        | error failure =>
            obtain rfl := (LocalFileHeader.recognizes P).error _ _ header
            obtain ⟨after, failed⟩ := reads.local_error ready' LocalFileHeader.fresh
              console insufficientInput (by rw [left]; exact header)
            refine ⟨after, ?_⟩
            rw [goesOn, if_pos rfl]
            exact bind_of_error _ _ _ _ _ failed

end Inspect

theorem main_reports (files : String → Option (List Byte)) (argv : List String) (path : String)
    (text : List Byte) (console : Console) (named : argv[1]? = some path)
    (opened : files path = some text) (quiet : console.cout.exceptions = false)
    (held : text.length ≤ P.bufferMax) :
    (∀ (header : LocalFileHeader) (rest : List Byte), header.Sized →
        text = ByteOrder.littleEndian.digits 4 localFileSignature.toNat ++ header.layout ++ rest →
        main P files argv console =
          .ok 0 { console with cout := console.cout.accept (summary header) }) ∧
      (∀ (value : BitVec 32) (rest : List Byte), value ≠ localFileSignature →
        text = ByteOrder.littleEndian.digits 4 value.toNat ++ rest →
        main P files argv console = .ok 0 { console with
          cerr := console.cerr ++ "Unrecognized signature 0x" ++ hex value.toNat ++ "\n" }) ∧
      ((∀ (header : LocalFileHeader) (rest : List Byte), header.Sized →
          text ≠ ByteOrder.littleEndian.digits 4 localFileSignature.toNat ++ header.layout ++
            rest) →
        (∀ (value : BitVec 32) (rest : List Byte), value ≠ localFileSignature →
          text ≠ ByteOrder.littleEndian.digits 4 value.toNat ++ rest) →
        main P files argv console = .error insufficientInput console) := by
  have ready : (streamView P).ready (makeStreamSource ⟨text, 0, false⟩) :=
    ⟨Nat.le_refl _, rfl, by simpa [makeStreamSource] using held⟩
  obtain ⟨reports, complains, short⟩ := inspect_cases P _ ready console quiet text rfl
  refine ⟨?_, ?_, ?_⟩
  · intro header rest sized same
    obtain ⟨after, done⟩ := reports header rest sized same
    simp only [main, named, opened, done]
  · intro value rest other same
    obtain ⟨after, done⟩ := complains value rest other same
    simp only [main, named, opened, done]
  · intro noHeader noSignature
    obtain ⟨after, failed⟩ := short noHeader noSignature
    simp only [main, named, opened, failed]

theorem main_reports_first :
    let header : LocalFileHeader := ⟨(20, 0, 0, 0, 0, 7, 5, 9, ()), [0x61, 0x62], []⟩
    let text := [0x50, 0x4b, 3, 4] ++ header.layout ++ [1, 2]
    main amd64 (fun _ => some text) ["zip", "a.zip"] ⟨⟨[], 0, false⟩, ⟨[], 99, false, false⟩, ""⟩ =
      .ok 0 ⟨⟨[], 0, false⟩,
        (⟨[], 99, false, false⟩ : Ostream).accept (summary header), ""⟩ := by
  intro header text
  exact (main_reports amd64 (fun _ => some text) ["zip", "a.zip"] "a.zip" text
    ⟨⟨[], 0, false⟩, ⟨[], 99, false, false⟩, ""⟩ rfl rfl rfl (by decide)).1 header [1, 2]
      (by decide) rfl

end Zip

end Szn
