import Szn.Library.Blocks
import Szn.Model.Convert
import Szn.Properties.Attempts
import Szn.Properties.StreamSink
import Szn.Spec.Integer

set_option autoImplicit false

namespace Szn

open Stateful Parsing Tracing Blocks

variable (P : Platform)

theorem digits_reverse (count number : Nat) :
    (ByteOrder.bigEndian.digits count number).reverse =
      ByteOrder.littleEndian.digits count number :=
  List.reverse_reverse _

theorem Integer.serialize_accept (format : Integer) (type : ValueType)
    (value : BitVec type.bits) (out : Ostream) (quiet : out.exceptions = false) :
    format.serialize P streamSink type value out =
      .ok () (out.accept (format.encode type value)) := by
  have projects : Projects out.accept (format.serialize P insertionSink type value)
      (format.serialize P streamSink type value) := by
    rw [Integer.serialize_replay, Integer.serialize_replay]
    exact Trace.replay_projects (stream_sink_projects out quiet) _
  have appended := projects []
  rw [Integer.serialize_encode, Ostream.accept_nil] at appended
  exact appended.symm

theorem Integer.deserialize_drains {σ : Type} {source : Source σ} {view : View σ}
    (presents : source.Presents view) (format : Integer) (bits : Nat) (state : σ)
    (target : BitVec bits) (ready : view.ready state)
    (short : (view.unread state).length < format.byteSize) :
    ∃ after left, format.deserialize source (.unsigned bits) (state, target) =
        .error insufficientInput (after, left) ∧ view.ready after ∧ view.unread after = [] := by
  have failed : (format.parse (.unsigned bits)).run (view.unread state) =
      .error insufficientInput :=
    run_map_error _ _ _ _ (repeatN_item_short insufficientInput _ _ short)
  have reached : ∃ after left, format.deserialize source (.unsigned bits) (state, target) =
      .error insufficientInput (after, left) ∧ view.ready after :=
    (format.deserialize_implements presents.delivers (.unsigned bits)).error ready
      (run_map_error _ _ _ _ failed)
  obtain ⟨after, left, ended, ready'⟩ := reached
  have kept := (format.deserialize_couples (presents.keeps (view.unread state))
    (.unsigned bits)).kept state target ⟨ready, List.suffix_refl _⟩
  rw [ended] at kept
  exact ⟨after, left, ended, ready', kept.2.2 rfl⟩

namespace Convert

section Loop

variable (size turns : Nat) (source : StreamSource) (out : Ostream)
  (ready : (streamView P).ready source)

include ready

theorem convertAll_stops (short : ((streamView P).unread source).length < size) :
    ∃ after, convertAll P size (turns + 1) (source, out) = .ok () (after, out) ∧
      (streamView P).unread after = [] := by
  obtain ⟨after, left, failed, ready', empty⟩ :=
    (inFormat size).deserialize_drains (stream_presents P) (inFormat size).defaultBits source 0
      ready short
  refine ⟨after, ?_, empty⟩
  have caught : nextElement P size (source, out) = .ok none (after, out) := by
    refine catch_of_error _ _ _ _ _ (bind_of_error _ _ _ (after, out) insufficientInput ?_)
    simp only [withLocal, failed]
  exact bind_of_ok _ _ _ _ _ caught

theorem convertAll_goes_on (small : size ≤ 8) (quiet : out.exceptions = false)
    (enough : size ≤ ((streamView P).unread source).length) :
    ∃ after, convertAll P size (turns + 1) (source, out) =
        convertAll P size turns
          (after, out.accept (((streamView P).unread source).take size).reverse) ∧
      (streamView P).ready after ∧
      (streamView P).unread after = ((streamView P).unread source).drop size := by
  have complete : (((streamView P).unread source).take size).length = size := by
    rw [List.length_take, Nat.min_eq_left enough]
  obtain ⟨number, inside, block⟩ := (inFormat size).digits_of_bytes _ complete
  obtain ⟨after, done, ready', left⟩ := (inFormat size).deserialize_digits
    (stream_presents P).delivers small number inside (inFormat size).defaultBits source 0
    (((streamView P).unread source).drop size) ready
    (by rw [← block, List.take_append_drop])
  refine ⟨after, ?_, ready', left⟩
  have wide : 8 * size ≤ (outFormat size).defaultBits := Integer.le_leastBits _ (by omega)
  have held : number < 2 ^ (outFormat size).defaultBits :=
    inside.trans_le (Nat.pow_le_pow_right Nat.two_pos wide)
  have encoded : (outFormat size).encode (outFormat size).defaultType
      (BitVec.ofNat _ number) = (((streamView P).unread source).take size).reverse := by
    rw [block, digits_reverse]
    exact (outFormat size).encode_digits small number _ inside held
  have read : nextElement P size (source, out) =
      .ok (some (BitVec.ofNat _ number)) (after, out) := by
    refine catch_of_ok _ _ _ _ _ (bind_of_ok _ _ _ (after, out) (BitVec.ofNat _ number) ?_)
    simp only [withLocal, done]
  have written := (outFormat size).serialize_accept P (outFormat size).defaultType
    (BitVec.ofNat _ number) out quiet
  rw [encoded] at written
  refine (bind_of_ok _ _ _ _ _ read).trans (bind_of_ok _ _ _ (after, _) () ?_)
  simp only [onTarget, written]

omit ready in
theorem convertAll_run (positive : 0 < size) (small : size ≤ 8) (text : List Byte)
    (ready : (streamView P).ready source) (unread : (streamView P).unread source = text)
    (quiet : out.exceptions = false) (enough : text.length / size < turns) :
    ∃ after, convertAll P size turns (source, out) =
        .ok () (after, out.accept (onBlocks size List.reverse text)) ∧
      (streamView P).unread after = [] := by
  induction text using block_induction size positive generalizing turns source out with
  | short text short =>
      obtain ⟨turns, rfl⟩ := Nat.exists_eq_add_one_of_ne_zero (Nat.ne_zero_of_lt enough)
      obtain ⟨after, done, empty⟩ :=
        convertAll_stops P size turns source out ready (unread ▸ short)
      rw [onBlocks_short size _ text short, Ostream.accept_nil]
      exact ⟨after, done, empty⟩
  | block text long ih =>
      obtain ⟨turns, rfl⟩ := Nat.exists_eq_add_one_of_ne_zero (Nat.ne_zero_of_lt enough)
      obtain ⟨next, goesOn, ready', left⟩ :=
        convertAll_goes_on P size turns source out ready small quiet (unread ▸ long)
      rw [unread] at goesOn left
      have fewer : (text.drop size).length / size < turns := by
        have one : text.length / size = (text.length - size) / size + 1 :=
          Nat.div_eq_sub_div positive long
        rw [List.length_drop]
        omega
      obtain ⟨after, done, empty⟩ := ih turns next (out.accept (text.take size).reverse) ready'
        left (by rw [Ostream.accept_exceptions, quiet]) fewer
      refine ⟨after, ?_, empty⟩
      rw [goesOn, done, onBlocks_of_le size _ text positive long, Ostream.accept_append]

end Loop

theorem convertSize_bounds (argv : List String) (size : Nat)
    (recognized : convertSize argv = some size) : 0 < size ∧ size ≤ 8 := by
  unfold convertSize at recognized
  split at recognized <;> cases recognized <;> decide

theorem main_run (turns size : Nat) (argv : List String) (console : Console)
    (recognized : convertSize argv = some size) (quietIn : console.cin.exceptions = false)
    (quietOut : console.cout.exceptions = false)
    (held : console.cin.undelivered.length ≤ P.bufferMax)
    (enough : console.cin.undelivered.length < turns) :
    ∃ after, main P turns argv console = .ok 0 after ∧ after.cin.undelivered = [] ∧
      after.cerr = console.cerr ∧
      after.cout = console.cout.accept
        (onBlocks size List.reverse console.cin.undelivered) := by
  obtain ⟨positive, small⟩ := convertSize_bounds argv size recognized
  have ready : (streamView P).ready (makeStreamSource console.cin) :=
    ⟨Nat.le_refl _, quietIn, by simpa [makeStreamSource] using held⟩
  obtain ⟨after, done, empty⟩ := convertAll_run P size turns (makeStreamSource console.cin)
    console.cout positive small console.cin.undelivered ready rfl quietOut
    ((Nat.div_le_self _ _).trans_lt enough)
  refine ⟨{ console with
    cin := after.input
    cout := console.cout.accept (onBlocks size List.reverse console.cin.undelivered) },
    ?_, (List.append_eq_nil_iff.mp empty).2, rfl, rfl⟩
  rw [main, recognized]
  simp only [done]

theorem blocks_numbers (size : Nat) (parts : List (List Byte))
    (complete : ∀ part ∈ parts, part.length = size) :
    ∃ numbers : List Nat, (∀ number ∈ numbers, number < 2 ^ (8 * size)) ∧
      parts = numbers.map (ByteOrder.bigEndian.digits size) := by
  induction parts with
  | nil => exact ⟨[], by simp, rfl⟩
  | cons part rest ih =>
      have each := List.forall_mem_cons.mp complete
      obtain ⟨numbers, inside, rfl⟩ := ih each.2
      obtain ⟨number, below, rfl⟩ := (inFormat size).digits_of_bytes part each.1
      exact ⟨number :: numbers, List.forall_mem_cons.mpr ⟨below, inside⟩, rfl⟩

theorem main_converts (turns : Nat) (argv : List String) (console : Console)
    (quietIn : console.cin.exceptions = false) (quietOut : console.cout.exceptions = false)
    (good : console.cout.bad = false) (held : console.cin.undelivered.length ≤ P.bufferMax)
    (enough : console.cin.undelivered.length < turns) :
    match convertSize argv with
    | none => main P turns argv console =
        .ok 1 { console with
          cerr := console.cerr ++
            "Unrecognized option. Possible options are: 8, 16, 32 or 64\n" }
    | some size => ∃ (after : Console) (numbers : List Nat) (tail : List Byte),
        console.cin.undelivered =
            numbers.flatMap (ByteOrder.bigEndian.digits size) ++ tail ∧
          (∀ number ∈ numbers, number < 2 ^ (8 * size)) ∧ tail.length < size ∧
          main P turns argv console = .ok 0 after ∧ after.cin.undelivered = [] ∧
          after.cerr = console.cerr ∧
          after.cout.written = console.cout.written ++
            (numbers.flatMap (ByteOrder.littleEndian.digits size)).take console.cout.room := by
  cases recognized : convertSize argv with
  | none => exact show main P turns argv console = _ by rw [main, recognized]
  | some size =>
      obtain ⟨positive, -⟩ := convertSize_bounds argv size recognized
      obtain ⟨after, done, empty, silent, out⟩ :=
        main_run P turns size argv console recognized quietIn quietOut held enough
      obtain ⟨numbers, inside, same⟩ := blocks_numbers size
        (blocks size console.cin.undelivered) fun part member =>
          length_of_mem_blocks size _ part positive member
      have whole := flatten_blocks size console.cin.undelivered positive
      have shorter := Nat.mod_lt console.cin.undelivered.length positive
      have count := Nat.mod_add_div console.cin.undelivered.length size
      refine ⟨after, numbers, console.cin.undelivered.drop
        (size * (console.cin.undelivered.length / size)), ?_, inside, ?_, done, empty, silent, ?_⟩
      · rw [List.flatMap_def, ← same, whole, List.take_append_drop]
      · rw [List.length_drop]
        omega
      · have reversed : onBlocks size List.reverse console.cin.undelivered =
            numbers.flatMap (ByteOrder.littleEndian.digits size) := by
          rw [onBlocks, same, List.map_map, List.flatMap_def]
          congr 2
          funext number
          exact digits_reverse size number
        rw [out, reversed]
        simp [Ostream.accept, good]

theorem main_converts_truncated :
    ∃ (after : Console) (numbers : List Nat) (tail : List Byte),
      [1, 2, 3, 4, 5] = numbers.flatMap (ByteOrder.bigEndian.digits 2) ++ tail ∧
        (∀ number ∈ numbers, number < 2 ^ (8 * 2)) ∧ tail.length < 2 ∧
        main amd64 6 ["convert", "16"] ⟨⟨[1, 2, 3, 4, 5], 0, false⟩, ⟨[], 9, false, false⟩, ""⟩ =
          .ok 0 after ∧ after.cin.undelivered = [] ∧ after.cerr = "" ∧
        after.cout.written = [] ++
          (numbers.flatMap (ByteOrder.littleEndian.digits 2)).take 9 :=
  main_converts amd64 6 ["convert", "16"]
    ⟨⟨[1, 2, 3, 4, 5], 0, false⟩, ⟨[], 9, false, false⟩, ""⟩ rfl rfl rfl (by decide) (by decide)

theorem main_twice (turns size : Nat) (argv : List String) (console : Console)
    (recognized : convertSize argv = some size) (quietIn : console.cin.exceptions = false)
    (quietOut : console.cout.exceptions = false) (good : console.cout.bad = false)
    (fresh : console.cout.written = [])
    (room : console.cin.undelivered.length ≤ console.cout.room)
    (held : console.cin.undelivered.length ≤ P.bufferMax)
    (enough : console.cin.undelivered.length < turns) :
    ∃ first second, main P turns argv console = .ok 0 first ∧
      main P turns argv { console with cin := ⟨first.cout.written, 0, false⟩ } = .ok 0 second ∧
      second.cout.written = console.cin.undelivered.take
        (size * (console.cin.undelivered.length / size)) := by
  obtain ⟨positive, -⟩ := convertSize_bounds argv size recognized
  have kept (text : List Byte) (inside : text.length ≤ console.cout.room) :
      (console.cout.accept (onBlocks size List.reverse text)).written =
        onBlocks size List.reverse text := by
    have fits := (onBlocks_length_le size List.reverse text positive fun part =>
      List.length_reverse).trans inside
    simp [Ostream.accept, good, fresh, List.take_of_length_le fits]
  have shorter := onBlocks_length_le size List.reverse console.cin.undelivered positive
    fun part => List.length_reverse
  obtain ⟨first, done, -, -, out⟩ :=
    main_run P turns size argv console recognized quietIn quietOut held enough
  have converted := kept _ room
  rw [← out] at converted
  rw [← converted] at shorter
  obtain ⟨second, done', -, -, out'⟩ :=
    main_run P turns size argv { console with cin := ⟨first.cout.written, 0, false⟩ } recognized
      rfl quietOut (shorter.trans held) (shorter.trans_lt enough)
  refine ⟨first, second, done, done', ?_⟩
  have restored := kept _ (shorter.trans room)
  have identity : (List.reverse ∘ List.reverse : List Byte → List Byte) = id :=
    funext List.reverse_reverse
  rw [out', restored, converted, onBlocks_onBlocks size _ _ positive fun part =>
    List.length_reverse, identity, onBlocks, List.map_id, flatten_blocks size _ positive]

theorem main_twice_truncated :
    ∃ first second,
      main amd64 6 ["convert", "32"] ⟨⟨[1, 2, 3, 4, 5], 0, false⟩, ⟨[], 9, false, false⟩, ""⟩ =
          .ok 0 first ∧
        main amd64 6 ["convert", "32"]
          ⟨⟨first.cout.written, 0, false⟩, ⟨[], 9, false, false⟩, ""⟩ = .ok 0 second ∧
        second.cout.written = [1, 2, 3, 4] :=
  main_twice amd64 6 4 ["convert", "32"]
    ⟨⟨[1, 2, 3, 4, 5], 0, false⟩, ⟨[], 9, false, false⟩, ""⟩ rfl rfl rfl rfl rfl (by decide)
    (by decide) (by decide)

end Convert

end Szn
