import Mathlib.Data.Vector.Mem
import Szn.Properties.EncodedSize
import Szn.Properties.FailedVector

set_option autoImplicit false

namespace Szn

open Stateful Parsing

section Parts

variable {α β : Type} (size : α → Nat)

def fitting : (available : Nat) → List α → List α
  | _, [] => []
  | available, value :: rest =>
      if size value ≤ available then value :: fitting (available - size value) rest else []

/-- One part is filled after another; the second one keeps what it held until the first one is
complete. -/
def inTurn (first : Nat → α → α → α) (second : Nat → β → β → β) (available : Nat)
    (old new : α × β) : α × β :=
  if size new.1 ≤ available then (new.1, second (available - size new.1) old.2 new.2)
  else (first available old.1 new.1, old.2)

def allInTurn (part : Nat → α → α → α) : (available : Nat) → {n : Nat} →
    (old new : List.Vector α n) → List.Vector α n
  | _, 0, _, _ => .nil
  | available, _ + 1, old, new =>
      if size new.head ≤ available then
        new.head ::ᵥ allInTurn part (available - size new.head) old.tail new.tail
      else part available old.head new.head ::ᵥ old.tail

end Parts

/-- What a target that held `old` holds after as many bytes of the encoding of `new`. A scalar or an
optional is assigned as a whole. -/
def Format.partway : (F : Format) → (available : Nat) → (old new : F.Value) → F.Value
  | integer format _, available, old, new => if format.byteSize ≤ available then new else old
  | boolean _, available, old, new => if 1 ≤ available then new else old
  | pair .firstSecond first second, available, old, new =>
      inTurn first.size first.partway second.partway available old new
  | pair .secondFirst first second, available, old, new =>
      if second.size new.2 ≤ available then
        (first.partway (available - second.size new.2) old.1 new.1, new.2)
      else (old.1, second.partway available old.2 new.2)
  | array _ element, available, old, new =>
      allInTurn element.size element.partway available old new
  | vector _ length element, available, old, new =>
      if length.byteSize ≤ available then
        fitting element.size (available - length.byteSize) new
      else old
  | optional _ value, available, old, new =>
      if 1 + new.elim 0 value.size ≤ available then new else old
  | uniquePtr pointee, available, old, new =>
      new.map (pointee.partway available (old.getD pointee.fresh))
  | substitute _ _, _, _, new | done, _, _, new => new
  | field format rest, available, old, new =>
      inTurn format.size format.partway rest.partway available old new

variable (P : Platform) {σ : Type} {source : Source σ} {D : Delivery σ Byte}

def StopsPartway {α : Type} (D : Delivery σ Byte) (step : EStateM Failure (σ × α) Unit)
    (p : Parser Byte Failure α) (blank : α → Prop) (partway : Nat → α → α → α) : Prop :=
  ∀ (state : σ) (target : α) (missing : List Byte) (value : α) (rest : List Byte),
    D.ready state → blank target → p.run (D.unread state ++ missing) = .ok (value, rest) →
      (finalState (step (state, target))).2 = partway (D.unread state).length target value

section Assigned

theorem Integer.deserialize_untouched (format : Integer) (type : ValueType)
    (target : BitVec type.bits) : Untouched target (format.deserialize source type) := by
  unfold Integer.deserialize
  apply Untouched.bind
  · apply Keeps.foldlM
    intro result b
    exact (Keeps.withLocal target _ _).bind fun byte => Keeps.pure _
  · intro result
    split
    · exact Untouched.assignTarget target _
    · exact Untouched.assignTarget target _

theorem Boolean.deserialize_untouched (format : Boolean) (target : Bool) :
    Untouched target (format.deserialize source) := by
  cases format with
  | boolean =>
      exact Untouched.bind target (Keeps.withLocal target _ _) fun _ =>
        Untouched.assignTarget target _
  | booleanNot underlying =>
      exact Untouched.bind target (Keeps.withLocal target _ _) fun _ =>
        Untouched.assignTarget target _

theorem Optional.deserialize_untouched {α : Type} (condition : EStateM Failure (σ × Bool) Unit)
    (fresh : α) (value : EStateM Failure (σ × α) Unit) (target : Option α) :
    Untouched target (Optional.deserialize P condition fresh value) := by
  apply Untouched.bind target (Keeps.readTarget target)
  intro held
  apply Untouched.bind target
  · unfold assert
    split
    · exact Keeps.throw _
    · exact Keeps.pure _
  · intro _
    apply Untouched.bind target (Keeps.withLocal target _ _)
    intro isSet
    cases isSet with
    | true =>
        exact Untouched.bind target (Keeps.withLocal target _ _) fun _ =>
          Untouched.assignTarget target _
    | false => exact Untouched.pure target _

end Assigned

namespace Format

@[reducible] def Stops (source : Source σ) (D : Delivery σ Byte) (F : Format) : Prop :=
  StopsPartway D (F.deserialize P source) (F.parse P) F.Blank F.partway

section Cut

variable (F : Format) (delivers : source.Delivers D) {state : σ} {target : F.Value}
  {missing rest : List Byte} {value : F.Value} (ready : D.ready state) (blank : F.Blank target)
  (complete : (F.parse P).run (D.unread state ++ missing) = .ok (value, rest))

include delivers ready blank complete

theorem deserialize_enough (enough : F.size value ≤ (D.unread state).length) :
    ∃ after, F.deserialize P source (state, target) = .ok () (after, value) ∧ D.ready after ∧
      D.unread after ++ missing = rest ∧
      (D.unread after).length = (D.unread state).length - F.size value := by
  obtain ⟨left, parsed, behind, count⟩ :=
    ((F.parse_delimited P).of_cut (F.parse_size P) _ _ _ _ complete).1 enough
  rw [← F.decode_blank P target blank] at parsed
  obtain ⟨after, done, ready', rfl⟩ := (F.deserialize_implements P delivers).ok ready parsed
  exact ⟨after, done, ready', behind, count⟩

theorem deserialize_short (short : (D.unread state).length < F.size value) :
    ∃ after left, F.deserialize P source (state, target) =
      .error insufficientInput (after, left) := by
  have failed := ((F.parse_delimited P).of_cut (F.parse_size P) _ _ _ _ complete).2 short
  rw [← F.decode_blank P target blank] at failed
  obtain ⟨after, left, ended, -⟩ := (F.deserialize_implements P delivers).error ready failed
  exact ⟨after, left, ended⟩

theorem all_or_nothing (untouched : Untouched target (F.deserialize P source)) :
    (finalState (F.deserialize P source (state, target))).2 =
      if F.size value ≤ (D.unread state).length then value else target := by
  by_cases enough : F.size value ≤ (D.unread state).length
  · obtain ⟨after, done, -⟩ := F.deserialize_enough P delivers ready blank complete enough
    rw [if_pos enough, done, finalState]
  · obtain ⟨after, left, ended⟩ :=
      F.deserialize_short P delivers ready blank complete (Nat.not_le.mp enough)
    rw [if_neg enough, ended, finalState, untouched state after left _ ended]

end Cut

section Sequence

variable (F : Format) (delivers : source.Delivers D) (stops : F.Stops P source D) {τ β : Type}
  {next : EStateM Failure (σ × β) Unit} {q : Parser Byte Failure β} {blankNext : β → Prop}
  {partwayNext : Nat → β → β → β} (follows : StopsPartway D next q blankNext partwayNext)

include delivers stops follows

theorem parts_partway (get : τ → F.Value) (set : F.Value → τ → τ) (getNext : τ → β)
    (setNext : β → τ → τ) (apart : ∀ part whole, getNext (set part whole) = getNext whole)
    (state : σ) (whole : τ) (missing middle rest : List Byte) (value : F.Value) (other : β)
    (ready : D.ready state) (blank : F.Blank (get whole)) (blankOther : blankNext (getNext whole))
    (begins : (F.parse P).run (D.unread state ++ missing) = .ok (value, middle))
    (ends : q.run middle = .ok (other, rest)) :
    (finalState ((within get set (F.deserialize P source) >>= fun _ =>
      within getNext setNext next) (state, whole))).2 =
      if F.size value ≤ (D.unread state).length then
        setNext (partwayNext ((D.unread state).length - F.size value) (getNext whole) other)
          (set value whole)
      else set (F.partway (D.unread state).length (get whole) value) whole := by
  by_cases enough : F.size value ≤ (D.unread state).length
  · obtain ⟨after, done, ready', rfl, count⟩ :=
      F.deserialize_enough P delivers ready blank begins enough
    have first : within get set (F.deserialize P source) (state, whole) =
        .ok () (after, set value whole) := by
      simp only [within, done]
    have later := follows after (getNext whole) missing other rest ready' blankOther ends
    rw [count] at later
    rw [if_pos enough, bind_of_ok _ _ _ _ _ first, ← later, within, apart]
    cases next (after, getNext whole) <;> rfl
  · obtain ⟨after, left, ended⟩ :=
      F.deserialize_short P delivers ready blank begins (Nat.not_le.mp enough)
    have first : within get set (F.deserialize P source) (state, whole) =
        .error insufficientInput (after, set left whole) := by
      simp only [within, ended]
    have kept := stops state (get whole) missing value middle ready blank begins
    rw [ended] at kept
    change left = _ at kept
    rw [if_neg enough, bind_of_error _ _ _ _ _ first, ← kept]
    rfl

end Sequence

theorem parsedBefore_fitting (element : Format) (count : Nat) (input missing rest : List Byte)
    (values : List.Vector element.Value count)
    (complete : (repeatN (element.parse P) count).run (input ++ missing) = .ok (values, rest)) :
    parsedBefore (element.parse P) count input =
      fitting element.size input.length values.toList := by
  induction count generalizing input with
  | zero =>
      rw [values.eq_nil]
      rfl
  | succ count ih =>
      obtain ⟨first, middle, begins, complete⟩ := (run_bind_ok _ _ _ _ _).mp complete
      obtain ⟨others, final, ends, made⟩ := (run_bind_ok _ _ _ _ _).mp complete
      cases made
      have cut := (element.parse_delimited P).of_cut (element.parse_size P) _ _ _ _ begins
      rw [List.Vector.toList_cons, fitting, parsedBefore]
      by_cases enough : element.size first ≤ input.length
      · obtain ⟨left, parsed, rfl, count⟩ := cut.1 enough
        rw [if_pos enough, parsed, ← count, ← ih left others ends]
      · rw [if_neg enough, cut.2 (Nat.not_le.mp enough)]

theorem uniquePtr_stops (pointee : Format) (stops : pointee.Stops P source D) :
    (uniquePtr pointee).Stops P source D := by
  intro state target missing value rest ready blank complete
  obtain ⟨pointed, read, rfl⟩ := (run_map_ok _ _ _ _ _).mp complete
  have blankHeld : pointee.Blank (target.getD pointee.fresh) := by
    cases target with
    | none => exact pointee.fresh_blank
    | some held => exact blank held rfl
  have inner := stops state (target.getD pointee.fresh) missing pointed rest ready blankHeld read
  rw [partway, Option.map_some, ← inner]
  have run : (uniquePtr pointee).deserialize P source (state, target) =
      within (fun p => p.getD pointee.fresh) (fun part _ => some part)
        (pointee.deserialize P source) (state, some (target.getD pointee.fresh)) := by
    cases target <;> rfl
  rw [run, within, Option.getD_some]
  cases pointee.deserialize P source (state, target.getD pointee.fresh) <;> rfl

section Cases

variable (delivers : source.Delivers D)

include delivers

theorem array_stops (element : Format) (stops : element.Stops P source D) (length : Nat) :
    StopsPartway D (Array.deserialize (element.deserialize P source) length)
      (repeatN (element.parse P) length) (fun target => ∀ part ∈ target.toList, element.Blank part)
      (fun available => allInTurn element.size element.partway available) := by
  induction length with
  | zero =>
      intro state target missing value rest ready blank complete
      exact List.Vector.eq_nil target
  | succ length ih =>
      intro state target missing value rest ready blank complete
      obtain ⟨first, middle, begins, complete⟩ := (run_bind_ok _ _ _ _ _).mp complete
      obtain ⟨others, final, ends, made⟩ := (run_bind_ok _ _ _ _ _).mp complete
      cases made
      exact element.parts_partway P delivers stops ih List.Vector.head
        (fun head target => head ::ᵥ target.tail) List.Vector.tail
        (fun tail target => target.head ::ᵥ tail) (fun _ _ => rfl) state target missing middle rest
        first others ready (blank _ target.head_mem)
        (fun part inside => blank part (List.Vector.mem_of_mem_tail _ target inside)) begins ends

theorem vector_stops (container : Container) (length : IntegerFormat) (element : Format) :
    (vector container length element).Stops P source D := by
  intro state target missing value rest ready blank complete
  obtain ⟨size, middle, counted, complete⟩ := (run_bind_ok _ _ _ _ _).mp complete
  obtain ⟨reserves, values, read, rfl⟩ := (container.elements_ok P _ _ _ _ _).mp complete
  have sizes : Deserializes D (length.deserialize source (sizeType P)) fun _ =>
      length.parse (sizeType P) := length.toInteger.deserialize_implements delivers (sizeType P)
  have cut := (length.parse_delimited (sizeType P)).of_cut (length.parse_takes (sizeType P))
    _ _ _ _ counted
  rw [partway]
  by_cases enough : length.byteSize ≤ (D.unread state).length
  · obtain ⟨left, parsed, rfl, count⟩ := cut.1 enough
    obtain ⟨after, done, ready', rfl⟩ := sizes.local_ok ready 0 target size left parsed
    have run : (vector container length element).deserialize P source (state, target) =
        Vector.insertElements element.fresh (element.deserialize P source) size.toNat
          (after, []) := by
      rw [deserialize, Vector.deserialize, bind_of_ok _ _ _ _ _ done]
      exact bind_of_ok _ _ _ _ _ (container.reserve_reserves P size.toNat (after, []) reserves)
    rw [if_pos enough, run, insertElements_left (element.deserialize_implements P delivers)
      element.fresh size.toNat after [] ready', List.nil_append, ← count]
    exact parsedBefore_fitting P element _ _ _ _ _ read
  · obtain ⟨after, failed⟩ :=
      sizes.local_error ready 0 target _ (cut.2 (Nat.not_le.mp enough))
    rw [if_neg enough, deserialize, Vector.deserialize, bind_of_error _ _ _ _ _ failed]
    rfl

end Cases

theorem deserialize_stops (delivers : source.Delivers D) (F : Format) : F.Stops P source D := by
  induction F with
  | integer format type =>
      intro state target missing value rest ready blank complete
      exact all_or_nothing P _ delivers ready blank complete (format.deserialize_untouched type _)
  | boolean format =>
      intro state target missing value rest ready blank complete
      exact all_or_nothing P _ delivers ready blank complete (format.deserialize_untouched _)
  | pair order first second ihFirst ihSecond =>
      intro state target missing value rest ready blank complete
      cases order with
      | firstSecond =>
          obtain ⟨here, middle, begins, complete⟩ := (run_bind_ok _ _ _ _ _).mp complete
          obtain ⟨there, final, ends, made⟩ := (run_bind_ok _ _ _ _ _).mp complete
          cases made
          have steps : (pair .firstSecond first second).deserialize P source =
              (onFirst (first.deserialize P source) >>= fun _ =>
                onSecond (second.deserialize P source)) := by
            simp only [deserialize, Pair.deserialize, if_true, ne_eq, not_true_eq_false, if_false,
              bind_pure_unit]
          rw [steps]
          exact first.parts_partway P delivers ihFirst ihSecond Prod.fst
            (fun part whole => (part, whole.2)) Prod.snd (fun part whole => (whole.1, part))
            (fun _ _ => rfl) state target missing middle rest here there ready blank.1 blank.2
            begins ends
      | secondFirst =>
          obtain ⟨there, middle, begins, complete⟩ := (run_bind_ok _ _ _ _ _).mp complete
          obtain ⟨here, final, ends, made⟩ := (run_bind_ok _ _ _ _ _).mp complete
          cases made
          exact second.parts_partway P delivers ihSecond ihFirst Prod.snd
            (fun part whole => (whole.1, part)) Prod.fst (fun part whole => (part, whole.2))
            (fun _ _ => rfl) state target missing middle rest there here ready blank.2 blank.1
            begins ends
  | array length element ih =>
      intro state target missing value rest ready blank complete
      rw [parse_array] at complete
      exact element.array_stops P delivers ih length state target missing value rest ready blank
        complete
  | vector container length element ih => exact vector_stops P delivers container length element
  | optional condition format ih =>
      intro state target missing value rest ready blank complete
      exact all_or_nothing P _ delivers ready blank complete
        (Optional.deserialize_untouched P _ _ _ _)
  | uniquePtr pointee ih => exact uniquePtr_stops P pointee ih
  | substitute type constant =>
      intro state target missing value rest ready blank complete
      cases complete
      rfl
  | done =>
      intro state target missing value rest ready blank complete
      rfl
  | field format others ihFormat ihOthers =>
      intro state target missing value rest ready blank complete
      obtain ⟨here, middle, begins, complete⟩ := (run_bind_ok _ _ _ _ _).mp complete
      obtain ⟨there, final, ends, made⟩ := (run_bind_ok _ _ _ _ _).mp complete
      cases made
      exact format.parts_partway P delivers ihFormat ihOthers Prod.fst
        (fun part whole => (part, whole.2)) Prod.snd (fun part whole => (whole.1, part))
        (fun _ _ => rfl) state target missing middle rest here there ready blank.1 blank.2
        begins ends

end Format

theorem truncated_leaves (F : Format) {τ : Type} {whole : Source τ} {E : Delivery τ Byte}
    (delivers : source.Delivers D) (deliversWhole : whole.Delivers E) (state : σ)
    (ready : D.ready state) (before after : τ) (readyWhole : E.ready before) (missing : List Byte)
    (longer : E.unread before = D.unread state ++ missing) (target value : F.Value)
    (blank : F.Blank target)
    (complete : F.deserialize P whole (before, target) = .ok () (after, value)) :
    (finalState (F.deserialize P source (state, target))).2 =
      F.partway (D.unread state).length target value := by
  have parsed := (F.deserialize_implements P deliversWhole).parsed readyWhole complete
  rw [F.decode_blank P target blank, longer] at parsed
  exact F.deserialize_stops P delivers state target missing value _ ready blank parsed

def record : Format :=
  .structureOf [words, .optional .boolean words, .vector .list ⟨be8, builtin .int8⟩ words]

theorem truncated_leaves_record :
    (finalState (record.deserialize amd64 (rangeSource amd64)
      (makeRangeSource [0, 1, 1, 0, 2, 2, 0, 3, 0],
        ((9 : BitVec 16), none, [(7 : BitVec 16)], ())))).2 =
      ((1 : BitVec 16), some (2 : BitVec 16), [(3 : BitVec 16)], ()) :=
  truncated_leaves amd64 record (range_delivers amd64) (range_delivers amd64)
    (makeRangeSource [0, 1, 1, 0, 2, 2, 0, 3, 0]) (Nat.zero_le _)
    (makeRangeSource [0, 1, 1, 0, 2, 2, 0, 3, 0, 4]) ⟨[0, 1, 1, 0, 2, 2, 0, 3, 0, 4], 10⟩
    (Nat.zero_le _) [4] rfl ((9 : BitVec 16), none, [(7 : BitVec 16)], ())
    ((1 : BitVec 16), some (2 : BitVec 16), [(3 : BitVec 16), (4 : BitVec 16)], ())
    ⟨trivial, rfl, trivial, trivial⟩ (by decide +kernel)

end Szn
