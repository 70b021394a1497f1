import Szn.Spec.Range

set_option autoImplicit false

namespace Szn

open Stateful Simulation

namespace Source

variable {σ : Type} (source : Source σ)

-- One read after the other, into the two parts of a destination.
def readBoth (first second : Nat) : EStateM Failure (σ × List Byte) Unit := do
  source.read first
  within (fun destination => destination.drop first)
    (fun rest destination => destination.take first ++ rest) (source.read second)

structure ChunksAgree (state : σ) (first second : Nat) : Prop where
  succeeds : ∀ destination, first + second ≤ destination.length →
    ((∃ after bytes, source.read (first + second) (state, destination) = .ok () (after, bytes)) ↔
      ∃ after bytes, source.readBoth first second (state, destination) = .ok () (after, bytes))
  agrees : ∀ destination, first + second ≤ destination.length → ∀ after later bytes other,
    source.read (first + second) (state, destination) = .ok () (after, bytes) →
      source.readBoth first second (state, destination) = .ok () (later, other) →
        bytes = other ∧ Indistinguishable source.perform source.Permits after later

variable {source}

theorem readBoth_ok {first second : Nat} {state middle after : σ}
    {destination bytes rest : List Byte}
    (begins : source.read first (state, destination) = .ok () (middle, bytes))
    (ends : source.read second (middle, bytes.drop first) = .ok () (after, rest)) :
    source.readBoth first second (state, destination) =
      .ok () (after, bytes.take first ++ rest) := by
  simp only [readBoth, bind_run, begins, within, ends]

theorem readBoth_error_first {first second : Nat} {state middle : σ} {failure : Failure}
    {destination bytes : List Byte}
    (fails : source.read first (state, destination) = .error failure (middle, bytes)) :
    source.readBoth first second (state, destination) = .error failure (middle, bytes) := by
  simp only [readBoth, bind_run, fails]

theorem readBoth_error_second {first second : Nat} {state middle after : σ} {failure : Failure}
    {destination bytes rest : List Byte}
    (begins : source.read first (state, destination) = .ok () (middle, bytes))
    (fails : source.read second (middle, bytes.drop first) = .error failure (after, rest)) :
    source.readBoth first second (state, destination) =
      .error failure (after, bytes.take first ++ rest) := by
  simp only [readBoth, bind_run, begins, within, fails]

theorem ChunksAgree.of_failing {state : σ} {first second : Nat}
    (whole : ∀ destination, first + second ≤ destination.length → ∃ failure after left,
      source.read (first + second) (state, destination) = .error failure (after, left))
    (both : ∀ destination, first + second ≤ destination.length → ∃ failure after left,
      source.readBoth first second (state, destination) = .error failure (after, left)) :
    source.ChunksAgree state first second where
  succeeds destination room := by
    obtain ⟨_, _, _, fails⟩ := whole destination room
    obtain ⟨_, _, _, failsBoth⟩ := both destination room
    simp [fails, failsBoth]
  agrees destination room after later bytes other done := by
    obtain ⟨_, _, _, fails⟩ := whole destination room
    rw [fails] at done
    cases done

/-- A source that holds its unread bytes, and shows nothing else once it was read. -/
structure Serves (source : Source σ) (fits : Nat → Prop) (holds settled : σ → List Byte → Prop) :
    Prop where
  smaller : ∀ length longer, length ≤ longer → fits longer → fits length
  enough : ∀ state unread length destination, holds state unread →
    length ≤ destination.length → fits length → length ≤ unread.length →
    ∃ after, source.read length (state, destination) =
        .ok () (after, unread.take length ++ destination.drop length) ∧
      settled after (unread.drop length)
  short : ∀ state unread length destination, holds state unread →
    length ≤ destination.length → (¬ fits length ∨ unread.length < length) →
    ∃ failure after left, source.read length (state, destination) = .error failure (after, left)
  again : ∀ state unread, settled state unread → holds state unread
  same : ∀ state other unread, settled state unread → settled other unread →
    Indistinguishable source.perform source.Permits state other

namespace Serves

variable {fits : Nat → Prop} {holds settled : σ → List Byte → Prop}
  (serves : source.Serves fits holds settled) (state : σ) (unread : List Byte)
  (held : holds state unread) (first second : Nat) (destination : List Byte)
  (room : first + second ≤ destination.length)

-- The first read leaves the rest of the destination to the second.
include serves held room in
theorem read_first (fitsFirst : fits first) (enough : first ≤ unread.length) :
    ∃ middle bytes, source.read first (state, destination) = .ok () (middle, bytes) ∧
      bytes.take first = unread.take first ∧ bytes.drop first = destination.drop first ∧
        holds middle (unread.drop first) := by
  obtain ⟨middle, begins, between⟩ :=
    serves.enough state unread first destination held (by omega) fitsFirst enough
  have full : (unread.take first).length = first := by
    rw [List.length_take]
    omega
  exact ⟨middle, _, begins, List.take_left' full, List.drop_left' full,
    serves.again _ _ between⟩

include serves held room in
theorem readBoth_enough (fitsFirst : fits first) (fitsSecond : fits second)
    (enough : first + second ≤ unread.length) :
    ∃ later, source.readBoth first second (state, destination) =
        .ok () (later, unread.take (first + second) ++ destination.drop (first + second)) ∧
      settled later (unread.drop (first + second)) := by
  obtain ⟨middle, bytes, begins, taken, left, between⟩ :=
    serves.read_first state unread held first second destination room fitsFirst (by omega)
  obtain ⟨later, ends, settled'⟩ := serves.enough middle (unread.drop first) second
    (destination.drop first) between (by rw [List.length_drop]; omega) fitsSecond
    (by rw [List.length_drop]; omega)
  rw [List.drop_drop] at ends settled'
  rw [← left] at ends
  refine ⟨later, ?_, settled'⟩
  rw [readBoth_ok begins ends, taken, ← List.append_assoc, ← List.take_add]

include serves held room in
theorem readBoth_short
    (short : ¬ (fits first ∧ fits second ∧ first + second ≤ unread.length)) :
    ∃ failure after left,
      source.readBoth first second (state, destination) = .error failure (after, left) := by
  by_cases firstReads : fits first ∧ first ≤ unread.length
  · obtain ⟨middle, bytes, begins, -, left, between⟩ := serves.read_first state unread held
      first second destination room firstReads.1 firstReads.2
    have secondShort : ¬ fits second ∨ (unread.drop first).length < second := by
      rw [List.length_drop]
      by_cases fitsSecond : fits second
      · right
        have missing : ¬ first + second ≤ unread.length :=
          fun enough => short ⟨firstReads.1, fitsSecond, enough⟩
        omega
      · exact Or.inl fitsSecond
    obtain ⟨_, _, _, fails⟩ := serves.short middle (unread.drop first) second
      (destination.drop first) between (by rw [List.length_drop]; omega) secondShort
    rw [← left] at fails
    exact ⟨_, _, _, readBoth_error_second begins fails⟩
  · have firstShort : ¬ fits first ∨ unread.length < first := by
      rwa [← Nat.not_le, ← not_and_or]
    obtain ⟨_, _, _, fails⟩ :=
      serves.short state unread first destination held (by omega) firstShort
    exact ⟨_, _, _, readBoth_error_first fails⟩

include serves held in
theorem chunks_agree_iff :
    source.ChunksAgree state first second ↔
      ¬ (fits first ∧ fits second ∧ ¬ fits (first + second) ∧
        first + second ≤ unread.length) := by
  by_cases parts : fits first ∧ fits second ∧ first + second ≤ unread.length
  · obtain ⟨fitsFirst, fitsSecond, enough⟩ := parts
    have both (destination : List Byte) (room : first + second ≤ destination.length) :=
      serves.readBoth_enough state unread held first second destination room fitsFirst
        fitsSecond enough
    by_cases whole : fits (first + second)
    · refine iff_of_true ⟨?_, ?_⟩ (fun bad => bad.2.2.1 whole)
      · intro destination room
        obtain ⟨_, done, -⟩ := serves.enough state unread _ destination held room whole enough
        obtain ⟨_, doneBoth, -⟩ := both destination room
        simp [done, doneBoth]
      · intro destination room after later bytes other readWhole readParts
        obtain ⟨_, done, settled⟩ :=
          serves.enough state unread _ destination held room whole enough
        obtain ⟨_, doneBoth, settled'⟩ := both destination room
        rw [done] at readWhole
        rw [doneBoth] at readParts
        cases readWhole
        cases readParts
        exact ⟨rfl, serves.same _ _ _ settled settled'⟩
    · refine iff_of_false ?_ (not_not_intro ⟨fitsFirst, fitsSecond, whole, enough⟩)
      intro agree
      have room : first + second ≤ (List.replicate (first + second) (0 : Byte)).length := by simp
      obtain ⟨later, doneBoth, -⟩ := both _ room
      obtain ⟨_, _, done⟩ := (agree.succeeds _ room).mpr ⟨_, _, doneBoth⟩
      obtain ⟨_, _, _, fails⟩ := serves.short state unread _ _ held room (Or.inl whole)
      rw [fails] at done
      cases done
  · refine iff_of_true ?_ (fun bad => parts ⟨bad.1, bad.2.1, bad.2.2.2⟩)
    apply ChunksAgree.of_failing
    · intro destination room
      apply serves.short state unread _ destination held room
      by_contra reads
      rw [not_or, not_not, Nat.not_lt] at reads
      exact parts ⟨serves.smaller _ _ (by omega) reads.1,
        serves.smaller _ _ (by omega) reads.1, reads.2⟩
    · intro destination room
      exact serves.readBoth_short state unread held first second destination room parts

end Serves

end Source

theorem range_serves (P : Platform) (text : List Byte) (pointed : text ≠ []) :
    (rangeSource P).Serves (fun _ => True)
      (fun state unread => (rangeView text).ready state ∧ (rangeView text).unread state = unread)
      (fun state unread =>
        (rangeView text).ready state ∧ (rangeView text).unread state = unread) where
  smaller _ _ _ _ := trivial
  enough state unread length destination held room _ enough := by
    obtain ⟨ready, rfl⟩ := held
    obtain ⟨after, done, ready', left, -⟩ := (range_presents P text).read_enough state destination
      length ready (Or.inr pointed) room enough
    exact ⟨after, done, ready', left⟩
  short state unread length destination held room short := by
    obtain ⟨ready, rfl⟩ := held
    obtain ⟨after, fails, -⟩ := (range_presents P text).read_short state destination length ready
      (short.resolve_left (not_not_intro trivial))
    exact ⟨_, _, _, fails⟩
  again _ _ settled := settled
  same state other unread settled settled' := by
    obtain ⟨⟨range, inside⟩, rfl⟩ := settled
    obtain ⟨⟨range', inside'⟩, same⟩ := settled'
    have lengths := congrArg List.length same
    simp only [rangeView, range, range', List.length_drop] at lengths
    have positions : state.position = other.position := by omega
    have equal : state = other := by
      cases state
      cases other
      simp_all
    rw [equal]
    exact Indistinguishable.refl _ _ _

theorem range_chunks_agree (P : Platform) (text : List Byte) (state : RangeSource)
    (reached : Reachable (rangeSource P).perform (rangeSource P).Permits (makeRangeSource text)
      state)
    (first second : Nat) : (rangeSource P).ChunksAgree state first second := by
  have ready := range_reached .contiguous P text state reached
  by_cases empty : text = []
  · have fails (length : Nat) (destination : List Byte) :=
      range_read_empty P state (ready.1.trans empty) length destination
    apply Source.ChunksAgree.of_failing
    · intro destination _
      exact ⟨_, _, _, fails (first + second) destination⟩
    · intro destination _
      exact ⟨_, _, _, Source.readBoth_error_first (fails first destination)⟩
  · rw [(range_serves P text empty).chunks_agree_iff state _ ⟨ready, rfl⟩]
    simp

theorem stream_serves (P : Platform) (loud : Bool) :
    (streamSource P).Serves (fun length => length ≤ P.bufferMax)
      (fun state unread => ∃ visible, StreamSource.Shows loud state ⟨unread, visible⟩)
      (fun state unread => StreamSource.Shows loud state ⟨unread, 0⟩) where
  smaller _ _ shorter fits := shorter.trans fits
  enough state unread length destination held room fits enough := by
    obtain ⟨visible, shows⟩ := held
    exact shows.read_ok length destination room fits enough
  short state unread length destination held room short := by
    obtain ⟨visible, shows⟩ := held
    by_cases fails : Window.Fails P.bufferMax loud length ⟨unread, visible⟩
    · obtain ⟨after, failed, -⟩ := shows.read_fails length destination fails
      exact ⟨_, _, _, failed⟩
    · rw [Nat.not_le] at short
      obtain ⟨after, failed, -⟩ := shows.read_short length destination fails short
      exact ⟨_, _, _, failed⟩
  again _ _ settled := ⟨0, settled⟩
  same state other unread settled settled' :=
    (StreamSource.stream_refines P loud).indistinguishable StreamSource.permits_iff
      state other _ settled settled'

theorem stream_chunks_agree_iff (P : Platform) (input : Istream) (state : StreamSource)
    (reached : Reachable (streamSource P).perform (streamSource P).Permits
      (makeStreamSource input) state)
    (first second : Nat) :
    (streamSource P).ChunksAgree state first second ↔
      ¬ (first ≤ P.bufferMax ∧ second ≤ P.bufferMax ∧ P.bufferMax < first + second ∧
        first + second ≤ state.buffer.length + state.input.undelivered.length) := by
  obtain ⟨window, -, shows⟩ :=
    (StreamSource.stream_refines P input.exceptions).reachable StreamSource.permits_iff
      _ _ _ (StreamSource.start_shows input.exceptions input.undelivered input.gcount) reached
  rw [(stream_serves P input.exceptions).chunks_agree_iff state window.unread
    ⟨window.visible, shows⟩, Nat.not_le, ← shows.unread, List.length_append]

theorem empty_serves :
    emptySource.Serves (fun _ => True) (fun _ unread => unread = [])
      (fun _ unread => unread = []) where
  smaller _ _ _ _ := trivial
  enough _ unread length destination held _ _ enough := by
    subst held
    obtain rfl : length = 0 := Nat.le_zero.mp enough
    exact ⟨(), rfl, rfl⟩
  short _ unread length destination held _ short := by
    subst held
    have positive : 0 < length := short.resolve_left (not_not_intro trivial)
    refine ⟨insufficientInput, (), destination, ?_⟩
    simp [Source.read, onEnvironment, emptySource, positive]
  again _ _ settled := settled
  same _ _ _ _ _ := Indistinguishable.refl _ _ _

theorem zero_read (length : Nat) (destination : List Byte) (room : length ≤ destination.length) :
    (length ≤ 1 → zeroSource.read length ((), destination) =
        .ok () ((), List.replicate length 0 ++ destination.drop length)) ∧
      (1 < length → zeroSource.read length ((), destination) =
        .error insufficientInput ((), destination)) := by
  constructor
  · intro one
    have shown : ¬ 1 < length := Nat.not_lt.mpr one
    have inBounds : ¬ destination.length < length := Nat.not_lt.mpr room
    have copied : List.take length [0#8] = List.replicate length 0#8 := by
      rw [← List.replicate_one, List.take_replicate, Nat.min_eq_left one]
    simp [Source.read, copyTo, onEnvironment, readTarget, assignTarget, zeroSource, inBounds,
      shown, copied]
  · intro more
    simp [Source.read, onEnvironment, zeroSource, more]

theorem zero_read_iff (length : Nat) (destination : List Byte)
    (room : length ≤ destination.length) :
    zeroSource.read length ((), destination) =
        .ok () ((), List.replicate length 0 ++ destination.drop length) ↔ length ≤ 1 := by
  obtain ⟨reads, fails⟩ := zero_read length destination room
  refine ⟨?_, reads⟩
  intro done
  by_contra more
  rw [fails (Nat.not_le.mp more)] at done
  cases done

theorem zero_readBoth (first second : Nat) (whole : first + second ≤ 1) (destination : List Byte)
    (room : first + second ≤ destination.length) :
    zeroSource.readBoth first second ((), destination) =
      .ok () ((), List.replicate (first + second) 0 ++ destination.drop (first + second)) := by
  have begins := (zero_read first destination (by omega)).1 (by omega)
  have rest : (List.replicate first 0 ++ destination.drop first).drop first =
      destination.drop first := List.drop_left' List.length_replicate
  have ends := (zero_read second (destination.drop first)
    (by rw [List.length_drop]; omega)).1 (by omega)
  rw [← rest] at ends
  rw [Source.readBoth_ok begins ends, List.take_left' List.length_replicate, rest,
    List.drop_drop, ← List.append_assoc, List.replicate_append_replicate]

theorem zero_chunks_agree_iff (first second : Nat) :
    zeroSource.ChunksAgree () first second ↔ ¬ (first = 1 ∧ second = 1) := by
  constructor
  · rintro agree ⟨rfl, rfl⟩
    have begins := (zero_read 1 [0, 0] (by decide)).1 (Nat.le_refl 1)
    have ends := (zero_read 1 [0] (by decide)).1 (Nat.le_refl 1)
    obtain ⟨after, bytes, done⟩ :=
      (agree.succeeds [0, 0] (by decide)).mpr ⟨_, _, Source.readBoth_ok begins ends⟩
    rw [(zero_read 2 [0, 0] (by decide)).2 (by decide)] at done
    cases done
  · intro other
    by_cases whole : first + second ≤ 1
    · have both := zero_readBoth first second whole
      constructor
      · intro destination room
        simp [(zero_read _ destination room).1 whole, both destination room]
      · intro destination room after later bytes other readWhole readParts
        rw [(zero_read _ destination room).1 whole] at readWhole
        rw [both destination room] at readParts
        cases readWhole
        cases readParts
        exact ⟨rfl, Indistinguishable.refl _ _ _⟩
    · apply Source.ChunksAgree.of_failing
      · intro destination room
        exact ⟨_, _, _, (zero_read _ destination room).2 (Nat.not_le.mp whole)⟩
      · intro destination room
        by_cases long : 1 < first
        · exact ⟨_, _, _,
            Source.readBoth_error_first ((zero_read first destination (by omega)).2 long)⟩
        · have begins := (zero_read first destination (by omega)).1 (Nat.not_lt.mp long)
          have fails := (zero_read second
            ((List.replicate first 0 ++ destination.drop first).drop first)
            (by rw [List.drop_left' List.length_replicate, List.length_drop]; omega)).2 (by omega)
          exact ⟨_, _, _, Source.readBoth_error_second begins fails⟩

theorem reads_independent_of_chunks_iff (P : Platform) (first second : Nat) :
    (∀ text state, Reachable (rangeSource P).perform (rangeSource P).Permits
        (makeRangeSource text) state → (rangeSource P).ChunksAgree state first second) ∧
      (∀ input state, Reachable (streamSource P).perform (streamSource P).Permits
          (makeStreamSource input) state →
        ((streamSource P).ChunksAgree state first second ↔
          ¬ (first ≤ P.bufferMax ∧ second ≤ P.bufferMax ∧ P.bufferMax < first + second ∧
            first + second ≤ state.buffer.length + state.input.undelivered.length))) ∧
      emptySource.ChunksAgree () first second ∧
      (zeroSource.ChunksAgree () first second ↔ ¬ (first = 1 ∧ second = 1)) ∧
      ∀ length destination, length ≤ destination.length →
        (zeroSource.read length ((), destination) =
          .ok () ((), List.replicate length 0 ++ destination.drop length) ↔ length ≤ 1) := by
  refine ⟨?_, ?_, ?_, zero_chunks_agree_iff first second, zero_read_iff⟩
  · intro text state reached
    exact range_chunks_agree P text state reached first second
  · intro input state reached
    exact stream_chunks_agree_iff P input state reached first second
  · rw [empty_serves.chunks_agree_iff () [] rfl]
    simp

theorem reads_independent_of_chunks_samples :
    (rangeSource amd64).ChunksAgree (makeRangeSource [1, 2, 3]) 1 2 ∧
      (streamSource amd64).ChunksAgree (makeStreamSource ⟨[1, 2, 3], 0, true⟩) 1 2 ∧
      ¬ zeroSource.ChunksAgree () 1 1 := by
  refine ⟨?_, ?_, ?_⟩
  · exact (reads_independent_of_chunks_iff amd64 1 2).1 _ _ ⟨[], trivial, rfl⟩
  · exact ((reads_independent_of_chunks_iff amd64 1 2).2.1 _ _ ⟨[], trivial, rfl⟩).mpr
      (by decide)
  · rw [(reads_independent_of_chunks_iff amd64 1 1).2.2.2.1]
    decide

theorem zero_source_splits :
    zeroSource.read 2 ((), [1, 1]) = .error insufficientInput ((), [1, 1]) ∧
      zeroSource.readBoth 1 1 ((), [1, 1]) = .ok () ((), [0, 0]) := by
  constructor <;> decide

end Szn
