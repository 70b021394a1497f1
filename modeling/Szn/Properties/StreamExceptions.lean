import Szn.Library.Projection
import Szn.Spec.Coupling
import Szn.Spec.Stream

set_option autoImplicit false

namespace Szn

open Stateful

namespace StreamSource

variable (P : Platform)

def withExceptions (loud : Bool) (source : StreamSource) : StreamSource :=
  { source with input := { source.input with exceptions := loud } }

-- How the missing byte is reported.
def shortage (loud : Bool) : Failure := if loud then .streamFailure else insufficientInput

def twins (loud : Bool) : Coupling Failure StreamSource StreamSource where
  related first second := ∃ window, Shows loud first window ∧ Shows (!loud) second window
  excused failure := failure = shortage loud
  failed failure first second :=
    (failure ≠ .streamFailure ∧ failure ≠ insufficientInput) ∧
      ∃ window, Shows loud first window ∧ Shows (!loud) second window

variable {P}

theorem Shows.read_exhausted {loud : Bool} {state : StreamSource} {window : Window}
    (shows : Shows loud state window) (holds : 0 < P.bufferMax) (empty : window.unread = [])
    (destination : List Byte) :
    ∃ after, (streamSource P).read 1 (state, destination) =
      .error (shortage loud) (after, destination) := by
  have covered : min 1 P.bufferMax = 1 := Nat.min_eq_left holds
  cases loud with
  | true =>
      obtain ⟨after, thrown, -⟩ := shows.read_fails (P := P) 1 destination
        ⟨rfl, by rw [empty, covered]; exact Nat.one_pos⟩
      exact ⟨after, thrown⟩
  | false =>
      obtain ⟨after, failed, -⟩ := shows.read_short (P := P) 1 destination
        (fun fails => by cases fails.1) (Or.inr (by rw [empty]; exact Nat.one_pos))
      exact ⟨after, failed⟩

theorem twins_read (holds : 0 < P.bufferMax) (loud : Bool) :
    Reading (twins loud) (streamSource P) (streamSource P) where
  coupled _ _ related :=
    ⟨⟨⟨by simp, by simp [insufficientInput]⟩, related⟩,
      ⟨⟨by simp, by simp [insufficientInput]⟩, related⟩⟩
  byte first second related := by
    obtain ⟨window, shows, shows'⟩ := related
    by_cases empty : window.unread = []
    · obtain ⟨after, failed⟩ := shows.read_exhausted holds empty [0]
      rw [failed]
      exact .excused _ _ _ rfl
    · have enough : 1 ≤ window.unread.length := List.length_pos_of_ne_nil empty
      obtain ⟨after, done, kept⟩ := shows.read_ok (P := P) 1 [0] (by simp) holds enough
      obtain ⟨after', done', kept'⟩ := shows'.read_ok (P := P) 1 [0] (by simp) holds enough
      rw [done, done']
      exact .ok () _ after after' ⟨_, kept, kept'⟩

theorem withExceptions_shows (loud : Bool) (state : StreamSource)
    (inside : state.size ≤ state.buffer.length) :
    Shows loud (state.withExceptions loud)
      ⟨state.buffer ++ state.input.undelivered, state.size⟩ :=
  ⟨rfl, rfl, rfl, inside⟩

-- What a caller sees: how it ended, what is unread, and the object.
def shown {α : Type} (run : EStateM.Result Failure (StreamSource × α) Unit) :
    EStateM.Result Failure (List Byte × α) Unit :=
  mapState (fun state => (state.1.buffer ++ state.1.input.undelivered, state.2)) run

theorem exceptions_replace_shortage (holds : 0 < P.bufferMax) (F : Format) (target : F.Value)
    (state : StreamSource) (inside : state.size ≤ state.buffer.length) :
    let loud := F.deserialize P (streamSource P) (state.withExceptions true, target)
    let quiet := F.deserialize P (streamSource P) (state.withExceptions false, target)
    (outcome loud = .error .streamFailure ↔ outcome quiet = .error insufficientInput) ∧
      outcome loud ≠ .error insufficientInput ∧ outcome quiet ≠ .error .streamFailure ∧
      (outcome loud ≠ .error .streamFailure → shown loud = shown quiet) := by
  intro loud quiet
  have onLoud := withExceptions_shows true state inside
  have onQuiet := withExceptions_shows false state inside
  have forth := F.deserialize_couples (twins_read holds true) P target _ _ ⟨_, onLoud, onQuiet⟩
  have back := F.deserialize_couples (twins_read holds false) P target _ _ ⟨_, onQuiet, onLoud⟩
  change (twins true).Ends loud quiet at forth
  change (twins false).Ends quiet loud at back
  generalize loud = first at forth back ⊢
  generalize quiet = second at forth back ⊢
  cases forth with
  | ok value final after after' related =>
      obtain ⟨window, shows, shows'⟩ := related
      have same := shows.unread.trans shows'.unread.symm
      simp [outcome, shown, mapState, same]
  | error failure left after after' failed =>
      obtain ⟨⟨calm, enough⟩, window, shows, shows'⟩ := failed
      have same := shows.unread.trans shows'.unread.symm
      simp [outcome, shown, mapState, same, calm, enough]
  | excused failure left other excused =>
      obtain rfl : failure = .streamFailure := excused
      cases back with
      | error _ _ _ _ failed => exact absurd rfl failed.1.1
      | excused failure' left' other' excused' =>
          obtain rfl : failure' = insufficientInput := excused'
          simp [outcome, insufficientInput]

theorem exceptions_replace_shortage_number :
    let state := makeStreamSource ⟨[1], 0, false⟩
    let number : Format := .integer ⟨be16, by decide⟩ (.unsigned 16)
    let loud := number.deserialize amd64 (streamSource amd64)
      (state.withExceptions true, (0 : BitVec 16))
    let quiet := number.deserialize amd64 (streamSource amd64)
      (state.withExceptions false, (0 : BitVec 16))
    (outcome loud = .error .streamFailure ↔ outcome quiet = .error insufficientInput) ∧
      outcome loud ≠ .error insufficientInput ∧ outcome quiet ≠ .error .streamFailure ∧
      (outcome loud ≠ .error .streamFailure → shown loud = shown quiet) :=
  exceptions_replace_shortage (P := amd64) (by decide)
    (.integer ⟨be16, by decide⟩ (.unsigned 16)) (0 : BitVec 16)
    (makeStreamSource ⟨[1], 0, false⟩) (Nat.le_refl _)

end StreamSource

end Szn
