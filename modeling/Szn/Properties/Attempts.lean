import Szn.Library.Projection
import Szn.Model.ReaderWriter
import Szn.Spec.Coupling
import Szn.Spec.Queue

set_option autoImplicit false

namespace Szn

open Stateful Simulation

variable {σ ρ : Type} (P : Platform)

structure Attempt (F : Format) where
  result : Except Failure Unit
  object : F.Value

abbrev Attempted := (F : Format) × Attempt F

-- reader::value into an object that exists already; whoever calls it catches the exception.
def Reader.attempt (source : Source σ) (item : Item) (state : σ) : Attempted × σ :=
  let run := Reader.value P source item.1 (state, item.2)
  (⟨item.1, ⟨outcome run, (finalState run).2⟩⟩, (finalState run).1)

def View.alike (view : View σ) (other : View ρ) (first : σ) (second : ρ) : Prop :=
  view.ready first ∧ other.ready second ∧ view.unread first = other.unread second

theorem Source.Presents.reading {source : Source σ} {other : Source ρ} {view : View σ}
    {view' : View ρ} (presents : source.Presents view) (presents' : other.Presents view') :
    Reading (.exact (view.alike view')) source other where
  coupled _ _ related := ⟨related, related⟩
  byte first second related := by
    obtain ⟨ready, ready', same⟩ := related
    by_cases enough : 1 ≤ (view.unread first).length
    · obtain ⟨after, done, readyAfter, left⟩ := presents.delivers.enough first [0] 1 ready
        Nat.one_pos (by simp) enough
      obtain ⟨after', done', readyAfter', left'⟩ := presents'.delivers.enough second [0] 1 ready'
        Nat.one_pos (by simp) (same ▸ enough)
      rw [done, done', same]
      exact .ok () _ after after' ⟨readyAfter, readyAfter', by rw [left, left', same]⟩
    · have short : (view.unread first).length < 1 := Nat.not_le.mp enough
      obtain ⟨after, failed, readyAfter, left, -⟩ :=
        presents.read_short first [0] 1 ready short
      obtain ⟨after', failed', readyAfter', left', -⟩ :=
        presents'.read_short second [0] 1 ready' (same ▸ short)
      rw [failed, failed']
      exact .error _ _ after after' ⟨readyAfter, readyAfter', by rw [left, left', same]⟩

theorem Reader.attempt_alike {source : Source σ} {other : Source ρ} {related : σ → ρ → Prop}
    (reading : Reading (.exact related) source other) (item : Item) (first : σ) (second : ρ)
    (here : related first second) :
    (Reader.attempt P source item first).1 = (Reader.attempt P other item second).1 ∧
      related (Reader.attempt P source item first).2 (Reader.attempt P other item second).2 := by
  have ends := item.1.deserialize_couples reading P item.2 first second here
  unfold Reader.attempt Reader.value
  generalize item.1.deserialize P source (first, item.2) = run at ends ⊢
  generalize item.1.deserialize P other (second, item.2) = run' at ends ⊢
  cases ends with
  | ok value target after after' related => exact ⟨rfl, related⟩
  | error failure target after after' failed => exact ⟨rfl, failed⟩
  | excused failure left other excused => exact excused.elim

theorem attempts_alike (items : List Item) (range : RangeSource) (stream : StreamSource)
    (onRange : range.position ≤ range.range.length) (onStream : (streamView P).ready stream)
    (same : range.range.drop range.position = stream.buffer ++ stream.input.undelivered) :
    let fromRange := run (Reader.attempt P (rangeSource P)) items range
    let fromStream := run (Reader.attempt P (streamSource P)) items stream
    fromRange.1 = fromStream.1 ∧
      fromRange.2.range.drop fromRange.2.position =
        fromStream.2.buffer ++ fromStream.2.input.undelivered := by
  intro fromRange fromStream
  have reading := (range_presents P range.range).reading (stream_presents P)
  have refines : Refines ((rangeView range.range).alike (streamView P)) (fun _ _ => True)
      (Reader.attempt P (rangeSource P)) (Reader.attempt P (streamSource P)) :=
    fun item first second related _ => Reader.attempt_alike P reading item first second related
  obtain ⟨shown, -, -, unread⟩ := refines.run items range stream
    ⟨⟨rfl, onRange⟩, onStream, same⟩ (follows_unrestricted _ items stream)
  exact ⟨shown, unread⟩

theorem attempts_alike_truncated :
    let number : Item := ⟨.integer ⟨be16, by decide⟩ (.unsigned 16), (0 : BitVec 16)⟩
    let text : List Byte := [1, 2, 3]
    let fromRange := run (Reader.attempt amd64 (rangeSource amd64)) [number, number, number]
      (makeRangeSource text)
    let fromStream := run (Reader.attempt amd64 (streamSource amd64)) [number, number, number]
      (makeStreamSource ⟨text, 0, false⟩)
    fromRange.1 = fromStream.1 ∧
      fromRange.2.range.drop fromRange.2.position =
        fromStream.2.buffer ++ fromStream.2.input.undelivered :=
  attempts_alike amd64 _ (makeRangeSource [1, 2, 3]) (makeStreamSource ⟨[1, 2, 3], 0, false⟩)
    (Nat.zero_le _) ⟨Nat.le_refl _, rfl, by decide⟩ rfl

/-- Behind a failure for want of input nothing is unread; nothing is ever put back. -/
def View.keeps (view : View σ) (text : List Byte) : Coupling Failure σ σ :=
  .invariant (fun state => view.ready state ∧ view.unread state <:+ text) fun failure state =>
    view.ready state ∧ view.unread state <:+ text ∧
      (failure = insufficientInput → view.unread state = [])

theorem Source.Presents.keeps {source : Source σ} {view : View σ}
    (presents : source.Presents view) (text : List Byte) :
    Reading (view.keeps text) source source where
  coupled _ _ related :=
    ⟨⟨related.2.1, related.2.2, fun same => by cases same⟩,
      ⟨related.2.1, related.2.2, fun same => by cases same⟩⟩
  byte state _ related := by
    obtain ⟨rfl, ready, inside⟩ := related
    by_cases enough : 1 ≤ (view.unread state).length
    · obtain ⟨after, done, readyAfter, left⟩ := presents.delivers.enough state [0] 1 ready
        Nat.one_pos (by simp) enough
      rw [done]
      refine .ok () _ after after ⟨rfl, readyAfter, ?_⟩
      rw [left]
      exact (List.drop_suffix 1 _).trans inside
    · obtain ⟨after, failed, readyAfter, left, -⟩ :=
        presents.read_short state [0] 1 ready (Nat.not_le.mp enough)
      have empty : view.unread state = [] := List.length_eq_zero_iff.mp (by omega)
      rw [failed]
      refine .error _ _ after after ⟨readyAfter, by rw [left]; exact inside, fun _ => ?_⟩
      rw [left, empty]

theorem Reader.attempt_drains {source : Source σ} {view : View σ}
    (presents : source.Presents view) (item : Item) (state : σ) (ready : view.ready state) :
    let next := Reader.attempt P source item state
    view.ready next.2 ∧ view.unread next.2 <:+ view.unread state ∧
      (next.1.2.result = .error insufficientInput → view.unread next.2 = []) := by
  have kept := (item.1.deserialize_couples (presents.keeps (view.unread state)) P).kept state
    item.2 ⟨ready, List.suffix_refl _⟩
  unfold Reader.attempt Reader.value
  generalize item.1.deserialize P source (state, item.2) = run at kept ⊢
  cases run with
  | ok value after => exact ⟨kept.1, kept.2, fun failed => by cases failed⟩
  | error failure after =>
      exact ⟨kept.1, kept.2.1, fun failed => kept.2.2 (Except.error.inj failed)⟩

theorem attempts_drain {source : Source σ} {view : View σ} (presents : source.Presents view)
    (items : List Item) (state : σ) (ready : view.ready state) :
    let session := run (Reader.attempt P source) items state
    view.ready session.2 ∧ view.unread session.2 <:+ view.unread state ∧
      ∀ attempt ∈ session.1, attempt.2.result = .error insufficientInput →
        view.unread session.2 = [] := by
  induction items generalizing state with
  | nil => exact ⟨ready, List.suffix_refl _, fun attempt member => by cases member⟩
  | cons item rest ih =>
      obtain ⟨ready', inside, drained⟩ := Reader.attempt_drains P presents item state ready
      obtain ⟨ready'', inside', drained'⟩ := ih _ ready'
      refine ⟨ready'', inside'.trans inside, ?_⟩
      intro attempt member failed
      rcases List.mem_cons.mp member with rfl | later
      · have empty := drained failed
        rw [empty] at inside'
        exact List.suffix_nil.mp inside'
      · exact drained' attempt later failed

theorem attempts_drain_truncated :
    let number : Item := ⟨.integer ⟨be16, by decide⟩ (.unsigned 16), (0 : BitVec 16)⟩
    let session := run (Reader.attempt amd64 (streamSource amd64)) [number, number]
      (makeStreamSource ⟨[1, 2, 3], 0, false⟩)
    ∀ attempt ∈ session.1, attempt.2.result = .error insufficientInput →
      (streamView amd64).unread session.2 = [] :=
  (attempts_drain amd64 (stream_presents amd64) _ (makeStreamSource ⟨[1, 2, 3], 0, false⟩)
    ⟨Nat.le_refl _, rfl, by decide⟩).2.2

end Szn
