import Szn.Library.Projection
import Szn.Library.Simulation
import Szn.Spec.Layout

set_option autoImplicit false

namespace Szn

open Stateful Parsing Simulation

variable {σ : Type}

/-- A call of the function template szn::read, whose exception the caller catches. -/
def readContainer (source : Source σ) (request : Nat × List Byte) (state : σ) :
    (Except Failure Unit × List Byte) × σ :=
  let run := Szn.read source request.1 (state, request.2)
  ((outcome run, (finalState run).2), (finalState run).1)

/-- The same call on a queue: the next bytes, or nothing is taken and the container is resized. -/
def cut (request : Nat × List Byte) (queue : List Byte) :
    (Except Failure Unit × List Byte) × List Byte :=
  if request.1 ≤ queue.length then
    ((.ok (), queue.take request.1), queue.drop request.1)
  else
    ((.error insufficientInput, StreamSource.resize request.1 request.2), queue)

theorem readContainer_cuts {source : Source σ} {D : Delivery σ Byte}
    (delivers : source.Delivers D) (request : Nat × List Byte) (state : σ) (queue : List Byte)
    (related : D.ready state ∧ D.unread state = queue) :
    (readContainer source request state).1 = (cut request queue).1 ∧
      D.ready (readContainer source request state).2 ∧
      D.unread (readContainer source request state).2 = (cut request queue).2 := by
  obtain ⟨byteCount, destination⟩ := request
  obtain ⟨ready, rfl⟩ := related
  unfold readContainer cut
  by_cases enough : byteCount ≤ (D.unread state).length
  · obtain ⟨after, done, ready', left⟩ :=
      container_filled delivers byteCount state destination ready enough
    rw [if_pos enough, done]
    exact ⟨rfl, ready', left⟩
  · obtain ⟨after, failed, ready', left⟩ :=
      container_resized delivers byteCount state destination ready (Nat.not_le.mp enough)
    rw [if_neg enough, failed]
    exact ⟨rfl, ready', left⟩

def delivered (reads : List (Except Failure Unit × List Byte)) : List Byte :=
  reads.flatMap fun read =>
    match read.1 with
    | .ok _ => read.2
    | .error _ => []

theorem cuts_partition (requests : List (Nat × List Byte)) (queue : List Byte) :
    delivered (run cut requests queue).1 ++ (run cut requests queue).2 = queue := by
  induction requests generalizing queue with
  | nil => rfl
  | cons request rest ih =>
      by_cases enough : request.1 ≤ queue.length
      · have next := ih (queue.drop request.1)
        simp only [run, cut, if_pos enough, delivered, List.flatMap_cons, List.append_assoc]
          at next ⊢
        rw [next, List.take_append_drop]
      · have next := ih queue
        simp only [run, cut, if_neg enough, delivered, List.flatMap_cons, List.nil_append]
          at next ⊢
        exact next

theorem containers_partition {source : Source σ} {D : Delivery σ Byte}
    (delivers : source.Delivers D) (requests : List (Nat × List Byte)) (state : σ)
    (ready : D.ready state) :
    let session := run (readContainer source) requests state
    session.1 = (run cut requests (D.unread state)).1 ∧
      delivered session.1 ++ D.unread session.2 = D.unread state := by
  intro session
  have refines : Refines (fun state queue => D.ready state ∧ D.unread state = queue)
      (fun _ _ => True) (readContainer source) cut :=
    fun request state queue related _ => readContainer_cuts delivers request state queue related
  obtain ⟨shown, -, left⟩ := refines.run requests state (D.unread state) ⟨ready, rfl⟩
    (follows_unrestricted _ requests _)
  refine ⟨shown, ?_⟩
  rw [show session.1 = _ from shown, show D.unread session.2 = _ from left]
  exact cuts_partition requests _

theorem containers_partition_short :
    let session := run (readContainer (streamSource amd64)) [(2, []), (9, [7]), (0, [8]), (1, [])]
      (makeStreamSource ⟨[1, 2, 3], 0, false⟩)
    delivered session.1 ++ (streamView amd64).unread session.2 = [1, 2, 3] :=
  (containers_partition (stream_presents amd64).delivers _
    (makeStreamSource ⟨[1, 2, 3], 0, false⟩) ⟨Nat.le_refl _, rfl, by decide⟩).2

end Szn
