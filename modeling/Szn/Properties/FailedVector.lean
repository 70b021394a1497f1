import Szn.Library.Projection
import Szn.Spec.RoundTrip
import Szn.Spec.Source

set_option autoImplicit false

namespace Szn

open Stateful Parsing

variable {σ α : Type} {source : Source σ} {D : Delivery σ Byte}

def parsedBefore (p : Parser Byte Failure α) : (count : Nat) → List Byte → List α
  | 0, _ => []
  | count + 1, input =>
      match p.run input with
      | .error _ => []
      | .ok (value, rest) => value :: parsedBefore p count rest

section Reserve

variable {τ : Type} (P : Platform) (target : Container) (size : Nat) (state : τ)

theorem Container.reserve_reserves (room : target.Reserves P size) :
    target.reserve P size state = .ok () state := by
  cases target with
  | vector maxSize =>
      rw [reserve, if_neg (Nat.not_lt.mpr room)]
      rfl
  | list | deque | string => rfl

end Reserve

section Elements

variable {element : EStateM Failure (σ × α) Unit} {spec : α → Parser Byte Failure α}
  (reads : Deserializes D element spec) (fresh : α) (count : Nat) (state : σ) (v : List α)
  (ready : D.ready state)

include reads ready

theorem insertElements_left :
    (finalState (Vector.insertElements fresh element count (state, v))).2 =
      v ++ parsedBefore (spec fresh) count (D.unread state) := by
  induction count generalizing state v with
  | zero => exact (List.append_nil v).symm
  | succ count ih =>
      rw [parsedBefore]
      cases parsed : (spec fresh).run (D.unread state) with
      | error failure =>
          obtain ⟨after, failed⟩ := reads.local_error ready fresh v failure parsed
          rw [Vector.insertElements, bind_of_error _ _ _ _ _ failed]
          exact (List.append_nil v).symm
      | ok found =>
          obtain ⟨value, rest⟩ := found
          obtain ⟨after, done, ready', rfl⟩ := reads.local_ok ready fresh v value rest parsed
          rw [Vector.insertElements, bind_of_ok _ _ _ _ _ done]
          have later := ih after (v ++ [value]) ready'
          rw [List.append_assoc] at later
          exact later

end Elements

def words : Format := .integer ⟨be16, builtin .int16⟩ (.unsigned 16)

end Szn
