import Mathlib.Algebra.GroupWithZero.Nat
import Szn.Library.Parser

set_option autoImplicit false

-- A parser that calls itself is the limit of its unrollings to a depth. It terminates on an input
-- where all unrollings from some depth on agree.

namespace Unrolling

open Parsing

variable {ι ε α β : Type} {short : ε}

/-- From a depth on every unrolling gives the same value and rest, or runs out of input. -/
def Settles (short : ε) (p : Nat → Parser ι ε α) (depth : Nat) (input : List ι)
    (post : α → List ι → Prop) : Prop :=
  (∃ value rest, post value rest ∧ ∀ n, depth ≤ n → (p n).run input = .ok (value, rest)) ∨
    ∀ n, depth ≤ n → (p n).run input = .error short

def Taken (input : List ι) (count : Nat) (rest : List ι) : Prop :=
  count ≤ input.length ∧ rest = input.drop count

theorem Taken.append {input middle rest : List ι} {count more : Nat}
    (first : Taken input count middle) (second : Taken middle more rest) :
    Taken input (count + more) rest := by
  obtain ⟨inside, rfl⟩ := first
  obtain ⟨later, rfl⟩ := second
  rw [List.length_drop] at later
  exact ⟨by omega, List.drop_drop⟩

namespace Settles

variable {p : Nat → Parser ι ε α} {depth : Nat} {input : List ι} {post : α → List ι → Prop}

theorem pure (value : α) (holds : post value input) :
    Settles short (fun _ => Pure.pure value) depth input post :=
  Or.inl ⟨value, input, holds, fun _ _ => rfl⟩

theorem and {extra : α → List ι → Prop} (settles : Settles short p depth input post)
    (holds : ∀ value rest, (p depth).run input = .ok (value, rest) → extra value rest) :
    Settles short p depth input fun value rest => post value rest ∧ extra value rest := by
  rcases settles with ⟨value, rest, met, done⟩ | failed
  · exact Or.inl ⟨value, rest, ⟨met, holds value rest (done depth (Nat.le_refl _))⟩, done⟩
  · exact Or.inr failed

theorem bind {f : Nat → α → Parser ι ε β} {after : β → List ι → Prop}
    (first : Settles short p depth input post)
    (second : ∀ value rest, post value rest →
      Settles short (fun n => f n value) depth rest after) :
    Settles short (fun n => p n >>= f n) depth input after := by
  rcases first with ⟨value, middle, holds, done⟩ | failed
  · rcases second value middle holds with ⟨result, rest, met, finished⟩ | failed
    · left
      refine ⟨result, rest, met, fun n deep => ?_⟩
      rw [run_bind_of_ok _ _ _ _ _ (done n deep)]
      exact finished n deep
    · right
      intro n deep
      rw [run_bind_of_ok _ _ _ _ _ (done n deep)]
      exact failed n deep
  · right
    intro n deep
    exact run_bind_error _ _ _ _ (failed n deep)

theorem map {after : β → List ι → Prop} (f : α → β) (settles : Settles short p depth input post)
    (implies : ∀ value rest, post value rest → after (f value) rest) :
    Settles short (fun n => f <$> p n) depth input after := by
  simp only [map_eq_pure_bind]
  exact settles.bind fun value rest holds => pure (f value) (implies value rest holds)

theorem item : Settles short (fun _ => item short) depth input
    (fun _ rest => Taken input 1 rest) := by
  cases input with
  | nil => exact Or.inr fun _ _ => rfl
  | cons head tail => exact Or.inl ⟨head, tail, ⟨by simp, rfl⟩, fun _ _ => rfl⟩

theorem repeatN {bound : Nat} {cost : α → Nat}
    (each : ∀ text : List ι, text.length < bound →
      Settles short p depth text fun value rest => Taken text (cost value) rest)
    (count : Nat) (inside : input.length < bound) :
    Settles short (fun n => Parsing.repeatN (p n) count) depth input
      (fun values rest => Taken input (values.toList.map cost).sum rest) := by
  induction count generalizing input with
  | zero => exact pure _ ⟨Nat.zero_le _, rfl⟩
  | succ count ih =>
      apply (each input inside).bind
      intro first middle taken
      have shorter : middle.length < bound := by
        rw [taken.2, List.length_drop]
        omega
      apply (ih shorter).bind
      intro others rest more
      apply pure
      rw [List.Vector.toList_cons, List.map_cons, List.sum_cons]
      exact taken.append more

theorem succ (settles : Settles short (fun n => p (n + 1)) depth input post) :
    Settles short p (depth + 1) input post := by
  have shift (n : Nat) (deep : depth + 1 ≤ n) : ∃ m, n = m + 1 ∧ depth ≤ m :=
    ⟨n - 1, by omega, by omega⟩
  rcases settles with ⟨value, rest, holds, done⟩ | failed
  · left
    refine ⟨value, rest, holds, fun n deep => ?_⟩
    obtain ⟨m, rfl, inside⟩ := shift n deep
    exact done m inside
  · right
    intro n deep
    obtain ⟨m, rfl, inside⟩ := shift n deep
    exact failed m inside

end Settles

end Unrolling
