import Mathlib.Algebra.Group.Nat.Defs
import Mathlib.Data.List.GetD

set_option autoImplicit false

namespace Octets

def octet {w : Nat} (word : BitVec w) (weight : Nat) : BitVec 8 :=
  (word >>> (8 * weight)).setWidth 8

def put {w : Nat} (word : BitVec w) (weight : Nat) (value : BitVec 8) : BitVec w :=
  word ||| value.setWidth w <<< (8 * weight)

/-- An order of the octets of a word: the octet at a position has a weight. -/
structure Placement (n : Nat) where
  weight : Nat → Nat
  position : Nat → Nat
  weight_lt : ∀ index, index < n → weight index < n
  position_lt : ∀ index, index < n → position index < n
  weight_position : ∀ index, index < n → weight (position index) = index
  position_weight : ∀ index, index < n → position (weight index) = index

def split {n w : Nat} (placement : Placement n) (word : BitVec w) : List (BitVec 8) :=
  (List.range n).map fun index => octet word (placement.weight index)

def putAll {n w : Nat} (placement : Placement n) (word : BitVec w)
    (octets : List (Nat × BitVec 8)) : BitVec w :=
  octets.foldl (fun word octet => put word (placement.weight octet.1) octet.2) word

def join {n : Nat} (placement : Placement n) (w : Nat) (octets : List (BitVec 8)) : BitVec w :=
  putAll placement 0 ((List.range n).zip octets)

section

variable {n w : Nat} (placement : Placement n)

@[simp] theorem split_length (word : BitVec w) : (split placement word).length = n := by
  simp [split]

theorem octet_bit (word : BitVec w) (weight bit : Nat) (inside : bit < 8) :
    (octet word weight).getLsbD bit = word.getLsbD (8 * weight + bit) := by
  simp [octet, inside]

theorem octet_digit (word : BitVec w) (weight : Nat) :
    octet word weight = BitVec.ofNat 8 (word.toNat / 256 ^ weight % 256) := by
  have base : 2 ^ (8 * weight) = 256 ^ weight := by rw [Nat.pow_mul]
  apply BitVec.eq_of_toNat_eq
  simp [octet, Nat.shiftRight_eq_div_pow, base]

theorem put_bit (word : BitVec w) (weight bit : Nat) (value : BitVec 8) (inside : bit < w) :
    (put word weight value).getLsbD bit =
      (word.getLsbD bit || (decide (8 * weight ≤ bit) && value.getLsbD (bit - 8 * weight))) := by
  by_cases below : bit < 8 * weight
  · have notAbove : ¬8 * weight ≤ bit := by omega
    simp [put, inside, below, notAbove]
  · have above : 8 * weight ≤ bit := by omega
    simp [put, inside, below, above]

theorem putAll_bit (octets : List (Nat × BitVec 8)) (word : BitVec w) (bit : Nat)
    (inside : bit < w) :
    (putAll placement word octets).getLsbD bit =
      (word.getLsbD bit || octets.any fun octet =>
        decide (8 * placement.weight octet.1 ≤ bit) &&
          octet.2.getLsbD (bit - 8 * placement.weight octet.1)) := by
  induction octets generalizing word with
  | nil => simp [putAll]
  | cons head rest ih =>
      have step := ih (put word (placement.weight head.1) head.2)
      rw [put_bit word _ _ _ inside] at step
      simpa [putAll, Bool.or_assoc] using step

theorem join_bit (octets : List (BitVec 8)) (complete : octets.length = n) (bit : Nat)
    (inside : bit < w) :
    (join placement w octets).getLsbD bit =
      (decide (bit < 8 * n) &&
        (octets.getD (placement.position (bit / 8)) 0).getLsbD (bit % 8)) := by
  have zero : (0 : BitVec w).getLsbD bit = false := by simp
  rw [join, putAll_bit placement _ _ _ inside, zero, Bool.false_or, Bool.eq_iff_iff,
    List.any_eq_true]
  constructor
  · rintro ⟨⟨index, value⟩, member, covers⟩
    obtain ⟨at_, bound, here⟩ := List.getElem_of_mem member
    simp only [List.getElem_zip, List.getElem_range, Prod.mk.injEq] at here
    obtain ⟨rfl, rfl⟩ := here
    simp only [List.length_zip, List.length_range, complete, Nat.min_self] at bound
    simp only [Bool.and_eq_true, decide_eq_true_eq] at covers
    obtain ⟨above, set⟩ := covers
    have close : bit - 8 * placement.weight at_ < 8 := BitVec.lt_of_getLsbD set
    have weight := placement.weight_lt at_ bound
    have quotient : bit / 8 = placement.weight at_ := by omega
    have remainder : bit % 8 = bit - 8 * placement.weight at_ := by omega
    rw [Bool.and_eq_true, quotient, remainder, placement.position_weight at_ bound,
      List.getD_eq_getElem _ _ (by omega)]
    exact ⟨by simp; omega, set⟩
  · intro set
    simp only [Bool.and_eq_true, decide_eq_true_eq] at set
    obtain ⟨covered, set⟩ := set
    have weight : bit / 8 < n := by omega
    have position := placement.position_lt _ weight
    have present : placement.position (bit / 8) < octets.length := by omega
    rw [List.getD_eq_getElem _ _ present] at set
    refine ⟨(placement.position (bit / 8), octets[placement.position (bit / 8)]), ?_, ?_⟩
    · rw [List.mem_iff_getElem]
      exact ⟨placement.position (bit / 8), by simp [complete, position], by simp⟩
    · rw [placement.weight_position _ weight]
      have above : 8 * (bit / 8) ≤ bit := by omega
      have rest : bit - 8 * (bit / 8) = bit % 8 := by omega
      simp [above, rest, set]

theorem split_getElem (word : BitVec w) (index : Nat)
    (inside : index < (split placement word).length) :
    (split placement word)[index] = octet word (placement.weight index) := by
  simp [split]

theorem join_split (word : BitVec w) :
    join placement w (split placement word) = (word.setWidth (8 * n)).setWidth w := by
  apply BitVec.eq_of_getLsbD_eq
  intro bit inside
  rw [join_bit placement _ (split_length placement word) bit inside]
  simp only [BitVec.getLsbD_setWidth, inside, decide_true, Bool.true_and]
  by_cases covered : bit < 8 * n
  · have weight : bit / 8 < n := by omega
    have whole : 8 * (bit / 8) + bit % 8 = bit := by omega
    have present : placement.position (bit / 8) < (split placement word).length := by
      rw [split_length]
      exact placement.position_lt _ weight
    rw [List.getD_eq_getElem _ _ present, split_getElem, placement.weight_position _ weight,
      octet_bit word _ _ (by omega), whole]
  · simp [covered]

theorem split_join (octets : List (BitVec 8)) (complete : octets.length = n)
    (wide : 8 * n ≤ w) : split placement (join placement w octets) = octets := by
  apply List.ext_getElem
  · rw [split_length, complete]
  · intro index inside present
    rw [split_length] at inside
    rw [split_getElem]
    apply BitVec.eq_of_getLsbD_eq
    intro bit small
    have weight := placement.weight_lt index inside
    have quotient : (8 * placement.weight index + bit) / 8 = placement.weight index := by omega
    have remainder : (8 * placement.weight index + bit) % 8 = bit := by omega
    have covered : 8 * placement.weight index + bit < 8 * n := by omega
    rw [octet_bit _ _ _ small, join_bit placement octets complete _ (by omega), quotient,
      remainder, placement.position_weight index inside, List.getD_eq_getElem _ _ present]
    simp [covered]

end

end Octets
