import Mathlib.Data.Nat.Basic
import Mathlib.Tactic.Ring

set_option autoImplicit false

namespace Casts

variable {w : Nat}

theorem setWidth_setWidth_iff (x : BitVec w) (d : Nat) :
    (x.setWidth d).setWidth w = x ↔ x.toNat < 2 ^ d := by
  rw [← BitVec.toNat_inj, BitVec.toNat_setWidth, BitVec.toNat_setWidth]
  constructor
  · intro same
    have reduced : x.toNat % 2 ^ d % 2 ^ w ≤ x.toNat % 2 ^ d := Nat.mod_le _ _
    have bound := Nat.mod_lt x.toNat (Nat.two_pow_pos d)
    omega
  · intro bound
    rw [Nat.mod_eq_of_lt bound, Nat.mod_eq_of_lt x.isLt]

theorem signExtend_signExtend_iff (x : BitVec w) (d : Nat) (positive : 0 < d) :
    (x.signExtend d).signExtend w = x ↔
      -(2 : Int) ^ (d - 1) ≤ x.toInt ∧ x.toInt < (2 : Int) ^ (d - 1) := by
  rw [← BitVec.toInt_inj, BitVec.toInt_signExtend, BitVec.toInt_signExtend,
    Nat.min_comm w d, Int.bmod_bmod]
  have half : ((2 ^ d : Nat) : Int) = 2 * 2 ^ (d - 1) := by
    obtain ⟨e, rfl⟩ : ∃ e, d = e + 1 := ⟨d - 1, by omega⟩
    push_cast
    ring
  by_cases narrow : d ≤ w
  · rw [Nat.min_eq_left narrow]
    constructor
    · intro same
      have low := Int.le_bmod (x := x.toInt) (Nat.two_pow_pos d)
      have high := Int.bmod_lt (x := x.toInt) (Nat.two_pow_pos d)
      rw [same] at low high
      omega
    · rintro ⟨low, high⟩
      exact Int.bmod_eq_of_le (by omega) (by omega)
  · have wide : w ≤ d := by omega
    rw [Nat.min_eq_right wide]
    have inside : (2 : Int) ^ (w - 1) ≤ 2 ^ (d - 1) :=
      mod_cast Nat.pow_le_pow_right (by decide) (by omega)
    have low := BitVec.le_toInt x
    have high := BitVec.toInt_lt (x := x)
    constructor
    · intro _
      omega
    · intro _
      have same := BitVec.toInt_signExtend (v := w) x
      rw [BitVec.signExtend_eq, Nat.min_self] at same
      exact same.symm

theorem setWidth_signExtend_iff (x : BitVec w) (d : Nat) :
    (x.signExtend d).setWidth w = x ↔
      w ≤ d ∨ 0 ≤ x.toInt ∧ x.toInt < (2 : Int) ^ d := by
  by_cases wide : w ≤ d
  · simp only [wide, true_or, iff_true]
    apply BitVec.eq_of_getLsbD_eq
    intro bit inside
    have within : bit < d := by omega
    simp only [BitVec.getLsbD_setWidth, BitVec.getLsbD_signExtend, inside, within, decide_true,
      Bool.true_and, if_true]
  · have narrow : d ≤ w := by omega
    rw [BitVec.signExtend_eq_setWidth_of_le x narrow, setWidth_setWidth_iff]
    have half : 2 * 2 ^ d ≤ 2 ^ w := by
      rw [← Nat.pow_succ']
      exact Nat.pow_le_pow_right (by decide) (by omega)
    have value := BitVec.toInt_eq_toNat_cond x
    have bound := x.isLt
    have cast : ((2 ^ d : Nat) : Int) = 2 ^ d := by push_cast; rfl
    simp only [wide, false_or]
    split at value <;> omega

theorem truncated_signExtend (x : BitVec w) (n d : Nat) (wider : n < d) :
    (((x.signExtend d).setWidth n).setWidth d).signExtend w = (x.setWidth n).setWidth w := by
  apply BitVec.eq_of_getLsbD_eq
  intro bit within
  have positive : (((x.signExtend d).setWidth n).setWidth d).msb = false := by
    rw [BitVec.msb_eq_getLsbD_last, BitVec.getLsbD_setWidth, BitVec.getLsbD_setWidth]
    have above : ¬ d - 1 < n := by omega
    simp [above]
  have below (low : bit < n) : bit < d := low.trans wider
  rw [BitVec.getLsbD_signExtend, positive]
  simp only [BitVec.getLsbD_setWidth, BitVec.getLsbD_signExtend, within]
  by_cases low : bit < n
  · simp only [low, below low, decide_true, if_true, Bool.true_and]
  · simp [low]

theorem toNat_lt_iff (x : BitVec w) (n : Nat) (positive : 0 < n) (inside : n ≤ w)
    (low : -(2 : Int) ^ (n - 1) ≤ x.toInt) (high : x.toInt < (2 : Int) ^ (n - 1)) :
    x.toNat < 2 ^ n ↔ 0 ≤ x.toInt ∨ w = n := by
  have half : (2 : Nat) ^ n = 2 * 2 ^ (n - 1) := by
    rw [← Nat.pow_succ']
    congr 1
    omega
  have cast : ((2 ^ (n - 1) : Nat) : Int) = 2 ^ (n - 1) := by push_cast; rfl
  have value := BitVec.toInt_eq_toNat_cond x
  have bound := x.isLt
  by_cases same : w = n
  · subst same
    simp [bound]
  · have twice : 2 * 2 ^ n ≤ 2 ^ w := by
      rw [← Nat.pow_succ']
      exact Nat.pow_le_pow_right (by decide) (by omega)
    simp only [same, or_false]
    split at value <;> omega

theorem setWidth_toNat_lt {d : Nat} (y : BitVec d) : (y.setWidth w).toNat < 2 ^ d := by
  rw [BitVec.toNat_setWidth]
  exact lt_of_le_of_lt (Nat.mod_le _ _) y.isLt

theorem signExtend_toInt_bounds {d : Nat} (y : BitVec d) (positive : 0 < d) :
    -(2 : Int) ^ (d - 1) ≤ (y.signExtend w).toInt ∧
      (y.signExtend w).toInt < (2 : Int) ^ (d - 1) := by
  have half : (2 : Nat) ^ d = 2 * 2 ^ (d - 1) := by
    rw [← Nat.pow_succ']
    congr 1
    omega
  have cast : ((2 ^ (d - 1) : Nat) : Int) = 2 ^ (d - 1) := by push_cast; rfl
  have narrower : 2 ^ min w d ≤ 2 ^ d := Nat.pow_le_pow_right (by decide) (Nat.min_le_right _ _)
  have low := Int.le_bmod (x := y.toInt) (Nat.two_pow_pos (min w d))
  have high := Int.bmod_lt (x := y.toInt) (Nat.two_pow_pos (min w d))
  rw [BitVec.toInt_signExtend]
  omega

theorem setWidth_toInt_bounds {d : Nat} (y : BitVec d) (wider : d < w) :
    0 ≤ (y.setWidth w).toInt ∧ (y.setWidth w).toInt < (2 : Int) ^ d := by
  have twice : 2 * 2 ^ d ≤ 2 ^ w := by
    rw [← Nat.pow_succ']
    exact Nat.pow_le_pow_right (by decide) wider
  have cast : ((2 ^ d : Nat) : Int) = 2 ^ d := by push_cast; rfl
  have below := setWidth_toNat_lt (w := w) y
  have value := BitVec.toInt_eq_toNat_cond (y.setWidth w)
  split at value <;> omega

section Numbers

variable (number : Int) (n b : Nat)

theorem toNat_setWidth_ofInt_iff :
    (((BitVec.ofInt n number).setWidth b).toNat : Int) = number ↔
      (∃ held : BitVec b, (held.toNat : Int) = number) ∧
        ∃ word : BitVec n, (word.toNat : Int) = number := by
  rw [BitVec.toNat_setWidth]
  constructor
  · intro same
    refine ⟨⟨_, (congrArg Nat.cast (BitVec.toNat_setWidth b _)).trans same⟩, ?_⟩
    have below : (BitVec.ofInt n number).toNat % 2 ^ b < 2 ^ n :=
      lt_of_le_of_lt (Nat.mod_le _ _) (BitVec.ofInt n number).isLt
    exact ⟨BitVec.ofNat n _, by rw [BitVec.toNat_ofNat, Nat.mod_eq_of_lt below, same]⟩
  · rintro ⟨⟨held, inside⟩, word, rfl⟩
    have below : word.toNat < 2 ^ b := by
      rw [← Int.ofNat_inj.mp inside]
      exact held.isLt
    rw [BitVec.ofInt_natCast, BitVec.ofNat_toNat, BitVec.setWidth_eq, Nat.mod_eq_of_lt below]

theorem toInt_signExtend_ofInt_iff :
    ((BitVec.ofInt n number).signExtend b).toInt = number ↔
      (∃ held : BitVec b, held.toInt = number) ∧ ∃ word : BitVec n, word.toInt = number := by
  constructor
  · intro same
    refine ⟨⟨_, same⟩, ?_⟩
    by_cases narrow : b ≤ n
    · exact ⟨((BitVec.ofInt n number).signExtend b).signExtend n, by
        rw [BitVec.toInt_signExtend_of_le narrow, same]⟩
    · rw [BitVec.toInt_signExtend_of_le (Nat.le_of_not_le narrow)] at same
      exact ⟨_, same⟩
  · rintro ⟨⟨held, same⟩, word, rfl⟩
    rw [BitVec.ofInt_toInt]
    by_cases wide : n ≤ b
    · exact BitVec.toInt_signExtend_of_le wide
    · rw [BitVec.toInt_signExtend, Nat.min_eq_left (Nat.le_of_not_le wide), ← same,
        BitVec.toInt_bmod_cancel]

theorem toInt_setWidth_of_lt {d : Nat} (word : BitVec d) (wider : d < w) :
    (word.setWidth w).toInt = word.toNat := by
  have twice : 2 * 2 ^ d ≤ 2 ^ w := by
    rw [← Nat.pow_succ']
    exact Nat.pow_le_pow_right (by decide) wider
  have bound := word.isLt
  have kept : (word.setWidth w).toNat = word.toNat := by
    rw [BitVec.toNat_setWidth]
    exact Nat.mod_eq_of_lt (by omega)
  rw [BitVec.toInt_eq_toNat_of_lt (by omega), kept]

theorem toInt_setWidth_ofInt_iff :
    ((BitVec.ofInt n number).setWidth b).toInt = number ↔
      (∃ held : BitVec b, held.toInt = number) ∧
        (b ≤ n ∨ ∃ word : BitVec n, (word.toNat : Int) = number) := by
  by_cases narrow : b ≤ n
  · simp only [narrow, true_or, and_true]
    constructor
    · exact fun same => ⟨_, same⟩
    · rintro ⟨held, rfl⟩
      exact congrArg BitVec.toInt ((setWidth_signExtend_iff held n).mpr (Or.inl narrow))
  · simp only [narrow, false_or]
    have wider : n < b := Nat.lt_of_not_le narrow
    constructor
    · intro same
      refine ⟨⟨_, same⟩, BitVec.ofInt n number, ?_⟩
      rw [← toInt_setWidth_of_lt _ wider, same]
    · rintro ⟨-, word, rfl⟩
      rw [BitVec.ofInt_natCast, BitVec.ofNat_toNat, BitVec.setWidth_eq,
        toInt_setWidth_of_lt word wider]

end Numbers

end Casts
