import OpeningHand.Number.Binary64
import Mathlib.Algebra.Group.Nat.Defs
import Mathlib.Data.Nat.Log

/-!
# Quotients of at most one

A rate is a quotient that is rounded once. Rounding to the nearest value never passes a value that can be
written exactly, so a part of a whole is never more than one.
-/

namespace OpeningHand.Number

/-- Rounding does not pass a whole number. -/
theorem roundDiv_le {num den q : Nat} (hden : 0 < den) (h : num ≤ q * den) : roundDiv num den ≤ q := by
  have hnear := (two_mul_roundDiv num den hden).1
  by_contra hlt
  have hmore : (q + 1) * den ≤ roundDiv num den * den := Nat.mul_le_mul_right den (not_le.1 hlt)
  rw [Nat.add_mul, Nat.one_mul] at hmore
  omega

namespace Binary64

/-- A part of a whole is written with an exponent far below zero. -/
theorem exponentFor_le {a b : Nat} (h : a ≤ b) : exponentFor a b ≤ -52 := by
  have hlog : a.log2 ≤ b.log2 := by
    rw [Nat.log2_eq_log_two, Nat.log2_eq_log_two]
    exact Nat.log_mono_right h
  have he : max ((a.log2 : Int) - b.log2 - 53) (-1074) ≤ -53 := by omega
  unfold exponentFor
  dsimp only
  split <;> omega

theorem compareNat?_one {m : Nat} {e : Int} (he : e < 0) (hm : m ≤ 2 ^ (-e).toNat) :
    ((Binary64.finite false m e).compareNat? 1).any (·.isLE) = true := by
  have hratio : ratio m e = (m, 2 ^ (-e).toNat) := if_neg (not_le.2 he)
  simp only [compareNat?, hratio, Bool.false_and, Bool.false_eq_true, if_false, Nat.one_mul,
    Option.any_some]
  exact Nat.isLE_compare.2 hm

/-- **A part of a whole is at most one**, also as a rounded quotient. -/
theorem compareNat?_quotient {a b : Nat} (hb : 0 < b) (h : a ≤ b) :
    ((quotient a b).compareNat? 1).any (·.isLE) = true := by
  unfold quotient ofRatio
  split
  · exact compareNat?_one (by decide) (Nat.zero_le _)
  · have he := exponentFor_le h
    have hshift : shifted a b (exponentFor a b) = (a * 2 ^ (-exponentFor a b).toNat, b) :=
      if_neg (by omega)
    have hm : roundDiv (a * 2 ^ (-exponentFor a b).toNat) b ≤ 2 ^ (-exponentFor a b).toNat := by
      refine roundDiv_le hb ?_
      rw [Nat.mul_comm]
      exact Nat.mul_le_mul_left _ h
    dsimp only
    rw [hshift]
    dsimp only
    generalize exponentFor a b = e at he hm ⊢
    generalize roundDiv (a * 2 ^ (-e).toNat) b = m at hm ⊢
    split
    · rw [if_pos (by omega)]
      exact compareNat?_one (by omega) hm
    · -- the mantissa loses a place, and so does its bound
      have hplaces : (-e).toNat = (-(e + 1)).toNat + 1 := by omega
      rw [hplaces, Nat.pow_succ] at hm
      dsimp only
      rw [if_pos (by omega)]
      exact compareNat?_one (by omega) (by omega)

end Binary64

end OpeningHand.Number
