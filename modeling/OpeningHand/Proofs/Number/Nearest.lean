import OpeningHand.Number.Shortest
import OpeningHand.Proofs.Number.Quotient
import Mathlib.Algebra.Order.Field.Power
import Mathlib.Algebra.Order.Ring.Rat
import Mathlib.Tactic.FieldSimp
import Mathlib.Tactic.IntervalCases
import Mathlib.Tactic.Linarith
import Mathlib.Tactic.NormNum.Pow
import Mathlib.Tactic.Positivity
import Mathlib.Tactic.Ring

/-!
# The nearest binary fraction

What a decimal is rounded to. A quotient is rounded at the exponent that leaves 53 bits before the point
(`Binary64.exponentFor_spec`), to the whole number next to it, so that each value is in its one form
(`Binary64.canonical_ofDecimal`), and the values are read from what lies around them: `Binary64.Near m e`
is the interval between the rounding bounds of `m · 2 ^ e`, the ends included where ties go to it, and all
of it is rounded to `m · 2 ^ e` (`Binary64.ofRatio_of_near`, `Binary64.ofDecimal_of_near`). Just above a
power of two the lower part of the interval is half as long; what lies in it has an exponent less by one
and a mantissa that carries.

The interval is all that the writer of decimals needs to know of the reader.
-/

namespace OpeningHand.Number

/-! ### Rounding -/

theorem le_roundDiv {num den q : Nat} (hden : 0 < den) (h : q * den ≤ num) : q ≤ roundDiv num den := by
  have hnear := (two_mul_roundDiv num den hden).2
  by_contra hlt
  have hmore : (roundDiv num den + 1) * den ≤ q * den := Nat.mul_le_mul_right den (not_le.1 hlt)
  rw [Nat.add_mul, Nat.one_mul] at hmore
  omega

/-- **The nearest whole number is the rounded quotient**, an even one if there are two. -/
theorem roundDiv_eq {num den q : Nat} (hden : 0 < den) (hlow : 2 * (q * den) ≤ 2 * num + den)
    (hhigh : 2 * num ≤ 2 * (q * den) + den)
    (heven : 2 * (q * den) = 2 * num + den ∨ 2 * num = 2 * (q * den) + den → q % 2 = 0) :
    roundDiv num den = q := by
  have hnum : num = num / den * den + num % den := (Nat.div_add_mod' num den).symm
  have hrem : num % den < den := Nat.mod_lt num hden
  have hstep : ∀ a b : Nat, a < b → a * den + den ≤ b * den := fun a b hab => by
    have hmul : (a + 1) * den ≤ b * den := Nat.mul_le_mul_right den hab
    rwa [Nat.add_mul, Nat.one_mul] at hmul
  -- the candidate is the whole part or the next number
  have hcases : q = num / den ∨ q = num / den + 1 := by
    rcases Nat.lt_trichotomy q (num / den) with hq | hq | hq
    · have := hstep _ _ hq
      omega
    · exact .inl hq
    · rcases Nat.lt_or_ge (num / den + 1) q with hq' | hq'
      · have h1 := hstep _ _ hq'
        have h2 := hstep (num / den) (num / den + 1) (Nat.lt_succ_self _)
        omega
      · exact .inr (by omega)
  have hnext : (num / den + 1) * den = num / den * den + den := by rw [Nat.add_mul, Nat.one_mul]
  unfold roundDiv
  dsimp only
  rcases hcases with rfl | rfl
  · split
    · rfl
    · rw [if_neg (by omega), heven (by omega), Nat.add_zero]
  · rw [hnext] at hlow hhigh heven
    rw [if_neg (by omega)]
    split
    · rfl
    · have := heven (by omega)
      omega

namespace Binary64

/-! ### Finite magnitudes -/

/-- The one form of a finite magnitude `m · 2 ^ e`. -/
structure InForm (m : Nat) (e : Int) : Prop where
  lt : m < 2 ^ 53
  least : -1074 ≤ e
  most : e ≤ 971
  full : e = -1074 ∨ 2 ^ 52 ≤ m

/-- A value whose magnitude, if it is finite, is in its one form. -/
def Canonical : Binary64 → Prop
  | .finite _ m e => InForm m e
  | _ => True

theorem zpow_two_pos (e : Int) : (0 : ℚ) < 2 ^ e := zpow_pos (by norm_num) e

/-- A fraction over a power of two. -/
theorem shifted_spec (num : Nat) {den : Nat} (hden : 0 < den) (e : Int) :
    0 < (shifted num den e).2 ∧
      ((shifted num den e).1 : ℚ) / (shifted num den e).2 = num / den / 2 ^ e := by
  unfold shifted
  split
  · rename_i he
    refine ⟨Nat.mul_pos hden (Nat.pow_pos (by decide)), ?_⟩
    obtain ⟨k, rfl⟩ := Int.eq_ofNat_of_zero_le he
    simp [div_div]
  · rename_i he
    refine ⟨hden, ?_⟩
    obtain ⟨k, hk⟩ := Int.eq_ofNat_of_zero_le (show 0 ≤ -e by omega)
    obtain rfl : e = -(k : Int) := by omega
    simp [div_mul_eq_mul_div]

/-- Where a quotient stands among the powers of two. -/
theorem log2_bounds {num den : Nat} (hnum : 0 < num) (hden : 0 < den) :
    (2 : ℚ) ^ ((num.log2 : Int) - den.log2 - 1) < num / den ∧
      (num : ℚ) / den < 2 ^ ((num.log2 : Int) - den.log2 + 1) := by
  have hnum1 : (2 : ℚ) ^ num.log2 ≤ num := mod_cast (Nat.le_log2 hnum.ne').1 le_rfl
  have hnum2 : (num : ℚ) < 2 ^ (num.log2 + 1) := mod_cast (Nat.log2_lt hnum.ne').1 (Nat.lt_succ_self _)
  have hden1 : (2 : ℚ) ^ den.log2 ≤ den := mod_cast (Nat.le_log2 hden.ne').1 le_rfl
  have hden2 : (den : ℚ) < 2 ^ (den.log2 + 1) := mod_cast (Nat.log2_lt hden.ne').1 (Nat.lt_succ_self _)
  have hpos : (0 : ℚ) < den := mod_cast hden
  constructor
  · rw [lt_div_iff₀ hpos]
    calc (2 : ℚ) ^ ((num.log2 : Int) - den.log2 - 1) * den
        < 2 ^ ((num.log2 : Int) - den.log2 - 1) * 2 ^ (den.log2 + 1) := by gcongr
      _ = 2 ^ num.log2 := by
          rw [← zpow_natCast, ← zpow_natCast, ← zpow_add₀ two_ne_zero]
          congr 1
          push_cast
          ring
      _ ≤ num := hnum1
  · rw [div_lt_iff₀ hpos]
    calc (num : ℚ) < 2 ^ (num.log2 + 1) := hnum2
      _ = 2 ^ ((num.log2 : Int) - den.log2 + 1) * 2 ^ den.log2 := by
          rw [← zpow_natCast, ← zpow_natCast, ← zpow_add₀ two_ne_zero]
          congr 1
          push_cast
          ring
      _ ≤ 2 ^ ((num.log2 : Int) - den.log2 + 1) * den := by gcongr

theorem div_lt_pow_iff {n d : Nat} (hd : 0 < d) :
    n / d < Nat.pow 2 53 ↔ (n : ℚ) / d < 2 ^ 53 := by
  rw [Nat.div_lt_iff_lt_mul hd, div_lt_iff₀ (mod_cast hd)]
  exact_mod_cast Iff.rfl

/-- **The exponent of a quotient** is the one that leaves 53 bits before the point, or the least one. -/
theorem exponentFor_spec {num den : Nat} (hnum : 0 < num) (hden : 0 < den) :
    -1074 ≤ exponentFor num den ∧ (num : ℚ) / den < 2 ^ 53 * 2 ^ exponentFor num den ∧
      (exponentFor num den = -1074 ∨ 2 ^ 52 * 2 ^ exponentFor num den ≤ (num : ℚ) / den) := by
  obtain ⟨hlow, hhigh⟩ := log2_bounds hnum hden
  have hunfold : exponentFor num den =
      let e := max ((num.log2 : Int) - den.log2 - 53) (-1074)
      if (shifted num den e).1 / (shifted num den e).2 < Nat.pow 2 53 then e else e + 1 := rfl
  rw [hunfold]
  generalize (num.log2 : Int) - den.log2 = k at *
  dsimp only
  obtain ⟨hd, hx⟩ := shifted_spec num hden (max (k - 53) (-1074))
  have hfits := div_lt_pow_iff (n := (shifted num den (max (k - 53) (-1074))).1) hd
  rw [hx, div_lt_iff₀ (zpow_two_pos _)] at hfits
  split
  · rename_i hlt
    rw [hfits] at hlt
    refine ⟨le_max_right _ _, hlt, ?_⟩
    rcases le_total (k - 53) (-1074) with hk | hk
    · exact .inl (max_eq_right hk)
    · right
      rw [max_eq_left hk]
      refine le_trans (le_of_eq ?_) hlow.le
      rw [← zpow_natCast, ← zpow_add₀ two_ne_zero]
      congr 1
      push_cast
      ring
  · rename_i hge
    rw [hfits] at hge
    refine ⟨by omega, ?_, .inr ?_⟩
    · refine lt_of_lt_of_le hhigh ?_
      rw [← zpow_natCast, ← zpow_add₀ two_ne_zero]
      refine zpow_le_zpow_right₀ (by norm_num) ?_
      push_cast
      omega
    · refine le_trans (le_of_eq ?_) (not_lt.1 hge)
      rw [zpow_add_one₀ two_ne_zero]
      ring

/-- Two exponents for one quotient: the greater one leaves less than 53 bits. -/
theorem exponentFor_eq {num den : Nat} (hnum : 0 < num) (hden : 0 < den) {e : Int} (hleast : -1074 ≤ e)
    (hlt : (num : ℚ) / den < 2 ^ 53 * 2 ^ e) (hfull : e = -1074 ∨ 2 ^ 52 * 2 ^ e ≤ (num : ℚ) / den) :
    exponentFor num den = e := by
  obtain ⟨hleast', hlt', hfull'⟩ := exponentFor_spec hnum hden
  generalize exponentFor num den = k at *
  have hless : ∀ {a b : Int}, (num : ℚ) / den < 2 ^ 53 * 2 ^ a →
      2 ^ 52 * 2 ^ b ≤ (num : ℚ) / den → b ≤ a := by
    intro a b ha hb
    by_contra hab
    have hpow : (2 : ℚ) ^ (a + 1) ≤ 2 ^ b := zpow_le_zpow_right₀ (by norm_num) (by omega)
    rw [zpow_add_one₀ two_ne_zero] at hpow
    linarith
  refine le_antisymm ?_ ?_
  · rcases hfull' with rfl | hfull'
    · exact hleast
    · exact hless hlt hfull'
  · rcases hfull with rfl | hfull
    · exact hleast'
    · exact hless hlt' hfull

/-- The quotient as a mantissa, before a carry. -/
def mantissaFor (num den : Nat) (e : Int) : Nat :=
  roundDiv (shifted num den e).1 (shifted num den e).2

theorem ofRatio_of_lt (negative : Bool) {num den : Nat} (hnum : 0 < num) (hden : 0 < den)
    (h : mantissaFor num den (exponentFor num den) < Nat.pow 2 53) :
    ofRatio negative num den =
      if exponentFor num den ≤ 971 then
        .finite negative (mantissaFor num den (exponentFor num den)) (exponentFor num den)
      else .infinite negative := by
  unfold mantissaFor at h ⊢
  unfold ofRatio
  rw [if_neg (by omega)]
  dsimp only
  rw [if_pos h]

/-- The mantissa carries into a place more. -/
theorem ofRatio_of_le (negative : Bool) {num den : Nat} (hnum : 0 < num) (hden : 0 < den)
    (h : ¬mantissaFor num den (exponentFor num den) < Nat.pow 2 53) :
    ofRatio negative num den =
      if exponentFor num den + 1 ≤ 971 then
        .finite negative (mantissaFor num den (exponentFor num den) / 2) (exponentFor num den + 1)
      else .infinite negative := by
  unfold mantissaFor at h ⊢
  unfold ofRatio
  rw [if_neg (by omega)]
  dsimp only
  rw [if_neg h]

/-- The mantissa of a quotient is the whole number next to it, an even one if there are two. -/
theorem mantissaFor_eq {num den m : Nat} (hden : 0 < den) {e : Int}
    (hlow : (m - 1 / 2) * 2 ^ e ≤ (num : ℚ) / den) (hhigh : (num : ℚ) / den ≤ (m + 1 / 2) * 2 ^ e)
    (hodd : m % 2 = 1 → (m - 1 / 2) * 2 ^ e < (num : ℚ) / den ∧ (num : ℚ) / den < (m + 1 / 2) * 2 ^ e) :
    mantissaFor num den e = m := by
  obtain ⟨hd, hx⟩ := shifted_spec num hden e
  have hdq : (0 : ℚ) < (shifted num den e).2 := mod_cast hd
  have hy : (num : ℚ) / den = (shifted num den e).1 / (shifted num den e).2 * 2 ^ e := by
    rw [hx, div_mul_cancel₀ _ (zpow_two_pos e).ne']
  rw [hy] at hlow hhigh hodd
  rw [mul_le_mul_iff_left₀ (zpow_two_pos e)] at hlow hhigh
  rw [mul_lt_mul_iff_left₀ (zpow_two_pos e), mul_lt_mul_iff_left₀ (zpow_two_pos e)] at hodd
  rw [le_div_iff₀ hdq] at hlow
  rw [div_le_iff₀ hdq] at hhigh
  rw [lt_div_iff₀ hdq, div_lt_iff₀ hdq] at hodd
  unfold mantissaFor
  generalize (shifted num den e).1 = a at *
  generalize (shifted num den e).2 = b at *
  have hlow' : 2 * (m * b) ≤ 2 * a + b := by
    have h : (2 * (m * b) : ℚ) ≤ 2 * a + b := by linarith
    exact_mod_cast h
  have hhigh' : 2 * a ≤ 2 * (m * b) + b := by
    have h : (2 * a : ℚ) ≤ 2 * (m * b) + b := by linarith
    exact_mod_cast h
  refine roundDiv_eq hd hlow' hhigh' fun htie => ?_
  by_contra hm
  obtain ⟨hlow'', hhigh''⟩ := hodd (by omega)
  have h1 : (2 * (m * b) : ℚ) < 2 * a + b := by linarith
  have h2 : (2 * a : ℚ) < 2 * (m * b) + b := by linarith
  have h1' : 2 * (m * b) < 2 * a + b := by exact_mod_cast h1
  have h2' : 2 * a < 2 * (m * b) + b := by exact_mod_cast h2
  omega

/-! ### Reading -/

/-- The reals that are read as `m · 2 ^ e`. The ends are among them if `m` is even. -/
structure Near (m : Nat) (e : Int) (y : ℚ) : Prop where
  low : (roundingBounds m e).1 * 2 ^ (e - 2) ≤ y
  high : y ≤ (roundingBounds m e).2.2 * 2 ^ (e - 2)
  odd : m % 2 = 1 →
    (roundingBounds m e).1 * 2 ^ (e - 2) < y ∧ y < (roundingBounds m e).2.2 * 2 ^ (e - 2)

theorem quarter (e : Int) : (2 : ℚ) ^ (e - 2) = 2 ^ e / 4 := by
  rw [zpow_sub₀ two_ne_zero]
  norm_num

theorem canonical_ofRatio (negative : Bool) (num den : Nat) : (ofRatio negative num den).Canonical := by
  by_cases h : num = 0 ∨ den = 0
  · unfold ofRatio
    rw [if_pos h]
    exact ⟨by norm_num, le_rfl, by norm_num, .inl rfl⟩
  · have hnum : 0 < num := by omega
    have hden : 0 < den := by omega
    obtain ⟨hleast, hlt, hfull⟩ := exponentFor_spec hnum hden
    obtain ⟨hd, hx⟩ := shifted_spec num hden (exponentFor num den)
    have hdq : (0 : ℚ) < (shifted num den (exponentFor num den)).2 := mod_cast hd
    rw [← div_lt_iff₀ (zpow_two_pos _), ← hx, div_lt_iff₀ hdq] at hlt
    rw [← le_div_iff₀ (zpow_two_pos _), ← hx, le_div_iff₀ hdq] at hfull
    have hmost : mantissaFor num den (exponentFor num den) ≤ 2 ^ 53 := by
      have hlt' : (shifted num den (exponentFor num den)).1
          < 2 ^ 53 * (shifted num den (exponentFor num den)).2 := by exact_mod_cast hlt
      exact roundDiv_le hd hlt'.le
    rcases Nat.lt_or_ge (mantissaFor num den (exponentFor num den)) (2 ^ 53) with hm | hm
    · rw [ofRatio_of_lt negative hnum hden hm]
      split
      · rename_i he
        refine ⟨hm, hleast, he, hfull.imp_right fun hfull => ?_⟩
        have hfull' : 2 ^ 52 * (shifted num den (exponentFor num den)).2
            ≤ (shifted num den (exponentFor num den)).1 := by exact_mod_cast hfull
        exact le_roundDiv hd hfull'
      · trivial
    · rw [ofRatio_of_le negative hnum hden (Nat.not_lt.2 hm)]
      have hm' : mantissaFor num den (exponentFor num den) = 2 ^ 53 := le_antisymm hmost hm
      rw [hm']
      split
      · exact ⟨by norm_num, by omega, by assumption, .inr (by norm_num)⟩
      · trivial

namespace Near

variable {m : Nat} {e : Int} {y : ℚ}

/-- No more than half a unit to either side. -/
theorem half (h : Near m e y) (hm : 0 < m) :
    (m - 1 / 2) * 2 ^ e ≤ y ∧ y ≤ (m + 1 / 2) * 2 ^ e ∧
      (m % 2 = 1 → (m - 1 / 2) * 2 ^ e < y ∧ y < (m + 1 / 2) * 2 ^ e) := by
  have hpos := zpow_two_pos e
  have hlow : ((m : ℚ) - 1 / 2) * 2 ^ e ≤ (roundingBounds m e).1 * 2 ^ (e - 2) := by
    have hbound : 4 * m - 2 ≤ (roundingBounds m e).1 := by
      unfold roundingBounds
      split <;> omega
    have hbound' : (4 * m - 2 : ℚ) ≤ (roundingBounds m e).1 := by
      have hcast : ((4 * m - 2 : Nat) : ℚ) = 4 * m - 2 := by
        rw [Nat.cast_sub (by omega)]
        push_cast
        ring
      rw [← hcast]
      exact_mod_cast hbound
    rw [quarter]
    nlinarith
  have hhigh : ((roundingBounds m e).2.2 : ℚ) * 2 ^ (e - 2) = (m + 1 / 2) * 2 ^ e := by
    rw [quarter, roundingBounds]
    push_cast
    ring
  have hodd := h.odd
  rw [hhigh] at hodd
  exact ⟨hlow.trans h.low, hhigh ▸ h.high, fun ho => ⟨hlow.trans_lt (hodd ho).1, (hodd ho).2⟩⟩

/-- Just above a power of two the lower end is half as far. -/
theorem quarter_le (h : Near (2 ^ 52) e y) (he : -1074 < e) : (2 ^ 52 - 1 / 4) * 2 ^ e ≤ y := by
  have hlow := h.low
  have hbound : (roundingBounds (2 ^ 52) e).1 = 4 * 2 ^ 52 - 1 := by
    unfold roundingBounds
    exact if_pos ⟨rfl, he⟩
  rw [hbound, quarter] at hlow
  push_cast at hlow
  linarith

end Near

/-- **What lies between the rounding bounds of a value is read as this value.** -/
theorem ofRatio_of_near (negative : Bool) {num den m : Nat} {e : Int} (hden : 0 < den) (hm : 0 < m)
    (hform : InForm m e) (h : Near m e (num / den)) : ofRatio negative num den = .finite negative m e := by
  obtain ⟨hlow, hhigh, hodd⟩ := h.half hm
  have hpos := zpow_two_pos e
  have hm53 : (m : ℚ) + 1 ≤ 2 ^ 53 := by exact_mod_cast hform.lt
  have hm1 : (1 : ℚ) ≤ m := by exact_mod_cast hm
  have hlt : (num : ℚ) / den < 2 ^ 53 * 2 ^ e := by nlinarith
  have hy : (0 : ℚ) < num / den := by nlinarith
  have hnum : 0 < num := by
    by_contra h0
    obtain rfl : num = 0 := by omega
    simp at hy
  by_cases hfull : e = -1074 ∨ 2 ^ 52 * 2 ^ e ≤ (num : ℚ) / den
  · have hE := exponentFor_eq hnum hden hform.least hlt hfull
    have hM : mantissaFor num den e = m := mantissaFor_eq hden hlow hhigh hodd
    rw [ofRatio_of_lt negative hnum hden (by rw [hE, hM]; exact hform.lt), hE, hM, if_pos hform.most]
  · -- below the power of two the exponent is one less, and the mantissa carries
    rw [not_or, not_le] at hfull
    obtain ⟨he, hless⟩ := hfull
    have hleast := hform.least
    have hm52 := hform.full.resolve_left he
    obtain rfl : m = 2 ^ 52 := by
      by_contra hne
      have hmore : (2 ^ 52 : ℚ) + 1 ≤ m := by exact_mod_cast (show 2 ^ 52 + 1 ≤ m by omega)
      nlinarith
    have hquarter := h.quarter_le (by omega)
    have hhalf : (2 : ℚ) ^ e = 2 * 2 ^ (e - 1) := by
      rw [← zpow_one_add₀ two_ne_zero]
      congr 1
      ring
    rw [hhalf] at hless hquarter hpos
    have hE : exponentFor num den = e - 1 :=
      exponentFor_eq hnum hden (by omega) (by linarith) (.inr (by linarith))
    have hM : mantissaFor num den (e - 1) = 2 ^ 53 := by
      refine mantissaFor_eq hden ?_ ?_ (by norm_num)
      · push_cast
        linarith
      · push_cast
        linarith
    rw [ofRatio_of_le negative hnum hden (by rw [hE, hM]; exact Nat.lt_irrefl _), hE, hM, sub_add_cancel,
      if_pos hform.most]
    norm_num

/-- A value of a whole number of units and a power of ten is read alike in all its decimals. -/
theorem ofDecimal_of_near (negative : Bool) {d m : Nat} {k e : Int} (hd : 0 < d) (hm : 0 < m)
    (hform : InForm m e) (hk : -400 ≤ k) (hk' : k ≤ 400) (h : Near m e (d * 10 ^ k)) :
    ofDecimal negative d k = .finite negative m e := by
  unfold ofDecimal
  rw [if_neg hd.ne', if_neg (by omega), if_neg (by omega)]
  split
  · rename_i hk0
    obtain ⟨n, rfl⟩ := Int.eq_ofNat_of_zero_le hk0
    refine ofRatio_of_near negative Nat.one_pos hm hform ?_
    simpa using h
  · rename_i hk0
    obtain ⟨n, hn⟩ := Int.eq_ofNat_of_zero_le (show 0 ≤ -k by omega)
    obtain rfl : k = -(n : Int) := by omega
    refine ofRatio_of_near negative (Nat.pow_pos (by decide)) hm hform ?_
    simpa [div_eq_mul_inv] using h

theorem canonical_ofDecimal (negative : Bool) (d : Nat) (k : Int) : (ofDecimal negative d k).Canonical := by
  have hzero : (Binary64.finite negative 0 (-1074)).Canonical :=
    ⟨by norm_num, le_rfl, by norm_num, .inl rfl⟩
  unfold ofDecimal
  split
  · exact hzero
  · split
    · trivial
    · split
      · exact hzero
      · split <;> exact canonical_ofRatio _ _ _

end Binary64
end OpeningHand.Number
