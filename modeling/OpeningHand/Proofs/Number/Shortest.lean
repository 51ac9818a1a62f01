import OpeningHand.Proofs.Number.Nearest

/-!
# Shortest decimals are rounded back

The digits that are written of a value lie between its rounding bounds (`near_shortestDigits`). They are
looked for on grids of one digit, two digits, and so on: the point of the grid next to the value is taken
if it lies between the bounds (`gridPoint?_eq_some`), which it does as soon as the grid is finer than the
distance of the bounds (`isSome_gridPoint?`). With seventeen digits it always is
(`isSome_attempt_seventeen`).

The search is carried out in whole numbers. `Commensurate` relates the units and the steps of a grid, as
they are counted there, to the powers of two and of ten that they stand for.
-/

namespace OpeningHand.Number

open Binary64

/-! ### Numbers of digits -/

theorem lt_pow_length_digits (n : Nat) : n < 10 ^ (digits n).length :=
  (Nat.length_toDigits_le_iff (by decide) Nat.length_toDigits_pos).1 le_rfl

theorem pow_length_digits_le {n : Nat} (hn : 0 < n) : 10 ^ ((digits n).length - 1) ≤ n := by
  rcases Nat.eq_zero_or_pos ((digits n).length - 1) with h0 | h0
  · rw [h0, Nat.pow_zero]
    exact hn
  · by_contra hlt
    have hle := (Nat.length_toDigits_le_iff (by decide) h0).2 (not_le.1 hlt)
    unfold digits at *
    omega

theorem length_digits_eq {n k : Nat} (hlow : 10 ^ (k - 1) ≤ n) (hk : 0 < k) (hhigh : n < 10 ^ k) :
    (digits n).length = k := by
  have hle : (digits n).length ≤ k := (Nat.length_toDigits_le_iff (by decide) hk).2 hhigh
  have hlt : 10 ^ (k - 1) < 10 ^ (digits n).length := hlow.trans_lt (lt_pow_length_digits n)
  have := (Nat.pow_lt_pow_iff_right (by decide)).1 hlt
  omega

theorem zpow_ten_pos (k : Int) : (0 : ℚ) < 10 ^ k := zpow_pos (by norm_num) k

/-- **The place of the first digit** of a quotient. -/
theorem magnitude_spec {num den : Nat} (hnum : 0 < num) (hden : 0 < den) :
    (10 : ℚ) ^ (magnitude num den - 1) ≤ num / den ∧ (num : ℚ) / den < 10 ^ magnitude num den := by
  have hnumq : (0 : ℚ) < num := mod_cast hnum
  have hdenq : (0 : ℚ) < den := mod_cast hden
  unfold magnitude
  split
  · rename_i hle
    have hpos : 0 < num / den := Nat.div_pos hle hden
    have hlow := (Nat.le_div_iff_mul_le hden).1 (pow_length_digits_le hpos)
    have hhigh := (Nat.div_lt_iff_lt_mul hden).1 (lt_pow_length_digits (num / den))
    have hlen : 0 < (digits (num / den)).length := Nat.length_toDigits_pos
    generalize (digits (num / den)).length = k at *
    constructor
    · rw [le_div_iff₀ hdenq, show ((k : Int) - 1) = ((k - 1 : Nat) : Int) by omega, zpow_natCast]
      exact_mod_cast hlow
    · rw [div_lt_iff₀ hdenq, zpow_natCast]
      exact_mod_cast hhigh
  · rename_i hlt
    have hpos : 0 < den / num := Nat.div_pos (by omega) hnum
    have hlow := (Nat.le_div_iff_mul_le hnum).1 (pow_length_digits_le hpos)
    have hhigh := (Nat.div_lt_iff_lt_mul hnum).1 (lt_pow_length_digits (den / num))
    have hlen : 0 < (digits (den / num)).length := Nat.length_toDigits_pos
    generalize (digits (den / num)).length = k at *
    obtain ⟨k, rfl⟩ : ∃ j, k = j + 1 := ⟨k - 1, by omega⟩
    rw [Nat.add_sub_cancel] at hlow
    have hlow' : (10 : ℚ) ^ k * num ≤ den := by exact_mod_cast hlow
    have hhigh' : (den : ℚ) < 10 ^ (k + 1) * num := by exact_mod_cast hhigh
    have hpow : (0 : ℚ) < 10 ^ k := by positivity
    have hinv : (10 : ℚ) ^ (-(k : Int)) = (10 ^ k)⁻¹ := by rw [zpow_neg, zpow_natCast]
    dsimp only
    split
    · rename_i hexact
      have hexact' : (den : ℚ) ≤ num * 10 ^ k := by exact_mod_cast hexact
      have hplace : (2 : Int) - ((k + 1 : Nat) : Int) = -(k : Int) + 1 := by
        push_cast
        ring
      rw [hplace, add_sub_cancel_right, zpow_add_one₀ (by norm_num), hinv, le_div_iff₀ hdenq,
        div_lt_iff₀ hdenq, inv_mul_le_iff₀ hpow]
      refine ⟨by linarith, ?_⟩
      have hless : (num : ℚ) ≤ (10 ^ k)⁻¹ * den := by
        rw [le_inv_mul_iff₀ hpow]
        exact hlow'
      have hmore : 0 < ((10 : ℚ) ^ k)⁻¹ * den := by positivity
      linarith
    · rename_i hless
      have hless' : (num : ℚ) * 10 ^ k < den := by exact_mod_cast not_le.1 hless
      have hplace : (1 : Int) - ((k + 1 : Nat) : Int) = -(k : Int) := by
        push_cast
        ring
      rw [hplace, zpow_sub_one₀ (by norm_num), hinv, le_div_iff₀ hdenq, div_lt_iff₀ hdenq,
        lt_inv_mul_iff₀ hpow, ← mul_inv, inv_mul_le_iff₀ (by positivity)]
      rw [pow_succ] at hhigh'
      exact ⟨by linarith, by linarith⟩

/-! ### Points of a decimal grid -/

section Grid

variable {low value high step : Nat} {ends : Bool}

/-- Whether a number lies between two ends. -/
def Between (ends : Bool) (low high x : Nat) : Prop :=
  if ends then low ≤ x ∧ x ≤ high else low < x ∧ x < high

theorem fits_iff (x : Nat) :
    (if ends then decide (low ≤ x ∧ x ≤ high) else decide (low < x ∧ x < high)) = true ↔
      Between ends low high x := by
  cases ends <;> simp [Between]

/-- A grid point that is found is the next one to the value, below or above, and between the ends. -/
theorem gridPoint?_eq_some {d : Nat} (h : gridPoint? low value high step ends = some d) :
    (d = value / step ∨ d = value / step + 1) ∧ Between ends low high (d * step) := by
  unfold gridPoint? at h
  dsimp only at h
  split at h
  · rename_i hbelow _
    obtain rfl := Option.some.inj h
    exact ⟨.inl rfl, (fits_iff _).1 hbelow⟩
  · rename_i _ habove
    obtain rfl := Option.some.inj h
    exact ⟨.inr rfl, (fits_iff _).1 habove⟩
  · cases h
  · rename_i hbelow habove
    rw [fits_iff] at hbelow habove
    have hnext : d = value / step ∨ d = value / step + 1 := by
      rcases Nat.mod_two_eq_zero_or_one (value / step) with h2 | h2 <;> split at h
      · exact .inl (Option.some.inj h).symm
      · split at h <;> have := Option.some.inj h <;> omega
      · exact .inl (Option.some.inj h).symm
      · split at h <;> have := Option.some.inj h <;> omega
    rcases hnext with rfl | rfl
    · exact ⟨.inl rfl, hbelow⟩
    · exact ⟨.inr rfl, habove⟩

/-- **A grid that is finer than the distance of the ends has a point between them.** -/
theorem isSome_gridPoint? (hlow : low < value) (hhigh : value < high) (hstep : low + step < high)
    (hpos : 0 < step) : (gridPoint? low value high step ends).isSome := by
  have hbelow : value / step * step ≤ value := Nat.div_mul_le_self value step
  have habove : value < (value / step + 1) * step := by
    rw [Nat.mul_comm]
    exact Nat.lt_mul_div_succ value hpos
  have hnext : (value / step + 1) * step = value / step * step + step := by
    rw [Nat.add_mul, Nat.one_mul]
  have hone : Between ends low high (value / step * step) ∨
      Between ends low high ((value / step + 1) * step) := by
    unfold Between
    cases ends <;> simp only [Bool.false_eq_true, if_true, if_false] <;> omega
  unfold gridPoint?
  dsimp only
  split
  · rfl
  · rfl
  · rename_i hnot hnot'
    rw [← fits_iff, ← fits_iff, hnot, hnot'] at hone
    simp at hone
  · split
    · rfl
    · split <;> rfl

end Grid

/-! ### The digits that are found -/

/-- The unit `2 ^ (e - 2)` of the rounding bounds. -/
theorem ratio_spec (e : Int) :
    0 < (ratio 1 e).1 ∧ 0 < (ratio 1 e).2 ∧ ((ratio 1 e).1 : ℚ) / (ratio 1 e).2 = 2 ^ e := by
  unfold ratio
  split
  · rename_i he
    obtain ⟨k, rfl⟩ := Int.eq_ofNat_of_zero_le he
    simp
  · rename_i he
    obtain ⟨k, hk⟩ := Int.eq_ofNat_of_zero_le (show 0 ≤ -e by omega)
    obtain rfl : e = -(k : Int) := by omega
    simp

/-- The unit and the step of a decimal grid in whole numbers. -/
def gridUnits (num den : Nat) (shift : Int) : Nat × Nat :=
  if 0 ≤ shift then (num, den * Nat.pow 10 shift.toNat) else (num * Nat.pow 10 (-shift).toNat, den)

theorem gridUnits_spec {num den : Nat} (hnum : 0 < num) (hden : 0 < den) (shift : Int) :
    0 < (gridUnits num den shift).1 ∧ 0 < (gridUnits num den shift).2 ∧
      ((gridUnits num den shift).2 : ℚ) * (num / den) = (gridUnits num den shift).1 * 10 ^ shift := by
  have hdenq : (den : ℚ) ≠ 0 := by exact_mod_cast hden.ne'
  unfold gridUnits
  split
  · rename_i hs
    obtain ⟨k, rfl⟩ := Int.eq_ofNat_of_zero_le hs
    refine ⟨hnum, Nat.mul_pos hden (Nat.pow_pos (by decide)), ?_⟩
    simp
    field_simp
  · rename_i hs
    obtain ⟨k, hk⟩ := Int.eq_ofNat_of_zero_le (show 0 ≤ -shift by omega)
    obtain rfl : shift = -(k : Int) := by omega
    refine ⟨Nat.mul_pos hnum (Nat.pow_pos (by decide)), hden, ?_⟩
    simp
    field_simp

section Attempt

variable {m : Nat} {e : Int} {k d : Nat}

/-- The place of the first digit of `m · 2 ^ e`. -/
def firstPlace (m : Nat) (e : Int) : Int := magnitude (4 * m * (ratio 1 (e - 2)).1) (ratio 1 (e - 2)).2

/-- The digits of `m · 2 ^ e` on the grid of `k` digits, if it has a point between the bounds. -/
def attempt (m : Nat) (e : Int) (k : Nat) : Option Nat :=
  let units := gridUnits (ratio 1 (e - 2)).1 (ratio 1 (e - 2)).2 (firstPlace m e - k)
  gridPoint? ((roundingBounds m e).1 * units.1) (4 * m * units.1) ((roundingBounds m e).2.2 * units.1)
    units.2 (m % 2 == 0)

theorem shortestDigits_eq (m : Nat) (e : Int) :
    shortestDigits m e =
      match (List.range 17).findSome? fun k => (attempt m e (k + 1)).map (·, k + 1) with
      | some (d, k) => if d = Nat.pow 10 k then (1, firstPlace m e + 1) else (d, firstPlace m e)
      | none => (4 * m, firstPlace m e) := rfl

theorem firstPlace_spec (hm : 0 < m) (e : Int) :
    (10 : ℚ) ^ (firstPlace m e - 1) ≤ m * 2 ^ e ∧ (m : ℚ) * 2 ^ e < 10 ^ firstPlace m e := by
  obtain ⟨hnum, hden, hratio⟩ := ratio_spec (e - 2)
  have hvalue : ((4 * m * (ratio 1 (e - 2)).1 : Nat) : ℚ) / (ratio 1 (e - 2)).2 = m * 2 ^ e := by
    push_cast
    rw [mul_div_assoc, hratio, quarter]
    ring
  have hfour : 0 < 4 * m := by omega
  have hspec := magnitude_spec (Nat.mul_pos hfour hnum) hden
  rwa [hvalue] at hspec

end Attempt

/-- Numbers of units and of steps, as whole numbers and as what they stand for. -/
structure Commensurate (scale step : Nat) (u t : ℚ) : Prop where
  scale_pos : 0 < scale
  step_pos : 0 < step
  unit_pos : 0 < u
  equal : step * u = scale * t

namespace Commensurate

variable {scale step x d : Nat} {u t : ℚ} (h : Commensurate scale step u t)
include h

theorem steps_mul (d : Nat) : ((d * step : Nat) : ℚ) * u = scale * (d * t) := by
  push_cast
  rw [mul_assoc, h.equal]
  ring

omit h in
theorem units_mul (x : Nat) : ((x * scale : Nat) : ℚ) * u = scale * (x * u) := by
  push_cast
  ring

theorem le_iff : x * scale ≤ d * step ↔ x * u ≤ d * t := by
  have hscale : (0 : ℚ) < scale := mod_cast h.scale_pos
  rw [← mul_le_mul_iff_right₀ hscale, ← h.steps_mul, ← units_mul, mul_le_mul_iff_left₀ h.unit_pos,
    Nat.cast_le]

theorem lt_iff : x * scale < d * step ↔ x * u < d * t := by
  have hscale : (0 : ℚ) < scale := mod_cast h.scale_pos
  rw [← mul_lt_mul_iff_right₀ hscale, ← h.steps_mul, ← units_mul, mul_lt_mul_iff_left₀ h.unit_pos,
    Nat.cast_lt]

theorem ge_iff : d * step ≤ x * scale ↔ d * t ≤ x * u := by
  rw [← not_lt, h.lt_iff, not_lt]

theorem gt_iff : d * step < x * scale ↔ d * t < x * u := by
  rw [← not_le, h.le_iff, not_le]

end Commensurate

section Attempt

variable {m : Nat} {e : Int} {k d : Nat}

theorem commensurate (e shift : Int) :
    Commensurate (gridUnits (ratio 1 (e - 2)).1 (ratio 1 (e - 2)).2 shift).1
      (gridUnits (ratio 1 (e - 2)).1 (ratio 1 (e - 2)).2 shift).2 (2 ^ (e - 2)) (10 ^ shift) := by
  obtain ⟨hnum, hden, hratio⟩ := ratio_spec (e - 2)
  obtain ⟨hscale, hstep, hunits⟩ := gridUnits_spec hnum hden shift
  rw [hratio] at hunits
  exact ⟨hscale, hstep, zpow_two_pos _, hunits⟩

theorem four_mul_unit (m : Nat) (e : Int) : ((4 * m : Nat) : ℚ) * 2 ^ (e - 2) = m * 2 ^ e := by
  rw [quarter]
  push_cast
  ring

/-- **A point that is found reads back**, and has as many digits as it should or is the next power of
ten. -/
theorem attempt_eq_some (hm : 0 < m) (hk : 0 < k) (h : attempt m e k = some d) :
    Near m e (d * 10 ^ (firstPlace m e - k)) ∧ 10 ^ (k - 1) ≤ d ∧ d ≤ 10 ^ k := by
  have hunits := commensurate e (firstPlace m e - k)
  obtain ⟨hfirst, hnext⟩ := firstPlace_spec hm e
  obtain ⟨hd, hbetween⟩ := gridPoint?_eq_some h
  refine ⟨?_, ?_⟩
  · by_cases hodd : m % 2 = 1
    · have hends : (m % 2 == 0) = false := by simp [hodd]
      rw [hends] at hbetween
      have hlow := hunits.lt_iff.1 hbetween.1
      have hhigh := hunits.gt_iff.1 hbetween.2
      exact ⟨hlow.le, hhigh.le, fun _ => ⟨hlow, hhigh⟩⟩
    · have hends : (m % 2 == 0) = true := by simp; omega
      rw [hends] at hbetween
      exact ⟨hunits.le_iff.1 hbetween.1, hunits.ge_iff.1 hbetween.2, fun ho => absurd ho hodd⟩
  · -- the value has its first digit at this place, so the point below it has `k` digits
    have hten : ∀ j : Nat, (10 : ℚ) ^ j * 10 ^ (firstPlace m e - k) = 10 ^ (firstPlace m e - k + j) := by
      intro j
      rw [zpow_add₀ (by norm_num), zpow_natCast, mul_comm]
    have hlow : 10 ^ (k - 1) ≤ 4 * m * (gridUnits (ratio 1 (e - 2)).1 (ratio 1 (e - 2)).2
        (firstPlace m e - k)).1 / (gridUnits (ratio 1 (e - 2)).1 (ratio 1 (e - 2)).2
        (firstPlace m e - k)).2 := by
      rw [Nat.le_div_iff_mul_le hunits.step_pos, hunits.ge_iff, four_mul_unit]
      push_cast
      rw [hten, show firstPlace m e - k + ((k - 1 : Nat) : Int) = firstPlace m e - 1 by omega]
      exact hfirst
    have hhigh : 4 * m * (gridUnits (ratio 1 (e - 2)).1 (ratio 1 (e - 2)).2
        (firstPlace m e - k)).1 / (gridUnits (ratio 1 (e - 2)).1 (ratio 1 (e - 2)).2
        (firstPlace m e - k)).2 < 10 ^ k := by
      rw [Nat.div_lt_iff_lt_mul hunits.step_pos, hunits.lt_iff, four_mul_unit]
      push_cast
      rw [hten, show firstPlace m e - k + (k : Int) = firstPlace m e by omega]
      exact hnext
    rcases hd with rfl | rfl
    · exact ⟨hlow, hhigh.le⟩
    · exact ⟨hlow.trans (Nat.le_succ _), hhigh⟩

/-- The distance of the ends, in units. -/
theorem roundingBounds_gap (hm : 0 < m) (e : Int) :
    ∃ gap, (roundingBounds m e).1 + gap = (roundingBounds m e).2.2 ∧
      (gap = 4 ∨ gap = 3 ∧ m = 2 ^ 52) ∧ (roundingBounds m e).1 < 4 * m ∧
      4 * m < (roundingBounds m e).2.2 := by
  unfold roundingBounds
  dsimp only
  split
  · rename_i h
    exact ⟨3, by omega, .inr ⟨rfl, h.1⟩, by omega, by omega⟩
  · exact ⟨4, by omega, .inl rfl, by omega, by omega⟩

/-- **Seventeen digits are enough.** -/
theorem isSome_attempt_seventeen (hm : 0 < m) (hform : InForm m e) : (attempt m e 17).isSome := by
  have hunits := commensurate e (firstPlace m e - 17)
  obtain ⟨gap, hgap, hcases, hbelow, habove⟩ := roundingBounds_gap hm e
  have hstep : (10 : ℚ) ^ (firstPlace m e - 17) ≤ m * 2 ^ e / 10 ^ 16 := by
    rw [le_div_iff₀ (by positivity), ← zpow_natCast, ← zpow_add₀ (by norm_num),
      show firstPlace m e - 17 + ((16 : Nat) : Int) = firstPlace m e - 1 by push_cast; ring]
    exact (firstPlace_spec hm e).1
  have hfine : ((1 : Nat) : ℚ) * 10 ^ (firstPlace m e - 17) < gap * 2 ^ (e - 2) := by
    have hpos := zpow_two_pos e
    have hless : (m : ℚ) / 10 ^ 16 < gap / 4 := by
      rcases hcases with rfl | ⟨rfl, rfl⟩
      · have hlt : (m : ℚ) < 2 ^ 53 := by exact_mod_cast hform.lt
        rw [div_lt_iff₀ (by positivity)]
        push_cast
        linarith
      · norm_num
    rw [Nat.cast_one, one_mul, quarter]
    calc (10 : ℚ) ^ (firstPlace m e - 17) ≤ m * 2 ^ e / 10 ^ 16 := hstep
      _ = m / 10 ^ 16 * 2 ^ e := by ring
      _ < gap / 4 * 2 ^ e := by gcongr
      _ = gap * (2 ^ e / 4) := by ring
  have hgrid := hunits.gt_iff.2 hfine
  rw [Nat.one_mul] at hgrid
  refine isSome_gridPoint? ?_ ?_ ?_ hunits.step_pos
  · exact Nat.mul_lt_mul_of_pos_right hbelow hunits.scale_pos
  · exact Nat.mul_lt_mul_of_pos_right habove hunits.scale_pos
  · rw [← hgap, Nat.add_mul]
    exact Nat.add_lt_add_left hgrid _

theorem firstPlace_bounds (hm : 0 < m) (hform : InForm m e) :
    -330 ≤ firstPlace m e ∧ firstPlace m e ≤ 310 := by
  obtain ⟨hlow, hhigh⟩ := firstPlace_spec hm e
  have hpos := zpow_two_pos e
  constructor
  · by_contra hless
    have hplace : (10 : ℚ) ^ firstPlace m e ≤ 10 ^ (-330 : Int) :=
      zpow_le_zpow_right₀ (by norm_num) (by omega)
    have hleast : (2 : ℚ) ^ (-1074 : Int) ≤ m * 2 ^ e := by
      have hm1 : (1 : ℚ) ≤ m := by exact_mod_cast hm
      have hexp : (2 : ℚ) ^ (-1074 : Int) ≤ 2 ^ e := zpow_le_zpow_right₀ (by norm_num) hform.least
      nlinarith
    have hfar : (10 : ℚ) ^ (-330 : Int) < 2 ^ (-1074 : Int) := by
      have hnat : 2 ^ 1074 < 10 ^ 330 := by decide +kernel
      have hrat : (2 : ℚ) ^ 1074 < 10 ^ 330 := by exact_mod_cast hnat
      rw [zpow_neg, zpow_neg]
      exact inv_strictAnti₀ (by positivity) hrat
    exact absurd (hhigh.trans_le hplace) (not_lt.2 (hfar.le.trans hleast))
  · by_contra hmore
    have hplace : (10 : ℚ) ^ (310 : Int) ≤ 10 ^ (firstPlace m e - 1) :=
      zpow_le_zpow_right₀ (by norm_num) (by omega)
    have hmost : (m : ℚ) * 2 ^ e < 2 ^ (1024 : Int) := by
      have hm53 : (m : ℚ) < 2 ^ 53 := by exact_mod_cast hform.lt
      have hexp : (2 : ℚ) ^ e ≤ 2 ^ (971 : Int) := zpow_le_zpow_right₀ (by norm_num) hform.most
      calc (m : ℚ) * 2 ^ e < 2 ^ 53 * 2 ^ e := by gcongr
        _ ≤ 2 ^ 53 * 2 ^ (971 : Int) := by gcongr
        _ = 2 ^ (1024 : Int) := by
          rw [← zpow_natCast, ← zpow_add₀ two_ne_zero]
          norm_num
    have hfar : (2 : ℚ) ^ (1024 : Int) < 10 ^ (310 : Int) := by
      have hnat : 2 ^ 1024 < 10 ^ 310 := by decide +kernel
      exact_mod_cast hnat
    exact absurd hmost (not_lt.2 (hfar.le.trans (hplace.trans hlow)))

/-- **The shortest digits read back.** -/
theorem near_shortestDigits (hm : 0 < m) (hform : InForm m e) :
    0 < (shortestDigits m e).1 ∧ (digits (shortestDigits m e).1).length ≤ 17 ∧
      -330 ≤ (shortestDigits m e).2 ∧ (shortestDigits m e).2 ≤ 311 ∧
      Near m e ((shortestDigits m e).1 *
        10 ^ ((shortestDigits m e).2 - (digits (shortestDigits m e).1).length)) := by
  obtain ⟨hplace, hplace'⟩ := firstPlace_bounds hm hform
  rw [shortestDigits_eq]
  split
  · rename_i d k hfound
    obtain ⟨j, hj, hattempt⟩ := List.exists_of_findSome?_eq_some hfound
    obtain ⟨d', hd', hpair⟩ := Option.map_eq_some_iff.1 hattempt
    obtain ⟨rfl, rfl⟩ := Prod.mk.inj hpair
    obtain ⟨hnear, hlow, hhigh⟩ := attempt_eq_some hm (Nat.succ_pos j) hd'
    have hj17 : j < 17 := List.mem_range.1 hj
    split
    · rename_i hcarry
      have hpower : (d' : ℚ) * 10 ^ (firstPlace m e - ((j + 1 : Nat) : Int)) = 10 ^ firstPlace m e := by
        have hd : (d' : ℚ) = 10 ^ (j + 1) := by exact_mod_cast hcarry
        rw [hd, ← zpow_natCast, ← zpow_add₀ (by norm_num), add_sub_cancel]
      have hone : (digits 1).length = 1 := rfl
      rw [hpower] at hnear
      dsimp only
      refine ⟨Nat.one_pos, by omega, by omega, by omega, ?_⟩
      rw [hone, Nat.cast_one, one_mul, Nat.cast_one, add_sub_cancel_right]
      exact hnear
    · rename_i hcarry
      have hlen : (digits d').length = j + 1 :=
        length_digits_eq hlow (Nat.succ_pos j) (lt_of_le_of_ne hhigh hcarry)
      dsimp only
      refine ⟨(Nat.pow_pos (by decide)).trans_le hlow, by omega, hplace, by omega, ?_⟩
      rw [hlen]
      exact hnear
  · rename_i hnone
    have hnot := List.findSome?_eq_none_iff.1 hnone 16 (by decide)
    have hsome := isSome_attempt_seventeen hm hform
    rw [Option.map_eq_none_iff.1 hnot] at hsome
    cases hsome

end Attempt

end OpeningHand.Number
