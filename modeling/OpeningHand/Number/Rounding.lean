/-!
# Rounding a quotient

A quotient of two natural numbers is rounded to the nearest natural number, and from the middle to
the even neighbour. Rates, printed decimals and binary fractions all round by this one rule.

Main statement: `two_mul_roundDiv`, the result is within half a unit.
-/

namespace OpeningHand.Number

/-- `num / den` to the nearest whole number, halves to the even neighbour. -/
def roundDiv (num den : Nat) : Nat :=
  let q := num / den
  let r := 2 * (num % den)
  if r < den then q else if den < r then q + 1 else q + q % 2

/-- **Within half a unit:** twice the distance between `num / den` and the rounded value is at most
one. -/
theorem two_mul_roundDiv (num den : Nat) (h : 0 < den) :
    2 * (roundDiv num den * den) ≤ 2 * num + den ∧ 2 * num ≤ 2 * (roundDiv num den * den) + den := by
  have hm := Nat.div_add_mod num den
  have hlt := Nat.mod_lt num h
  have h1 : (num / den) * den + num % den = num := by rw [Nat.mul_comm]; exact hm
  have h2 : (num / den + 1) * den = num / den * den + den := by rw [Nat.add_mul, Nat.one_mul]
  unfold roundDiv
  simp only
  split
  · omega
  · split
    · rw [h2]; omega
    · rcases Nat.mod_two_eq_zero_or_one (num / den) with h0 | h0
      · rw [h0, Nat.add_zero]; omega
      · rw [h0, h2]; omega

example : roundDiv 5 2 = 2 ∧ roundDiv 7 2 = 4 ∧ roundDiv 8 3 = 3 := by decide

end OpeningHand.Number
