import OpeningHand.Number.Binary64
import OpeningHand.Number.Digits

/-!
# Decimals with a fixed number of places

A binary fraction is printed with a given number of decimal places: its exact value, rounded to the
nearest decimal of that many places, halves to the even last digit.
-/

namespace OpeningHand.Number

/-- `n` units of `10 ^ (-places)` with a point in its place; without places there is no point. -/
def withPoint (places n : Nat) : List Char :=
  if places = 0 then digits n
  else digits (n / Nat.pow 10 places) ++ '.' :: padded places (n % Nat.pow 10 places)

/-- A binary fraction with `places` decimals. -/
def fixed (places : Nat) : Binary64 → String
  | .nan => "nan"
  | .infinite s => if s then "-inf" else "inf"
  | .finite s m e =>
    let (n, d) := Binary64.ratio m e
    let text := withPoint places (roundDiv (n * Nat.pow 10 places) d)
    String.ofList (if s then '-' :: text else text)

/-- A rate as a percentage with two decimals: the fraction is multiplied by a hundred first, which
rounds once, and the product is printed, which rounds again. -/
def percent (x : Binary64) : String := fixed 2 (x.scale 100 1) ++ "%"

example : fixed 10 (Binary64.quotient 1 3) = "0.3333333333" := by decide +kernel

example : percent (Binary64.quotient 2 3) = "66.67%" := by decide +kernel

end OpeningHand.Number
