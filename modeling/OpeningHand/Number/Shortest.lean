import OpeningHand.Number.Fixed

/-!
# The shortest decimal that reads back

Of the decimals that round to a given binary fraction the ones with the fewest digits are taken, and
of those the nearest. The reals that round to `m · 2 ^ e` lie between the middles to its two
neighbours, the ends included when `m` is even. For one digit, two digits, and so on up to
seventeen, the two points of the decimal grid beside the value are tried; the first grid with a point
between the ends wins.

How the digits are then laid out is decided by `positional`: values from `10 ^ (-4)` up to `10 ^ 16`
stand with a point, the others with an exponent of at least two digits.
-/

namespace OpeningHand.Number

/-- The reals that round to `m · 2 ^ e`, in units of `2 ^ (e - 2)`: lower end, value, upper end. Just
above a power of two the lower neighbour is half as far. -/
def roundingBounds (m : Nat) (e : Int) : Nat × Nat × Nat :=
  (if m = Nat.pow 2 52 ∧ -1074 < e then 4 * m - 1 else 4 * m - 2, 4 * m, 4 * m + 2)

/-- The number of decimal digits before the point of `num / den`, if it is at least one; otherwise
minus the number of zeros after the point. -/
def magnitude (num den : Nat) : Int :=
  if den ≤ num then (digits (num / den)).length
  else
    let k := (digits (den / num)).length
    -- `10 ^ (k - 1) ≤ den / num`, so the first digit is the `k`-th or the one before it.
    if den ≤ num * Nat.pow 10 (k - 1) then 2 - (k : Int) else 1 - (k : Int)

/-- The point of a grid between the bounds, the nearer one if both neighbours lie there, halves to
the even one. All four numbers are in the same unit; `step` is the distance of the grid. -/
def gridPoint? (low value high step : Nat) (ends : Bool) : Option Nat :=
  let a := value / step
  let fits := fun x => if ends then decide (low ≤ x ∧ x ≤ high) else decide (low < x ∧ x < high)
  match fits (a * step), fits ((a + 1) * step) with
  | true, false => some a
  | false, true => some (a + 1)
  | false, false => none
  | true, true =>
    let down := value - a * step
    let up := (a + 1) * step - value
    if down < up then some a else if up < down then some (a + 1) else some (a + a % 2)

/-- The shortest digits of `m · 2 ^ e` and the place of the point: `(d, p)` stands for
`0.d × 10 ^ p`. -/
def shortestDigits (m : Nat) (e : Int) : Nat × Int :=
  let (low, value, high) := roundingBounds m e
  let (num, den) := Binary64.ratio 1 (e - 2)
  let p := magnitude (value * num) den
  let attempt := fun (k : Nat) =>
    -- the grid of `k` digits has step `10 ^ (p - k)`
    let shift := p - k
    let (scale, step) :=
      if 0 ≤ shift then (num, den * Nat.pow 10 shift.toNat) else (num * Nat.pow 10 (-shift).toNat, den)
    (gridPoint? (low * scale) (value * scale) (high * scale) step (m % 2 == 0)).map (·, k)
  match (List.range 17).findSome? fun k => attempt (k + 1) with
  | some (d, k) => if d = Nat.pow 10 k then (1, p + 1) else (d, p)
  | none => (value, p)

/-- Drops the zeros at the end of a number. -/
def dropZeros : List Char → List Char := fun ds => (ds.reverse.dropWhile (· == '0')).reverse

/-- Whether a value whose point stands at `p` is written without an exponent. -/
def positional (p : Int) : Bool := decide (-4 < p ∧ p ≤ 16)

/-- Digits and the place of the point as text: `0.ds × 10 ^ p`. -/
def layOut (ds : List Char) (p : Int) : List Char :=
  if positional p then
    if p ≤ 0 then '0' :: '.' :: (List.replicate (-p).toNat '0' ++ ds)
    else if ds.length ≤ p.toNat then ds ++ List.replicate (p.toNat - ds.length) '0' ++ ['.', '0']
    else ds.take p.toNat ++ '.' :: ds.drop p.toNat
  else
    let e := p - 1
    let mark := if e < 0 then '-' else '+'
    let lead := match ds with
      | [] => []
      | [d] => [d]
      | d :: r => d :: '.' :: r
    lead ++ 'e' :: mark :: padded 2 e.natAbs

/-- The shortest text that reads back. -/
def shortest : Binary64 → String
  | .nan => "nan"
  | .infinite s => if s then "-inf" else "inf"
  | .finite s m e =>
    let text :=
      if m = 0 then ['0', '.', '0']
      else let (d, p) := shortestDigits m e; layOut (dropZeros (digits d)) p
    String.ofList (if s then '-' :: text else text)

example : shortest (Binary64.ofDecimal false 1 (-1)) = "0.1" := by decide +kernel

example : shortest (Binary64.ofDecimal false 1 16) = "1e+16" := by decide +kernel

example : shortest (Binary64.ofDecimal true 123456789125 (-3)) = "-123456789.125" := by
  decide +kernel

end OpeningHand.Number
