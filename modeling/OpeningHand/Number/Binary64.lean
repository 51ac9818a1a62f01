import OpeningHand.Number.Rounding

/-!
# Binary fractions of 53 bits

The numbers with a point that documents and reports hold: `± m · 2 ^ e` with `m < 2 ^ 53` and
`-1074 ≤ e ≤ 971`, the two infinities, and the value that is no number. A finite value is kept in
the one form with `2 ^ 52 ≤ m` or `e = -1074`, so equal values are equal terms (zero keeps its sign).
All arithmetic is exact on natural numbers and rounds once, at the end.
-/

namespace OpeningHand.Number

/-- A binary fraction of 53 bits, an infinity, or no number. -/
inductive Binary64 where
  | nan
  | infinite (negative : Bool)
  | finite (negative : Bool) (mantissa : Nat) (exponent : Int)
deriving DecidableEq, Repr

namespace Binary64

/-- Zero without a sign. -/
def zero : Binary64 := .finite false 0 (-1074)

/-- The quotient `num / den · 2 ^ (-e)` as a fraction of natural numbers. -/
def shifted (num den : Nat) (e : Int) : Nat × Nat :=
  if 0 ≤ e then (num, den * Nat.pow 2 e.toNat) else (num * Nat.pow 2 (-e).toNat, den)

/-- The exponent at which `num / den` has 53 bits before the point, or the least one. -/
def exponentFor (num den : Nat) : Int :=
  let e := max ((num.log2 : Int) - den.log2 - 53) (-1074)
  let (n, d) := shifted num den e
  if n / d < Nat.pow 2 53 then e else e + 1

/-- The value nearest to `± num / den`, halves to the even mantissa; too large is infinite. -/
def ofRatio (negative : Bool) (num den : Nat) : Binary64 :=
  if num = 0 ∨ den = 0 then .finite negative 0 (-1074)
  else
    let e := exponentFor num den
    let (n, d) := shifted num den e
    let m := roundDiv n d
    let (m, e) := if m < Nat.pow 2 53 then (m, e) else (m / 2, e + 1)
    if e ≤ 971 then .finite negative m e else .infinite negative

/-- The value nearest to `± m · 10 ^ e`. An exponent beyond all finite values is cut short, so that
a short text cannot ask for a long computation. -/
def ofDecimal (negative : Bool) (m : Nat) (e : Int) : Binary64 :=
  if m = 0 then .finite negative 0 (-1074)
  else if 400 < e then .infinite negative
  else if e + (m.log2 + 1 : Nat) < -400 then .finite negative 0 (-1074)
  else if 0 ≤ e then ofRatio negative (m * Nat.pow 10 e.toNat) 1
  else ofRatio negative m (Nat.pow 10 (-e).toNat)

/-- The nearest value to a natural number. -/
def ofNat (n : Nat) : Binary64 := ofRatio false n 1

/-- The magnitude of `m · 2 ^ e` as a fraction of natural numbers. -/
def ratio (m : Nat) (e : Int) : Nat × Nat :=
  if 0 ≤ e then (m * Nat.pow 2 e.toNat, 1) else (m, Nat.pow 2 (-e).toNat)

/-- Multiplies the magnitude by a fraction and rounds. -/
def scale (x : Binary64) (num den : Nat) : Binary64 :=
  match x with
  | .finite s m e => let (n, d) := ratio m e; ofRatio s (n * num) (d * den)
  | x => x

/-- The whole part, toward zero; nothing for an infinity and for no number. -/
def toInt? : Binary64 → Option Int
  | .finite s m e =>
    let (n, d) := ratio m e
    some (if s then -((n / d : Nat) : Int) else ((n / d : Nat) : Int))
  | _ => none

/-- The value of the other sign. -/
def negate : Binary64 → Binary64
  | .finite s m e => .finite (!s) m e
  | .infinite s => .infinite (!s)
  | .nan => .nan

/-- The signed magnitude of a finite value as a fraction. -/
def signedRatio (negative : Bool) (m : Nat) (e : Int) : Int × Nat :=
  let (n, d) := ratio m e
  (if negative then -(n : Int) else n, d)

/-- The sum, rounded. Infinities of both signs have none; a sum of zero is negative only if both summands
are. -/
def add : Binary64 → Binary64 → Binary64
  | .nan, _ | _, .nan => .nan
  | .infinite s, .infinite t => if s = t then .infinite s else .nan
  | .infinite s, .finite .. | .finite .., .infinite s => .infinite s
  | .finite s m e, .finite t m' e' =>
    let (a, b) := signedRatio s m e
    let (c, d) := signedRatio t m' e'
    let n := a * d + c * b
    ofRatio (if n = 0 then s && t else decide (n < 0)) n.natAbs (b * d)

/-- The product, rounded. An infinity times zero has none. -/
def mul : Binary64 → Binary64 → Binary64
  | .nan, _ | _, .nan => .nan
  | .infinite s, .infinite t => .infinite (s != t)
  | .infinite s, .finite t m _ | .finite t m _, .infinite s =>
    if m = 0 then .nan else .infinite (s != t)
  | .finite s m e, .finite t m' e' =>
    let (a, b) := ratio m e
    let (c, d) := ratio m' e'
    ofRatio (s != t) (a * c) (b * d)

/-- Whether the value is zero, of either sign. -/
def isZero : Binary64 → Bool
  | .finite _ m _ => m == 0
  | _ => false

/-- The finite value equal to a whole number exactly, if it is one. -/
def exactInt? : Binary64 → Option Int
  | .finite s m e =>
    let (n, d) := ratio m e
    if n % d = 0 then some (if s then -((n / d : Nat) : Int) else ((n / d : Nat) : Int)) else none
  | _ => none

/-- Numeric equality: no number equals nothing, and the two zeros are equal. -/
def same : Binary64 → Binary64 → Bool
  | .nan, _ => false
  | _, .nan => false
  | x, y => x == y || (x.isZero && y.isZero)

/-- How a value compares with a natural number; what is no number does not compare. -/
def compareNat? (x : Binary64) (n : Nat) : Option Ordering :=
  match x with
  | .nan => none
  | .infinite s => some (if s then .lt else .gt)
  | .finite s m e =>
    let (a, b) := ratio m e
    some (if s && a != 0 then .lt else compare a (n * b))

/-- The nearest value to `a / b`; a quotient by zero counts as zero. -/
def quotient (a b : Nat) : Binary64 := ofRatio false a b

example : ofRatio false 1 3 = .finite false 6004799503160661 (-54) := by decide +kernel

example : (ofDecimal false 1 400).toInt? = none ∧ (ofDecimal true 25 (-1)).toInt? = some (-2) := by
  decide +kernel

end Binary64

end OpeningHand.Number
