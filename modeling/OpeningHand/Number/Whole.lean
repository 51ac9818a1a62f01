import OpeningHand.Text.Blank
import OpeningHand.Text.Digit
import OpeningHand.Number.Binary64

/-!
# Numbers read from a text

A whole number may have blanks around it, a sign, and single underscores between its digits, which
may come from any script; in a base other than ten, letters follow the digits. A number with a point
takes the same freedoms and may have an exponent; the words for the infinities and for no number are
read in any case of letters.

A number may have any number of digits. A bound that a machine puts on the digits that it reads or writes
at once is left out.
-/

namespace OpeningHand.Number

open Text

/-- A blank that may stand around a number: any but the four ASCII separators. -/
def isMargin (c : Char) : Bool := isBlank c && !(28 ≤ c.val.toNat && c.val.toNat ≤ 31)

/-- Drops the blanks around a number. -/
def trimmed (s : List Char) : List Char :=
  ((s.dropWhile isMargin).reverse.dropWhile isMargin).reverse

/-- Whether a digit comes next. -/
def digitNext : List Char → Bool
  | [] => false
  | c :: _ => isDigit c

/-- Digits with single underscores between them: the digits, and what follows. An underscore that is
not followed by a digit stays. -/
def spanDigits : List Char → List Char × List Char
  | [] => ([], [])
  | c :: '_' :: t =>
    if isDigit c then
      if digitNext t then let p := spanDigits t; (c :: p.1, p.2) else ([c], '_' :: t)
    else ([], c :: '_' :: t)
  | c :: r => if isDigit c then let p := spanDigits r; (c :: p.1, p.2) else ([], c :: r)

/-- An optional sign: whether it is minus, and what follows. -/
def spanSign : List Char → Bool × List Char
  | '-' :: r => (true, r)
  | '+' :: r => (false, r)
  | r => (false, r)

/-- The whole number that a text writes. -/
def whole? (s : List Char) : Option Int :=
  let (negative, r) := spanSign (trimmed s)
  match spanDigits r with
  | ([], _) => none
  | (ds, []) => some (if negative then -(ofDigits ds : Int) else ofDigits ds)
  | _ => none

/-- The letter that may stand after a zero in front of the digits of some bases. -/
def markOf : Nat → Option Char
  | 2 => some 'b'
  | 8 => some 'o'
  | 16 => some 'x'
  | _ => none

/-- Drops the zero and the letter that mark a base, if they are there. -/
def withoutMark (base : Nat) : List Char → List Char
  | z :: c :: r =>
    if digitValue? z = some 0 ∧ some c.toLower = markOf base then r else z :: c :: r
  | r => r

/-- The value of a digit of a base: a decimal digit of any script, or a letter of ASCII. -/
def digitIn? (base : Nat) (c : Char) : Option Nat :=
  let letter := if c.isAlpha then some (c.toLower.toNat - 'a'.toNat + 10) else none
  ((digitValue? c).or letter).filter (· < base)

/-- The whole number that a text writes in a base, without underscores. -/
def wholeIn? (base : Nat) (s : List Char) : Option Int :=
  let (negative, r) := spanSign (trimmed s)
  match (withoutMark base r).mapM (digitIn? base) with
  | none | some [] => none
  | some ds =>
    let n := ds.foldl (fun n d => base * n + d) 0
    some (if negative then -(n : Int) else n)

/-- The digits after a point, with the point dropped; nothing to read is no digits. -/
def spanFraction : List Char → List Char × List Char
  | '.' :: r => spanDigits r
  | r => ([], r)

/-- An exponent that ends the text. -/
def exponent? : List Char → Option Int
  | [] => some 0
  | c :: r =>
    if c == 'e' || c == 'E' then
      let (negative, r) := spanSign r
      match spanDigits r with
      | ([], _) => none
      | (ds, []) => some (if negative then -(ofDigits ds : Int) else ofDigits ds)
      | _ => none
    else none

/-- The number with a point, infinity or no number that a text writes. -/
def decimal? (s : List Char) : Option Binary64 :=
  let (negative, r) := spanSign (trimmed s)
  let word := String.ofList (r.map Char.toLower)
  if word = "inf" ∨ word = "infinity" then some (.infinite negative)
  else if word = "nan" then some .nan
  else
    let (before, r) := spanDigits r
    let (after, r) := spanFraction r
    if before.isEmpty && after.isEmpty then none
    else (exponent? r).map fun e =>
      Binary64.ofDecimal negative (ofDigits (before ++ after)) (e - after.length)

example : whole? " -1_000 ".toList = some (-1000) ∧ whole? "1__0".toList = none := by
  decide +kernel

example : wholeIn? 16 "-0x1F ".toList = some (-31) ∧ wholeIn? 8 "08".toList = none := by decide +kernel

example : (decimal? "2.5e1".toList).bind Binary64.toInt? = some 25 ∧ decimal? "e1".toList = none := by
  decide +kernel

end OpeningHand.Number
