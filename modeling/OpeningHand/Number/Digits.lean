/-!
# Decimal digits of whole numbers
-/

namespace OpeningHand.Number

/-- The decimal digits of a natural number. -/
def digits (n : Nat) : List Char := Nat.toDigits 10 n

/-- At least `width` digits, with zeros in front. -/
def padded (width n : Nat) : List Char :=
  let ds := digits n
  List.replicate (width - ds.length) '0' ++ ds

/-- A whole number: its digits, after a minus sign if it is negative. -/
def signed (i : Int) : List Char := if i < 0 then '-' :: digits i.natAbs else digits i.natAbs

/-- The text of a whole number. -/
def text (i : Int) : String := String.ofList (signed i)

example : text (-120) = "-120" ∧ padded 4 56 = "0056".toList := by decide +kernel

end OpeningHand.Number
