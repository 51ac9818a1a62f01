/-!
# Blank characters

The characters that separate words: the ASCII controls 9 to 13 and 28 to 31, the space, and the
spaces and line ends of Unicode. Every reader of this library that "skips blanks" or "strips" a
text uses this one class.
-/

namespace OpeningHand.Text

/-- The blank characters: white space in the Unicode sense, and the four ASCII separators. -/
def isBlank (c : Char) : Bool :=
  let n := c.val.toNat
  (9 ≤ n && n ≤ 13) || (28 ≤ n && n ≤ 32) || n == 0x85 || n == 0xA0 || n == 0x1680 ||
    (0x2000 ≤ n && n ≤ 0x200A) || n == 0x2028 || n == 0x2029 || n == 0x202F || n == 0x205F ||
    n == 0x3000

/-- Drops the blanks at the front. -/
def trimLeft (s : List Char) : List Char := s.dropWhile isBlank

/-- Drops the blanks at the end. -/
def trimRight (s : List Char) : List Char := (s.reverse.dropWhile isBlank).reverse

/-- Drops the blanks at both ends. -/
def trim (s : List Char) : List Char := trimRight (trimLeft s)

/-- A text without the blanks at both ends. -/
def stripped (s : String) : String := String.ofList (trim s.toList)

/-- Every run of blanks becomes one space. -/
def collapse : List Char → List Char
  | [] => []
  | [c] => if isBlank c then [' '] else [c]
  | c :: d :: r =>
    if isBlank c then (if isBlank d then collapse (d :: r) else ' ' :: collapse (d :: r))
    else c :: collapse (d :: r)

example : String.ofList (trim (collapse " Pot   of\tGreed ".toList)) = "Pot of Greed" := by decide

end OpeningHand.Text
