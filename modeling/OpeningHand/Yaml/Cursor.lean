import OpeningHand.Text.Half

/-!
# Places in a YAML text

A cursor stands before the rest of a text and knows its index, line and column. Five characters (and
the pair of carriage return and line feed) break lines; the end of the text shows as the character
zero, which no YAML text holds.
-/

namespace OpeningHand.Yaml

/-- A place in a text. -/
structure Cursor where
  rest : List Char
  index : Nat
  line : Nat
  column : Nat
deriving Repr

/-- The end of a text. -/
def endMark : Char := '\x00'

/-- A character that breaks lines. -/
def isBreak (c : Char) : Bool :=
  c == '\n' || c == '\r' || c == '\x85' || c == '\u2028' || c == '\u2029'

/-- A line break or the end. -/
def isBreakOrEnd (c : Char) : Bool := isBreak c || c == endMark

/-- A blank, a line break or the end: what must follow an indicator that stands alone. -/
def isGap (c : Char) : Bool := isBreakOrEnd c || c == ' ' || c == '\t'

/-- A character that a YAML text may hold. -/
def isAllowed (c : Char) : Bool :=
  let n := c.val.toNat
  n == 9 || n == 10 || n == 13 || (0x20 ≤ n && n ≤ 0x7E) || n == 0x85 ||
    (0xA0 ≤ n && n ≤ 0xD7FF) || (0xE000 ≤ n && n ≤ 0xFFFD) || (0x10000 ≤ n && !Text.isHalf c)

namespace Cursor

/-- The beginning of a text. -/
def ofText (s : List Char) : Cursor := ⟨s, 0, 0, 0⟩

/-- The character `k` places ahead. -/
def peek (c : Cursor) (k : Nat) : Char := (c.rest[k]?).getD endMark

/-- The next character. -/
def next (c : Cursor) : Char := c.rest.headD endMark

/-- Moves on by one character. -/
def step (c : Cursor) : Cursor :=
  match c.rest with
  | [] => c
  | x :: r =>
    if isBreak x && !(x == '\r' && r.head? == some '\n') then ⟨r, c.index + 1, c.line + 1, 0⟩
    else if x == '\uFEFF' then ⟨r, c.index + 1, c.line, c.column⟩
    else ⟨r, c.index + 1, c.line, c.column + 1⟩

/-- Moves on by `n` characters. -/
def advance : Nat → Cursor → Cursor
  | 0, c => c
  | n + 1, c => advance n c.step

/-- Moves on over the characters that pass a test; they are returned. -/
def span (p : Char → Bool) (c : Cursor) : List Char × Cursor :=
  let s := c.rest.takeWhile p
  (s, c.advance s.length)

/-- Moves on over spaces, at most up to a column. -/
def spacesUpTo (column : Nat) (c : Cursor) : Cursor :=
  c.advance (min (column - c.column) (c.rest.takeWhile (· == ' ')).length)

/-- A line break at this place: what it counts as, and what follows. Most breaks count as a line feed,
the two Unicode separators as themselves. -/
def lineBreak (c : Cursor) : List Char × Cursor :=
  let x := c.next
  if x == '\r' && c.peek 1 == '\n' then (['\n'], c.advance 2)
  else if x == '\u2028' || x == '\u2029' then ([x], c.step)
  else if isBreak x then (['\n'], c.step)
  else ([], c)

/-- Whether three given characters and a gap stand here. -/
def hasMarker (x : Char) (c : Cursor) : Bool :=
  c.next == x && c.peek 1 == x && c.peek 2 == x && isGap (c.peek 3)

/-- Whether a document ends or begins here. -/
def atDocumentMarker (c : Cursor) : Bool := c.hasMarker '-' || c.hasMarker '.'

end Cursor

end OpeningHand.Yaml
