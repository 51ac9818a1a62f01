import OpeningHand.Text.Half
import OpeningHand.Text.Printable

/-!
# Quoted texts

Inside a message a text is shown between quotes: single ones, or double ones if the text holds a
single quote and no double quote. A backslash, the quote itself and all that is not printable is
escaped, in the shortest of the three hexadecimal forms that can hold it.
-/

namespace OpeningHand.Text

/-- The last `width` hexadecimal digits of a number, in small letters. -/
def hex : (width : Nat) → Nat → List Char
  | 0, _ => []
  | w + 1, n => hex w (n / 16) ++ [Nat.digitChar (n % 16)]

@[simp]
theorem length_hex (w n : Nat) : (hex w n).length = w := by
  induction w generalizing n with
  | zero => rfl
  | succ w ih => simp [hex, ih]

/-- One character between quotes of the kind `q`. -/
def quoteChar (q c : Char) : List Char :=
  if c == '\\' || c == q then ['\\', c]
  else if c == '\n' then ['\\', 'n']
  else if c == '\r' then ['\\', 'r']
  else if c == '\t' then ['\\', 't']
  else if isPrintable c then [c]
  else
    let n := codeOf c
    if n < 0x100 then '\\' :: 'x' :: hex 2 n
    else if n < 0x10000 then '\\' :: 'u' :: hex 4 n
    else '\\' :: 'U' :: hex 8 n

/-- The quote that surrounds a text. -/
def quoteFor (s : List Char) : Char :=
  if s.contains '\'' && !s.contains '"' then '"' else '\''

/-- A text as a message shows it. -/
def quoted (s : String) : String :=
  let cs := s.toList
  let q := quoteFor cs
  String.ofList (q :: (cs.flatMap (quoteChar q) ++ [q]))

/-- One byte between quotes of the kind `q`: what has no printable character of ASCII is escaped. -/
def quoteByte (q : Char) (b : UInt8) : List Char :=
  if 0x20 ≤ b && b < 0x7F then quoteChar q (Char.ofNat b.toNat)
  else if b == 9 || b == 10 || b == 13 then quoteChar q (Char.ofNat b.toNat)
  else '\\' :: 'x' :: hex 2 b.toNat

/-- Bytes as a message shows them. -/
def quotedBytes (bytes : List UInt8) : String :=
  let q := quoteFor (bytes.map fun b => Char.ofNat b.toNat)
  String.ofList ('b' :: q :: (bytes.flatMap (quoteByte q) ++ [q]))

example : quotedBytes [104, 105, 10, 0x80] = "b'hi\\n\\x80'" := by decide +kernel

example : quoted "it's" = "\"it's\"" := by cbv

example : quoted "a\n\"'" = "'a\\n\"\\''" := by cbv

end OpeningHand.Text
