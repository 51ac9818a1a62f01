/-!
# Bytes in base 64

Three bytes are written as four characters, each for six bits; one or two equals signs fill up a last
group that is not whole. A reader passes over all characters that stand for nothing. It stops at the equals
signs that fill up a group, and without these the groups must be whole.
-/

namespace OpeningHand.Text.Base64

/-- The characters of the sixty-four values, in order. -/
def alphabet : List Char :=
  "ABCDEFGHIJKLMNOPQRSTUVWXYZabcdefghijklmnopqrstuvwxyz0123456789+/".toList

/-- The value of a character. -/
def value? (c : Char) : Option Nat := alphabet.idxOf? c

/-- The values that a text writes. `held` counts those of the open group, and `signs` the equals signs
since the last of them. -/
def values? (held signs : Nat) : List Char → Option (List Nat)
  | [] => if held = 0 then some [] else none
  | c :: r =>
    if c = '=' then
      if held < 2 then values? held signs r
      else if 4 ≤ held + signs + 1 then some []
      else values? held (signs + 1) r
    else match value? c with
      | some v => (values? ((held + 1) % 4) 0 r).map (v :: ·)
      | none => values? held signs r

/-- The bytes of six-bit values; bits that fill no byte are dropped. -/
def ofValues : List Nat → List UInt8
  | a :: b :: c :: d :: r =>
    UInt8.ofNat (4 * a + b / 16) :: UInt8.ofNat (16 * (b % 16) + c / 4) ::
      UInt8.ofNat (64 * (c % 4) + d) :: ofValues r
  | [a, b, c] => [UInt8.ofNat (4 * a + b / 16), UInt8.ofNat (16 * (b % 16) + c / 4)]
  | [a, b] => [UInt8.ofNat (4 * a + b / 16)]
  | _ => []

/-- The bytes that a text writes. -/
def decode? (s : List Char) : Option (List UInt8) := (values? 0 0 s).map ofValues

/-- The character of a value. -/
def digit (n : Nat) : Char := alphabet.getD n '='

/-- Bytes as text. -/
def encode : List UInt8 → List Char
  | a :: b :: c :: r =>
    let (a, b, c) := (a.toNat, b.toNat, c.toNat)
    digit (a / 4) :: digit (16 * (a % 4) + b / 16) :: digit (4 * (b % 16) + c / 64) :: digit (c % 64) ::
      encode r
  | [a, b] =>
    let (a, b) := (a.toNat, b.toNat)
    [digit (a / 4), digit (16 * (a % 4) + b / 16), digit (4 * (b % 16)), '=']
  | [a] => [digit (a.toNat / 4), digit (16 * (a.toNat % 4)), '=', '=']
  | [] => []

example : decode? "a G-k=".toList = some [104, 105] ∧ decode? "aGk".toList = none := by decide +kernel

example : decode? (encode [0, 255, 16, 7]) = some [0, 255, 16, 7] := by decide +kernel

end OpeningHand.Text.Base64
