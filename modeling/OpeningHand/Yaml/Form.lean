import OpeningHand.Json.Reader
import OpeningHand.Number.Whole
import OpeningHand.Text.Base64
import OpeningHand.Text.Between
import OpeningHand.Text.Small
import OpeningHand.Yaml.Moment

/-!
# What scalars stand for

A plain scalar without a tag is a truth value, a number, a date, the empty value or a text, by its form.
Numbers may be written in base two, eight, ten, sixteen or sixty, with underscores anywhere among their
digits; a number with a point must show the point, and its exponent a sign. A tag decides instead of
the form, and the text must then be one that the kind can be read from, which is less strict than the
form: blanks and digits of any script will do.
-/

namespace OpeningHand.Yaml

open Number

/-- The kinds of scalars. -/
inductive Form where
  | null
  | bool
  | int
  | float
  | moment
  /-- The key that includes other mappings. -/
  | merge
  /-- The key of a default; it has no value of its own. -/
  | default
  /-- Bytes; only a tag makes a text one. -/
  | bytes
  | text
deriving DecidableEq, Repr

namespace Form

/-! ## The form of a plain scalar -/

/-- Words for truth. -/
def yesWords : List String :=
  ["yes", "Yes", "YES", "true", "True", "TRUE", "on", "On", "ON"]

/-- Words for falsehood. -/
def noWords : List String :=
  ["no", "No", "NO", "false", "False", "FALSE", "off", "Off", "OFF"]

/-- Words for the empty value. -/
def nullWords : List String := ["", "~", "null", "Null", "NULL"]

/-- Drops a sign. -/
def unsigned (s : List Char) : List Char := (spanSign s).2

/-- A decimal digit of ASCII or an underscore. -/
def isDigitOrLine (c : Char) : Bool := c.isDigit || c == '_'

/-- Groups of one or two digits below sixty, each after a colon, up to something else; nothing if there
is no such group. -/
def afterColons : List Char → Option (List Char)
  | ':' :: a :: b :: r =>
    if a.isDigit && a ≤ '5' && b.isDigit then some ((afterColons r).getD r)
    else if a.isDigit then some ((afterColons (b :: r)).getD (b :: r))
    else none
  | [':', a] => if a.isDigit then some [] else none
  | _ => none

/-- Whether the digits of a whole number are all of a base. -/
def allDigits (p : Char → Bool) (s : List Char) : Bool :=
  !s.isEmpty && s.all fun c => p c || c == '_'

/-- The form of a whole number. -/
def isInt (s : List Char) : Bool :=
  match unsigned s with
  | ['0'] => true
  | '0' :: 'b' :: r => allDigits (fun c => c == '0' || c == '1') r
  | '0' :: 'x' :: r =>
    allDigits (fun c => (Json.hexValue? c).isSome) r
  | '0' :: r => allDigits (fun c => '0' ≤ c && c ≤ '7') r
  | c :: r =>
    c.isDigit &&
      let rest := r.dropWhile isDigitOrLine
      rest.isEmpty || afterColons rest == some []
  | [] => false

/-- Whether an exponent with a sign, or nothing, is left. -/
def isExponent : List Char → Bool
  | [] => true
  | e :: sign :: r =>
    (e == 'e' || e == 'E') && (sign == '-' || sign == '+') && !r.isEmpty && r.all Char.isDigit
  | _ => false

/-- The form of a number with a point. -/
def isFloat (s : List Char) : Bool :=
  let word := String.ofList s
  if word = ".nan" ∨ word = ".NaN" ∨ word = ".NAN" then true
  else
    let u := unsigned s
    let size := String.ofList u
    if size = ".inf" ∨ size = ".Inf" ∨ size = ".INF" then true
    else match s, u with
      | '.' :: c :: r, _ => c.isDigit && isExponent (r.dropWhile isDigitOrLine)
      | _, c :: r =>
        c.isDigit && match r.dropWhile isDigitOrLine with
          | '.' :: r => isExponent (r.dropWhile isDigitOrLine)
          | r => match afterColons r with
            | some ('.' :: r) => r.all isDigitOrLine
            | _ => false
      | _, [] => false

/-- The form of a plain scalar of one line. -/
def ofText (s : String) : Form :=
  if yesWords.contains s || noWords.contains s then bool
  else if isFloat s.toList then float
  else if isInt s.toList then int
  else if s == "<<" then merge
  else if nullWords.contains s then null
  else if Moment.hasForm s then moment
  else if s == "=" then default
  else text

/-- The form of a scalar that is taken as if it were plain: a line feed may end it. Signs that stand for
something else in front of a scalar have no form. -/
def implied? (s : String) : Option Form :=
  if s = "\n" then some text
  else
    let s := String.ofList (Moment.withoutFeed s.toList)
    if s = "!" ∨ s = "&" ∨ s = "*" then none else some (ofText s)

/-! ## Reading a scalar of a form -/

/-- A whole number in a base. -/
def inBase (base : Nat) (s : List Char) : Except Fault Int :=
  match wholeIn? base s with
  | some i => .ok i
  | none => .error (.notWholeIn base (.text (String.ofList s)))

/-- The sign and the rest of a text without underscores; there must be a text. -/
def signAndRest (s : List Char) : Except Fault (Bool × List Char) :=
  match s.filter (· != '_') with
  | [] => .error .emptyText
  | s => .ok (spanSign s)

/-- The whole number that a text writes; there must be something after the sign. -/
def readInt (s : List Char) : Except Fault Int := do
  let (negative, r) ← signAndRest s
  let size ← match r with
    | [] => .error .emptyText
    | ['0'] => pure 0
    | '0' :: 'b' :: r => inBase 2 r
    | '0' :: 'x' :: r => inBase 16 r
    | '0' :: _ => inBase 8 r
    | r =>
      if r.contains ':' then do
        let parts ← (Text.between ':' r).mapM (inBase 10)
        pure (parts.foldl (fun n d => 60 * n + d) 0)
      else inBase 10 r
  pure (if negative then -size else size)

/-- The number with a point that a text writes. -/
def readDecimal (s : List Char) : Except Fault Binary64 :=
  match decimal? s with
  | some x => .ok x
  | none => .error (.notDecimal (String.ofList s))

/-- The weight of a digit in base sixty, which must not be beyond all finite values. -/
def weight (place : Nat) : Except Fault Binary64 :=
  match Binary64.ofNat (Nat.pow 60 place) with
  | .infinite _ => .error .tooLarge
  | w => .ok w

/-- The value of digits in base sixty, rounded after each step from the last digit on. -/
def ofSixties (digits : List Binary64) : Except Fault Binary64 :=
  digits.reverse.zipIdx.foldlM (fun sum (d, place) => do pure (sum.add (d.mul (← weight place)))) .zero

/-- The number with a point of a text; a point may stand for an infinity or for no number. -/
def readFloat (s : List Char) : Except Fault Binary64 := do
  let (negative, r) ← signAndRest (Text.small s)
  let size ←
    if r = ".inf".toList then pure (.infinite false)
    else if r = ".nan".toList then pure .nan
    else if r.contains ':' then do ofSixties (← (Text.between ':' r).mapM readDecimal)
    else readDecimal r
  pure (if negative then size.negate else size)

/-- The value of a scalar of a form. -/
def read (f : Form) (s : String) : Except Fault Value :=
  match f with
  | .null => .ok .null
  | .bool =>
    let word := String.ofList (Text.small s.toList)
    if yesWords.contains word then .ok (.bool true)
    else if noWords.contains word then .ok (.bool false)
    else .error (.missingKey (.text word))
  | .int => (readInt s.toList).map .int
  | .float => (readFloat s.toList).map .float
  | .moment => match Moment.ofText? s with
    | some m => Moment.toValue m
    | none => .error .noField
  | .bytes =>
    if s.toList.all (·.val < 0x80) then match Text.Base64.decode? s.toList with
      | some l => .ok (.bytes l)
      | none => .error .badYaml
    else .error .badYaml
  | .text => .ok (.text s)
  | .merge | .default => .error .badYaml

example : ["010", "0x1F", "1_000", "0o7", "08", "1:30"].map ofText =
    [int, int, int, text, text, int] := by decide +kernel

example : (readInt "-1:30".toList).toOption = some (-90) ∧
    ["1.", "1e5", "1.5e+3", ".5", "1:30.5", "-.inf"].map ofText =
      [float, text, float, float, float, float] := by decide +kernel

end Form

end OpeningHand.Yaml
