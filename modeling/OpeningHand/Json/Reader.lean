import OpeningHand.Document.Value
import OpeningHand.Text.Digit
import OpeningHand.Text.Half

/-!
# Reading JSON

The grammar is the strict one: no comments, no trailing commas, no leading zeros, no control
characters inside texts. Beyond it the three words `NaN`, `Infinity` and `-Infinity` are numbers. A
number with a fraction or an exponent is a number with a point, any other a whole number. Keys keep
their order; a repeated key keeps its first place and takes its last value.
-/

namespace OpeningHand.Json

open Number

/-- Drops the white space of JSON. -/
def skip (s : List Char) : List Char :=
  s.dropWhile fun c => c == ' ' || c == '\t' || c == '\n' || c == '\r'

/-- Drops a given beginning, if the text has it. -/
def dropPrefix? : List Char → List Char → Option (List Char)
  | [], s => some s
  | _ :: _, [] => none
  | p :: ps, c :: cs => if p == c then dropPrefix? ps cs else none

/-- The value of a hexadecimal digit. -/
def hexValue? (c : Char) : Option Nat :=
  if '0' ≤ c ∧ c ≤ '9' then some (c.toNat - '0'.toNat)
  else if 'a' ≤ c ∧ c ≤ 'f' then some (c.toNat - 'a'.toNat + 10)
  else if 'A' ≤ c ∧ c ≤ 'F' then some (c.toNat - 'A'.toNat + 10)
  else none

/-- Exactly `n` hexadecimal digits: their number, and what follows. -/
def hexNumber? : Nat → Nat → List Char → Option (Nat × List Char)
  | 0, acc, r => some (acc, r)
  | n + 1, acc, c :: r => (hexValue? c).bind fun d => hexNumber? n (16 * acc + d) r
  | _ + 1, _, [] => none

/-- A code unit after `\u`: two units of a surrogate pair make one character, and a unit without
its partner is a half. -/
def unicodeEscape? (r : List Char) : Option (Char × List Char) :=
  (hexNumber? 4 0 r).map fun (high, r1) =>
    if 0xD800 ≤ high && high < 0xDC00 then
      match (dropPrefix? ['\\', 'u'] r1).bind (hexNumber? 4 0) with
      | some (low, r2) =>
        if 0xDC00 ≤ low && low < 0xE000 then
          (Char.ofNat (0x10000 + (high - 0xD800) * 0x400 + (low - 0xDC00)), r2)
        else (Text.ofCode high, r1)
      | none => (Text.ofCode high, r1)
    else (Text.ofCode high, r1)

/-- The character after a backslash, other than a code unit. -/
def simpleEscape? : Char → Option Char
  | '"' => some '"'
  | '\\' => some '\\'
  | '/' => some '/'
  | 'b' => some '\x08'
  | 'f' => some '\x0c'
  | 'n' => some '\n'
  | 'r' => some '\r'
  | 't' => some '\t'
  | _ => none

/-- The rest of a text, its opening quote being read: the characters so far in reverse order. The
first argument bounds the number of characters. -/
def textBody : Nat → List Char → List Char → Option (String × List Char)
  | 0, _, _ => none
  | _ + 1, _, [] => none
  | n + 1, acc, c :: r =>
    if c == '"' then some (String.ofList acc.reverse, r)
    else if c == '\\' then
      match r with
      | 'u' :: r' => (unicodeEscape? r').bind fun (x, r'') => textBody n (x :: acc) r''
      | x :: r' => (simpleEscape? x).bind fun y => textBody n (y :: acc) r'
      | [] => none
    else if c.val < 0x20 then none
    else textBody n (c :: acc) r

/-- ASCII digits at the front, and what follows. -/
def asciiDigits (s : List Char) : List Char × List Char := s.span Char.isDigit

/-- A fraction after a whole part: its digits, and what follows. Without a digit after the point
there is no fraction. -/
def fraction (r : List Char) : List Char × List Char :=
  match r with
  | '.' :: r' => match asciiDigits r' with
    | ([], _) => ([], r)
    | p => p
  | _ => ([], r)

/-- An exponent after a number, and what follows. -/
def exponent? (r : List Char) : Option (Int × List Char) :=
  match r with
  | c :: r' =>
    if c == 'e' || c == 'E' then
      let (negative, r'') := match r' with
        | '-' :: t => (true, t)
        | '+' :: t => (false, t)
        | t => (false, t)
      match asciiDigits r'' with
      | ([], _) => none
      | (ds, t) =>
        let e : Nat := Text.ofDigits ds
        some (if negative then -(e : Int) else e, t)
    else none
  | [] => none

/-- A number: a whole part without leading zeros, a fraction, an exponent. -/
def number? (s : List Char) : Option (Value × List Char) :=
  let (negative, r) := match s with
    | '-' :: t => (true, t)
    | t => (false, t)
  let (whole, r) := match r with
    | '0' :: t => (['0'], t)
    | _ => asciiDigits r
  if whole.isEmpty then none
  else
    let (part, r) := fraction r
    match exponent? r with
    | none =>
      let m := Text.ofDigits (whole ++ part)
      if part.isEmpty then some (.int (if negative then -(m : Int) else m), r)
      else some (.float (Binary64.ofDecimal negative m (-(part.length : Int))), r)
    | some (e, r) =>
      let m := Text.ofDigits (whole ++ part)
      some (.float (Binary64.ofDecimal negative m (e - part.length)), r)

/-- The words of JSON and their values. -/
def words : List (String × Value) :=
  [("null", .null), ("true", .bool true), ("false", .bool false), ("NaN", .float .nan),
   ("Infinity", .float (.infinite false)), ("-Infinity", .float (.infinite true))]

/-- A word or a number. -/
def atom? (s : List Char) : Option (Value × List Char) :=
  match words.findSome? fun w => (dropPrefix? w.1.toList s).map (w.2, ·) with
  | some p => some p
  | none => number? s

mutual

/-- One value, white space in front being dropped. The first argument bounds the depth and the number
of members together; one more than the length of the text is enough. -/
def value? : Nat → List Char → Option (Value × List Char)
  | 0, _ => none
  | n + 1, s =>
    match s with
    | '"' :: r => (textBody (r.length + 1) [] r).map fun (t, r) => (.text t, r)
    | '[' :: r =>
      match skip r with
      | ']' :: r => some (.list [], r)
      | r => (items? n [] r).map fun (l, r) => (.list l, r)
    | '{' :: r =>
      match skip r with
      | '}' :: r => some (.map [], r)
      | r => (members? n [] r).map fun (l, r) => (.map l, r)
    | _ => atom? s

/-- The items of a list up to its end; the items so far in reverse order. -/
def items? : Nat → List Value → List Char → Option (List Value × List Char)
  | 0, _, _ => none
  | n + 1, acc, s =>
    match value? n s with
    | none => none
    | some (v, r) =>
      match skip r with
      | ',' :: r => items? n (v :: acc) (skip r)
      | ']' :: r => some ((v :: acc).reverse, r)
      | _ => none

/-- The entries of a mapping up to its end. -/
def members? : Nat → Entries → List Char → Option (Entries × List Char)
  | 0, _, _ => none
  | n + 1, acc, s =>
    match s with
    | '"' :: r =>
      match textBody (r.length + 1) [] r with
      | none => none
      | some (key, r) =>
        match skip r with
        | ':' :: r =>
          match value? n (skip r) with
          | none => none
          | some (v, r) =>
            let acc := acc.insert (.text key) v
            match skip r with
            | ',' :: r => members? n acc (skip r)
            | '}' :: r => some (acc, r)
            | _ => none
        | _ => none
    | _ => none

end

/-- The value of a whole JSON text. -/
def read? (text : String) : Option Value :=
  let s := skip text.toList
  match value? (s.length + 1) s with
  | some (v, r) => if (skip r).isEmpty then some v else none
  | none => none

example : read? "[1, \"x\\u0041\", \x7b\"a\": null\x7d]" =
    some (.list [.int 1, .text "xA", .map [(.text "a", .null)]]) := by decide +kernel

end OpeningHand.Json
