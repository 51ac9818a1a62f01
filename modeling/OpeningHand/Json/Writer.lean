import OpeningHand.Fault

/-!
# Writing JSON

A value is written in ASCII: texts escape quotes, backslashes, controls and all that is not ASCII,
the latter by their UTF-16 units. `write` puts everything on one line with `, ` and `: ` between
members; `writeIndented` gives each member a line of its own, two spaces deeper, keys in sorted
order. A number as a key becomes its text. Values of other kinds cannot be written.
-/

namespace OpeningHand.Json

/-- A UTF-16 unit as an escape. -/
def unitEscape (n : Nat) : List Char := '\\' :: 'u' :: Text.hex 4 n

/-- One character inside a text. -/
def escapeChar (c : Char) : List Char :=
  match c with
  | '"' => ['\\', '"']
  | '\\' => ['\\', '\\']
  | '\n' => ['\\', 'n']
  | '\r' => ['\\', 'r']
  | '\t' => ['\\', 't']
  | '\x0c' => ['\\', 'f']
  | '\x08' => ['\\', 'b']
  | c =>
    let n := Text.codeOf c
    if 0x20 ≤ n && n < 0x7F then [c]
    else if n < 0x10000 then unitEscape n
    else unitEscape (0xD800 + (n - 0x10000) / 0x400) ++ unitEscape (0xDC00 + (n - 0x10000) % 0x400)

/-- A text between quotes. -/
def writeText (s : String) : String :=
  String.ofList ('"' :: (s.toList.flatMap escapeChar ++ ['"']))

/-- A number with a point; the three values that have no digits are words. -/
def writeFloat : Number.Binary64 → String
  | .nan => "NaN"
  | .infinite s => if s then "-Infinity" else "Infinity"
  | x => Number.shortest x

/-- A key as a text. -/
def keyText : Value → Except Fault String
  | .text s => .ok s
  | .int i => .ok (Number.text i)
  | .bool b => .ok (if b then "true" else "false")
  | .null => .ok "null"
  | .float x => .ok (writeFloat x)
  | _ => .error .wrongKind

/-- A value on one line. -/
def write : Value → Except Fault String
  | .null => .ok "null"
  | .bool b => .ok (if b then "true" else "false")
  | .int i => .ok (Number.text i)
  | .float x => .ok (writeFloat x)
  | .text s => .ok (writeText s)
  | .list l => (writeItems l).map fun ps => "[" ++ ", ".intercalate ps ++ "]"
  | .map l => (writeMembers l).map fun ps => "\x7b" ++ ", ".intercalate ps ++ "\x7d"
  | .tuple l => (writeItems l).map fun ps => "[" ++ ", ".intercalate ps ++ "]"
  | .set _ | .bytes _ | .moment _ | .again _ => .error .wrongKind
where
  /-- The items of a list. -/
  writeItems : List Value → Except Fault (List String)
    | [] => .ok []
    | x :: xs => do
      let t ← write x
      let ts ← writeItems xs
      pure (t :: ts)
  /-- The entries of a mapping. -/
  writeMembers : List (Value × Value) → Except Fault (List String)
    | [] => .ok []
    | (k, v) :: xs => do
      let key ← keyText k
      let t ← write v
      let ts ← writeMembers xs
      pure ((writeText key ++ ": " ++ t) :: ts)

/-- A line end and an indentation. -/
def lineBreak (depth : Nat) : String := String.ofList ('\n' :: List.replicate (2 * depth) ' ')

/-- Members on lines of their own between brackets; brackets around nothing stay together. -/
def block (depth : Nat) (opening closing : String) (parts : List String) : String :=
  if parts.isEmpty then opening ++ closing
  else
    opening ++ lineBreak (depth + 1) ++ ("," ++ lineBreak (depth + 1)).intercalate parts ++
      lineBreak depth ++ closing

/-- A value over several lines, at a depth. -/
def writeIndented (depth : Nat) : Value → Except Fault String
  | .list l | .tuple l => (writeItems depth l).map (block depth "[" "]")
  | .map l =>
    (writeMembers depth l).map fun ps =>
      block depth "\x7b" "\x7d" ((ps.mergeSort fun a b => decide (a.1 ≤ b.1)).map (·.2))
  | v => write v
where
  /-- The items of a list. -/
  writeItems (depth : Nat) : List Value → Except Fault (List String)
    | [] => .ok []
    | x :: xs => do
      let t ← writeIndented (depth + 1) x
      let ts ← writeItems depth xs
      pure (t :: ts)
  /-- The entries of a mapping, with their keys. -/
  writeMembers (depth : Nat) : List (Value × Value) → Except Fault (List (String × String))
    | [] => .ok []
    | (k, v) :: xs => do
      let key ← keyText k
      let t ← writeIndented (depth + 1) v
      let ts ← writeMembers depth xs
      pure ((key, writeText key ++ ": " ++ t) :: ts)

example : (write (.record [("a", .list [.int 1, .text "é"])])).toOption =
    some "\x7b\"a\": [1, \"\\u00e9\"]\x7d" := by cbv

end OpeningHand.Json
