import OpeningHand.Document.Value
import OpeningHand.Number.Shortest
import OpeningHand.Text.Quoted

/-!
# How values are shown

A value has two texts. `exact` is the one inside messages and inside other values: texts are quoted,
lists stand in brackets, mappings and sets in braces, fixed lists in parentheses, and dots stand for
what a list or mapping would show of itself. `shown` is the one for a value alone: a text and a date
are shown bare, and everything else is exact.
-/

namespace OpeningHand.Value

/-- The members of a list or mapping, with a comma and a space between them. -/
def commaSeparated (parts : List String) : String := ", ".intercalate parts

/-- Members between parentheses; a single one has a comma after it. -/
def parenthesized (parts : List String) : String :=
  match parts with
  | [x] => "(" ++ x ++ ",)"
  | l => "(" ++ commaSeparated l ++ ")"

/-- Members of a set between braces. -/
def braced (parts : List String) : String :=
  if parts.isEmpty then "set()" else "\x7b" ++ commaSeparated parts ++ "\x7d"

/-- The text of a value inside a message. -/
def exact : Value → String
  | .null => "None"
  | .bool b => if b then "True" else "False"
  | .int i => Number.text i
  | .float x => Number.shortest x
  | .text s => Text.quoted s
  | .list l => "[" ++ commaSeparated (exactItems l) ++ "]"
  | .map l => "\x7b" ++ commaSeparated (exactEntries l) ++ "\x7d"
  | .tuple l => parenthesized (exactItems l)
  | .set l => braced (exactItems l)
  | .bytes l => Text.quotedBytes l
  | .moment m => m.exact
  | .again (.map _) => "\x7b...\x7d"
  | .again _ => "[...]"
where
  /-- The items of a list. -/
  exactItems : List Value → List String
    | [] => []
    | x :: xs => exact x :: exactItems xs
  /-- The entries of a mapping, each with a colon and a space. -/
  exactEntries : List (Value × Value) → List String
    | [] => []
    | (k, v) :: xs => (exact k ++ ": " ++ exact v) :: exactEntries xs

/-- The text of a value alone. -/
def shown : Value → String
  | .text s => s
  | .moment m => m.shown
  | v => v.exact

example : exact (.list [.int 1, .text "x", .null]) = "[1, 'x', None]" := by cbv

end OpeningHand.Value
