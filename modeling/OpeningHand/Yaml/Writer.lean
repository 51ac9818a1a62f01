import OpeningHand.Yaml.Form
import OpeningHand.Yaml.Cursor

/-!
# Writing YAML

Lists and mappings are written as blocks, one item or entry to a line, two spaces deeper than what
holds them; only the items of a list under a key stand as deep as the key. A text is written plain if it
would be read back as a text, else between single quotes, else between double quotes with escapes. A
scalar longer than 80 columns is broken at single spaces. A key that is empty, long or of several lines
is marked by a question mark. Fixed lists and sets are written as lists, and bytes in base 64 with a tag.
-/

namespace OpeningHand.Yaml

open Number

/-- A character at which a written line ends. -/
def endsLine (c : Char) : Bool := isBreak c && c != '\r'

/-- A character that only an escape can show. -/
def isSpecial (c : Char) : Bool :=
  let n := c.val.toNat
  !(c == '\n' || (isAllowed c && 0x20 ≤ n && n != 0xFEFF && n != 0x10FFFF))

/-- Whether two neighbours in a text have a property. -/
def hasNeighbours (p : Char → Char → Bool) (s : List Char) : Bool :=
  (s.zip (s.drop 1)).any fun e => p e.1 e.2

/-- Whether what begins as a text does begins something else than a plain scalar. -/
def beginsOther (s : List Char) : Bool :=
  "---".toList.isPrefixOf s || "...".toList.isPrefixOf s ||
    match s with
    | [] => false
    | c :: r =>
      "#,[]\x7b\x7d&*!|>'\"%@`".toList.contains c ||
        ((c == '?' || c == ':' || c == '-') && isGap (r.headD endMark))

/-- Whether a colon or a number sign inside a text would end a plain scalar. -/
def endsEarly (s : List Char) : Bool :=
  hasNeighbours (fun x y => isGap x && y == '#') s ||
    hasNeighbours (fun x y => x == ':' && isGap y) (s.drop 1) ||
    (s.length != 1 && s.getLast? == some ':')

/-- The ways to write a text. -/
inductive Style where
  | plain
  | single
  | double
deriving DecidableEq, Repr

/-- Whether quotes without escapes can hold a text: no special characters, and no space next to the
end of a line. -/
def fitsSingle (s : List Char) : Bool :=
  !s.any isSpecial &&
    !hasNeighbours (fun x y => (x == ' ' && endsLine y) || (endsLine x && y == ' ')) s

/-- Whether a text can be written plain. -/
def fitsPlain (s : List Char) : Bool :=
  Form.ofText (String.ofList s) == .text && fitsSingle s && !s.any endsLine &&
    s.head? != some ' ' && s.getLast? != some ' ' && !beginsOther s && !endsEarly s

/-- The way in which a text is written. -/
def Style.ofText (s : List Char) : Style :=
  if fitsPlain s then .plain else if fitsSingle s then .single else .double

/-- The column after which lines are broken. -/
def width : Nat := 80

/-- A line end and an indentation. -/
def newLine (indent : Nat) : List Char := '\n' :: List.replicate indent ' '

/-- Texts of spaces, of line ends and of others, as they follow each other. -/
def runs (s : List Char) : List (List Char) :=
  s.splitBy fun x y => (x == ' ') == (y == ' ') && endsLine x == endsLine y

/-- Writes runs without escapes from a column on. A single space beyond the width, neither first nor
last, becomes a line break; a line end in the text is written as an empty line. -/
def writeRuns (indent : Nat) (split : Bool) (column : Nat) (first : Bool) :
    List (List Char) → List Char
  | [] => []
  | run :: more =>
    let c := run.headD ' '
    if c == ' ' && run.length == 1 && width < column && split && !first && !more.isEmpty then
      newLine indent ++ writeRuns indent split indent false more
    else if endsLine c then
      (if c == '\n' then ['\n'] else []) ++ run ++ List.replicate indent ' ' ++
        writeRuns indent split indent false more
    else run ++ writeRuns indent split (column + run.length) false more

/-- The letters after a backslash that stand for a character. -/
def shortEscapes : List (Char × Char) :=
  [('\x00', '0'), ('\x07', 'a'), ('\x08', 'b'), ('\t', 't'), ('\n', 'n'), ('\x0b', 'v'),
   ('\x0c', 'f'), ('\r', 'r'), ('\x1b', 'e'), ('"', '"'), ('\\', '\\'), ('\x85', 'N'),
   ('\xa0', '_'), ('\u2028', 'L'), ('\u2029', 'P')]

/-- Whether a character is escaped between double quotes. -/
def mustEscape (c : Char) : Bool :=
  c == '"' || c == '\\' || isSpecial c || endsLine c || 0x10000 ≤ c.val.toNat

/-- A character as an escape. -/
def escaped (c : Char) : List Char :=
  let n := Text.codeOf c
  let upper := fun (k : Nat) => (Text.hex k n).map Char.toUpper
  '\\' :: match shortEscapes.lookup c with
    | some x => [x]
    | none =>
      if n < 0x100 then 'x' :: upper 2
      else if n < 0x10000 then 'u' :: upper 4
      else 'U' :: upper 8

/-- Writes between double quotes from a column on. `waiting` is the number of characters since the last
escape or break: these count for the column only when they end. Beyond the width a line is broken in
front of a space, which is then escaped, or after an escape. -/
def writeEscaped (indent : Nat) (split : Bool) (column waiting : Nat) (first : Bool) :
    List Char → List Char
  | [] => []
  | c :: r =>
    let inside := split && !first && !r.isEmpty
    if mustEscape c then
      let e := escaped c
      let column := column + waiting + e.length
      if inside && width < column - 1 then
        let space := if r.head? == some ' ' then ['\\'] else []
        e ++ ['\\'] ++ newLine indent ++ space ++
          writeEscaped indent split (indent + space.length) 0 false r
      else e ++ writeEscaped indent split column 0 false r
    else if inside && (c == ' ' || waiting == 0) && width < column + waiting then
      let space := if c == ' ' then ['\\'] else []
      '\\' :: (newLine indent ++ space) ++
        c :: writeEscaped indent split (indent + space.length) 1 false r
    else c :: writeEscaped indent split column (waiting + 1) false r

/-- Writes a text from a column on; `indent` is the indentation of further lines. -/
def writeText (indent column : Nat) (split : Bool) (text : String) : List Char :=
  let s := text.toList
  match Style.ofText s with
  | .plain => writeRuns indent split column true (runs s)
  | .single =>
    let doubled := s.flatMap fun c => if c == '\'' then ['\'', '\''] else [c]
    '\'' :: (writeRuns indent split (column + 1) true (runs doubled) ++ ['\''])
  | .double => '"' :: (writeEscaped indent split (column + 1) 0 true s ++ ['"'])

/-- A number with a point; an exponent needs a point in front of it. -/
def floatText (x : Binary64) : String :=
  match x with
  | .nan => ".nan"
  | .infinite s => if s then "-.inf" else ".inf"
  | x =>
    let s := (shortest x).toList
    if s.contains '.' then String.ofList s
    else String.ofList (s.flatMap fun c => if c == 'e' then ['.', '0', 'e'] else [c])

/-- A value on one line: a scalar, or a list or mapping that holds nothing. -/
def writeFlat (indent column : Nat) (split : Bool) : Value → List Char
  | .null => "null".toList
  | .bool b => if b then "true".toList else "false".toList
  | .int i => signed i
  | .float x => (floatText x).toList
  | .text s => writeText indent column split s
  | .list _ | .tuple _ | .set _ | .again _ => ['[', ']']
  | .map _ => ['\x7b', '\x7d']
  | .bytes l => "!!binary ".toList ++ writeText indent column false (String.ofList (Text.Base64.encode l))
  | .moment m => m.shown.toList

/-- Whether a key can stand in front of its colon. -/
def isSimpleKey : Value → Bool
  | .text s => !s.isEmpty && !s.toList.any endsLine && s.length + 5 < 128
  | _ => true

/-- Whether a value is written as a block. -/
def isBlock : Value → Bool
  | .list l | .tuple l | .set l => !l.isEmpty
  | .map l => !l.isEmpty
  | _ => false

/-- The lines of a list or mapping at an indentation. -/
def writeBlock (indent : Nat) : Value → List Char
  | .list l | .tuple l | .set l => writeItems indent l
  | .map l => writeEntries indent l
  | _ => []
where
  /-- What follows a sign that stands alone at an indentation. -/
  afterMark (indent : Nat) (v : Value) (block : List Char) : List Char :=
    if isBlock v then ' ' :: block.drop (indent + 2)
    else ' ' :: writeFlat (indent + 2) (indent + 2) true v ++ ['\n']
  /-- The items of a list. -/
  writeItems (indent : Nat) : List Value → List Char
    | [] => []
    | x :: xs =>
      List.replicate indent ' ' ++ '-' :: afterMark indent x (writeBlock (indent + 2) x) ++
        writeItems indent xs
  /-- The entries of a mapping. -/
  writeEntries (indent : Nat) : List (Value × Value) → List Char
    | [] => []
    | (k, v) :: es =>
      let margin := List.replicate indent ' '
      let entry :=
        if isSimpleKey k then
          let key := margin ++ writeFlat (indent + 2) indent false k ++ [':']
          if isBlock v then
            key ++ '\n' :: writeBlock (match v with | .map _ => indent + 2 | _ => indent) v
          else key ++ ' ' :: writeFlat (indent + 2) (key.length + 1) true v ++ ['\n']
        else
          margin ++ '?' :: afterMark indent k (writeBlock (indent + 2) k) ++
            margin ++ ':' :: afterMark indent v (writeBlock (indent + 2) v)
      entry ++ writeEntries indent es

/-- A document that is a list or a mapping. -/
def write (v : Value) : String :=
  String.ofList (if isBlock v then writeBlock 0 v else writeFlat 2 0 true v ++ ['\n'])

example : write (.record [("a", .list [.text "x y", .text "no", .text "it's: #1"]), ("b", .map [])]) =
    "a:\n- x y\n- 'no'\n- 'it''s: #1'\nb: \x7b\x7d\n" := by decide +kernel

end OpeningHand.Yaml
