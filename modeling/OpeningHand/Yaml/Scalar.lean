import OpeningHand.Fault
import OpeningHand.Json.Reader
import OpeningHand.Yaml.Cursor

/-!
# Scalars of a YAML text

How the text of a scalar is read from a cursor: plain ones, quoted ones and blocks. Line breaks inside
plain and quoted scalars fold: a single one becomes a space, of several the first is dropped. Each
reader returns nothing if the text breaks the rules; only an escape can be wrong in other ways.
-/

namespace OpeningHand.Yaml

/-- A text and the place after it. -/
abbrev Scanned := List Char × Cursor

/-- A part of the text that must be there. -/
def required {α : Type} : Option α → Except Fault α
  | some a => .ok a
  | none => .error .badYaml

namespace Cursor

/-- Line breaks and the blanks after them, up to something else; `blank` says which blanks, and a
document marker at the beginning of a line stops the scalar in its own way, by `none`. -/
def breaks (blank : Char → Bool) : Nat → Cursor → Option Scanned
  | 0, c => some ([], c)
  | n + 1, c =>
    if c.atDocumentMarker then none
    else
      let c := (c.span blank).2
      if isBreak c.next then
        let (b, c) := c.lineBreak
        (breaks blank n c).map fun p => (b ++ p.1, p.2)
      else some ([], c)

/-- What a line break and the breaks after it count as. -/
def folded (first : List Char) (more : List Char) : List Char :=
  if first ≠ ['\n'] then first ++ more else if more.isEmpty then [' '] else more

/-! ## Plain scalars -/

/-- Whether a plain scalar ends before a character, given the one after it. -/
def plainEnds (inFlow : Bool) (x y : Char) : Bool :=
  isGap x || (x == ':' && (isGap y || (inFlow && ",[]\x7b\x7d".toList.contains y))) ||
    (inFlow && ",?[]\x7b\x7d".toList.contains x)

/-- The characters of a plain scalar up to its end or a blank. -/
def plainWord (inFlow : Bool) : List Char → List Char
  | [] => []
  | [x] => if plainEnds inFlow x endMark then [] else [x]
  | x :: y :: r => if plainEnds inFlow x y then [] else x :: plainWord inFlow (y :: r)

/-- Line breaks and spaces after the first break inside a plain scalar, in any mixture; at a document
marker the rest is none. -/
def plainBreaks : Nat → Cursor → Option Scanned
  | 0, c => some ([], c)
  | n + 1, c =>
    if c.next == ' ' then plainBreaks n c.step
    else if isBreak c.next then
      let (b, c) := c.lineBreak
      if c.atDocumentMarker then none else (plainBreaks n c).map fun p => (b ++ p.1, p.2)
    else some ([], c)

/-- The gap after a word of a plain scalar: what it counts as (nothing if the scalar ends), whether a
line was broken, and the place after it. -/
def plainGap (c : Cursor) : List Char × Bool × Cursor :=
  let (spaces, c) := c.span (· == ' ')
  if isBreak c.next then
    let (b, c) := c.lineBreak
    if c.atDocumentMarker then ([], true, c)
    else match plainBreaks (c.rest.length + 1) c with
      | some (more, c) => (folded b more, true, c)
      | none => ([], true, c)
  else (spaces, false, c)

/-- A plain scalar. `indent` is the least column of its further lines. Returns the text, whether the
gap after the last word broke a line, and the place after that gap. -/
def plain (inFlow : Bool) (indent : Nat) : Nat → Cursor → List Char × Bool × Cursor
  | 0, c => ([], false, c)
  | n + 1, c =>
    let word := if c.next == '#' then [] else plainWord inFlow c.rest
    if word.isEmpty then ([], false, c)
    else
      let c := c.advance word.length
      let (gap, broke, c) := c.plainGap
      if gap.isEmpty || c.next == '#' || (!inFlow && c.column < indent) then (word, broke, c)
      else
        let (more, broke', c') := plain inFlow indent n c
        if more.isEmpty then (word, broke, c') else (word ++ gap ++ more, broke', c')

/-! ## Quoted scalars -/

/-- The characters that a backslash and a letter stand for. -/
def escapes : List (Char × Char) :=
  [('0', '\x00'), ('a', '\x07'), ('b', '\x08'), ('t', '\t'), ('\t', '\t'), ('n', '\n'),
   ('v', '\x0b'), ('f', '\x0c'), ('r', '\r'), ('e', '\x1b'), (' ', ' '), ('"', '"'), ('\\', '\\'),
   ('/', '/'), ('N', '\x85'), ('_', '\xa0'), ('L', '\u2028'), ('P', '\u2029')]

/-- The number of hexadecimal digits after a backslash and a letter. -/
def escapeWidth? : Char → Option Nat
  | 'x' => some 2
  | 'u' => some 4
  | 'U' => some 8
  | _ => none

/-- The code after a backslash: a letter, and as many hexadecimal digits as it asks for. -/
def code? (c : Cursor) : Option (Nat × Cursor) := do
  let w ← escapeWidth? c.next
  let (n, _) ← Json.hexNumber? w 0 c.step.rest
  pure (n, c.step.advance w)

/-- The character of a code. Beyond all characters there are two kinds of faults. -/
def ofCode (n : Nat) : Except Fault Char :=
  if n < 0x110000 then .ok (Text.ofCode n)
  else if n < 0x80000000 then .error .noSuchCharacter
  else .error .tooLarge

/-- A gap inside quotes: blanks, or folded line breaks. -/
def quotedGap (c : Cursor) : Option Scanned :=
  let (blanks, c) := c.span fun x => x == ' ' || x == '\t'
  if c.next == endMark then none
  else if isBreak c.next then
    let (b, c) := c.lineBreak
    (breaks (fun x => x == ' ' || x == '\t') (c.rest.length + 1) c).map fun p => (folded b p.1, p.2)
  else some (blanks, c)

/-- What follows a backslash between double quotes: a character, or a line break that counts as
nothing. -/
def escape (c : Cursor) : Except Fault Scanned :=
  match escapes.lookup c.next, c.code? with
  | some x, _ => .ok ([x], c.step)
  | none, some (n, c) => (ofCode n).map fun x => ([x], c)
  | none, none =>
    if isBreak c.next then
      let (_, c) := c.lineBreak
      required (breaks (fun x => x == ' ' || x == '\t') (c.rest.length + 1) c)
    else .error .badYaml

/-- The rest of a quoted scalar, its opening quote being read. -/
def quoted (double : Bool) : Nat → Cursor → Except Fault Scanned
  | 0, _ => .error .badYaml
  | n + 1, c =>
    let x := c.next
    let quote := if double then '"' else '\''
    let after := fun (p : Scanned) => (quoted double n p.2).map fun q => (p.1 ++ q.1, q.2)
    if !double && x == '\'' && c.peek 1 == '\'' then after (['\''], c.advance 2)
    else if x == quote then .ok ([], c.step)
    else if double && x == '\\' then (escape c.step).bind after
    else if isGap x then (required (quotedGap c)).bind after
    else after ([x], c.step)

/-! ## Block scalars -/

/-- The indicators after the sign of a block scalar: whether the line breaks at its end are all kept
or all dropped, and its indentation. -/
def blockHeader (c : Cursor) : Option (Option Bool × Option Nat × Cursor) :=
  let chomp := fun (c : Cursor) =>
    if c.next == '+' then (some true, c.step) else if c.next == '-' then (some false, c.step)
    else (none, c)
  let indent := fun (c : Cursor) =>
    if c.next.isDigit then (some (c.next.toNat - '0'.toNat), c.step) else (none, c)
  let (k, c1) := chomp c
  let (i, c2) := indent c1
  let (k, c3) := if k.isNone then chomp c2 else (k, c2)
  if i = some 0 then none
  else if isBreakOrEnd c3.next || c3.next == ' ' then some (k, i, c3) else none

/-- The rest of a line that may hold a comment and nothing else. -/
def restOfLine (c : Cursor) : Option Cursor :=
  let c := (c.span (· == ' ')).2
  let c := if c.next == '#' then (c.span (!isBreakOrEnd ·)).2 else c
  if isBreakOrEnd c.next then some c.lineBreak.2 else none

/-- Spaces and line breaks in front of a block: the breaks, the largest column met, and the place
after them. -/
def blockStart : Nat → Nat → Cursor → List Char × Nat × Cursor
  | 0, most, c => ([], most, c)
  | n + 1, most, c =>
    if c.next == ' ' then
      let c := c.step
      blockStart n (max most c.column) c
    else if isBreak c.next then
      let (b, c) := c.lineBreak
      let (more, most, c) := blockStart n most c
      (b ++ more, most, c)
    else ([], most, c)

/-- Line breaks between the lines of a block of an indentation. -/
def blockBreaks (indent : Nat) : Nat → Cursor → Scanned
  | 0, c => ([], c)
  | n + 1, c =>
    let c := c.spacesUpTo indent
    if isBreak c.next then
      let (b, c) := c.lineBreak
      let (more, c) := blockBreaks indent n c
      (b ++ more, c)
    else ([], c)

/-- The lines of a block: their text without the end, the break that ends the last line, the breaks
after it, and the place after them. `gap` are the breaks in front. -/
def blockLines (fold : Bool) (indent : Nat) :
    Nat → List Char → Cursor → List Char × List Char × List Char × Cursor
  | 0, gap, c => ([], [], gap, c)
  | n + 1, gap, c =>
    if c.column = indent ∧ c.next ≠ endMark then
      let solid := c.next != ' ' && c.next != '\t'
      let (text, c) := c.span (!isBreakOrEnd ·)
      let (b, c) := c.lineBreak
      let (more, c) := blockBreaks indent (c.rest.length + 1) c
      if c.column = indent ∧ c.next ≠ endMark then
        let joint :=
          if fold && b == ['\n'] && solid && c.next != ' ' && c.next != '\t' then
            if more.isEmpty then [' '] else []
          else b
        let (body, rest) := blockLines fold indent n more c
        (gap ++ text ++ joint ++ body, rest)
      else (gap ++ text, b, more, c)
    else ([], [], gap, c)

/-- A block scalar after its sign. `outer` is the indentation around it, plus one. -/
def block (fold : Bool) (outer : Nat) (c : Cursor) : Option Scanned := do
  let (chomp, increment, c) ← c.blockHeader
  let c ← c.restOfLine
  let least := max outer 1
  let (gap, indent, c) :=
    match increment with
    | none =>
      let (gap, most, c) := blockStart (c.rest.length + 1) 0 c
      (gap, max least most, c)
    | some i =>
      let indent := least + i - 1
      let (gap, c) := blockBreaks indent (c.rest.length + 1) c
      (gap, indent, c)
  let (body, last, breaks, c) := blockLines fold indent (c.rest.length + 1) gap c
  let tail := match chomp with
    | none => last
    | some true => last ++ breaks
    | some false => []
  pure (body ++ tail, c)

end Cursor

end OpeningHand.Yaml
