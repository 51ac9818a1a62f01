import OpeningHand.Yaml.Scalar
import OpeningHand.Yaml.Tag

/-!
# Tokens of a YAML text

The layout of a text becomes visible as tokens: where a block begins and ends is told by the columns of
its lines. Whether a scalar is a key is known only when the colon after it comes, so places where a key
may have begun are remembered, one for each level of brackets, and the token that marks the key is put
there later. Such a place is given up at the end of the line, or after 1024 characters. A fault of the
text comes up only when the tokens in front of it have been used.
-/

namespace OpeningHand.Yaml

/-- A token. -/
inductive Token where
  | directive (d : Directive)
  | documentStart
  | documentEnd
  | streamEnd
  | blockList
  | blockMap
  | blockEnd
  | openList
  | closeList
  | openMap
  | closeMap
  | key
  | value
  | entry
  | comma
  | alias (name : String)
  | anchor (name : String)
  | tag (handle : Option String) (suffix : String)
  | scalar (text : String) (plain : Bool)
deriving DecidableEq, Repr

/-- A place where a key may have begun: before which token, where in the text, and whether it must be a
key. -/
structure KeyPlace where
  token : Nat
  required : Bool
  index : Nat
  line : Nat
  column : Nat

/-- The state of reading tokens. The indentation is that of the innermost block, with the outer ones
behind it; outside all blocks it is minus one. -/
structure Lexer where
  cursor : Cursor
  tokens : Array Token
  brackets : Nat
  indent : Int
  outer : List Int
  keyAllowed : Bool
  places : List (Nat × KeyPlace)

namespace Lexer

/-- Nothing read. -/
def ofText (s : List Char) : Lexer := ⟨.ofText s, #[], 0, -1, [], true, []⟩

/-- Adds a token. -/
def emit (t : Token) (l : Lexer) : Lexer := { l with tokens := l.tokens.push t }

/-- Moves on. -/
def advance (n : Nat) (l : Lexer) : Lexer := { l with cursor := l.cursor.advance n }

/-- Allows or forbids a key at the next place. -/
def allow (b : Bool) (l : Lexer) : Lexer := { l with keyAllowed := b }

/-- The column of the next token. -/
def column (l : Lexer) : Int := l.cursor.column

/-- Skips spaces, comments and line breaks. After a line break outside brackets a key may begin. -/
def skip : Nat → Lexer → Lexer
  | 0, l => l
  | n + 1, l =>
    let c := (l.cursor.span (· == ' ')).2
    let c := if c.next == '#' then (c.span (!isBreakOrEnd ·)).2 else c
    if isBreak c.next then
      skip n { l with cursor := c.lineBreak.2, keyAllowed := l.keyAllowed || l.brackets == 0 }
    else { l with cursor := c }

/-- Whether a place is on an earlier line or too far back. -/
def isStale (l : Lexer) (p : KeyPlace) : Bool :=
  p.line != l.cursor.line || 1024 < l.cursor.index - p.index

/-- Gives up the places that no key can begin at any more. -/
def dropStale (l : Lexer) : Option Lexer :=
  if l.places.any fun p => l.isStale p.2 && p.2.required then none
  else some { l with places := l.places.filter fun p => !l.isStale p.2 }

/-- Gives up the place at the present level of brackets. -/
def dropPlace (l : Lexer) : Option Lexer :=
  match l.places.lookup l.brackets with
  | none => some l
  | some p =>
    if p.required then none
    else some { l with places := l.places.filter fun q => q.1 != l.brackets }

/-- Remembers that a key may begin here. -/
def savePlace (l : Lexer) : Option Lexer :=
  if l.keyAllowed then
    (dropPlace l).map fun l' =>
      let c := l.cursor
      { l' with
        places := (l.brackets, ⟨l.tokens.size, l.brackets == 0 && l.indent == l.column, c.index,
          c.line, c.column⟩) :: l'.places }
  else some l

/-- Ends the blocks that are indented more than a column. -/
def unwind (column : Int) (l : Lexer) : Lexer :=
  if l.brackets != 0 then l else go l.outer l
where
  /-- One block after another. -/
  go : List Int → Lexer → Lexer
    | [], l => l
    | i :: outer, l =>
      if column < l.indent then
        go outer { l with tokens := l.tokens.push .blockEnd, indent := i, outer := outer }
      else l

/-- Begins a block at a column, if it is indented more than the present one; its token goes to a place
among the tokens. -/
def beginBlock (column : Int) (at_ : Nat) (t : Token) (l : Lexer) : Lexer :=
  if l.indent < column then
    { l with
      indent := column
      outer := l.indent :: l.outer
      tokens := l.tokens.insertIdxIfInBounds at_ t }
  else l

/-- A token for the document as a whole: it ends all blocks. -/
def document (t : Token) (n : Nat) (l : Lexer) : Option Lexer := do
  let l ← (l.unwind (-1)).dropPlace
  pure (((l.allow false).advance n).emit t)

/-- A directive. -/
def directive (l : Lexer) : Option Lexer := do
  let l ← (l.unwind (-1)).dropPlace
  let (d, c) ← l.cursor.step.directive?
  pure (({ l with cursor := ← c.restOfLine }.allow false).emit (.directive d))

/-- An opening bracket. -/
def openBracket (t : Token) (l : Lexer) : Option Lexer :=
  (l.savePlace).map fun l => (({ l with brackets := l.brackets + 1 }.allow true).advance 1).emit t

/-- A closing bracket. -/
def closeBracket (t : Token) (l : Lexer) : Option Lexer :=
  if l.brackets = 0 then none
  else l.dropPlace.map fun l => (({ l with brackets := l.brackets - 1 }.allow false).advance 1).emit t

/-- A comma between brackets. -/
def comma (l : Lexer) : Option Lexer :=
  (l.allow true).dropPlace.map fun l => (l.advance 1).emit .comma

/-- A dash before an item of a block list. -/
def dash (l : Lexer) : Option Lexer :=
  if l.brackets = 0 && !l.keyAllowed then none
  else
    let l := if l.brackets = 0 then l.beginBlock l.column l.tokens.size .blockList else l
    (l.allow true).dropPlace.map fun l => (l.advance 1).emit .entry

/-- A question mark before a key. -/
def question (l : Lexer) : Option Lexer :=
  if l.brackets = 0 && !l.keyAllowed then none
  else
    let l := if l.brackets = 0 then l.beginBlock l.column l.tokens.size .blockMap else l
    (l.allow (l.brackets == 0)).dropPlace.map fun l => (l.advance 1).emit .key

/-- A colon before a value: what began at the remembered place was the key. -/
def colon (l : Lexer) : Option Lexer :=
  match l.places.lookup l.brackets with
  | some p =>
    let l := { l with
      places := l.places.filter fun q => q.1 != l.brackets
      tokens := l.tokens.insertIdxIfInBounds p.token .key }
    let l := if l.brackets = 0 then l.beginBlock p.column p.token .blockMap else l
    some (((l.allow false).advance 1).emit .value)
  | none =>
    if l.brackets = 0 && !l.keyAllowed then none
    else
      let l := if l.brackets = 0 then l.beginBlock l.column l.tokens.size .blockMap else l
      (l.allow (l.brackets == 0)).dropPlace.map fun l => (l.advance 1).emit .value

/-- An anchor or an alias. -/
def name (t : String → Token) (l : Lexer) : Option Lexer := do
  let l ← l.savePlace
  let (s, c) := l.cursor.step.span isNameChar
  if s.isEmpty || !(isGap c.next || "?:,]\x7d%@`".toList.contains c.next) then none
  else pure ((({ l with cursor := c }).allow false).emit (t (String.ofList s)))

/-- A tag. -/
def tag (l : Lexer) : Option Lexer := do
  let l ← l.savePlace
  let (handle, suffix, c) ← l.cursor.tag?
  if c.next == ' ' || isBreakOrEnd c.next then
    pure (({ l with cursor := c }.allow false).emit (.tag handle suffix))
  else none

/-- A block scalar. -/
def blockScalar (fold : Bool) (l : Lexer) : Option Lexer := do
  let l ← (l.allow true).dropPlace
  let (s, c) ← l.cursor.step.block fold (l.indent + 1).toNat
  pure ({ l with cursor := c }.emit (.scalar (String.ofList s) false))

/-- A quoted scalar. -/
def quotedScalar (double : Bool) (l : Lexer) : Except Fault Lexer := do
  let l ← required l.savePlace
  let (s, c) ← l.cursor.step.quoted double (l.cursor.rest.length + 1)
  pure (({ l with cursor := c }.allow false).emit (.scalar (String.ofList s) false))

/-- Whether a plain scalar begins here. -/
def plainBegins (l : Lexer) : Bool :=
  let x := l.cursor.next
  let y := l.cursor.peek 1
  !(isGap x || "-?:,[]\x7b\x7d#&*!|>'\"%@`".toList.contains x) ||
    (!isGap y && (x == '-' || (l.brackets == 0 && (x == '?' || x == ':'))))

/-- A plain scalar. -/
def plainScalar (l : Lexer) : Option Lexer := do
  let l ← l.savePlace
  let (s, broke, c) :=
    l.cursor.plain (l.brackets != 0) (l.indent + 1).toNat (l.cursor.rest.length + 1)
  pure (({ l with cursor := c }.allow broke).emit (.scalar (String.ofList s) true))

/-- The tokens that begin at this place, other than quoted scalars. -/
def unquoted (l : Lexer) : Option Lexer :=
  let c := l.cursor
  let x := c.next
  let alone := isGap (c.peek 1)
  let inFlow := l.brackets != 0
  if x == endMark then document .streamEnd 0 l
  else if x == '%' && c.column == 0 then directive l
  else if c.column == 0 && c.hasMarker '-' then document .documentStart 3 l
  else if c.column == 0 && c.hasMarker '.' then document .documentEnd 3 l
  else if x == '[' then openBracket .openList l
  else if x == '{' then openBracket .openMap l
  else if x == ']' then closeBracket .closeList l
  else if x == '}' then closeBracket .closeMap l
  else if x == ',' then comma l
  else if x == '-' && alone then dash l
  else if x == '?' && (inFlow || alone) then question l
  else if x == ':' && (inFlow || alone) then colon l
  else if x == '*' then name .alias l
  else if x == '&' then name .anchor l
  else if x == '!' then tag l
  else if x == '|' && !inFlow then blockScalar false l
  else if x == '>' && !inFlow then blockScalar true l
  else if plainBegins l then plainScalar l
  else none

/-- The next tokens; at the end of the text the lexer has nothing left to read. -/
def next (l : Lexer) : Except Fault Lexer := do
  let l ← required (l.skip (l.cursor.rest.length + 1)).dropStale
  let l := l.unwind l.column
  if l.cursor.next == '\'' then quotedScalar false l
  else if l.cursor.next == '"' then quotedScalar true l
  else required l.unquoted

/-- The tokens that are settled: those in front of all places where a key may have begun. -/
def settled (l : Lexer) : List Token :=
  let fresh := l.places.filter fun p => !l.isStale p.2
  l.tokens.toList.take (fresh.foldl (fun n p => Nat.min n p.2.token) l.tokens.size)

/-- All tokens, ended by the token for the end, or the fault that stands behind them. The first argument
bounds the number of steps. -/
def all : Nat → Lexer → List Token × Option Fault
  | 0, l => (l.settled, some .badYaml)
  | n + 1, l => match l.next with
    | .error f => (l.settled, some f)
    | .ok l => if l.tokens.back? = some .streamEnd then (l.tokens.toList, none) else all n l

end Lexer

/-- The tokens of a text, and the fault that stands behind them if the text has one. -/
def tokens (text : String) : List Token × Option Fault :=
  let s := text.toList
  if s.all isAllowed then
    let s := match s with
      | '\uFEFF' :: r => r
      | r => r
    Lexer.all (s.length + 2) (.ofText s)
  else ([], some .badYaml)

end OpeningHand.Yaml
