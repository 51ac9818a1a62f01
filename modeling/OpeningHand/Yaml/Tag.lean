import OpeningHand.Json.Reader
import OpeningHand.Yaml.Cursor

/-!
# Tags of a YAML text

A tag is a handle and what follows it: `!!str` has the handle `!!`. A handle stands for the beginning of the
full tag, and directives in front of a document may set handles. A tag between angle brackets is full as
it stands, and the sign `!` alone is a tag that says nothing. Characters of a tag may be escaped as
bytes, each a percent sign and two hexadecimal digits.
-/

namespace OpeningHand.Yaml

/-- The common beginning of the tags of the standard kinds. -/
def standardTag : String := "tag:yaml.org,2002:"

/-- The tag that says nothing. -/
def vagueTag : String := "!"

/-- A character of a handle's name or of an anchor's. -/
def isNameChar (c : Char) : Bool := c.isAlphanum || c == '-' || c == '_'

/-- A character of a tag. -/
def isTagChar (c : Char) : Bool := c.isAlphanum || "-;/?:@&=+$,_.!~*'()[]".toList.contains c

/-! ## Handles -/

/-- What stands in front of a document. -/
inductive Directive where
  | version
  /-- What a handle stands for. -/
  | handle (name start : String)
  | other
deriving DecidableEq, Repr

/-- The beginnings of tags that handles stand for. -/
abbrev Handles := List (String × String)

namespace Handles

/-- The handles that need no directive. -/
def standard : Handles := [("!", vagueTag), ("!!", standardTag)]

/-- Whether the directives of a document say each thing once. -/
def areDistinct : List Directive → Bool
  | [] => true
  | d :: ds =>
    let again := match d with
      | .version => ds.contains .version
      | .handle name _ => ds.any fun e => match e with
        | .handle other _ => other = name
        | _ => false
      | .other => false
    !again && areDistinct ds

/-- The handles of a document with directives, if these say each thing once. -/
def ofDirectives? (ds : List Directive) : Option Handles :=
  if areDistinct ds then
    some ((ds.filterMap fun d => match d with
      | .handle name start => some (name, start)
      | _ => none) ++ standard)
  else none

/-- The full tag of a handle and what follows it. -/
def fullTag? (handles : Handles) (handle : Option String) (suffix : String) : Option String :=
  match handle with
  | none => some suffix
  | some h => (handles.lookup h).map (· ++ suffix)

example : (ofDirectives? [.handle "!e!" "tag:e:", .version]).bind (fullTag? · (some "!e!") "x") =
    some "tag:e:x" := by decide +kernel

example : ofDirectives? [.handle "!e!" "a", .handle "!e!" "b"] = none := by decide +kernel

end Handles

/-! ## Reading -/

/-- The bytes of the escapes in front, and what follows them. -/
def escapedBytes? : List Char → Option (List UInt8 × List Char)
  | '%' :: a :: b :: r => do
    let high ← Json.hexValue? a
    let low ← Json.hexValue? b
    let (bytes, r) ← escapedBytes? r
    pure (UInt8.ofNat (16 * high + low) :: bytes, r)
  | '%' :: _ => none
  | r => some ([], r)

/-- The characters of a tag in front, escapes undone, and what follows them. The first argument bounds the
number of escapes. -/
def tagText? : Nat → List Char → Option (List Char × List Char)
  | 0, _ => none
  | n + 1, s =>
    let bare := s.takeWhile isTagChar
    match s.drop bare.length with
    | '%' :: r => do
      let (bytes, r) ← escapedBytes? ('%' :: r)
      let text ← String.fromUTF8? ⟨bytes.toArray⟩
      let (more, r) ← tagText? n r
      pure (bare ++ text.toList ++ more, r)
    | r => some (bare, r)

namespace Cursor

/-- What follows the handle of a tag; there must be something. -/
def tagPart? (c : Cursor) : Option (String × Cursor) := do
  let (s, r) ← tagText? (c.rest.length + 1) c.rest
  let n := c.rest.length - r.length
  if n = 0 then none else pure (String.ofList s, c.advance n)

/-- A handle with a second exclamation mark at its end. -/
def handle? (c : Cursor) : Option (String × Cursor) :=
  let (s, c') := c.step.span isNameChar
  if c.next == '!' && c'.next == '!' then some (String.ofList ('!' :: s ++ ['!']), c'.step) else none

/-- A tag: its handle, if it has one, what follows it, and the place after it. -/
def tag? (c : Cursor) : Option (Option String × String × Cursor) :=
  if c.peek 1 == '<' then do
    let (s, c) ← (c.advance 2).tagPart?
    if c.next == '>' then pure (none, s, c.step) else none
  else if isGap (c.peek 1) then pure (none, vagueTag, c.step)
  else do
    let word := c.step.rest.takeWhile fun x => !(isBreakOrEnd x || x == ' ')
    let (handle, c) ← if word.contains '!' then c.handle? else some ("!", c.step)
    let (s, c) ← c.tagPart?
    pure (some handle, s, c)

/-- The version after the directive that tells it; only versions that begin with 1 are known. -/
def version? (c : Cursor) : Option (Directive × Cursor) := do
  let (major, c) := (c.span (· == ' ')).2.span Char.isDigit
  let (minor, c') := c.step.span Char.isDigit
  if c.next = '.' ∧ Text.ofDigits major = 1 ∧ minor ≠ [] ∧ (c'.next = ' ' ∨ isBreakOrEnd c'.next) then
    pure (.version, c')
  else none

/-- The handle and the beginning after the directive that sets a handle. -/
def handleSetting? (c : Cursor) : Option (Directive × Cursor) := do
  let c := (c.span (· == ' ')).2
  let (name, c) ← if c.next == '!' && c.peek 1 == ' ' then some ("!", c.step) else c.handle?
  if c.next = ' ' then do
    let (start, c) ← (c.span (· == ' ')).2.tagPart?
    if c.next = ' ' ∨ isBreakOrEnd c.next then pure (.handle name start, c) else none
  else none

/-- What a directive says, after its percent sign; the words of an unknown one are passed over. -/
def directive? (c : Cursor) : Option (Directive × Cursor) :=
  let (name, c) := c.span isNameChar
  if name.isEmpty || !(c.next == ' ' || isBreakOrEnd c.next) then none
  else if name = "YAML".toList then c.version?
  else if name = "TAG".toList then c.handleSetting?
  else some (.other, (c.span (!isBreakOrEnd ·)).2)

example : ((Cursor.ofText "!!%73tr 5".toList).tag?).map (fun p => (p.1, p.2.1)) =
    some (some "!!", "str") := by decide +kernel

end Cursor

end OpeningHand.Yaml
