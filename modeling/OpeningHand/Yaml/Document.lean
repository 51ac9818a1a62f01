import OpeningHand.Yaml.Node
import OpeningHand.Yaml.Token

/-!
# Documents of a YAML text

Tokens make a tree of nodes, and its value is the document. A name set by an anchor may be used after
the node it names, and inside it; it may be set only once. A fault that stands behind the tokens comes
up when the next token is asked for.
-/

namespace OpeningHand.Yaml

/-- What is left to read, with the fault that stands behind it, and what is known of the names: the
node of each, if it is read to its end, and which are used inside their own nodes. -/
structure Reading where
  tokens : List Token
  fault : Option Fault
  handles : Handles
  named : List (String × Option Node)
  circular : List String

/-- A step of reading. -/
abbrev Read := StateT Reading (Except Fault)

namespace Read

/-- The text breaks the rules here. -/
def fail {α : Type} : Read α := throw .badYaml

/-- The next token. -/
def peek : Read Token := do
  let r ← get
  match r.tokens, r.fault with
  | t :: _, _ => pure t
  | [], some f => throw f
  | [], none => pure .streamEnd

/-- Moves on by one token. -/
def drop : Read Unit := modify fun r => { r with tokens := r.tokens.drop 1 }

/-- Moves on over a token if it comes next; says whether it did. -/
def accept (t : Token) : Read Bool := do
  if (← peek) = t then
    drop
    pure true
  else pure false

/-- Moves on over a token, which must come next. -/
def expect (t : Token) : Read Unit := do
  if !(← accept t) then fail

/-- An anchor, if one comes next. -/
def anchor : Read (Option String) := do
  match ← peek with
  | .anchor name => drop; pure (some name)
  | _ => pure none

/-- A tag, if one comes next: its handle and what follows it. -/
def tag : Read (Option (Option String × String)) := do
  match ← peek with
  | .tag handle suffix => drop; pure (some (handle, suffix))
  | _ => pure none

/-- An anchor and a full tag in either order, each of which may be left out. -/
def properties : Read (Option String × Option String) := do
  let first ← anchor
  let tag ← tag
  let name ← if first.isNone && tag.isSome then anchor else pure first
  match tag with
  | none => pure (name, none)
  | some (handle, suffix) =>
    match (← get).handles.fullTag? handle suffix with
    | some t => pure (name, some t)
    | none => fail

/-- The node of a name. -/
def byName (name : String) : Read Node := do
  match (← get).named.lookup name with
  | some (some x) => pure x
  | some none =>
    modify fun r => { r with circular := name :: r.circular }
    pure (.inside name)
  | none => fail

/-- Reads a node that may have a name: from here on the name is known. -/
def naming (name : Option String) (read : Read Node) : Read Node := do
  match name with
  | none => read
  | some a =>
    let _ ← peek
    if ((← get).named.lookup a).isSome then fail
    else
      modify fun r => { r with named := (a, none) :: r.named }
      let x ← read
      if (← get).circular.contains a then
        let x := (x.closed a).withName
        modify fun r => { r with named := r.named.map fun e => (e.1, e.2.map (Node.fill a x)) }
        setName a x
      else setName a x.withName
where
  /-- Gives a name its node. -/
  setName (a : String) (x : Node) : Read Node := do
    modify fun r => { r with named := (a, some x) :: r.named }
    pure x

/-- The tag of a list or mapping, if it says something. -/
def kindTag (tag : Option String) : Option String := if tag = some vagueTag then none else tag

/-! The steps below call each other; their last argument bounds the depth of the calls. -/

mutual

/-- A node. Blocks are read only outside brackets (`inBlock`), and a list without a beginning of its
own only as a key or a value of a block mapping (`loose`). -/
def node (inBlock loose : Bool) : Nat → Read Node
  | 0 => fail
  | n + 1 => do
    match ← peek with
    | .alias name =>
      drop
      byName name
    | _ =>
      let (name, tag) ← properties
      naming name (content inBlock loose (name.isSome || tag.isSome) tag n)

/-- A node without its name and tag. A node that has one of these may be empty. -/
def content (inBlock loose mayBeEmpty : Bool) (tag : Option String) : Nat → Read Node
  | 0 => fail
  | n + 1 => do
    match ← peek, inBlock with
    | .scalar text plain, _ =>
      drop
      pure (.tagged tag text plain)
    | .openList, _ =>
      drop
      pure (.list (kindTag tag) (← flowItems true n))
    | .openMap, _ =>
      drop
      pure (.map (kindTag tag) (← flowEntries true n))
    | .blockList, true =>
      drop
      let items ← blockItems [.entry, .blockEnd] n
      expect .blockEnd
      pure (.list (kindTag tag) items)
    | .blockMap, true =>
      drop
      let entries ← blockEntries n
      expect .blockEnd
      pure (.map (kindTag tag) entries)
    | t, _ =>
      if t = .entry && loose then
        pure (.list (kindTag tag) (← blockItems [.entry, .key, .value, .blockEnd] n))
      else if mayBeEmpty then pure (.tagged tag "" true)
      else fail

/-- A node, or an empty one if one of some tokens comes next. -/
def nodeUnless (stops : List Token) (inBlock loose : Bool) : Nat → Read Node
  | 0 => fail
  | n + 1 => do if stops.contains (← peek) then pure .empty else node inBlock loose n

/-- Items of a block list. -/
def blockItems (stops : List Token) : Nat → Read (List Node)
  | 0 => fail
  | n + 1 => do
    if ← accept .entry then
      let x ← nodeUnless stops true false n
      pure (x :: (← blockItems stops n))
    else pure []

/-- Entries of a block mapping. -/
def blockEntries : Nat → Read (List (Node × Node))
  | 0 => fail
  | n + 1 => do
    if ← accept .key then
      let stops := [.key, .value, .blockEnd]
      let k ← nodeUnless stops true true n
      let v ← if ← accept .value then nodeUnless stops true true n else pure .empty
      pure ((k, v) :: (← blockEntries n))
    else pure []

/-- The entry after a sign for a key between brackets. -/
def flowEntry (close : Token) : Nat → Read (Node × Node)
  | 0 => fail
  | n + 1 => do
    let k ← nodeUnless [.value, .comma, close] false false n
    let v ← if ← accept .value then nodeUnless [.comma, close] false false n else pure .empty
    pure (k, v)

/-- Items of a list in brackets, up to the closing one. A single entry of a mapping may be an item. -/
def flowItems (first : Bool) : Nat → Read (List Node)
  | 0 => fail
  | n + 1 => do
    if ← accept .closeList then pure []
    else
      if !first then expect .comma
      if ← accept .key then
        let e ← flowEntry .closeList n
        pure (.map none [e] :: (← flowItems false n))
      else if ← accept .closeList then pure []
      else
        let x ← node false false n
        pure (x :: (← flowItems false n))

/-- Entries of a mapping in braces, up to the closing one. -/
def flowEntries (first : Bool) : Nat → Read (List (Node × Node))
  | 0 => fail
  | n + 1 => do
    if ← accept .closeMap then pure []
    else
      if !first then expect .comma
      if ← accept .key then
        let e ← flowEntry .closeMap n
        pure (e :: (← flowEntries false n))
      else if ← accept .closeMap then pure []
      else
        let x ← node false false n
        pure ((x, .empty) :: (← flowEntries false n))

end

/-- The directives that come next. -/
def directives : Read (List Directive) := do
  let r ← get
  let directive? := fun (t : Token) => match t with
    | .directive d => some d
    | _ => none
  set { r with tokens := r.tokens.dropWhile fun t => (directive? t).isSome }
  pure ((r.tokens.takeWhile fun t => (directive? t).isSome).filterMap directive?)

/-- Moves on over all marks for the end of a document. -/
def dropEnds : Read Unit :=
  modify fun r => { r with tokens := r.tokens.dropWhile (· = .documentEnd) }

/-- Whether a token ends a document. -/
def endsDocument : Token → Bool
  | .directive _ | .documentStart | .documentEnd | .streamEnd => true
  | _ => false

/-- A document with a mark at its beginning; directives may come before the mark. -/
def marked (n : Nat) : Read Node := do
  match Handles.ofDirectives? (← directives) with
  | none => fail
  | some handles =>
    modify fun r => { r with handles }
    expect .documentStart
    if endsDocument (← peek) then pure .empty else node true false n

/-- The one document of a text, if there is any. -/
def document (n : Nat) : Read (Option Node) := do
  let t ← peek
  if t = .streamEnd then pure none
  else
    let x ← if endsDocument t && t ≠ .documentEnd then marked n else node true false n
    dropEnds
    expect .streamEnd
    pure (some x)

end Read

/-- The node of a text that is a single document; a text without any content has no node. -/
def node (text : String) : Except Fault (Option Node) :=
  let (tokens, fault) := tokens text
  (Read.document (4 * tokens.length + 4)).run' ⟨tokens, fault, .standard, [], []⟩

/-- The document of a text; a text without content is the empty value. -/
def read (text : String) : Except Fault Value := do
  match ← node text with
  | none => pure .null
  | some x => x.toValue.mapError (·.2)

end OpeningHand.Yaml
