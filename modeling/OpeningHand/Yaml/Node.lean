import OpeningHand.Yaml.Form
import OpeningHand.Yaml.Tag

/-!
# Nodes of a YAML text

A text is a tree of scalars, lists and mappings. The kind of a node is told by its tag, or else by what
it looks like. Keys must be scalars; a repeated key keeps its first place and takes its last value. An
entry with the key `<<` puts the entries of one or several other mappings in front of the mapping's
own, those of the first of several counting most. A mapping that is tagged as a scalar stands for the
scalar under its key `=`.

Values are built level by level, the outer ones first. So of several faults the one met is the one with
the fewest lists and mappings around it, and among those the first. The value of a node with a name is
kept in the node: it is built once, however often the name is used.
-/

namespace OpeningHand.Yaml

/-- A result, or a fault and the number of lists and mappings around it. -/
abbrev Built (α : Type) := Except (Nat × Fault) α

namespace Built

variable {α β : Type}

/-- A fault with nothing around it. -/
def fail (f : Fault) : Built α := .error (0, f)

/-- A result with nothing around it. -/
def ofExcept (x : Except Fault α) : Built α := x.mapError fun f => (0, f)

/-- A result inside a list or mapping. -/
def inside (x : Built α) : Built α := x.mapError fun e => (e.1 + 1, e.2)

/-- Two results on one level, the first in front. -/
def both (x : Built α) (y : Built β) : Built (α × β) :=
  match x, y with
  | .ok a, .ok b => .ok (a, b)
  | .error e, .ok _ | .ok _, .error e => .error e
  | .error e, .error e' => .error (if e'.1 < e.1 then e' else e)

end Built

/-- A node. The tag is absent if the kind of the node is to be found from its form. -/
inductive Node where
  | scalar (tag : Option String) (text : String) (plain : Bool)
  | list (tag : Option String) (items : List Node)
  | map (tag : Option String) (entries : List (Node × Node))
  /-- A node with a name, and its value. -/
  | named (x : Node) (value : Built Value)
  /-- A node inside itself: a copy that goes one round further. -/
  | again (x : Node)
  /-- The place of a name inside its own node, as long as that is not read to its end. -/
  | inside (name : String)
deriving Repr, Inhabited

/-- The kinds of nodes. -/
inductive Kind where
  | scalar (form : Form)
  | list
  /-- Mappings of one entry each, which become pairs. -/
  | pairs
  | map
  /-- A mapping of which only the keys count. -/
  | set
deriving DecidableEq, Repr

/-- The kind that a tag asks for. -/
def Kind.ofTag? (tag : String) : Option Kind :=
  if standardTag.toList.isPrefixOf tag.toList then
    [("null", .scalar .null), ("bool", .scalar .bool), ("int", .scalar .int), ("float", .scalar .float),
      ("binary", .scalar .bytes), ("timestamp", .scalar .moment), ("merge", .scalar .merge),
      ("value", .scalar .default), ("str", .scalar .text), ("seq", .list), ("omap", .pairs),
      ("pairs", .pairs), ("map", .map), ("set", .set)].lookup
        (String.ofList (tag.toList.drop standardTag.length))
  else none

/-- Members as a set lists them: as they came, but whole numbers by their remainders after division by the
number of places for them, a power of two. -/
def setOrder (members : List Value) : List Value :=
  let n := members.length
  let places := if n < 5 then 8 else Nat.pow 2 ((2 * n).log2 + 1)
  let place? := fun (v : Value) => match v with
    | .int i => some ((if i = -1 then -2 else i) % (places : Int)).toNat
    | _ => none
  if members.all fun v => (place? v).isSome then
    members.mergeSort fun a b => (place? a).getD 0 ≤ (place? b).getD 0
  else members

example : setOrder [.int 10, .int 3, .int 1] = [.int 1, .int 10, .int 3] := by cbv

namespace Node

/-- What stands where nothing is written. -/
def empty : Node := .scalar none "" true

/-- A scalar with a tag. The tag that says nothing lets the form decide even if the scalar is quoted. -/
def tagged (tag : Option String) (text : String) (plain : Bool) : Node :=
  if tag = some vagueTag then .scalar none text true else .scalar tag text plain

/-! ## Kinds -/

/-- The kind of a node; an unknown tag has none. -/
def kind? : Node → Option Kind
  | .scalar none text plain =>
    if plain then (Form.implied? text).map .scalar else some (.scalar .text)
  | .list none _ => some .list
  | .map none _ => some .map
  | .scalar (some tag) .. | .list (some tag) _ | .map (some tag) _ => Kind.ofTag? tag
  | .named x _ | .again x => kind? x
  | .inside _ => none

/-- Whether an entry with this key includes other mappings. -/
def isMerge (key : Node) : Bool := key.kind? = some (.scalar .merge)

/-- Whether an entry with this key has the scalar that its mapping stands for. -/
def isDefault (key : Node) : Bool := key.kind? = some (.scalar .default)

/-- The text of a node as a scalar. -/
def text? : Node → Option String
  | .scalar _ text _ => some text
  | .map _ entries => defaultText? entries
  | .named x _ | .again x => text? x
  | .list .. | .inside _ => none
where
  /-- The text of a mapping as a scalar. -/
  defaultText? : List (Node × Node) → Option String
    | [] => none
    | (k, x) :: es => if isDefault k then text? x else defaultText? es

/-- The value of a mapping that is tagged as a scalar. A date must be a scalar itself. -/
def defaultValue (f : Form) (text : Option String) : Except Fault Value :=
  match text with
  | none => .error .badYaml
  | some s => if f = .moment then .error .wrongKind else f.read s

/-! ## Values -/

/-- Whether only mappings are included in a mapping and in those that it includes. -/
def includesMappings : Node → Bool
  | .map _ entries => entriesDo entries
  | .named x _ | .again x => includesMappings x
  | _ => false
where
  /-- The entries of a mapping. -/
  entriesDo : List (Node × Node) → Bool
    | [] => true
    | (k, x) :: es => (!isMerge k || sourceDoes x) && entriesDo es
  /-- What is included: a mapping, or a list of mappings. -/
  sourceDoes : Node → Bool
    | .map _ entries => entriesDo entries
    | .list _ items => itemsDo items
    | .named x _ | .again x => sourceDoes x
    | _ => false
  /-- Each of several mappings. -/
  itemsDo : List Node → Bool
    | [] => true
    | x :: xs => includesMappings x && itemsDo xs

/-- The value of a node. -/
def toValue (node : Node) : Built Value :=
  match node with
  | .scalar _ text _ => match node.kind? with
    | some (.scalar f) => .ofExcept (f.read text)
    | some _ => Built.inside (.fail .badYaml)
    | none => .fail .badYaml
  | .list _ items => match node.kind? with
    | some .list => Built.inside ((values items).map .list)
    | some .pairs => Built.inside ((pairs items).map .list)
    | some .map | some .set => Built.inside (.fail .badYaml)
    | some (.scalar _) | none => .fail .badYaml
  | .map _ entries => match node.kind? with
    | some .map =>
      Built.inside (if node.includesMappings then (all entries).map (.map ∘ Entries.ofList)
        else .fail .badYaml)
    | some .set =>
      Built.inside (if node.includesMappings then
        (all entries).map fun es => .set (setOrder ((Entries.ofList es).map (·.1)))
      else .fail .badYaml)
    | some (.scalar f) => .ofExcept (defaultValue f (text? node))
    | some .list | some .pairs => Built.inside (.fail .badYaml)
    | none => .fail .badYaml
  | .named _ v => v
  | .again x => (toValue x).map .again
  | .inside _ => .fail .badYaml
where
  /-- The values of the items of a list. -/
  values : List Node → Built (List Value)
    | [] => .ok []
    | x :: xs => (Built.both (toValue x) (values xs)).map fun (v, vs) => v :: vs
  /-- The pair of a mapping with one entry. -/
  pair : Node → Built Value
    | .map _ [(k, x)] => (Built.both (toValue k) (toValue x)).map fun (k, v) => .tuple [k, v]
    | .named x _ | .again x => pair x
    | _ => .fail .badYaml
  /-- The pairs of a list of mappings. -/
  pairs : List Node → Built (List Value)
    | [] => .ok []
    | x :: xs => (Built.both (pair x) (pairs xs)).map fun (v, vs) => v :: vs
  /-- The value of a key. -/
  key (k : Node) : Built Value :=
    match k.kind? with
    | some (.scalar .default) => match text? k with
      | some s => .ok (.text s)
      | none => .fail .badYaml
    | some (.scalar _) | none => toValue k
    | some .list | some .pairs | some .map | some .set => .fail .badYaml
  /-- All entries of a mapping, the included ones in front. -/
  all (entries : List (Node × Node)) : Built Entries :=
    (Built.both (included entries) (own entries)).map fun (es, es') => es ++ es'
  /-- The entries of a mapping that are its own. -/
  own : List (Node × Node) → Built Entries
    | [] => .ok []
    | (k, x) :: es =>
      if isMerge k then own es
      else (Built.both (Built.both (key k) (toValue x)) (own es)).map fun (e, es) => e :: es
  /-- The entries that a mapping includes. -/
  included : List (Node × Node) → Built Entries
    | [] => .ok []
    | (k, x) :: es =>
      if isMerge k then (Built.both (source x) (included es)).map fun (es, es') => es ++ es'
      else included es
  /-- The entries that are included from a mapping, or from each mapping of a list, the last first. -/
  source : Node → Built Entries
    | .map _ entries => all entries
    | .list _ items => sources items
    | .named x _ | .again x => source x
    | _ => .ok []
  /-- The entries of several mappings, the last first. -/
  sources : List Node → Built Entries
    | [] => .ok []
    | x :: xs => (Built.both (sources xs) (source x)).map fun (es, es') => es ++ es'

/-! ## Names -/

/-- A node with a name. -/
def withName (x : Node) : Node := .named x x.toValue

/-- Puts a copy of a node in the places of its name. -/
def fill (name : String) (copy : Node) : Node → Node
  | .inside a => if a = name then .again copy else .inside a
  | .again x => .again (fill name copy x)
  | .named x _ => withName (fill name copy x)
  | .scalar tag text plain => .scalar tag text plain
  | .list tag items => .list tag (fillItems items)
  | .map tag entries => .map tag (fillEntries entries)
where
  /-- The items of a list. -/
  fillItems : List Node → List Node
    | [] => []
    | x :: xs => fill name copy x :: fillItems xs
  /-- The entries of a mapping. -/
  fillEntries : List (Node × Node) → List (Node × Node)
    | [] => []
    | (k, x) :: es => (fill name copy k, fill name copy x) :: fillEntries es

/-- A list or mapping of the same kind that holds nothing. -/
def emptied : Node → Node
  | .list tag _ => .list tag []
  | .map tag _ => .map tag []
  | x => x

/-- A node that is used inside itself, in so far as a tree can show it: in the places of its name stands a
copy, and one that holds nothing in those of the copy. -/
def closed (name : String) (x : Node) : Node := fill name (fill name x.emptied x) x

end Node

end OpeningHand.Yaml
