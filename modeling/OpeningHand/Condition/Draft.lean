import OpeningHand.Condition.OfTokens
import OpeningHand.Condition.Tree
import OpeningHand.Condition.Written
import OpeningHand.Condition.Evaluation

/-!
# Drafts of conditions

A draft is what a caller hands over as a condition before anything has looked inside: its words need
not be the ones that conditions know, and what stands where a node belongs need not be a node. A
draft without such faults is a condition (`toCondition?`); for the others each use has its own order
of looking at the parts, and with it the fault that is met first.
-/

namespace OpeningHand

/-- A word of a fixed list, or another one. -/
inductive Word (α : Type) where
  | known (a : α)
  | unknown (text : String)
deriving DecidableEq, Repr

/-- An unchecked condition. -/
inductive Draft where
  | leaf (name : String) (count : Int) (comparison : Word Comparison) (place : Word Place)
  | joint (j : Word Joint) (left right : Draft) (grouped : Bool)
  | stray (v : Value)
deriving DecidableEq, Repr

namespace Draft

/-- A condition as a draft. -/
def ofCondition : Condition → Draft
  | .leaf l => .leaf l.name l.count (.known l.comparison) (.known l.place)
  | .joint j a b g => .joint (.known j) (ofCondition a) (ofCondition b) g

/-- The condition that a draft is, if it has no faults. -/
def toCondition? : Draft → Option Condition
  | .leaf name count (.known c) (.known p) => some (.leaf ⟨name, count, c, p⟩)
  | .joint (.known j) a b g => do
    let a ← a.toCondition?
    let b ← b.toCondition?
    pure (.joint j a b g)
  | _ => none

@[simp]
theorem toCondition?_ofCondition (c : Condition) : (ofCondition c).toCondition? = some c := by
  induction c with
  | leaf l => rfl
  | joint j a b g iha ihb => simp [ofCondition, toCondition?, iha, ihb]

/-- Whether some joint asks for both of its sides; what stands below such a joint is not looked at. -/
def hasAnd : Draft → Except Fault Bool
  | .leaf .. => .ok false
  | .joint (.known .and) _ _ _ => .ok true
  | .joint _ a b _ => do if ← a.hasAnd then pure true else b.hasAnd
  | .stray v => .error (.unknownNode v.exact)

/-- The leaves from left to right, as they are. -/
def leaves : Draft → Except Fault (List Draft)
  | .leaf n k c p => .ok [.leaf n k c p]
  | .joint _ a b _ => do
    let la ← a.leaves
    let lb ← b.leaves
    pure (la ++ lb)
  | .stray v => .error (.unknownNode v.exact)

/-- The name of a leaf. -/
def leafName : Draft → String
  | .leaf n _ _ _ => n
  | _ => ""

/-- The names of the leaves from left to right. -/
def names (d : Draft) : Except Fault (List String) := d.leaves.map (·.map leafName)

/-- The names that a draft asks for: one for each leaf, equal leaves counting once. -/
def wanted (d : Draft) : Except Fault (List String) :=
  d.leaves.map fun ls => (distinct ls).map leafName

/-- What a pass over a draft meets first. -/
def passFault? : Draft → Option Fault
  | .leaf _ _ _ (.unknown w) => some (.unknownPlace w)
  | .leaf _ _ (.unknown w) (.known _) => some (.unknownComparison w)
  | .leaf _ _ (.known _) (.known _) => none
  | .joint (.unknown _) _ _ _ => some (.unknownNode "LogicCondition")
  | .joint (.known _) a b _ => a.passFault? <|> b.passFault?
  | .stray v => some (.unknownNode v.exact)

/-- Judges a hand and a deck by a draft: first whether orders matter, then, if they do, the leaves,
then the passes. -/
def evaluate (d : Draft) (hand deck : List Card) : Except Fault Evaluation := do
  if ← d.hasAnd then
    let _ ← d.leaves
  match d.toCondition?, d.passFault? with
  | some c, _ => pure (c.evaluate hand deck)
  | none, some f => .error f
  | none, none => .error (.unknownNode "")

/-- A draft as text: the sign of a leaf is looked up before its place, and a joint's left side
before its word. -/
def text : Draft → Except Fault String
  | .leaf n k (.known c) (.known p) => .ok (Leaf.text ⟨n, k, c, p⟩)
  | .leaf _ _ (.unknown w) _ => .error (.missingKey (.text w))
  | .leaf _ _ (.known _) (.unknown _) => .error .noField
  | .joint j a b grouped => do
    let ta ← a.text
    match j with
    | .unknown _ => .error .noField
    | .known j =>
      let tb ← b.text
      let inner := ta ++ " " ++ j.word ++ " " ++ tb
      pure (if grouped then "(" ++ inner ++ ")" else inner)
  | .stray v => .error (.unknownNode v.exact)

/-- The document of a draft: a joint's word is looked up before its sides. -/
def toValue : Draft → Except Fault Value
  | .leaf n k (.known c) (.known p) => .ok (Condition.leaf ⟨n, k, c, p⟩).toValue
  | .leaf .. => .error .noField
  | .joint (.unknown _) _ _ _ => .error .noField
  | .joint (.known j) a b g => do
    let va ← a.toValue
    let vb ← b.toValue
    pure (.record ([("kind", .text "logic"), ("type", .text j.word), ("conditionA", va),
      ("conditionB", vb)] ++
      if g then [("render", .record [("hasParentheses", .bool true)])] else []))
  | .stray v => .error (.unknownNode v.exact)

end Draft

/-- A condition as it comes in: a value from a document, or a node that exists already. -/
inductive Given where
  | document (v : Value)
  | node (d : Draft)
deriving DecidableEq, Repr

namespace Given

/-- The draft of a condition as it came in: a text is parsed, a mapping is decoded, and anything else
is taken as it is. -/
def toDraft : Given → Except Fault Draft
  | .document (.text s) => (Condition.ofText s).map Draft.ofCondition
  | .document (.map fields) => (Condition.ofValue (.map fields)).map Draft.ofCondition
  | .document v => .ok (.stray v)
  | .node d => .ok d

/-- The drafts of conditions as they came in. -/
def toDrafts (given : List Given) : Except Fault (List Draft) := given.mapM toDraft

end Given

end OpeningHand
