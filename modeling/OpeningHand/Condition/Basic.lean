/-!
# Conditions

A condition is a tree. Its leaves ask for a number of cards of one name (or tag) in the hand or in
the deck; its joints ask for both sides or for either. A joint remembers whether it was written in
parentheses, which never changes what it means.
-/

namespace OpeningHand

/-- How a leaf compares the number of matching cards with its count. -/
inductive Comparison where
  | atLeast
  | exactly
  | atMost
deriving DecidableEq, Repr

/-- Where a leaf looks for cards. -/
inductive Place where
  | hand
  | deck
deriving DecidableEq, Repr

/-- What a joint asks of its two sides. -/
inductive Joint where
  | and
  | or
deriving DecidableEq, Repr

/-- A leaf: "at least two Dragons in the hand". -/
structure Leaf where
  name : String
  count : Int
  comparison : Comparison
  place : Place
deriving DecidableEq, Repr

/-- A tree of leaves and joints. -/
inductive Condition where
  | leaf (l : Leaf)
  | joint (j : Joint) (left right : Condition) (grouped : Bool)
deriving DecidableEq, Repr

namespace Condition

/-- The condition without any memory of parentheses. -/
def bare : Condition → Condition
  | .leaf l => .leaf l
  | .joint j a b _ => .joint j a.bare b.bare false

/-- Equality of conditions up to parentheses. -/
def same (a b : Condition) : Bool := a.bare == b.bare

/-- Marks a joint as written in parentheses; a leaf has no such mark. -/
def inParentheses : Condition → Condition
  | .leaf l => .leaf l
  | .joint j a b _ => .joint j a b true

/-- The leaves from left to right. -/
def leaves : Condition → List Leaf
  | .leaf l => [l]
  | .joint _ a b _ => a.leaves ++ b.leaves

/-- Whether some joint asks for both of its sides. -/
def hasAnd : Condition → Bool
  | .leaf _ => false
  | .joint .and _ _ _ => true
  | .joint .or a b _ => a.hasAnd || b.hasAnd

@[simp]
theorem leaves_bare (c : Condition) : c.bare.leaves = c.leaves := by
  induction c with
  | leaf l => rfl
  | joint j a b g iha ihb => simp [bare, leaves, iha, ihb]

end Condition

/-- The words for comparisons in documents. -/
def Comparison.word : Comparison → String
  | .atLeast => "AT_LEAST"
  | .exactly => "EXACTLY"
  | .atMost => "NO_MORE"

/-- The sign after a count that stands for a comparison in a text. -/
def Comparison.sign : Comparison → String
  | .atLeast => "+"
  | .exactly => ""
  | .atMost => "-"

/-- The words for places, in documents and texts. -/
def Place.word : Place → String
  | .hand => "HAND"
  | .deck => "DECK"

/-- The words for joints, in documents and texts. -/
def Joint.word : Joint → String
  | .and => "AND"
  | .or => "OR"

/-- The comparison of a word. -/
def Comparison.ofWord? (s : String) : Option Comparison :=
  [Comparison.atLeast, .exactly, .atMost].find? (·.word == s)

/-- The place of a word. -/
def Place.ofWord? (s : String) : Option Place := [Place.hand, .deck].find? (·.word == s)

/-- The joint of a word. -/
def Joint.ofWord? (s : String) : Option Joint := [Joint.and, .or].find? (·.word == s)

@[simp]
theorem Comparison.ofWord?_word (c : Comparison) : Comparison.ofWord? c.word = some c := by
  cases c <;> decide

@[simp]
theorem Place.ofWord?_word (p : Place) : Place.ofWord? p.word = some p := by cases p <;> decide

@[simp]
theorem Joint.ofWord?_word (j : Joint) : Joint.ofWord? j.word = some j := by cases j <;> decide

end OpeningHand
