import OpeningHand.Condition.Basic
import OpeningHand.Number.Digits

/-!
# Conditions as text

A leaf is written as count, sign, name and place, a joint as its sides around its word, in
parentheses if it was written so.
-/

namespace OpeningHand

/-- A leaf as text. -/
def Leaf.text (l : Leaf) : String :=
  Number.text l.count ++ l.comparison.sign ++ " " ++ l.name ++ " IN " ++ l.place.word

/-- A condition as text. -/
def Condition.text : Condition → String
  | .leaf l => l.text
  | .joint j a b grouped =>
    let inner := a.text ++ " " ++ j.word ++ " " ++ b.text
    if grouped then "(" ++ inner ++ ")" else inner

example : (Condition.joint .or (.leaf ⟨"A", 1, .atLeast, .hand⟩) (.leaf ⟨"B", 0, .exactly, .deck⟩)
    true).text = "(1+ A IN HAND OR 0 B IN DECK)" := by decide +kernel

end OpeningHand
