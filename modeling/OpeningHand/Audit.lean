import OpeningHand.DeckFile.Basic

/-!
# Audits

An audit tells what is wrong with the conditions of a deck file without playing: which of them cannot be
read, and which names in the others no card and no tag of the deck answers to. A deck answers to a name
whether or not it holds a copy of the card.
-/

namespace OpeningHand

/-- What an audit finds, by the numbers of the conditions. -/
structure Audit where
  /-- Conditions that cannot be read, as shown, and why. -/
  bad : List (Nat × String × String)
  /-- Names that nothing answers to, in the order of conditions and of their leaves. -/
  unknown : List (Nat × String)
deriving DecidableEq, Repr

/-- The names and tags of a deck. -/
def DeckList.keys (deck : DeckList) : List String := deck.flatMap fun e => e.1 :: e.2.tags

/-- A condition as it came in, alone. A node can always be read, so it is never shown. -/
def Given.shown : Given → String
  | .document v => v.shown
  | .node _ => ""

namespace Audit

/-- The audit of conditions with their numbers. Only faults of reading are findings; others stop the
audit. -/
def ofConditions (keys : List String) : List (Given × Nat) → Except Fault Audit
  | [] => .ok ⟨[], []⟩
  | (c, i) :: more =>
    match c.toDraft with
    | .error f =>
      if f.isValue then do
        let rest ← ofConditions keys more
        pure ⟨(i, c.shown, f.message) :: rest.bad, rest.unknown⟩
      else .error f
    | .ok d => do
      let names ← d.names
      let rest ← ofConditions keys more
      pure ⟨rest.bad, (names.filter fun n => !keys.contains n).map (i, ·) ++ rest.unknown⟩

/-- The audit of a deck file. -/
def ofFile (f : DeckFile) : Except Fault Audit := ofConditions f.deck.keys f.conditions.zipIdx

/-- Whether an audit finds nothing. -/
def isClean (a : Audit) : Bool := a.bad.isEmpty && a.unknown.isEmpty

/-- A list of findings under a heading, or a word that says there are none. -/
def part (heading : String) (found : List String) : List String :=
  [heading ++ " (total " ++ Number.text found.length ++ "):"] ++
    (if found.isEmpty then ["  (none)"] else found) ++ [""]

/-- The lines of an audit of a deck. -/
def lines (a : Audit) (deck : DeckList) : List String :=
  ["=== Condition Audit ===", "",
    "[1] Deck: " ++ Number.text deck.length ++ " distinct cards, " ++ Number.text deck.total ++
      " total", ""] ++
    part "[2] Conditions that fail to parse"
      (a.bad.map fun e => "  - #" ++ Number.text e.1 ++ " " ++ e.2.1 ++ ": " ++ e.2.2) ++
    part "[3] Names matching no card or tag"
      (a.unknown.map fun e => "  - #" ++ Number.text e.1 ++ " " ++ e.2) ++
    [if a.isClean then "STATUS: clean" else "STATUS: issues found"]

end Audit

end OpeningHand
