import OpeningHand.Card.DeckList
import OpeningHand.Condition.Draft

/-!
# Deck files

A deck file holds a deck, conditions as they came in, and a name for the deck. As a document it is a
mapping of these three; the text formats differ in how they write the document. The blank cards that
fill up a deck are never written.
-/

namespace OpeningHand

namespace DeckList

/-- The deck that a document describes: a mapping from card names to their details. Keys of other kinds
than texts are names too, as they are shown. -/
def ofValue : Value → Except Fault DeckList
  | .null => .ok []
  | .map entries => do
    let l ← entries.mapM fun e => do pure (e.1.shown, ← DeckEntry.ofValue e.1.shown e.2.opened)
    pure (ofList l)
  | _ => .error .deckNotMapping

/-- The deck without the blank cards that fill it up. -/
def withoutFiller (deck : DeckList) : DeckList := deck.filter fun e => e.1 != fillerCardName

/-- The document of a deck. -/
def toValue (deck : DeckList) : Value :=
  .record (deck.withoutFiller.map fun e => (e.1, e.2.toValue))

end DeckList

/-- What a deck file holds. -/
structure DeckFile where
  deck : DeckList
  conditions : List Given
  deckName : Value
deriving DecidableEq, Repr

namespace DeckFile

/-- The deck file that a mapping describes: the deck is looked at first, then the conditions. What a
condition is comes to light only when it is used. -/
def ofFields (fields : Entries) : Except Fault DeckFile := do
  let deck ← DeckList.ofValue (fields.get "deck")
  let conditions ← (fields.get "conditions").toItemsOrNone
  pure ⟨deck, conditions.map .document, fields.get "deckName"⟩

/-- The entry for the name of a deck, if it has one. -/
def nameFields (v : Value) : List (String × Value) := if v.truthy then [("deckName", v)] else []

end DeckFile

namespace Given

/-- A condition as it was given, if it was a text or a mapping, else the text of its tree. -/
def asGiven : Given → Except Fault Value
  | .document (.text s) => .ok (.text s)
  | .document (.map fields) => .ok (.map fields)
  | .document v => (Draft.stray v).text.map .text
  | .node d => d.text.map .text

/-- A condition as text: as it was given, if it was a text, else the text of its tree. -/
def asText : Given → Except Fault Value
  | .document (.text s) => .ok (.text s)
  | c => do (← c.toDraft).text.map .text

/-- The texts of conditions, after all of them have been read. -/
def texts (given : List Given) : Except Fault (List String) := do
  (← toDrafts given).mapM Draft.text

/-- The trees of conditions as documents, after all of them have been read. -/
def trees (given : List Given) : Except Fault (List Value) := do
  (← toDrafts given).mapM Draft.toValue

end Given

end OpeningHand
