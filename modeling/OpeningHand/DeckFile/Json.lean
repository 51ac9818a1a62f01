import OpeningHand.DeckFile.Basic
import OpeningHand.Json.Reader
import OpeningHand.Json.Writer

/-!
# Deck files in JSON

Conditions that were given as texts or mappings are written as they were given.
-/

namespace OpeningHand.DeckFile

/-- The deck file that a JSON document describes. -/
def ofJsonDocument : Value → Except Fault DeckFile
  | .map fields => ofFields fields
  | _ => .error .jsonTop

/-- The JSON document of a deck file: the deck, the conditions, and the deck's name if it has one. -/
def toJsonDocument (f : DeckFile) : Except Fault Value := do
  let conditions ← f.conditions.mapM Given.asGiven
  pure (.record ([("deck", f.deck.toValue), ("conditions", .list conditions)] ++
    nameFields f.deckName))

/-- The deck file of a JSON text. -/
def ofJson (text : String) : Except Fault DeckFile :=
  match Json.read? text with
  | none => .error .jsonFile
  | some v => ofJsonDocument v

/-- A deck in JSON. -/
def deckToJson (deck : DeckList) : Except Fault String := Json.write deck.toValue

/-- Conditions in JSON, as trees. -/
def conditionsToJson (given : List Given) : Except Fault String := do
  Json.write (.list (← Given.trees given))

/-- A deck file in JSON. -/
def toJson (f : DeckFile) : Except Fault String := do Json.write (← f.toJsonDocument)

end OpeningHand.DeckFile
