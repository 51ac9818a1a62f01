import OpeningHand.DeckFile.Basic
import OpeningHand.Yaml.Document
import OpeningHand.Yaml.Writer

/-!
# Deck files in YAML

The document is the one of the JSON form, but conditions are always written as texts, and the deck's
name comes first. All faults that say that a value is not acceptable become faults of the file.
-/

namespace OpeningHand.DeckFile

/-- The deck file that a YAML document describes. -/
def ofYamlDocument : Value → Except Fault DeckFile
  | .map fields => ofFields fields
  | _ => .error .yamlTop

/-- The deck file of a YAML text. -/
def ofYaml (text : String) : Except Fault DeckFile :=
  match (do ofYamlDocument (← Yaml.read text) : Except Fault DeckFile) with
  | .error f => .error (if f.isValue then .yamlFile f else f)
  | .ok file => .ok file

/-- The YAML document of a deck file. -/
def toYamlDocument (f : DeckFile) : Except Fault Value := do
  let conditions ← f.conditions.mapM Given.asText
  pure (.record (nameFields f.deckName ++
    [("deck", f.deck.toValue), ("conditions", .list conditions)]))

/-- A deck in YAML. -/
def deckToYaml (deck : DeckList) : String := Yaml.write (.record [("deck", deck.toValue)])

/-- Conditions in YAML, as texts. -/
def conditionsToYaml (given : List Given) : Except Fault String := do
  pure (Yaml.write (.record [("conditions", .list ((← Given.texts given).map .text))]))

/-- A deck file in YAML. -/
def toYaml (f : DeckFile) : Except Fault String := do pure (Yaml.write (← f.toYamlDocument))

end OpeningHand.DeckFile
