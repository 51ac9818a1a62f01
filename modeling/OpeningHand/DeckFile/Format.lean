import OpeningHand.DeckFile.Csv
import OpeningHand.DeckFile.Json
import OpeningHand.DeckFile.Yaml

/-!
# Formats of deck files

A format has a name, reads deck files, and writes decks, conditions and whole deck files. What a format
does not provide is a fault. Formats are found by name, whatever its case and the blanks around it.
-/

namespace OpeningHand

/-- A format. -/
structure DeckFormat where
  name : String := ""
  read : String → Except Fault DeckFile := fun _ => .error .notProvided
  writeDeck : DeckList → Except Fault String := fun _ => .error .notProvided
  writeConditions : List Given → Except Fault String := fun _ => .error .notProvided
  write : DeckFile → Except Fault String := fun _ => .error .notProvided

namespace DeckFormat

/-- The format that provides nothing. -/
def bare : DeckFormat := {}

/-- JSON. -/
def json : DeckFormat where
  name := "json"
  read := DeckFile.ofJson
  writeDeck := DeckFile.deckToJson
  writeConditions := DeckFile.conditionsToJson
  write := DeckFile.toJson

/-- YAML. -/
def yaml : DeckFormat where
  name := "yaml"
  read := DeckFile.ofYaml
  writeDeck deck := .ok (DeckFile.deckToYaml deck)
  writeConditions := DeckFile.conditionsToYaml
  write := DeckFile.toYaml

/-- Tables. -/
def csv : DeckFormat where
  name := "csv"
  read := DeckFile.ofCsv
  writeDeck := DeckFile.deckToCsv
  writeConditions := DeckFile.conditionsToCsv
  write := DeckFile.toCsv

/-- The names under which formats are found, in order. -/
def byName : List (String × DeckFormat) := [("csv", csv), ("json", json), ("yaml", yaml), ("yml", yaml)]

/-- A name in small letters. The names of formats have letters of ASCII only, and no other letter has one
of these as its small form. -/
def small (name : String) : String := String.ofList (name.toList.map Char.toLower)

/-- A name as formats are found by it. -/
def key (name : String) : String := small (Text.stripped name)

/-- The format of a name; a value that counts as false is an empty name. -/
def ofName (name : Value) : Except Fault DeckFormat :=
  match name with
  | .text s => found (key s)
  | v => if v.truthy then .error .noField else found ""
where
  /-- The format under a key. -/
  found (key : String) : Except Fault DeckFormat :=
    match byName.lookup key with
    | some f => .ok f
    | none => .error (.unknownFormat name)

end DeckFormat

end OpeningHand
