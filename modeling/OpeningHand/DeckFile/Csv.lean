import OpeningHand.Csv.Table
import OpeningHand.Csv.Writer
import OpeningHand.DeckFile.Basic
import OpeningHand.Json.Reader
import OpeningHand.Json.Writer
import OpeningHand.Text.Between

/-!
# Deck files as tables

A row stands for a card, a condition, or both: the columns `name`, `qty`, `tags` (separated by
semicolons) and `free` (a JSON mapping) tell about the card, the column `condition` holds the text of a
condition. A table has no place for the deck's name.
-/

namespace OpeningHand.DeckFile

/-- The number of copies that a cell writes, as a number with a point without its fraction; one copy if
the cell is blank. -/
def copiesOfCell (card cell : String) : Except Fault Int :=
  if cell = "" then .ok 1
  else match Number.decimal? cell.toList with
    | none | some .nan => .error (.copies card (Text.quoted cell))
    | some x => match x.toInt? with
      | some i => .ok i
      | none => .error .tooLarge

/-- The tags that a cell lists. -/
def tagsOfCell (cell : String) : List String :=
  ((Text.between ';' cell.toList).map fun s => String.ofList (Text.trim s)).filter (· ≠ "")

/-- The details of a free card in a cell; values that are not acceptable and missing keys are faults of
the cell. -/
def effectOfCell (card cell : String) : Except Fault (Option Effect) :=
  if cell = "" then .ok none
  else match Json.read? cell with
    | none => .error (.freeDetails card .badJson)
    | some v => match Effect.ofValue v with
      | .ok e => .ok (some e)
      | .error f =>
        if f.isValue || f.kind = .missingKey then .error (.freeDetails card f) else .error f

/-- The card that a row tells about, if it has a name. -/
def cardOfRow (t : Csv.Table) (row : Nat) : Except Fault (Option (String × DeckEntry)) := do
  let name := t.cell "name" row
  if name = "" then pure none
  else
    let copies ← copiesOfCell name (t.cell "qty" row)
    let effect ← effectOfCell name (t.cell "free" row)
    pure (some (name, ⟨copies, tagsOfCell (t.cell "tags" row), effect⟩))

/-- The deck file of a table. -/
def ofTable (t : Csv.Table) : Except Fault DeckFile := do
  if (t.column? "name").isNone && (t.column? "condition").isNone then throw .noColumns
  let rows := List.range t.height
  let cards ← rows.mapM (cardOfRow t)
  let conditions := (rows.map (t.cell "condition")).filter (· ≠ "")
  pure ⟨DeckList.ofList (cards.filterMap id), conditions.map fun s => .document (.text s), .null⟩

/-- The deck file of a text with a table. -/
def ofCsv (text : String) : Except Fault DeckFile := do ofTable (← Csv.Table.ofText text)

/-- The names of the columns. -/
def columns : List String := ["name", "qty", "tags", "free", "condition"]

/-- The rows for a deck. -/
def deckRows (deck : DeckList) : Except Fault (List (List String)) :=
  deck.withoutFiller.mapM fun e => do
    let free ← match e.2.effect with
      | none => pure ""
      | some effect => Json.write effect.toValue
    pure [e.1, Number.text e.2.copies, ";".intercalate e.2.tags, free, ""]

/-- The rows for conditions. -/
def conditionRows (given : List Given) : Except Fault (List (List String)) := do
  pure ((← Given.texts given).map fun s => ["", "", "", "", s])

/-- A deck as a table. -/
def deckToCsv (deck : DeckList) : Except Fault String := do
  pure (Csv.write (columns :: (← deckRows deck)))

/-- Conditions as a table. -/
def conditionsToCsv (given : List Given) : Except Fault String := do
  pure (Csv.write (columns :: (← conditionRows given)))

/-- A deck file as a table. -/
def toCsv (f : DeckFile) : Except Fault String := do
  let cards ← deckRows f.deck
  let conditions ← conditionRows f.conditions
  pure (Csv.write (columns :: cards ++ conditions))

example : tagsOfCell " Engine; ;Level 4;" = ["Engine", "Level 4"] := by decide +kernel

end OpeningHand.DeckFile
