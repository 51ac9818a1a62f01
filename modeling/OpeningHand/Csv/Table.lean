import OpeningHand.Csv.Column
import OpeningHand.Csv.Rows
import OpeningHand.Text.Blank

/-!
# Tables

A table has columns by name; of columns with the same name the first counts. Columns without a name,
and those whose name begins with `Unnamed`, are dropped. If the first row below the header has more
fields than the header, the fields in excess at its front belong to no column, in this row and all
others.
-/

namespace OpeningHand.Csv

/-- Columns by name, all of one length. -/
structure Table where
  columns : List (String × Column)
  height : Nat
deriving DecidableEq, Repr

/-- Whether a column of a name is dropped. -/
def isDropped (name : String) : Bool := name == "" || "Unnamed".toList.isPrefixOf name.toList

/-- The table of a text. -/
def Table.ofText (text : String) : Except Fault Table := do
  match ← rows text with
  | [] => .error .emptyTable
  | header :: body =>
    let excess := match body with
      | [] => 0
      | r :: _ => r.length - header.length
    let columns := header.zipIdx.map fun e =>
      (e.1, columnOf (body.map fun r => (r[excess + e.2]?).getD ""))
    let kept := columns.filter fun c => !isDropped c.1
    pure ⟨(kept.map (·.1)).zip (aligned (kept.map (·.2))), body.length⟩

namespace Table

/-- The column of a name. -/
def column? (t : Table) (name : String) : Option Column :=
  (t.columns.find? fun c => c.1 == name).map (·.2)

/-- The text of a cell without the blanks around it; a column that is not there has empty cells. -/
def cell (t : Table) (name : String) (row : Nat) : String :=
  match t.column? name with
  | some c => Text.stripped ((c.cells[row]?).getD .blank).shown
  | none => ""

end Table

end OpeningHand.Csv
