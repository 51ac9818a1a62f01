/-!
# Writing tables

Fields are separated by commas and rows ended by line ends. A field that holds a comma, a quote or a
line end is put between quotes, its own quotes being written twice.
-/

namespace OpeningHand.Csv

/-- Whether a field must be quoted. -/
def needsQuotes (s : List Char) : Bool :=
  s.any fun c => c == ',' || c == '"' || c == '\n' || c == '\r'

/-- Writes each quote twice. -/
def doubled (s : List Char) : List Char := s.flatMap fun c => if c == '"' then ['"', '"'] else [c]

/-- A field as written. -/
def writeField (s : String) : String :=
  if needsQuotes s.toList then String.ofList ('"' :: (doubled s.toList ++ ['"'])) else s

/-- A row with its line end. -/
def writeRow (fields : List String) : String := ",".intercalate (fields.map writeField) ++ "\n"

/-- A table. -/
def write (rows : List (List String)) : String := String.join (rows.map writeRow)

example : write [["a", "b"], ["x,y", "\"q\""]] = "a,b\n\"x,y\",\"\"\"q\"\"\"\n" := by decide +kernel

end OpeningHand.Csv
