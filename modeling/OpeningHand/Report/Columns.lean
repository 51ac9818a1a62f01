import OpeningHand.Report.Table

/-!
# The card table in columns

All cells stand at the right of their columns, which are as wide as their widest cell or heading. Two
spaces divide columns of numbers from what is before them, one space divides the two columns of words.
Numbers with a point show six decimals, less the zeros that end all of a column's cells.
-/

namespace OpeningHand

open Number

namespace Columns

/-- The headings of the card table. -/
def headings : List String :=
  ["kind", "key", "hands_seen", "avg_copies_seen", "drawn", "banished", "discarded", "seen_rate"]

/-- A cell with its line ends and tabs made visible. -/
def visible (s : String) : String :=
  String.ofList (s.toList.flatMap fun c =>
    if c = '\n' then ['\\', 'n'] else if c = '\t' then ['\\', 't']
    else if c = '\r' then ['\\', 'r'] else [c])

/-- The number of zeros at the end of a text that can go: one digit stays after the point. -/
def spareZeros (s : List Char) : Nat :=
  let zeros := (s.reverse.takeWhile (· == '0')).length
  let decimals := (s.reverse.takeWhile (· != '.')).length
  min zeros (decimals - 1)

/-- A key as a cell: a number with a point has at most six decimals, and a space for its sign. -/
def keyCell : Value → String
  | .text s => visible s
  | .float .nan => "NaN"
  | .float x =>
    let s := (fixed 6 x).toList
    let s := s.take (s.length - spareZeros s)
    String.ofList (if s.head? = some '-' then s else ' ' :: s)
  | v => visible v.shown

/-- Numbers with a point as the cells of one column. -/
def decimals (xs : List Binary64) : List String :=
  let full := xs.map fun x => (fixed 6 x).toList
  let spare := ((full.map spareZeros).min?).getD 0
  full.map fun s => String.ofList (s.take (s.length - spare))

/-- A cell at the right of a width. -/
def atRight (width : Nat) (s : String) : String :=
  String.ofList (List.replicate (width - s.length) ' ') ++ s

/-- A column with its heading, all cells as wide as the widest. -/
def column (heading : String) (cells : List String) : List String :=
  let all := heading :: cells
  let width := ((all.map String.length).max?).getD 0
  all.map (atRight width)

/-- Columns side by side, each after some text. -/
def beside (columns : List (String × List String)) : List String :=
  match columns with
  | [] => []
  | (_, first) :: _ =>
    (List.range first.length).map fun i =>
      String.join (columns.map fun c => c.1 ++ (c.2[i]?).getD "")

end Columns

open Columns in
/-- The lines of the card table. -/
def Report.cardLines (r : Report) : List String :=
  let rows := r.cardTable
  if rows.isEmpty then
    ["Empty DataFrame", "Columns: [" ++ ", ".intercalate headings ++ "]", "Index: []"]
  else
    let counts := fun (f : CardRow → Nat) => rows.map fun row => Number.text (f row)
    let cells := [rows.map (·.kind.word), rows.map fun row => keyCell row.key, counts (·.handsSeen),
      decimals (rows.map (·.averageCopies)), counts (·.drawn), counts (·.banished),
      counts (·.discarded), decimals (rows.map (·.seenRate))]
    let gaps := ["", " "] ++ List.replicate 6 "  "
    beside (gaps.zip ((headings.zip cells).map fun c => column c.1 c.2))

example : Columns.decimals [.quotient 3 2, .quotient 15 8] = ["1.500", "1.875"] := by decide +kernel

end OpeningHand
