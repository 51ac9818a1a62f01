import OpeningHand.Fault

/-!
# Rows of a table text

A table text is cut into rows at line ends and rows into fields at commas. A field that begins with a
quote runs to the next single quote, with two quotes for one inside; what follows the closing quote is
taken as it is. No field goes beyond a character zero. A byte order mark in front is dropped.

Lines that are empty or blank are passed over. After such a line that ends with a carriage return, a
comma is passed over too. But a line that begins with blanks and holds something else makes rows of all
lines since the last line feed, or since the last row if there is none.

The first row is the header. A later row with fewer fields than the row before it is filled up with
empty fields; from the third row on, one with more fields breaks the table.

Main statements: `row?_length` and `nextRow_length`, by which reading row after row ends.
-/

namespace OpeningHand.Csv

/-- Where the reader of a row stands. -/
inductive Mode where
  /-- At the beginning of a field. -/
  | fieldStart
  /-- In a field. -/
  | inField
  /-- Between the quotes of a field. -/
  | inQuotes
  /-- After a quote between quotes. -/
  | afterQuote
deriving DecidableEq, Repr

/-- The text of a field from its characters in reverse. -/
def fieldText (field : List Char) : String :=
  String.ofList (field.reverse.takeWhile (· != '\x00'))

/-- What follows a carriage return that ends a row: a line feed belongs to it. -/
def afterReturn : List Char → List Char
  | '\n' :: r => r
  | r => r

/-- The fields of a row from within a field on, and what follows the row; nothing if a quote is never
closed. -/
def row? (mode : Mode) (field : List Char) : List Char → Option (List String × List Char)
  | [] => if mode = .inQuotes then none else some ([fieldText field], [])
  | c :: r =>
    if mode = .inQuotes then
      if c == '"' then row? .afterQuote field r else row? .inQuotes (c :: field) r
    else if c == '"' && mode == .fieldStart then row? .inQuotes field r
    else if c == '"' && mode == .afterQuote then row? .inQuotes (c :: field) r
    else if c == ',' then (row? .fieldStart [] r).map fun p => (fieldText field :: p.1, p.2)
    else if c == '\n' then some ([fieldText field], r)
    else if c == '\r' then some ([fieldText field], afterReturn r)
    else row? .inField (c :: field) r

theorem length_afterReturn_le (s : List Char) : (afterReturn s).length ≤ s.length := by
  unfold afterReturn; split <;> simp

/-- **A row takes something away** from a text that holds anything. -/
theorem row?_length {mode : Mode} {field s rest : List Char} {fields : List String}
    (h : row? mode field s = some (fields, rest)) : rest.length ≤ s.length - 1 := by
  induction s generalizing mode field fields with
  | nil =>
    simp only [row?] at h
    split at h <;> simp_all
  | cons c r ih =>
    have shorter : ∀ {mode field fields}, row? mode field r = some (fields, rest) →
        rest.length ≤ r.length := fun h => Nat.le_trans (ih h) (Nat.sub_le _ _)
    simp only [row?] at h
    simp only [List.length_cons, Nat.add_sub_cancel]
    split at h
    · split at h <;> exact shorter h
    · split at h
      · exact shorter h
      · split at h
        · exact shorter h
        · split at h
          · obtain ⟨p, hp, e⟩ := Option.map_eq_some_iff.1 h
            cases e
            exact shorter hp
          · split at h
            · cases h; exact Nat.le_refl _
            · split at h
              · cases h; exact length_afterReturn_le r
              · exact shorter h

/-- A blank inside a line. -/
def isGap (c : Char) : Bool := c == ' ' || c == '\t'

/-- Passes over lines up to the next row: their number, and the text from that row on, which is empty
if there is none. `start` is the text after the last line feed or row, and `gaps` says whether the
present line began with blanks. -/
def nextRow (start : List Char) (gaps : Bool) : List Char → Nat × List Char
  | [] => (0, [])
  | '\n' :: r => let p := nextRow r false r; (p.1 + 1, p.2)
  | '\r' :: '\n' :: r => let p := nextRow r false r; (p.1 + 1, p.2)
  | '\r' :: ',' :: r => let p := nextRow start false r; (p.1 + 1, p.2)
  | '\r' :: r => let p := nextRow start false r; (p.1 + 1, p.2)
  | c :: r => if isGap c then nextRow start true r else (0, if gaps then start else c :: r)

/-- The next row lies in the text. -/
theorem nextRow_length {n : Nat} {start s : List Char} (gaps : Bool) (h : start.length ≤ n)
    (h' : s.length ≤ n) : (nextRow start gaps s).2.length ≤ n := by
  fun_induction nextRow start gaps s <;> simp_all <;> grind

/-- The rows of a text that follow some rows: their number, the number of lines so far, and the width of
the last row are given. -/
def rowsAfter (count lines width : Nat) (s : List Char) : Except Fault (List (List String)) :=
  let next := nextRow s false s
  let lines := lines + next.1
  if _some : next.2.length = 0 then .ok []
  else match h : row? .fieldStart [] next.2 with
    | none => .error (.brokenTable ("EOF inside string starting at row " ++ Number.text lines))
    | some (fields, rest) =>
      if 2 ≤ count ∧ width < fields.length then
        .error (.brokenTable ("Expected " ++ Number.text width ++ " fields in line " ++
          Number.text (lines + 1 : Nat) ++ ", saw " ++ Number.text fields.length ++ "\n"))
      else
        let row := fields ++ List.replicate (width - fields.length) ""
        (rowsAfter (count + 1) (lines + 1) row.length rest).map (row :: ·)
termination_by s.length
decreasing_by
  have h1 := row?_length h
  have h2 : next.2.length ≤ s.length := nextRow_length false (Nat.le_refl _) (Nat.le_refl _)
  omega

/-- The rows of a table text. -/
def rows (text : String) : Except Fault (List (List String)) :=
  rowsAfter 0 0 0 (match text.toList with
    | '\uFEFF' :: r => r
    | r => r)

example : (rows "a,b\n\"x,\"\"y\",2\n\n3\n").toOption = some [["a", "b"], ["x,\"y", "2"], ["3", ""]] := by
  decide +kernel

example : (rows "a\n\r,b\n").toOption = some [["a"], ["b"]] ∧
    (rows "a\n\r b\n").toOption = some [["a"], [""], [" b"]] := by
  decide +kernel

end OpeningHand.Csv
