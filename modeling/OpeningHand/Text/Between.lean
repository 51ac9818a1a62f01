/-!
# Texts between separators
-/

namespace OpeningHand.Text

/-- The parts of a text between the places where a character stands: one more than there are places. -/
def between (sep : Char) : List Char → List (List Char)
  | [] => [[]]
  | c :: r =>
    if c = sep then [] :: between sep r
    else match between sep r with
      | [] => [[c]]
      | p :: ps => (c :: p) :: ps

theorem between_ne_nil (sep : Char) (s : List Char) : between sep s ≠ [] := by
  cases s with
  | nil => simp [between]
  | cons c r =>
    rw [between]
    split
    · simp
    · split <;> simp

/-- The parts with the separator between them are the text again. -/
theorem intercalate_between (sep : Char) (s : List Char) : [sep].intercalate (between sep s) = s := by
  induction s with
  | nil => rfl
  | cons c r ih =>
    rw [between]
    cases h : between sep r with
    | nil => exact absurd h (between_ne_nil sep r)
    | cons p ps =>
      rw [h] at ih
      split
      · rename_i hc
        subst hc
        simp_all [List.intercalate, List.intersperse]
      · cases ps with
        | nil => simp_all [List.intercalate, List.intersperse]
        | cons q qs => simp_all [List.intercalate, List.intersperse]

theorem between_eq_singleton {sep : Char} {s : List Char} (h : sep ∉ s) : between sep s = [s] := by
  induction s with
  | nil => rfl
  | cons c r ih =>
    rw [List.mem_cons, not_or] at h
    rw [between, if_neg (Ne.symm h.1), ih h.2]

theorem between_append_cons {sep : Char} {w : List Char} (h : sep ∉ w) (s : List Char) :
    between sep (w ++ sep :: s) = w :: between sep s := by
  induction w with
  | nil => simp [between]
  | cons c r ih =>
    rw [List.mem_cons, not_or] at h
    rw [List.cons_append, between, if_neg (Ne.symm h.1), ih h.2]

/-- Parts without the separator are found again between the separators. -/
theorem between_intercalate {sep : Char} {parts : List (List Char)} (hne : parts ≠ [])
    (h : ∀ p ∈ parts, sep ∉ p) : between sep ([sep].intercalate parts) = parts := by
  induction parts with
  | nil => exact absurd rfl hne
  | cons p ps ih =>
    have hp := h p (List.mem_cons_self ..)
    cases ps with
    | nil => simpa [List.intercalate, List.intersperse] using between_eq_singleton hp
    | cons q qs =>
      have hs : [sep].intercalate (p :: q :: qs) = p ++ sep :: [sep].intercalate (q :: qs) := by
        simp [List.intercalate, List.intersperse]
      rw [hs, between_append_cons hp, ih (by simp) fun x hx => h x (List.mem_cons_of_mem _ hx)]

example : between ';' "a;;b".toList = [['a'], [], ['b']] := by decide

end OpeningHand.Text
