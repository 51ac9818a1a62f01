import OpeningHand.Text.Between
import OpeningHand.Text.Blank

/-!
# Trimmed texts

A text is trimmed if neither of its ends is blank, which is to say that trimming leaves it as it is
(`Text.trim_eq_self_iff`). Trimmed texts with a separator between them make a trimmed text again.
-/

namespace OpeningHand.Text

/-- A text with no blank at either end. -/
structure Trimmed (s : List Char) : Prop where
  head : ∀ c ∈ s.head?, isBlank c = false
  last : ∀ c ∈ s.getLast?, isBlank c = false

namespace Trimmed

theorem append_cons {s t : List Char} (hs : s ≠ []) (h : Trimmed s) (c : Char) (ht : t ≠ []) (h' : Trimmed t) :
    Trimmed (s ++ c :: t) := by
  refine ⟨fun d hd => h.head d ?_, fun d hd => h'.last d ?_⟩
  · obtain ⟨e, s, rfl⟩ := List.exists_cons_of_ne_nil hs
    simpa using hd
  · rw [List.getLast?_append] at hd
    obtain ⟨e, t, rfl⟩ := List.exists_cons_of_ne_nil ht
    simpa [List.getLast?_cons] using hd

/-- **Trimmed texts with a separator between them** make a trimmed text. -/
theorem intercalate {parts : List (List Char)} (h : ∀ p ∈ parts, p ≠ [] ∧ Trimmed p) (sep : Char) :
    Trimmed ([sep].intercalate parts) ∧ (parts ≠ [] → [sep].intercalate parts ≠ []) := by
  induction parts with
  | nil => exact ⟨⟨nofun, nofun⟩, fun hne => absurd rfl hne⟩
  | cons p parts ih =>
      obtain ⟨⟨hne, hp⟩, h⟩ := List.forall_mem_cons.1 h
      cases parts with
      | nil =>
          have hs : [sep].intercalate [p] = p := by simp [List.intercalate]
          rw [hs]
          exact ⟨hp, fun _ => hne⟩
      | cons q parts =>
          have hs : [sep].intercalate (p :: q :: parts) = p ++ sep :: [sep].intercalate (q :: parts) := by
            simp [List.intercalate, List.intersperse]
          obtain ⟨htrimmed, hrest⟩ := ih h
          rw [hs]
          exact ⟨hp.append_cons hne sep (hrest (List.cons_ne_nil _ _)) htrimmed, fun _ => by simp [hne]⟩

end Trimmed

end OpeningHand.Text
