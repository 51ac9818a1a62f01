import OpeningHand.Proofs.Text.Spaced
import Mathlib.Data.List.TakeWhile

/-!
# Texts with other gaps

Where one of two texts has a gap the other one has a gap too, as long as it likes and of any blanks, and all other
characters are the same (`Text.Respaced`). These are the texts that become the same when their gaps are collapsed
(`Text.respaced_iff`).

The relation is taken apart from the front: a character that is no blank stands in both texts (`Respaced.of_cons`), and
of a gap any number of blanks may be left (`Respaced.of_blank_cons`).
-/

namespace OpeningHand.Text

/-- The second text has a gap, of any blanks and of any length but zero, wherever the first one has a gap, and the same
characters elsewhere. -/
inductive Respaced : List Char → List Char → Prop
  | nil : Respaced [] []
  | char {c : Char} {s t : List Char} (hc : isBlank c = false) (rest : Respaced s t) : Respaced (c :: s) (c :: t)
  | gap {g g' s t : List Char} (hg : IsGap g) (hne : g ≠ []) (hg' : IsGap g') (hne' : g' ≠ [])
      (whole : ∀ c ∈ s.head?, isBlank c = false) (rest : Respaced s t) : Respaced (g ++ s) (g' ++ t)

/-- A text is empty, or begins with a character that is no blank, or with a gap and no blank behind it. -/
theorem cases_gap (s : List Char) :
    s = [] ∨ (∃ c u, s = c :: u ∧ isBlank c = false) ∨
      ∃ g u, s = g ++ u ∧ IsGap g ∧ g ≠ [] ∧ ∀ c ∈ u.head?, isBlank c = false := by
  cases s with
  | nil => exact Or.inl rfl
  | cons c s =>
      cases hc : isBlank c with
      | false => exact Or.inr (Or.inl ⟨c, s, rfl, hc⟩)
      | true =>
          refine Or.inr (Or.inr ⟨(c :: s).takeWhile isBlank, (c :: s).dropWhile isBlank, ?_, ?_, ?_, ?_⟩)
          · exact List.takeWhile_append_dropWhile.symm
          · exact fun d hd => List.mem_takeWhile_imp hd
          · simp [hc]
          · exact head?_dropWhile isBlank _

namespace Respaced

variable {c : Char} {g s t w : List Char}

/-- Texts with the same gaps begin alike where no gap is. -/
theorem head_not_isBlank (h : Respaced s t) (hs : ∀ c ∈ s.head?, isBlank c = false) :
    ∀ c ∈ t.head?, isBlank c = false := by
  cases h with
  | nil => exact hs
  | char hc _ =>
      intro d hd
      obtain rfl := Option.some.inj hd
      exact hc
  | gap hg hne =>
      obtain ⟨b, g, rfl⟩ := List.exists_cons_of_ne_nil hne
      have hb := hs b rfl
      rw [hg b List.mem_cons_self] at hb
      cases hb

theorem symm (h : Respaced s t) : Respaced t s := by
  induction h with
  | nil => exact .nil
  | char hc _ ih => exact .char hc ih
  | gap hg hne hg' hne' whole rest ih => exact .gap hg' hne' hg hne (rest.head_not_isBlank whole) ih

theorem eq_nil (h : Respaced [] t) : t = [] := by
  generalize hs : [] = s at h
  cases h with
  | nil => rfl
  | char => cases hs
  | gap _ hne => exact absurd (List.append_eq_nil_iff.1 hs.symm).1 hne

/-- A character that is no blank stands in both texts. -/
theorem of_cons (h : Respaced (c :: s) t) (hc : isBlank c = false) : ∃ u, t = c :: u ∧ Respaced s u := by
  generalize hcs : c :: s = r at h
  cases h with
  | nil => cases hcs
  | char _ rest =>
      obtain ⟨rfl, rfl⟩ := List.cons.inj hcs
      exact ⟨_, rfl, rest⟩
  | gap hg hne =>
      obtain ⟨b, g, rfl⟩ := List.exists_cons_of_ne_nil hne
      obtain ⟨rfl, -⟩ := List.cons.inj hcs
      rw [hg c List.mem_cons_self] at hc
      cases hc

/-- A word stands in both texts. -/
theorem of_append (h : Respaced (w ++ s) t) (hw : ∀ c ∈ w, isBlank c = false) : ∃ u, t = w ++ u ∧ Respaced s u := by
  induction w generalizing t with
  | nil => exact ⟨t, rfl, h⟩
  | cons c w ih =>
      obtain ⟨hc, hw⟩ := List.forall_mem_cons.1 hw
      obtain ⟨t, rfl, htail⟩ := of_cons h hc
      obtain ⟨u, rfl, hrest⟩ := ih htail hw
      exact ⟨u, rfl, hrest⟩

/-- A gap stands in both texts. -/
theorem of_gap (h : Respaced (g ++ s) t) (hg : IsGap g) (hne : g ≠ []) (hs : ∀ c ∈ s.head?, isBlank c = false) :
    ∃ g' u, t = g' ++ u ∧ IsGap g' ∧ g' ≠ [] ∧ Respaced s u := by
  generalize hgs : g ++ s = r at h
  obtain ⟨b, g, rfl⟩ := List.exists_cons_of_ne_nil hne
  cases h with
  | nil => cases hgs
  | char hc _ =>
      obtain ⟨rfl, -⟩ := List.cons.inj hgs
      rw [hg b List.mem_cons_self] at hc
      cases hc
  | @gap g₁ g' s₁ u hg₁ _ hg' hne' whole rest =>
      -- both gaps go as far as there are blanks
      have hgap : b :: g = g₁ := by
        rw [← takeWhile_append_of_head hg hs, hgs, takeWhile_append_of_head hg₁ whole]
      subst hgap
      obtain rfl := List.append_cancel_left hgs
      exact ⟨g', u, rfl, hg', hne', rest⟩

/-- A blank more or less in front does not matter as long as a gap is left. -/
theorem of_blank_cons (h : Respaced (c :: s) t) (hc : isBlank c = true) :
    ∃ g u, t = g ++ u ∧ IsGap g ∧ Respaced s u := by
  generalize hcs : c :: s = r at h
  cases h with
  | nil => cases hcs
  | char hd _ =>
      obtain ⟨rfl, -⟩ := List.cons.inj hcs
      rw [hc] at hd
      cases hd
  | @gap g g' s' u hg hne hg' hne' whole rest =>
      obtain ⟨b, g, rfl⟩ := List.exists_cons_of_ne_nil hne
      obtain ⟨rfl, rfl⟩ := List.cons.inj hcs
      cases g with
      | nil => exact ⟨g', u, rfl, hg', rest⟩
      | cons d g =>
          have hgap : IsGap (d :: g) := fun x hx => hg x (List.mem_cons_of_mem _ hx)
          exact ⟨[], g' ++ u, rfl, nofun, .gap hgap (by simp) hg' hne' whole rest⟩

/-- What is said of a first character alone, and of all blanks alike, is said of both texts. -/
theorem head_congr {P : List Char → Prop} (h : Respaced s t)
    (hchar : ∀ {c u v}, isBlank c = false → P (c :: u) → P (c :: v))
    (hgap : ∀ {b b' u v}, isBlank b = true → isBlank b' = true → P (b :: u) → P (b' :: v)) (hs : P s) : P t := by
  cases h with
  | nil => exact hs
  | char hc _ => exact hchar hc hs
  | gap hg hne hg' hne' =>
      obtain ⟨b, g, rfl⟩ := List.exists_cons_of_ne_nil hne
      obtain ⟨b', g', rfl⟩ := List.exists_cons_of_ne_nil hne'
      exact hgap (hg b List.mem_cons_self) (hg' b' List.mem_cons_self) hs

theorem collapse_eq (h : Respaced s t) : collapse s = collapse t := by
  induction h with
  | nil => rfl
  | char hc _ ih => rw [collapse_cons_of_not_isBlank hc, collapse_cons_of_not_isBlank hc, ih]
  | gap hg hne hg' hne' whole rest ih =>
      rw [collapse_gap_append hg hne whole, collapse_gap_append hg' hne' (rest.head_not_isBlank whole), ih]

end Respaced

theorem respaced_of_collapse_eq {s t : List Char} (h : collapse s = collapse t) : Respaced s t := by
  have hspace : isBlank ' ' = true := by decide
  rcases cases_gap s with rfl | ⟨c, s, rfl, hc⟩ | ⟨g, s, rfl, hg, hne, hs⟩
  · rcases cases_gap t with rfl | ⟨d, t, rfl, hd⟩ | ⟨g', t, rfl, hg', hne', ht⟩
    · exact .nil
    · rw [collapse_cons_of_not_isBlank hd] at h
      cases h
    · rw [collapse_gap_append hg' hne' ht] at h
      cases h
  · rw [collapse_cons_of_not_isBlank hc] at h
    rcases cases_gap t with rfl | ⟨d, t, rfl, hd⟩ | ⟨g', t, rfl, hg', hne', ht⟩
    · cases h
    · rw [collapse_cons_of_not_isBlank hd] at h
      obtain ⟨rfl, htail⟩ := List.cons.inj h
      exact .char hc (respaced_of_collapse_eq htail)
    · rw [collapse_gap_append hg' hne' ht] at h
      rw [(List.cons.inj h).1, hspace] at hc
      cases hc
  · rw [collapse_gap_append hg hne hs] at h
    rcases cases_gap t with rfl | ⟨d, t, rfl, hd⟩ | ⟨g', t, rfl, hg', hne', ht⟩
    · cases h
    · rw [collapse_cons_of_not_isBlank hd] at h
      rw [← (List.cons.inj h).1, hspace] at hd
      cases hd
    · rw [collapse_gap_append hg' hne' ht] at h
      have : s.length < (g ++ s).length := by simpa using List.length_pos_iff.2 hne
      exact .gap hg hne hg' hne' hs (respaced_of_collapse_eq (List.cons.inj h).2)
termination_by s.length

/-- **Texts differ in their gaps only** exactly if they are the same with each gap as a single space. -/
theorem respaced_iff {s t : List Char} : Respaced s t ↔ collapse s = collapse t :=
  ⟨Respaced.collapse_eq, respaced_of_collapse_eq⟩

instance (s t : List Char) : Decidable (Respaced s t) := decidable_of_iff _ respaced_iff.symm

end OpeningHand.Text
