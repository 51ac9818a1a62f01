import OpeningHand.Text.Between
import OpeningHand.Text.Blank
import OpeningHand.Text.Digit
import OpeningHand.Text.Word

/-!
# Words with blanks between them

A text that begins with a word is a sequence of words with gaps between them and perhaps one at the
end (`Spaced`). Trimming it and collapsing its gaps leaves the words with single spaces between them
(`Spaced.trim_collapse`). Blanks are neither digits nor word characters, so a gap ends a number as well
as a word.
-/

namespace OpeningHand.Text

/-! ### Classes of characters -/

/-- All blanks. -/
def blanks : List Char :=
  (List.range' 9 5 ++ List.range' 28 5 ++ [0x85, 0xA0, 0x1680] ++ List.range' 0x2000 11 ++
    [0x2028, 0x2029, 0x202F, 0x205F, 0x3000]).map Char.ofNat

theorem mem_blanks {c : Char} (h : isBlank c = true) : c ∈ blanks := by
  refine List.mem_map.2 ⟨c.toNat, ?_, Char.ofNat_toNat c⟩
  simp only [isBlank, Bool.or_eq_true, Bool.and_eq_true, decide_eq_true_eq, beq_iff_eq] at h
  simp only [List.mem_append, List.mem_range'_1, List.mem_cons, List.not_mem_nil, or_false, Char.toNat]
  omega

theorem isDigit_of_isBlank {c : Char} (h : isBlank c = true) : isDigit c = false := by
  have hall : blanks.all (fun b => !isDigit b) = true := by decide +kernel
  simpa using List.all_eq_true.1 hall c (mem_blanks h)

/-- The turning points may be passed as a list. -/
theorem insideTurns_eq_foldl (turns : Array Nat) (n : Nat) :
    insideTurns turns n
      = turns.toList.foldl (fun inside t => if t ≤ n then !inside else inside) false := by
  rw [insideTurns, Array.foldl_toList]

theorem isWord_of_isBlank {c : Char} (h : isBlank c = true) : isWord c = false := by
  have hall : blanks.all (fun b => !isWord b) = true := by
    simp only [isWord, insideTurns_eq_foldl]
    decide +kernel
  simpa using List.all_eq_true.1 hall c (mem_blanks h)

/-! ### Fronts of one class -/

/-- A front of one class can be told from what follows it. -/
theorem takeWhile_append_of_head {α : Type} {p : α → Bool} {a b : List α} (ha : ∀ x ∈ a, p x = true)
    (hb : ∀ x ∈ b.head?, p x = false) : (a ++ b).takeWhile p = a := by
  rw [List.takeWhile_append_of_pos ha]
  cases b with
  | nil => simp
  | cons x b => rw [List.takeWhile_cons_of_neg (by simp [hb x rfl]), List.append_nil]

theorem dropWhile_append_of_head {α : Type} {p : α → Bool} {a b : List α} (ha : ∀ x ∈ a, p x = true)
    (hb : ∀ x ∈ b.head?, p x = false) : (a ++ b).dropWhile p = b := by
  rw [List.dropWhile_append_of_pos ha]
  cases b with
  | nil => rfl
  | cons x b => rw [List.dropWhile_cons_of_neg (by simp [hb x rfl])]

/-- Behind a front of one class something else begins, or nothing. -/
theorem head?_dropWhile {α : Type} (p : α → Bool) (l : List α) :
    ∀ x ∈ (l.dropWhile p).head?, p x = false := by
  intro x hx
  have := List.head?_dropWhile_not p l
  rw [Option.mem_def.1 hx] at this
  simpa using this

/-! ### Words and gaps -/

/-- Characters without a blank, at least one. -/
def IsWord (w : List Char) : Prop := w ≠ [] ∧ ∀ c ∈ w, isBlank c = false

/-- Blanks, perhaps none. -/
def IsGap (g : List Char) : Prop := ∀ c ∈ g, isBlank c = true

/-- Texts that begin with a word, and their words. -/
inductive Spaced : List (List Char) → List Char → Prop
  /-- One word, and what blanks follow it. -/
  | last {w g : List Char} (word : IsWord w) (gap : IsGap g) : Spaced [w] (w ++ g)
  /-- A word and a gap before other words. -/
  | more {w g s : List Char} {ws : List (List Char)} (word : IsWord w) (gap : IsGap g) (ne : g ≠ [])
      (rest : Spaced ws s) : Spaced (w :: ws) (w ++ (g ++ s))

theorem collapse_cons_of_not_isBlank {c : Char} (h : isBlank c = false) (s : List Char) :
    collapse (c :: s) = c :: collapse s := by
  cases s with
  | nil => simp [collapse, h]
  | cons d r => simp [collapse, h]

theorem collapse_cons_of_isBlank {c : Char} (h : isBlank c = true) {s : List Char}
    (hs : ∀ d ∈ s.head?, isBlank d = false) : collapse (c :: s) = ' ' :: collapse s := by
  cases s with
  | nil => simp [collapse, h]
  | cons d r => simp [collapse, h, hs d (by simp)]

theorem collapse_word_append {w : List Char} (h : ∀ c ∈ w, isBlank c = false) (s : List Char) :
    collapse (w ++ s) = w ++ collapse s := by
  induction w with
  | nil => rfl
  | cons c w ih =>
      rw [List.cons_append, collapse_cons_of_not_isBlank (h c (by simp)),
        ih fun d hd => h d (by simp [hd]), List.cons_append]

/-- A gap becomes one space. -/
theorem collapse_gap_append {g s : List Char} (hg : IsGap g) (hne : g ≠ [])
    (hs : ∀ d ∈ s.head?, isBlank d = false) : collapse (g ++ s) = ' ' :: collapse s := by
  induction g with
  | nil => exact absurd rfl hne
  | cons c g ih =>
      have hc : isBlank c = true := hg c (by simp)
      cases g with
      | nil => exact collapse_cons_of_isBlank hc hs
      | cons d g =>
          have hd : isBlank d = true := hg d (by simp)
          have hstep : collapse (c :: d :: (g ++ s)) = collapse (d :: (g ++ s)) := by
            rw [collapse, if_pos hc, if_pos hd]
          exact hstep.trans (ih (fun x hx => hg x (List.mem_cons_of_mem _ hx)) (by simp))

/-- Blanks at the end of a text go, blanks before something else stay. -/
theorem trimRight_cons (c : Char) (s : List Char) :
    trimRight (c :: s)
      = if trimRight s = [] then (if isBlank c then [] else [c]) else c :: trimRight s := by
  unfold trimRight
  rw [List.reverse_cons, List.dropWhile_append]
  cases s.reverse.dropWhile isBlank with
  | nil => cases hc : isBlank c <;> simp [hc]
  | cons d r => simp

theorem trimRight_word_append {w : List Char} (h : ∀ c ∈ w, isBlank c = false) (s : List Char) :
    trimRight (w ++ s) = w ++ trimRight s := by
  induction w with
  | nil => rfl
  | cons c w ih =>
      have hc : isBlank c = false := h c (by simp)
      rw [List.cons_append, trimRight_cons, ih fun d hd => h d (by simp [hd])]
      split
      · rename_i hnil
        obtain ⟨rfl, hs⟩ := List.append_eq_nil_iff.1 hnil
        simp [hc, hs]
      · rfl

/-- Nothing is left of a gap at the end. -/
theorem trimRight_collapse_gap {g : List Char} (hg : IsGap g) : trimRight (collapse g) = [] := by
  cases g with
  | nil => rfl
  | cons c g =>
      have hspace := collapse_gap_append (s := []) hg (by simp) (by simp)
      rw [List.append_nil] at hspace
      rw [hspace]
      rfl

/-- A gap more at the end does not matter. -/
theorem trimRight_collapse_append_gap {g : List Char} (hg : IsGap g) (s : List Char) :
    trimRight (collapse (s ++ g)) = trimRight (collapse s) := by
  induction s with
  | nil => exact trimRight_collapse_gap hg
  | cons c s ih =>
      cases hc : isBlank c with
      | false =>
          rw [List.cons_append, collapse_cons_of_not_isBlank hc, collapse_cons_of_not_isBlank hc, trimRight_cons,
            trimRight_cons, ih]
      | true =>
          cases s with
          | nil =>
              have hgap : IsGap ([c] ++ g) := List.forall_mem_cons.2 ⟨hc, hg⟩
              rw [trimRight_collapse_gap hgap, trimRight_collapse_gap (List.forall_mem_singleton.2 hc)]
          | cons d s =>
              rw [List.cons_append, List.cons_append, collapse, collapse, if_pos hc, if_pos hc, ← List.cons_append]
              split
              · exact ih
              · rw [trimRight_cons, trimRight_cons, ih]

/-- Collapsing leaves no blank in front of a text that begins with none. -/
theorem trim_collapse_of_head {s : List Char} (h : ∀ c ∈ s.head?, isBlank c = false) :
    trim (collapse s) = trimRight (collapse s) := by
  cases s with
  | nil => rfl
  | cons c s =>
      have hc := h c rfl
      rw [collapse_cons_of_not_isBlank hc, trim, trimLeft, List.dropWhile_cons_of_neg (by simp [hc])]

namespace Spaced

variable {ws : List (List Char)} {s : List Char}

theorem head_not_isBlank (h : Spaced ws s) : ∀ d ∈ s.head?, isBlank d = false := by
  cases h with
  | last word gap | more word gap ne rest =>
      obtain ⟨hne, hw⟩ := word
      obtain ⟨c, w, rfl⟩ := List.exists_cons_of_ne_nil hne
      simpa using hw c (by simp)

theorem ne_nil (h : Spaced ws s) : ws ≠ [] := by
  cases h <;> exact List.cons_ne_nil _ _

theorem isWord (h : Spaced ws s) : ∀ w ∈ ws, IsWord w := by
  induction h with
  | last word _ => simpa using word
  | more word _ _ _ ih => simpa using ⟨word, ih⟩

/-- Trimming the end and collapsing the gaps leaves the words with single spaces between them. -/
theorem trimRight_collapse (h : Spaced ws s) :
    trimRight (collapse s) = [' '].intercalate ws := by
  induction h with
  | @last w g word gap =>
      rw [collapse_word_append word.2, trimRight_word_append word.2]
      rw [trimRight_collapse_gap gap]
      simp [List.intercalate, List.intersperse]
  | @more w g s ws word gap ne rest ih =>
      rw [collapse_word_append word.2, collapse_gap_append gap ne rest.head_not_isBlank,
        trimRight_word_append word.2, trimRight_cons, ih]
      obtain ⟨v, vs, rfl⟩ := List.exists_cons_of_ne_nil rest.ne_nil
      have hv := rest.isWord v (by simp)
      have hne : [' '].intercalate (v :: vs) ≠ [] := by
        cases vs <;> simp [List.intercalate, List.intersperse, hv.1]
      rw [if_neg hne]
      simp [List.intercalate, List.intersperse]

theorem trim_collapse (h : Spaced ws s) : trim (collapse s) = [' '].intercalate ws := by
  rw [trim_collapse_of_head h.head_not_isBlank, h.trimRight_collapse]

/-- The words are found again in what trimming and collapsing leave. -/
theorem between_trim_collapse (h : Spaced ws s) : between ' ' (trim (collapse s)) = ws := by
  rw [h.trim_collapse]
  refine between_intercalate h.ne_nil fun w hw hin => ?_
  have := (h.isWord w hw).2 ' ' hin
  exact absurd this (by decide)

end Spaced

/-- Words with single spaces between them. -/
theorem spaced_intercalate {ws : List (List Char)} (hne : ws ≠ []) (h : ∀ w ∈ ws, IsWord w) :
    Spaced ws ([' '].intercalate ws) := by
  induction ws with
  | nil => exact absurd rfl hne
  | cons w ws ih =>
      have hw := h w (by simp)
      cases ws with
      | nil => simpa [List.intercalate, List.intersperse] using Spaced.last hw (g := []) (by simp [IsGap])
      | cons v vs =>
          have hgap : IsGap [' '] := by simp [IsGap]; decide
          have hrest := ih (by simp) fun x hx => h x (List.mem_cons_of_mem _ hx)
          simpa [List.intercalate, List.intersperse] using Spaced.more hw hgap (by simp) hrest

end OpeningHand.Text
