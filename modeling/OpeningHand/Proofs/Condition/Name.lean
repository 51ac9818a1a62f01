import OpeningHand.Condition.Token
import OpeningHand.Proofs.Text.Spaced
import Mathlib.Data.List.Chain
import Mathlib.Data.List.TakeWhile

/-!
# Names of cards in a condition text

Which names a condition text can hold (`IsCardName`): words of name characters with single spaces
between them, none of which is a joint's word, and behind the first word no `IN` in front of a word
that opens with a place.

A name token's value is always such a name if an operator could follow the token
(`isCardName_of_spanName`), and each such name is read back whole from a text that goes on with a
location (`spanName_of_isCardName`). Both follow from one reading of the stop words: an operator or a
location is seen exactly at a word that is one (`isSome_operator?_append`,
`isSome_placeWord?_append`, `isSome_location?_append`).
-/

namespace OpeningHand

open Text

/-- A word of name characters that is no joint's word. -/
def isNameWord (w : List Char) : Bool :=
  !w.isEmpty && w.all isNameChar && w != "AND".toList && w != "OR".toList

/-- Whether a word opens with the word for a place, in any case, that ends there as a word. -/
def opensWithPlace (w : List Char) : Bool :=
  (((w.take 4).map Char.toLower == "hand".toList) || ((w.take 4).map Char.toLower == "deck".toList)) &&
    wordEnds (w.drop 4)

/-- Whether two words in a row would be taken for a location. -/
def isLocationAt (v w : List Char) : Bool := v == "IN".toList && opensWithPlace w

/-- A name that a condition text can hold. -/
def IsCardName (name : String) : Prop :=
  (∀ w ∈ between ' ' name.toList, isNameWord w = true) ∧
    (between ' ' name.toList).tail.IsChain fun v w => isLocationAt v w = false

instance (name : String) : Decidable (IsCardName name) := inferInstanceAs (Decidable (_ ∧ _))

theorem isNameWord_iff {w : List Char} : isNameWord w = true ↔
    w ≠ [] ∧ (∀ c ∈ w, isNameChar c = true) ∧ w ≠ "AND".toList ∧ w ≠ "OR".toList := by
  simp only [isNameWord, Bool.and_eq_true, Bool.not_eq_eq_eq_not, Bool.not_true, List.isEmpty_eq_false_iff,
    List.all_eq_true, bne_iff_ne, and_assoc]

theorem isWord_of_isNameChar {w : List Char} (hne : w ≠ []) (h : ∀ c ∈ w, isNameChar c = true) :
    IsWord w := ⟨hne, fun c hc => Lexeme.isBlank_of_isNameChar (h c hc)⟩

namespace Lexeme

/-! ### Where a word ends -/

theorem operatorEnds_of_head {s : List Char} (h : ∀ c ∈ s.head?, isBlank c = true) :
    operatorEnds s = true := by
  cases s with
  | nil => rfl
  | cons c s => simp [operatorEnds, h c rfl]

/-- Where an operator could end, no name character stands. -/
theorem isNameChar_of_operatorEnds {t : List Char} (h : operatorEnds t = true) :
    ∀ c ∈ t.head?, isNameChar c = false := by
  cases t with
  | nil => simp
  | cons c t =>
      simp only [operatorEnds, Bool.or_eq_true, beq_iff_eq] at h
      intro d hd
      obtain rfl : c = d := by simpa using hd
      rcases h with (h | rfl) | rfl
      · rw [← Bool.not_eq_true]
        intro hc
        rw [isBlank_of_isNameChar hc] at h
        exact Bool.false_ne_true h
      · decide
      · decide

/-- Two ways to split a text behind its first word are the same. -/
theorem split_unique {v w s t : List Char} (hv : ∀ c ∈ v, isNameChar c = true)
    (hs : ∀ c ∈ s.head?, isNameChar c = false) (hw : ∀ c ∈ w, isNameChar c = true)
    (ht : ∀ c ∈ t.head?, isNameChar c = false) (h : v ++ s = w ++ t) : v = w ∧ s = t := by
  have hvw : v = w := by
    rw [← takeWhile_append_of_head hv hs, h, takeWhile_append_of_head hw ht]
  subst hvw
  exact ⟨rfl, List.append_cancel_left h⟩

/-! ### Stop words -/

theorem isSome_operator?_iff {s : List Char} : (operator? s).isSome = true ↔
    ∃ r, operatorEnds r = true ∧ (s = "AND".toList ++ r ∨ s = "OR".toList ++ r) := by
  constructor
  · intro h
    unfold operator? at h
    split at h
    · rename_i r
      split at h
      · exact ⟨r, ‹_›, Or.inl rfl⟩
      · simp at h
    · rename_i r
      split at h
      · exact ⟨r, ‹_›, Or.inr rfl⟩
      · simp at h
    · simp at h
  · rintro ⟨r, hr, rfl | rfl⟩
    · simp [operator?, hr]
    · simp [operator?, hr]

/-- **An operator is seen exactly at a word that is one.** -/
theorem isSome_operator?_append {w t : List Char} (hw : ∀ c ∈ w, isNameChar c = true)
    (ht : operatorEnds t = true) :
    (operator? (w ++ t)).isSome = true ↔ w = "AND".toList ∨ w = "OR".toList := by
  rw [isSome_operator?_iff]
  have ht' := isNameChar_of_operatorEnds ht
  constructor
  · rintro ⟨r, hr, h | h⟩
    · have hand : ∀ c ∈ "AND".toList, isNameChar c = true := List.all_eq_true.1 (by decide)
      exact Or.inl (split_unique hw ht' hand (isNameChar_of_operatorEnds hr) h).1
    · have hor : ∀ c ∈ "OR".toList, isNameChar c = true := List.all_eq_true.1 (by decide)
      exact Or.inr (split_unique hw ht' hor (isNameChar_of_operatorEnds hr) h).1
  · rintro (rfl | rfl)
    · exact ⟨t, ht, Or.inl rfl⟩
    · exact ⟨t, ht, Or.inr rfl⟩

theorem toNat_lt_of_isNameChar {c : Char} (h : isNameChar c = true) : c.toNat < 128 := by
  have hbound : ∀ hi : UInt32, hi.toNat < 128 → c.val ≤ hi → c.toNat < 128 := fun hi hhi hle =>
    Nat.lt_of_le_of_lt (UInt32.le_iff_toNat_le.1 hle) hhi
  rw [isNameChar, Bool.or_eq_true] at h
  rcases h with h | h
  · rcases Bool.or_eq_true_iff.1 h with hletter | hdigit
    · rcases Bool.or_eq_true_iff.1 hletter with hupper | hlower
      · have hle : c.val ≥ 65 ∧ c.val ≤ 90 := of_decide_eq_true hupper
        exact hbound 90 (by decide) hle.2
      · exact hbound 122 (by decide) (of_decide_eq_true (Bool.and_eq_true_iff.1 hlower).2)
    · exact hbound 57 (by decide) (of_decide_eq_true (Bool.and_eq_true_iff.1 hdigit).2)
  · have hall : "-',.&:!?\"".toList.all (fun d => decide (d.toNat < 128)) = true := by decide
    exact of_decide_eq_true (List.all_eq_true.1 hall c (by simpa using h))

/-- The letters of the words for places. -/
def placeLetters : List Char := "handeck".toList

theorem hand_subset : "hand".toList ⊆ placeLetters := List.Sublist.subset (by decide)

theorem deck_subset : "deck".toList ⊆ placeLetters := List.Sublist.subset (by decide)

/-- Of the name characters only the two cases of a letter fold to it. -/
theorem foldsTo_iff {l c : Char} (hl : l ∈ placeLetters) (hc : isNameChar c = true) :
    foldsTo l c = true ↔ c.toLower = l := by
  have hall : (List.range 128).all (fun n => placeLetters.all fun l =>
      foldsTo l (Char.ofNat n) == decide ((Char.ofNat n).toLower = l)) = true := by decide +kernel
  have hn := List.all_eq_true.1 hall c.toNat (List.mem_range.2 (toNat_lt_of_isNameChar hc))
  have h := List.all_eq_true.1 hn l hl
  rw [Char.ofNat_toNat, beq_iff_eq] at h
  rw [h, decide_eq_true_eq]

/-- Nothing that ends a word folds to such a letter. -/
theorem foldsTo_of_operatorEnds {l c : Char} {t : List Char} (hl : l ∈ placeLetters)
    (h : operatorEnds (c :: t) = true) : foldsTo l c = false := by
  have hall : ('(' :: ')' :: blanks).all (fun b => placeLetters.all fun l => !foldsTo l b)
      = true := by decide +kernel
  have hc : c ∈ '(' :: ')' :: blanks := by
    simp only [operatorEnds, Bool.or_eq_true, beq_iff_eq] at h
    rcases h with (h | rfl) | rfl
    · exact List.mem_cons_of_mem _ (List.mem_cons_of_mem _ (mem_blanks h))
    · exact List.mem_cons_self
    · exact List.mem_cons_of_mem _ List.mem_cons_self
  simpa using List.all_eq_true.1 (List.all_eq_true.1 hall c hc) l hl

/-- The word for a place at the front, whole in the case it is written in. -/
theorem spanFolded_append {ls p : List Char} (hl : ls ⊆ placeLetters)
    (hp : ∀ c ∈ p, isNameChar c = true) (h : p.map Char.toLower = ls) (s : List Char) :
    spanFolded ls (p ++ s) = some (p, s) := by
  induction ls generalizing p with
  | nil =>
      obtain rfl := List.map_eq_nil_iff.1 h
      rfl
  | cons l ls ih =>
      obtain ⟨c, q, rfl, hc, hq⟩ := List.map_eq_cons_iff.1 h
      have hf : foldsTo l c = true :=
        (foldsTo_iff (hl List.mem_cons_self) (hp c (by simp))).2 hc
      rw [List.cons_append, spanFolded, if_pos hf,
        ih (List.subset_of_cons_subset hl) (fun x hx => hp x (by simp [hx])) hq]
      rfl

/-- What is read as the word for a place lies inside the first word and is its opening. -/
theorem of_spanFolded_append {ls w t p r : List Char} (hl : ls ⊆ placeLetters)
    (hw : ∀ c ∈ w, isNameChar c = true) (ht : operatorEnds t = true)
    (h : spanFolded ls (w ++ t) = some (p, r)) :
    ∃ q, w = p ++ q ∧ r = q ++ t ∧ p.map Char.toLower = ls := by
  induction ls generalizing w p with
  | nil =>
      simp only [spanFolded, Option.some.injEq, Prod.mk.injEq] at h
      exact ⟨w, by simp [← h.1], by simp [← h.2], by simp [← h.1]⟩
  | cons l ls ih =>
      cases w with
      | nil =>
          cases t with
          | nil => simp [spanFolded] at h
          | cons c t => simp [spanFolded, foldsTo_of_operatorEnds (hl List.mem_cons_self) ht] at h
      | cons c w =>
          rw [List.cons_append, spanFolded] at h
          split at h
          · rename_i hf
            obtain ⟨⟨p', r'⟩, hp, hpr⟩ := Option.map_eq_some_iff.1 h
            obtain ⟨rfl, rfl⟩ := Prod.mk.inj hpr
            obtain ⟨q, rfl, hr, hq⟩ := ih (List.subset_of_cons_subset hl)
              (fun x hx => hw x (by simp [hx])) hp
            have hc := (foldsTo_iff (hl List.mem_cons_self) (hw c (by simp))).1 hf
            exact ⟨q, rfl, hr, by simp [hc, hq]⟩
          · simp at h

/-- The end of a word inside a text is the end of the word by itself. -/
theorem wordEnds_append {q t : List Char} (ht : operatorEnds t = true) :
    wordEnds (q ++ t) = wordEnds q := by
  cases q with
  | cons c q => rfl
  | nil =>
      cases t with
      | nil => rfl
      | cons c t =>
          simp only [operatorEnds, Bool.or_eq_true, beq_iff_eq] at ht
          rcases ht with (h | rfl) | rfl
          · simp [wordEnds, isWord_of_isBlank h]
          · rfl
          · rfl

/-- **The word for a place is seen exactly at a word that opens with one.** -/
theorem isSome_placeWord?_append {w t : List Char} (hw : ∀ c ∈ w, isNameChar c = true)
    (ht : operatorEnds t = true) :
    (placeWord? (w ++ t)).isSome = true ↔ opensWithPlace w = true := by
  constructor
  · intro h
    unfold placeWord? at h
    split at h
    · rename_i p r hp
      split at h
      · rename_i hr
        obtain ⟨q, rfl, rfl, hcase⟩ : ∃ q, w = p ++ q ∧ r = q ++ t ∧
            (p.map Char.toLower = "hand".toList ∨ p.map Char.toLower = "deck".toList) := by
          rcases Option.or_eq_some_iff.1 hp with h1 | ⟨_, h1⟩
          · obtain ⟨q, h2, h3, h4⟩ := of_spanFolded_append hand_subset hw ht h1
            exact ⟨q, h2, h3, Or.inl h4⟩
          · obtain ⟨q, h2, h3, h4⟩ := of_spanFolded_append deck_subset hw ht h1
            exact ⟨q, h2, h3, Or.inr h4⟩
        have hlen : p.length = 4 := by
          rcases hcase with h4 | h4 <;> simpa using congrArg List.length h4
        rw [wordEnds_append ht] at hr
        simpa [opensWithPlace, ← hlen, hr] using hcase
      · simp at h
    · simp at h
  · intro h
    simp only [opensWithPlace, Bool.and_eq_true, Bool.or_eq_true, beq_iff_eq] at h
    obtain ⟨hcase, hr⟩ := h
    have hp : ∀ c ∈ w.take 4, isNameChar c = true := fun c hc => hw c (List.mem_of_mem_take hc)
    have hwt : w ++ t = w.take 4 ++ (w.drop 4 ++ t) := by
      rw [← List.append_assoc, List.take_append_drop]
    have hspan : ((spanFolded "hand".toList (w ++ t)).or (spanFolded "deck".toList (w ++ t)))
        = some (w.take 4, w.drop 4 ++ t) := by
      rcases hcase with h4 | h4
      · rw [hwt, spanFolded_append hand_subset hp h4, Option.some_or]
      · have hnone : spanFolded "hand".toList (w ++ t) = none := by
          rw [Option.eq_none_iff_forall_ne_some]
          rintro ⟨p, r⟩ h1
          obtain ⟨q, h2, -, h3⟩ := of_spanFolded_append hand_subset hw ht h1
          have hlen : p.length = 4 := by simpa using congrArg List.length h3
          rw [h2, ← hlen, List.take_left, h3] at h4
          exact absurd h4 (by decide)
        rw [hnone, Option.none_or, hwt, spanFolded_append deck_subset hp h4]
    rw [placeWord?, hspan]
    simp [wordEnds_append ht, hr]

/-- **A location is seen exactly at an `IN` in front of a word that opens with a place.** -/
theorem isSome_location?_append {w g s : List Char} (hw : ∀ c ∈ w, isNameChar c = true)
    (hg : IsGap g) (hne : g ≠ []) (hs : ∀ c ∈ s.head?, isBlank c = false) :
    (location? (w ++ (g ++ s))).isSome = true ↔
      w = "IN".toList ∧ (placeWord? s).isSome = true := by
  have hends : operatorEnds (g ++ s) = true := by
    refine operatorEnds_of_head fun c hc => hg c ?_
    rw [List.head?_append_of_ne_nil _ hne] at hc
    exact List.mem_of_mem_head? hc
  have htake : (g ++ s).takeWhile isBlank = g := takeWhile_append_of_head hg hs
  have hdrop : (g ++ s).dropWhile isBlank = s := dropWhile_append_of_head hg hs
  constructor
  · intro h
    unfold location? at h
    split at h
    · rename_i r heq
      simp only at h
      split at h
      · simp at h
      · rename_i hgap
        have hr : operatorEnds r = true := by
          refine operatorEnds_of_head fun c hc => ?_
          cases r with
          | nil => simp at hc
          | cons d r =>
              obtain rfl : d = c := by simpa using hc
              by_contra hb
              simp [hb] at hgap
        have hin : ∀ c ∈ "IN".toList, isNameChar c = true := List.all_eq_true.1 (by decide)
        obtain ⟨hw', hr'⟩ := split_unique hw (isNameChar_of_operatorEnds hends) hin
          (isNameChar_of_operatorEnds hr) heq
        rw [← hr', hdrop] at h
        exact ⟨hw', by simpa using h⟩
    · simp at h
  · rintro ⟨rfl, h⟩
    show (location? ('I' :: 'N' :: (g ++ s))).isSome = true
    simp [location?, htake, hdrop, hne, h]

/-! ### Reading a name -/

theorem stopsName_of_isBlank {c : Char} (h : isBlank c = true) (s : List Char) :
    stopsName (c :: s) = false := by
  have hfirst : ∀ {d : Char} {r : List Char}, isBlank d = false → c :: s ≠ d :: r := by
    intro d r hd heq
    rw [← (List.cons.inj heq).1, h] at hd
    cases hd
  have ho : operator? (c :: s) = none := by
    unfold operator?
    split
    · rename_i heq
      exact absurd heq (hfirst (by decide))
    · rename_i heq
      exact absurd heq (hfirst (by decide))
    · rfl
  have hl : location? (c :: s) = none := by
    unfold location?
    split
    · rename_i heq
      exact absurd heq (hfirst (by decide))
    · rfl
  simp [stopsName, ho, hl]

theorem spanName_word {w : List Char} (hw : ∀ c ∈ w, isNameChar c = true) (s : List Char) :
    spanName (w ++ s) = (w ++ (spanName s).1, (spanName s).2) := by
  induction w with
  | nil => rfl
  | cons c w ih =>
      have hc := hw c (by simp)
      rw [List.cons_append, spanName, if_neg (by simp [isBlank_of_isNameChar hc]), if_pos hc,
        ih fun d hd => hw d (by simp [hd])]
      rfl

/-- A gap in front of no stop word belongs to the name. -/
theorem spanName_gap {g s : List Char} (hg : IsGap g) (hne : g ≠ []) (h : stopsName s = false) :
    spanName (g ++ s) = (g ++ (spanName s).1, (spanName s).2) := by
  induction g with
  | nil => exact absurd rfl hne
  | cons c g ih =>
      have hc := hg c (by simp)
      have hg' : IsGap g := fun d hd => hg d (by simp [hd])
      have hstop : stopsName (g ++ s) = false := by
        cases g with
        | nil => exact h
        | cons d g => exact stopsName_of_isBlank (hg' d (by simp)) _
      rw [List.cons_append, spanName, if_pos hc, hstop]
      cases g with
      | nil => rfl
      | cons d g => rw [ih hg' (by simp)]; rfl

/-- A name ends in a gap in front of a stop word. -/
theorem spanName_gap_of_stopsName {g s : List Char} (hg : IsGap g) (hne : g ≠ [])
    (h : stopsName s = true) :
    ∃ g' b, spanName (g ++ s) = (g', b :: s) ∧ IsGap g' ∧ isBlank b = true := by
  induction g with
  | nil => exact absurd rfl hne
  | cons c g ih =>
      have hc := hg c (by simp)
      have hg' : IsGap g := fun d hd => hg d (by simp [hd])
      cases g with
      | nil =>
          refine ⟨[], c, ?_, by simp [IsGap], hc⟩
          rw [List.cons_append, spanName, if_pos hc, List.nil_append, if_pos h]
      | cons d g =>
          obtain ⟨g', b, hspan, hgap, hb⟩ := ih hg' (by simp)
          refine ⟨c :: g', b, ?_, ?_, hb⟩
          · rw [List.cons_append, spanName, if_pos hc, List.cons_append,
              stopsName_of_isBlank (hg' d (by simp)), ← List.cons_append, hspan]
            rfl
          · intro x hx
            rcases List.mem_cons.1 hx with rfl | hx
            · exact hc
            · exact hgap x hx

/-- A name does not begin where neither a blank nor a name character stands. -/
theorem spanName_stop {s : List Char} (h : ∀ c ∈ s.head?, isNameChar c = false)
    (hb : ∀ c ∈ s.head?, isBlank c = false) : spanName s = ([], s) := by
  cases s with
  | nil => rfl
  | cons c s => simp [spanName, h c rfl, hb c rfl]

theorem operatorEnds_of_gap {g : List Char} (hg : IsGap g) (hne : g ≠ []) (s : List Char) :
    operatorEnds (g ++ s) = true := by
  obtain ⟨c, g, rfl⟩ := List.exists_cons_of_ne_nil hne
  exact operatorEnds_of_head fun d hd => by
    obtain rfl : c = d := by simpa using hd
    exact hg c List.mem_cons_self

/-- Behind a word a name goes on with a gap at most, or with a gap and the next word. -/
theorem spanName_cases {t : List Char} (ht : ∀ c ∈ t.head?, isNameChar c = false) :
    (IsGap (spanName t).1 ∧ (operatorEnds (spanName t).2 = true → operatorEnds t = true)) ∨
      ∃ g w s, t = g ++ (w ++ s) ∧ IsGap g ∧ g ≠ [] ∧ w ≠ [] ∧ (∀ c ∈ w, isNameChar c = true) ∧
        (∀ c ∈ s.head?, isNameChar c = false) ∧ stopsName (w ++ s) = false ∧
        spanName t = (g ++ (w ++ (spanName s).1), (spanName s).2) := by
  obtain ⟨g, u, rfl, hg, hu⟩ : ∃ g u, t = g ++ u ∧ IsGap g ∧ ∀ c ∈ u.head?, isBlank c = false :=
    ⟨t.takeWhile isBlank, t.dropWhile isBlank, List.takeWhile_append_dropWhile.symm,
      fun c hc => List.mem_takeWhile_imp hc, head?_dropWhile isBlank t⟩
  rcases eq_or_ne g [] with rfl | hne
  · rw [List.nil_append] at ht ⊢
    rw [spanName_stop ht hu]
    exact Or.inl ⟨by simp [IsGap], id⟩
  have hends := operatorEnds_of_gap hg hne u
  rcases Bool.eq_false_or_eq_true (stopsName u) with hstop | hstop
  · obtain ⟨g', b, hspan, hg', -⟩ := spanName_gap_of_stopsName hg hne hstop
    rw [hspan]
    exact Or.inl ⟨hg', fun _ => hends⟩
  · rw [spanName_gap hg hne hstop]
    obtain ⟨w, s, rfl, hw, hs⟩ : ∃ w s, u = w ++ s ∧ (∀ c ∈ w, isNameChar c = true) ∧
        ∀ c ∈ s.head?, isNameChar c = false :=
      ⟨u.takeWhile isNameChar, u.dropWhile isNameChar, List.takeWhile_append_dropWhile.symm,
        fun c hc => List.mem_takeWhile_imp hc, head?_dropWhile isNameChar u⟩
    rcases eq_or_ne w [] with rfl | hwne
    · rw [List.nil_append] at hu ⊢
      rw [spanName_stop hs hu, List.append_nil]
      exact Or.inl ⟨hg, fun _ => hends⟩
    · rw [spanName_word hw]
      exact Or.inr ⟨g, w, s, rfl, hg, hne, hwne, hw, hs, hstop, rfl⟩

/-- A word where no operator is seen is a word of a name, if an operator could end there. -/
theorem isNameWord_of_operator? {w t : List Char} (hne : w ≠ []) (hw : ∀ c ∈ w, isNameChar c = true)
    (ht : operatorEnds t = true) (ho : operator? (w ++ t) = none) : isNameWord w = true := by
  have hnot : ¬(w = "AND".toList ∨ w = "OR".toList) := by
    rw [← isSome_operator?_append hw ht, ho]
    simp
  rw [not_or] at hnot
  exact isNameWord_iff.2 ⟨hne, hw, hnot.1, hnot.2⟩

/-- **What a name token holds.**  A name that begins where no operator does, and is followed by
something that could follow an operator, is a sequence of words none of which is a joint's word, and no
two of which, the first one perhaps excepted, would be taken for a location. -/
theorem spaced_spanName {w t : List Char} (hne : w ≠ []) (hw : ∀ c ∈ w, isNameChar c = true)
    (ht : ∀ c ∈ t.head?, isNameChar c = false) (ho : operator? (w ++ t) = none)
    (hend : operatorEnds (spanName t).2 = true) :
    ∃ ws, Spaced (w :: ws) (w ++ (spanName t).1) ∧ (∀ v ∈ w :: ws, isNameWord v = true) ∧
      (ws.IsChain fun v w => isLocationAt v w = false) ∧
      (location? (w ++ t) = none → (w :: ws).IsChain fun v w => isLocationAt v w = false) ∧
      operatorEnds t = true := by
  have hword := isWord_of_isNameChar hne hw
  rcases spanName_cases ht with ⟨hgap, hends⟩ | ⟨g, v, s, rfl, hg, hgne, hvne, hv, hs, hstop, hspan⟩
  · refine ⟨[], .last hword hgap, ?_, by simp, by simp, hends hend⟩
    simpa using isNameWord_of_operator? hne hw (hends hend) ho
  · have hends := operatorEnds_of_gap hg hgne (v ++ s)
    obtain ⟨hno, hnl⟩ : operator? (v ++ s) = none ∧ location? (v ++ s) = none := by
      simpa [stopsName] using hstop
    rw [hspan] at hend ⊢
    have : s.length < (g ++ (v ++ s)).length := by
      have hpos := List.length_pos_iff.2 hgne
      rw [List.length_append, List.length_append]
      omega
    obtain ⟨ws, hsp, hwords, htail, hchain, hends'⟩ := spaced_spanName hvne hv hs hno hend
    refine ⟨v :: ws, .more hword hg hgne hsp, ?_, hchain hnl, ?_, hends⟩
    · intro x hx
      rcases List.mem_cons.1 hx with rfl | hx
      · exact isNameWord_of_operator? hne hw hends ho
      · exact hwords x hx
    · intro hl
      refine List.isChain_cons_cons.2 ⟨?_, hchain hnl⟩
      have hblank : ∀ c ∈ (v ++ s).head?, isBlank c = false := by
        obtain ⟨c, v, rfl⟩ := List.exists_cons_of_ne_nil hvne
        intro d hd
        obtain rfl : c = d := by simpa using hd
        exact isBlank_of_isNameChar (hv c List.mem_cons_self)
      rw [← Bool.not_eq_true, isLocationAt, Bool.and_eq_true, beq_iff_eq,
        ← isSome_placeWord?_append hv hends', ← isSome_location?_append hw hg hgne hblank, hl]
      simp
termination_by t.length

/-- **A name token's value is a card name.** -/
theorem isCardName_of_spanName {c : Char} {s : List Char} (hc : isNameChar c = true)
    (ho : operator? (c :: s) = none) (hend : operatorEnds (spanName (c :: s)).2 = true) :
    IsCardName (value .name (spanName (c :: s)).1) := by
  have hne : (c :: s).takeWhile isNameChar ≠ [] := by simp [hc]
  have hw : ∀ d ∈ (c :: s).takeWhile isNameChar, isNameChar d = true := fun d hd =>
    List.mem_takeWhile_imp hd
  have ht := head?_dropWhile isNameChar (c :: s)
  have hsplit : (c :: s).takeWhile isNameChar ++ (c :: s).dropWhile isNameChar = c :: s :=
    List.takeWhile_append_dropWhile
  rw [← hsplit] at ho hend ⊢
  rw [spanName_word hw] at hend ⊢
  obtain ⟨ws, hsp, hwords, htail, -, -⟩ := spaced_spanName hne hw ht ho hend
  rw [IsCardName, value, String.toList_ofList, hsp.between_trim_collapse]
  exact ⟨hwords, htail⟩

/-! ### Reading a name back -/

/-- Words, each before one space, in front of a text. -/
def wordsThen (u : List Char) : List (List Char) → List Char
  | [] => u
  | w :: ws => w ++ ' ' :: wordsThen u ws

theorem wordsThen_eq (u : List Char) {ws : List (List Char)} (hne : ws ≠ []) :
    wordsThen u ws = [' '].intercalate ws ++ ' ' :: u := by
  induction ws with
  | nil => exact absurd rfl hne
  | cons w ws ih =>
      cases ws with
      | nil => simp [wordsThen, List.intercalate, List.intersperse]
      | cons v vs =>
          rw [wordsThen, ih (by simp)]
          simp [List.intercalate, List.intersperse]

section

variable {u : List Char} (hstop : stopsName u = true) (hplace : placeWord? u = none)
  (hhead : ∀ c ∈ u.head?, isBlank c = false)

include hplace hhead in
/-- No name stops before the words of a name. -/
theorem stopsName_wordsThen {w : List Char} {ws : List (List Char)}
    (hws : ∀ v ∈ w :: ws, isNameWord v = true)
    (hchain : (w :: ws).IsChain fun v w => isLocationAt v w = false) :
    stopsName (wordsThen u (w :: ws)) = false := by
  have hgap : IsGap [' '] := by simp [IsGap]; decide
  obtain ⟨-, hw, hand, hor⟩ := isNameWord_iff.1 (hws w (by simp))
  have ho : (operator? (wordsThen u (w :: ws))).isSome = false := by
    rw [← Bool.not_eq_true, wordsThen, isSome_operator?_append hw (by rfl)]
    exact not_or.2 ⟨hand, hor⟩
  have hrest : ∀ c ∈ (wordsThen u ws).head?, isBlank c = false := by
    cases ws with
    | nil => exact hhead
    | cons v vs =>
        obtain ⟨hne, hv, -⟩ := isNameWord_iff.1 (hws v (by simp))
        rw [wordsThen, List.head?_append_of_ne_nil _ hne]
        exact fun c hc => isBlank_of_isNameChar (hv c (List.mem_of_mem_head? hc))
  have hl : (location? (wordsThen u (w :: ws))).isSome = false := by
    have hiff := isSome_location?_append hw hgap (by simp) hrest
    rw [List.singleton_append] at hiff
    rw [← Bool.not_eq_true, wordsThen, hiff]
    rintro ⟨rfl, h⟩
    cases ws with
    | nil => simp [wordsThen, hplace] at h
    | cons v vs =>
        obtain ⟨-, hv, -⟩ := isNameWord_iff.1 (hws v (by simp))
        rw [wordsThen, isSome_placeWord?_append hv (by rfl)] at h
        have := (List.isChain_cons_cons.1 hchain).1
        simp [isLocationAt, h] at this
  rw [stopsName, ho, hl, Bool.or_false]

include hstop hplace hhead in
theorem spanName_wordsThen {w : List Char} {ws : List (List Char)}
    (hws : ∀ v ∈ w :: ws, isNameWord v = true)
    (hchain : ws.IsChain fun v w => isLocationAt v w = false) :
    spanName (wordsThen u (w :: ws)) = ([' '].intercalate (w :: ws), ' ' :: u) := by
  have hspace : isBlank ' ' = true := by decide
  induction ws generalizing w with
  | nil =>
      obtain ⟨-, hw, -⟩ := isNameWord_iff.1 (hws w (by simp))
      rw [wordsThen, wordsThen, spanName_word hw, spanName, if_pos hspace, if_pos hstop]
      simp [List.intercalate, List.intersperse]
  | cons v vs ih =>
      obtain ⟨-, hw, -⟩ := isNameWord_iff.1 (hws w (by simp))
      have hvs : ∀ x ∈ v :: vs, isNameWord x = true := fun x hx => hws x (List.mem_cons_of_mem _ hx)
      have hnot := stopsName_wordsThen hplace hhead hvs hchain
      rw [wordsThen, spanName_word hw, spanName, if_pos hspace, hnot,
        ih hvs (List.isChain_cons.1 hchain).2]
      simp [List.intercalate, List.intersperse]

include hstop hplace hhead in
/-- **A card name is read back whole** in front of a space and something at which a name stops. -/
theorem spanName_of_isCardName {name : String} (h : IsCardName name) :
    spanName (name.toList ++ ' ' :: u) = (name.toList, ' ' :: u) := by
  have hname := intercalate_between ' ' name.toList
  obtain ⟨w, ws, hsplit⟩ := List.exists_cons_of_ne_nil (between_ne_nil ' ' name.toList)
  rw [IsCardName, hsplit] at h
  rw [hsplit] at hname
  rw [← hname, ← wordsThen_eq u (by simp)]
  exact spanName_wordsThen hstop hplace hhead h.1 h.2

end

end Lexeme

namespace IsCardName

variable {name : String}

/-- A card name begins with a whole word, which no operator is. -/
theorem exists_word (h : IsCardName name) (u : List Char) :
    ∃ w t, name.toList ++ ' ' :: u = w ++ t ∧ isNameWord w = true ∧
      Lexeme.operatorEnds t = true := by
  have hname := intercalate_between ' ' name.toList
  obtain ⟨w, ws, hsplit⟩ := List.exists_cons_of_ne_nil (between_ne_nil ' ' name.toList)
  rw [hsplit] at hname
  have hw : isNameWord w = true := h.1 w (by simp [hsplit])
  refine ⟨w, ' ' :: Lexeme.wordsThen u ws, ?_, hw, by rfl⟩
  rw [← hname, ← Lexeme.wordsThen_eq u (by simp), Lexeme.wordsThen]

theorem operator?_append (h : IsCardName name) (u : List Char) :
    Lexeme.operator? (name.toList ++ ' ' :: u) = none := by
  obtain ⟨w, t, hsplit, hw, ht⟩ := h.exists_word u
  obtain ⟨-, hchars, hand, hor⟩ := isNameWord_iff.1 hw
  rw [hsplit, ← Option.not_isSome_iff_eq_none, Lexeme.isSome_operator?_append hchars ht]
  exact not_or.2 ⟨hand, hor⟩

theorem exists_cons (h : IsCardName name) :
    ∃ c s, name.toList = c :: s ∧ isNameChar c = true := by
  obtain ⟨w, t, hsplit, hw, -⟩ := h.exists_word []
  obtain ⟨hne, hchars, -⟩ := isNameWord_iff.1 hw
  obtain ⟨c, w, rfl⟩ := List.exists_cons_of_ne_nil hne
  have hc := hchars c (by simp)
  cases hn : name.toList with
  | nil =>
      rw [hn] at hsplit
      obtain rfl : ' ' = c := (List.cons.inj hsplit).1
      exact absurd hc (by decide)
  | cons d s =>
      rw [hn] at hsplit
      obtain rfl : d = c := (List.cons.inj hsplit).1
      exact ⟨d, s, rfl, hc⟩

/-- A card name is its own value. -/
theorem value_name (h : IsCardName name) : Lexeme.value .name name.toList = name := by
  have hname := intercalate_between ' ' name.toList
  have hwords : ∀ w ∈ between ' ' name.toList, IsWord w := fun w hw =>
    have hw := isNameWord_iff.1 (h.1 w hw)
    isWord_of_isNameChar hw.1 hw.2.1
  have hspaced := spaced_intercalate (between_ne_nil ' ' name.toList) hwords
  rw [hname] at hspaced
  rw [Lexeme.value, hspaced.trim_collapse, hname, String.ofList_toList]

end IsCardName

end OpeningHand
