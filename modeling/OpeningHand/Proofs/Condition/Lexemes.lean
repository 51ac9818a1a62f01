import OpeningHand.Proofs.Condition.Writable
import Mathlib.Data.List.Forall2
import Mathlib.Data.Option.Defs

/-!
# The forms of lexemes

A reader of lexemes takes one off the front of a text exactly if the text begins with what has the form of such a lexeme
and goes on as it must (`Lexeme.Takes`): behind an operator comes a blank, a parenthesis or the end, behind a count a
blank, and behind a location the end of a word. Names are different, since they are as long as they can be.

So of two texts one can be cut as the other if their fronts have the same forms and what is behind goes on alike. This is
how two scans are compared, reader by reader (`Lexeme.Takes.rel`, `Lexeme.rel_first?`).
-/

namespace OpeningHand.Lexeme

open Text

variable {s t lex r w : List Char} {k : TokenKind}

/-- A reader takes exactly what has some form, in front of texts that go on in some way. -/
def Takes (f : List Char → Option Lexeme) (k : TokenKind) (Form Next : List Char → Prop) : Prop :=
  ∀ s k' lex r, f s = some (k', lex, r) ↔ k' = k ∧ s = lex ++ r ∧ Form lex ∧ Next r

/-! ### Parentheses and operators -/

/-- One parenthesis. -/
def IsParen (lex : List Char) : Prop := lex = ['('] ∨ lex = [')']

theorem takes_paren : Takes paren? .paren IsParen fun _ => True := by
  intro s k lex r
  constructor
  · intro h
    cases s with
    | nil => cases h
    | cons c s =>
        simp only [paren?] at h
        split at h
        · rename_i hc
          obtain ⟨rfl, rfl, rfl⟩ := by simpa using h
          exact ⟨rfl, rfl, by simpa [IsParen] using hc, trivial⟩
        · cases h
  · rintro ⟨rfl, rfl, rfl | rfl, -⟩ <;> rfl

theorem IsParen.isWord (h : IsParen lex) : IsWord lex := by
  rcases h with rfl | rfl <;> exact ⟨by decide, List.forall_mem_singleton.2 (by decide)⟩

/-- The word of a joint. -/
def IsJointWord (lex : List Char) : Prop := ∃ j : Joint, lex = j.word.toList

theorem takes_operator : Takes operator? .operator IsJointWord (operatorEnds · = true) := by
  intro s k lex r
  constructor
  · intro h
    obtain ⟨hs, -⟩ := operator?_eq h
    unfold operator? at h
    split at h
    · split at h
      · rename_i hends
        obtain ⟨rfl, rfl, rfl⟩ := by simpa using h
        exact ⟨rfl, hs, ⟨.and, by decide⟩, hends⟩
      · cases h
    · split at h
      · rename_i hends
        obtain ⟨rfl, rfl, rfl⟩ := by simpa using h
        exact ⟨rfl, hs, ⟨.or, by decide⟩, hends⟩
      · cases h
    · cases h
  · rintro ⟨rfl, rfl, ⟨j, rfl⟩, hends⟩
    cases j <;> simp [operator?, Joint.word, hends]

theorem IsJointWord.isWord (h : IsJointWord lex) : IsWord lex := by
  obtain ⟨j, rfl⟩ := h
  cases j <;> exact isWord_of_isNameChar (by decide) (List.all_eq_true.1 (by decide))

/-! ### Counts -/

/-- Digits and the sign of a comparison. -/
def IsCount (lex : List Char) : Prop :=
  ∃ (ds : List Char) (o : Comparison), lex = ds ++ o.sign.toList ∧ ds ≠ [] ∧ ∀ c ∈ ds, isDigit c = true

theorem isBlank_of_blankNext (h : blankNext r = true) : ∀ c ∈ r.head?, isBlank c = true := by
  cases r with
  | nil => cases h
  | cons c r =>
      intro d hd
      obtain rfl := Option.some.inj hd
      exact h

theorem blankNext_of_number? (h : number? s = some (k, lex, r)) : blankNext r = true := by
  simp only [number?] at h
  split at h
  · cases h
  · split at h
    · cases h
    · split at h
      · rename_i hsign
        obtain ⟨rfl, rfl, rfl⟩ := by simpa using h
        exact (Bool.and_eq_true_iff.1 hsign).2
      · split at h
        · rename_i hr _ hblank
          simp only [Option.some.injEq, Prod.mk.injEq] at h
          obtain ⟨rfl, rfl, rfl⟩ := h
          rw [hr]
          exact hblank
        · cases h

/-- Digits and a sign in front of a blank are a count. -/
theorem number?_append {ds : List Char} (hne : ds ≠ []) (hds : ∀ c ∈ ds, isDigit c = true) (o : Comparison)
    (hr : blankNext r = true) :
    number? (ds ++ (o.sign.toList ++ r)) = some (.number, ds ++ o.sign.toList, r) := by
  have hblank := isBlank_of_blankNext hr
  have hnext : ∀ c ∈ (o.sign.toList ++ r).head?, isDigit c = false := by
    cases o with
    | atLeast | atMost => simp [Comparison.sign]; decide
    | exactly => exact fun c hc => isDigit_of_isBlank (hblank c hc)
  simp only [number?, takeWhile_append_of_head hds hnext, dropWhile_append_of_head hds hnext, List.isEmpty_iff, hne,
    if_false]
  cases o with
  | atLeast | atMost => simp [Comparison.sign, hr]
  | exactly =>
      cases r with
      | nil => cases hr
      | cons c r =>
          have hc := hblank c rfl
          have hnosign : (c == '+' || c == '-') = false := by
            rw [← Bool.not_eq_true, Bool.or_eq_true, beq_iff_eq, beq_iff_eq]
            rintro (rfl | rfl) <;> exact absurd hc (by decide)
          simp [Comparison.sign, hnosign, hc]

theorem takes_number : Takes number? .number IsCount (blankNext · = true) := by
  intro s k lex r
  constructor
  · intro h
    obtain ⟨rfl, hcount⟩ := of_number? h
    exact ⟨rfl, (number?_eq h).1, hcount, blankNext_of_number? h⟩
  · rintro ⟨rfl, rfl, ⟨ds, o, rfl, hne, hds⟩, hr⟩
    rw [List.append_assoc]
    exact number?_append hne hds o hr

theorem IsCount.isWord (h : IsCount lex) : IsWord lex := by
  obtain ⟨ds, o, rfl, hne, hds⟩ := h
  refine ⟨by simp [hne], fun c hc => ?_⟩
  rcases List.mem_append.1 hc with hc | hc
  · rw [← Bool.not_eq_true]
    intro hblank
    have hdigit := hds c hc
    rw [isDigit_of_isBlank hblank] at hdigit
    cases hdigit
  · rcases o.mem_sign c hc with rfl | rfl <;> decide

/-! ### Locations -/

/-- The letters fold to the letters of the word, one by one. -/
def FoldsTo (word w : List Char) : Prop := List.Forall₂ (fun l c => foldsTo l c = true) word w

theorem spanFolded_eq_some_iff {word : List Char} :
    spanFolded word s = some (w, r) ↔ s = w ++ r ∧ FoldsTo word w := by
  induction word generalizing s w with
  | nil =>
      constructor
      · intro h
        obtain ⟨rfl, rfl⟩ := Prod.mk.inj (Option.some.inj h)
        exact ⟨rfl, .nil⟩
      · rintro ⟨rfl, ⟨⟩⟩
        rfl
  | cons l word ih =>
      cases s with
      | nil =>
          refine ⟨nofun, ?_⟩
          rintro ⟨hnil, hw⟩
          obtain ⟨rfl, -⟩ := List.append_eq_nil_iff.1 hnil.symm
          cases hw
      | cons c s =>
          rw [spanFolded]
          constructor
          · intro h
            split at h
            · rename_i hc
              obtain ⟨⟨v, r'⟩, hv, heq⟩ := Option.map_eq_some_iff.1 h
              obtain ⟨rfl, rfl⟩ := Prod.mk.inj heq
              obtain ⟨rfl, hfold⟩ := ih.1 hv
              exact ⟨rfl, .cons hc hfold⟩
            · cases h
          · rintro ⟨hs, hw⟩
            cases hw with
            | @cons _ d _ v hd hfold =>
                obtain ⟨rfl, htail⟩ := List.cons.inj hs
                have hv : spanFolded word s = some (v, r) := ih.2 ⟨htail, hfold⟩
                rw [if_pos hd, hv]
                rfl

/-- The word for a place, in any case. -/
def IsPlaceWord (w : List Char) : Prop := FoldsTo "hand".toList w ∨ FoldsTo "deck".toList w

theorem isPlaceWord_word (p : Place) : IsPlaceWord p.word.toList := by
  cases p
  · exact Or.inl (by unfold FoldsTo; decide)
  · exact Or.inr (by unfold FoldsTo; decide)

theorem IsPlaceWord.length_eq (h : IsPlaceWord w) : w.length = 4 := by
  rcases h with h | h <;> exact h.length_eq.symm

/-- No character of the word ends an operator. -/
theorem IsPlaceWord.operatorEnds_eq_false (h : IsPlaceWord w) : ∀ c ∈ w, operatorEnds [c] = false := by
  have hfold : ∀ {word}, FoldsTo word w → word ⊆ placeLetters → ∀ c ∈ w, operatorEnds [c] = false := by
    intro word hw hsub c hc
    obtain ⟨i, hi, rfl⟩ := List.mem_iff_getElem.1 hc
    have hil : i < word.length := by rw [hw.length_eq]; exact hi
    have hc := hw.get hil hi
    rw [← Bool.not_eq_true]
    intro hends
    rw [List.get_eq_getElem, List.get_eq_getElem, foldsTo_of_operatorEnds (hsub (List.getElem_mem hil)) hends] at hc
    cases hc
  exact h.elim (hfold · hand_subset) (hfold · deck_subset)

theorem IsPlaceWord.isWord (h : IsPlaceWord w) : IsWord w := by
  refine ⟨List.ne_nil_of_length_pos (by rw [h.length_eq]; decide), fun c hc => ?_⟩
  have hends := h.operatorEnds_eq_false c hc
  simp only [operatorEnds, Bool.or_eq_false_iff] at hends
  exact hends.1.1

/-- **The word for a place is read** where one stands as a whole word. -/
theorem placeWord?_eq_some_iff :
    placeWord? s = some (w, r) ↔ s = w ++ r ∧ IsPlaceWord w ∧ wordEnds r = true := by
  have hspan : (spanFolded "hand".toList s).or (spanFolded "deck".toList s) = some (w, r) ↔
      s = w ++ r ∧ IsPlaceWord w := by
    rw [Option.or_eq_some_iff, spanFolded_eq_some_iff, spanFolded_eq_some_iff]
    constructor
    · rintro (⟨hs, hhand⟩ | ⟨-, hs, hdeck⟩)
      · exact ⟨hs, Or.inl hhand⟩
      · exact ⟨hs, Or.inr hdeck⟩
    · rintro ⟨hs, hplace⟩
      cases hhand : spanFolded "hand".toList s with
      | none =>
          refine Or.inr ⟨rfl, hs, hplace.resolve_left fun h => ?_⟩
          rw [spanFolded_eq_some_iff.2 ⟨hs, h⟩] at hhand
          cases hhand
      | some p =>
          -- both words have four letters, so the one that is found is this one
          obtain ⟨v, r'⟩ := p
          obtain ⟨hs', hv⟩ := spanFolded_eq_some_iff.1 hhand
          have hlen : v.length = w.length := by rw [hplace.length_eq, IsPlaceWord.length_eq (Or.inl hv)]
          obtain ⟨rfl, rfl⟩ := List.append_inj (hs'.symm.trans hs) hlen
          exact Or.inl ⟨hs, hv⟩
  unfold placeWord?
  constructor
  · intro h
    split at h
    · rename_i hw
      split at h
      · rename_i hends
        obtain ⟨rfl, rfl⟩ := Prod.mk.inj (Option.some.inj h)
        obtain ⟨hs, hplace⟩ := hspan.1 hw
        exact ⟨hs, hplace, hends⟩
      · cases h
    · cases h
  · rintro ⟨hs, hplace, hends⟩
    rw [hspan.2 ⟨hs, hplace⟩]
    simp [hends]

theorem isWord_in : IsWord "IN".toList := isWord_of_isNameChar (by decide) (List.all_eq_true.1 (by decide))

/-- A location: `IN`, a gap, and the word for a place. -/
inductive IsLocation : List Char → Prop
  | mk {g w : List Char} (gap : IsGap g) (ne : g ≠ []) (place : IsPlaceWord w) :
      IsLocation ("IN".toList ++ (g ++ w))

theorem takes_location : Takes location? .location IsLocation (wordEnds · = true) := by
  intro s k lex r
  constructor
  · intro h
    obtain ⟨hs, -⟩ := location?_eq h
    unfold location? at h
    split at h
    · rename_i u
      dsimp only at h
      split at h
      · cases h
      · rename_i hgap
        obtain ⟨⟨w, r'⟩, hw, heq⟩ := Option.map_eq_some_iff.1 h
        obtain ⟨rfl, rfl, rfl⟩ : k = .location ∧ lex = 'I' :: 'N' :: (u.takeWhile isBlank ++ w) ∧ r = r' := by
          simpa [eq_comm] using heq
        obtain ⟨-, hplace, hends⟩ := placeWord?_eq_some_iff.1 hw
        exact ⟨rfl, hs, .mk (fun c hc => List.mem_takeWhile_imp hc) (by simpa using hgap) hplace, hends⟩
    · cases h
  · rintro ⟨rfl, rfl, ⟨hgap, hne, hplace⟩, hends⟩
    rename_i g w
    have hhead : ∀ c ∈ (w ++ r).head?, isBlank c = false := fun c hc =>
      hplace.isWord.2 c (List.mem_of_mem_head? (by rwa [List.head?_append_of_ne_nil _ hplace.isWord.1] at hc))
    show location? ('I' :: 'N' :: ((g ++ w) ++ r)) = some (.location, 'I' :: 'N' :: (g ++ w), r)
    rw [List.append_assoc]
    simp [location?, takeWhile_append_of_head hgap hhead, dropWhile_append_of_head hgap hhead, hne,
      placeWord?_eq_some_iff.2 ⟨rfl, hplace, hends⟩]

/-- The value of a location is its word in capitals. -/
theorem value_location_append {g : List Char} (hg : IsGap g) (hw : IsWord w) :
    value .location ("IN".toList ++ (g ++ w)) = String.ofList (w.map Char.toUpper) := by
  have hhead : ∀ c ∈ w.head?, isBlank c = false := fun c hc => hw.2 c (List.mem_of_mem_head? hc)
  show String.ofList (((g ++ w).dropWhile isBlank).map Char.toUpper) = _
  rw [dropWhile_append_of_head hg hhead]

/-- The first lexeme is what one of the readers takes. -/
theorem reader_of_first? {b : Bool} {x : Lexeme} (h : first? b s = some x) :
    paren? s = some x ∨ operator? s = some x ∨ number? s = some x ∨ location? s = some x ∨ name? s = some x := by
  unfold first? at h
  rcases Option.or_eq_some_iff.1 h with h | ⟨-, h⟩
  · exact Or.inl h
  rcases Option.or_eq_some_iff.1 h with h | ⟨-, h⟩
  · exact Or.inr (Or.inl h)
  rcases Option.or_eq_some_iff.1 h with h | ⟨-, h⟩
  · split at h
    · cases h
    · rcases Option.or_eq_some_iff.1 h with h | ⟨-, h⟩
      · exact Or.inr (Or.inr (Or.inl h))
      · exact Or.inr (Or.inr (Or.inr (Or.inl h)))
  · exact Or.inr (Or.inr (Or.inr (Or.inr h)))

/-! ### Lexemes of two texts -/

/-- Lexemes of one kind and one value, with related texts behind them. -/
inductive Alike (R : List Char → List Char → Prop) : Lexeme → Lexeme → Prop
  | mk {k : TokenKind} {lex r lex' r' : List Char} (values : value k lex = value k lex') (rest : R r r') :
      Alike R (k, lex, r) (k, lex', r')

variable {R : List Char → List Char → Prop}

theorem rel_or {x x' y y' : Option Lexeme} (h : Option.Rel (Alike R) x x') (h' : Option.Rel (Alike R) y y') :
    Option.Rel (Alike R) (x.or y) (x'.or y') := by
  cases h with
  | none => exact h'
  | some h => exact .some h

theorem isSome_eq_of_rel {x x' : Option Lexeme} (h : Option.Rel (Alike R) x x') : x.isSome = x'.isSome := by
  cases h <;> rfl

/-- **A reader takes alike lexemes off two texts** if what it can take off either of them it can take off the other. -/
theorem Takes.rel {f : List Char → Option Lexeme} {Form Next : List Char → Prop} (hf : Takes f k Form Next)
    (there : ∀ {lex r}, s = lex ++ r → Form lex → Next r →
      ∃ lex' r', t = lex' ++ r' ∧ Form lex' ∧ Next r' ∧ value k lex = value k lex' ∧ R r r')
    (back : ∀ {lex r}, t = lex ++ r → Form lex → Next r → ∃ lex' r', s = lex' ++ r' ∧ Form lex' ∧ Next r') :
    Option.Rel (Alike R) (f s) (f t) := by
  cases hs : f s with
  | some x =>
      obtain ⟨k', lex, r⟩ := x
      obtain ⟨rfl, happend, hform, hnext⟩ := (hf _ _ _ _).1 hs
      obtain ⟨lex', r', ht, hform', hnext', hvalue, hrest⟩ := there happend hform hnext
      rw [(hf _ _ _ _).2 ⟨rfl, ht, hform', hnext'⟩]
      exact .some ⟨hvalue, hrest⟩
  | none =>
      cases ht : f t with
      | none => exact .none
      | some x =>
          obtain ⟨k', lex, r⟩ := x
          obtain ⟨-, happend, hform, hnext⟩ := (hf _ _ _ _).1 ht
          obtain ⟨lex', r', hs', hform', hnext'⟩ := back happend hform hnext
          rw [(hf _ _ _ _).2 ⟨rfl, hs', hform', hnext'⟩] at hs
          cases hs

/-- A name stops at both texts or at neither. -/
theorem stopsName_eq_of_rel (hoperator : Option.Rel (Alike R) (operator? s) (operator? t))
    (hlocation : Option.Rel (Alike R) (location? s) (location? t)) : stopsName s = stopsName t := by
  rw [stopsName, stopsName, isSome_eq_of_rel hoperator, isSome_eq_of_rel hlocation]

/-- The first lexemes are alike if those of each kind are. -/
theorem rel_first? (hparen : Option.Rel (Alike R) (paren? s) (paren? t))
    (hoperator : Option.Rel (Alike R) (operator? s) (operator? t))
    (hnumber : Option.Rel (Alike R) (number? s) (number? t))
    (hlocation : Option.Rel (Alike R) (location? s) (location? t)) (hname : Option.Rel (Alike R) (name? s) (name? t))
    (b : Bool) : Option.Rel (Alike R) (first? b s) (first? b t) := by
  refine rel_or hparen (rel_or hoperator (rel_or ?_ hname))
  cases b with
  | true => exact .none
  | false => exact rel_or hnumber hlocation

end OpeningHand.Lexeme
