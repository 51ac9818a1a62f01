import OpeningHand.Proofs.Condition.Grammar

/-!
# Tokens that a text is cut into

A scan cuts a text into well-formed tokens, or stops at a character that no lexeme begins with. There is one exception.
The word for a place may be written in any case, and to a comparison that ignores case the Kelvin sign is a `k`; but the
sign has no other capital than itself. So a location whose last letter is the Kelvin sign is cut out like any other, and
its value, `DEC\u212A`, is the word for no place (`Token.of_mem_scan`).
-/

namespace OpeningHand

open Text

namespace Lexeme

variable {s lex r : List Char} {k : TokenKind}

theorem isWellFormed_of_paren? (h : paren? s = some (k, lex, r)) (p : Int) :
    Token.IsWellFormed ⟨k, value k lex, p⟩ := by
  obtain ⟨rfl, -, hparen, -⟩ := (takes_paren _ _ _ _).1 h
  rcases hparen with rfl | rfl
  · exact Or.inl rfl
  · exact Or.inr rfl

theorem isWellFormed_of_operator? (h : operator? s = some (k, lex, r)) (p : Int) :
    Token.IsWellFormed ⟨k, value k lex, p⟩ := by
  obtain ⟨rfl, -, ⟨j, rfl⟩, -⟩ := (takes_operator _ _ _ _).1 h
  exact ⟨j, String.ofList_toList⟩

theorem isWellFormed_of_number? (h : number? s = some (k, lex, r)) (p : Int) :
    Token.IsWellFormed ⟨k, value k lex, p⟩ := by
  obtain ⟨rfl, -, ⟨ds, o, rfl, hne, hds⟩, -⟩ := (takes_number _ _ _ _).1 h
  exact ⟨ofDigits ds, o, rfl, ds, hne, hds, rfl, String.toList_ofList⟩

/-- A name begins with what is no blank, so trimming leaves something of it. -/
theorem isWellFormed_of_name? (h : name? s = some (k, lex, r)) (p : Int) :
    Token.IsWellFormed ⟨k, value k lex, p⟩ := by
  cases s with
  | nil => cases h
  | cons c s =>
      obtain ⟨rfl, hc, rfl, rfl⟩ := of_name? h
      have hblank := isBlank_of_isNameChar hc
      have hspan : (spanName (c :: s)).1 = c :: (spanName s).1 := by
        rw [spanName, if_neg (by simp [hblank]), if_pos hc]
      intro hempty
      have htrim : trimRight (trimLeft (collapse (spanName (c :: s)).1)) = [] := String.ofList_eq_empty_iff.1 hempty
      rw [hspan, collapse_cons_of_not_isBlank hblank, trimLeft, List.dropWhile_cons_of_neg (by simp [hblank]),
        trimRight_cons] at htrim
      split at htrim
      · rw [if_neg (by simp [hblank])] at htrim
        cases htrim
      · cases htrim

/-! ### Words for places -/

/-- A word of four letters in any case. -/
theorem FoldsTo.four {l₁ l₂ l₃ l₄ : Char} {w : List Char} (h : FoldsTo [l₁, l₂, l₃, l₄] w) :
    ∃ c₁ c₂ c₃ c₄, w = [c₁, c₂, c₃, c₄] ∧ foldsTo l₁ c₁ = true ∧ foldsTo l₂ c₂ = true ∧ foldsTo l₃ c₃ = true ∧
      foldsTo l₄ c₄ = true := by
  obtain ⟨c₁, _, h₁, htail₁, rfl⟩ := List.forall₂_cons_left_iff.1 h
  obtain ⟨c₂, _, h₂, htail₂, rfl⟩ := List.forall₂_cons_left_iff.1 htail₁
  obtain ⟨c₃, _, h₃, htail₃, rfl⟩ := List.forall₂_cons_left_iff.1 htail₂
  obtain ⟨c₄, _, h₄, htail₄, rfl⟩ := List.forall₂_cons_left_iff.1 htail₃
  obtain rfl := List.forall₂_nil_left_iff.1 htail₄
  exact ⟨c₁, c₂, c₃, c₄, rfl, h₁, h₂, h₃, h₄⟩

/-- What folds to a letter has the same capital, but for the Kelvin sign. -/
theorem toUpper_of_foldsTo {l c : Char} (hl : l ∈ placeLetters) (h : foldsTo l c = true) :
    c.toUpper = l.toUpper ∨ (l = 'k' ∧ c = '\u212A') := by
  have htwice : placeLetters.all (fun l => l.toUpper.toUpper == l.toUpper) = true := by decide +kernel
  simp only [foldsTo, Bool.or_eq_true, Bool.and_eq_true, beq_iff_eq] at h
  rcases h with (rfl | rfl) | hkelvin
  · exact Or.inl rfl
  · exact Or.inl (eq_of_beq (List.all_eq_true.1 htwice l hl))
  · exact Or.inr hkelvin

/-- A word for a place has its capitals, or it ends in the Kelvin sign. -/
theorem IsPlaceWord.map_toUpper {w : List Char} (h : IsPlaceWord w) :
    (∃ p : Place, w.map Char.toUpper = p.word.toList) ∨
      (w.map Char.toUpper = "DEC\u212A".toList ∧ '\u212A' ∈ w) := by
  have hplain : ∀ l ∈ placeLetters, l ≠ 'k' → ∀ c, foldsTo l c = true → c.toUpper = l.toUpper :=
    fun l hl hk c hc => (toUpper_of_foldsTo hl hc).resolve_right fun hkelvin => hk hkelvin.1
  rcases h with hhand | hdeck
  · have hword : "hand".toList = ['h', 'a', 'n', 'd'] := by decide
    rw [hword] at hhand
    obtain ⟨c₁, c₂, c₃, c₄, rfl, h₁, h₂, h₃, h₄⟩ := hhand.four
    left
    refine ⟨.hand, ?_⟩
    simp only [List.map_cons, List.map_nil, hplain 'h' (by decide) (by decide) _ h₁,
      hplain 'a' (by decide) (by decide) _ h₂, hplain 'n' (by decide) (by decide) _ h₃,
      hplain 'd' (by decide) (by decide) _ h₄]
    decide
  · have hword : "deck".toList = ['d', 'e', 'c', 'k'] := by decide
    rw [hword] at hdeck
    obtain ⟨c₁, c₂, c₃, c₄, rfl, h₁, h₂, h₃, h₄⟩ := hdeck.four
    simp only [List.map_cons, List.map_nil, hplain 'd' (by decide) (by decide) _ h₁,
      hplain 'e' (by decide) (by decide) _ h₂, hplain 'c' (by decide) (by decide) _ h₃]
    rcases toUpper_of_foldsTo (by decide) h₄ with hupper | ⟨-, rfl⟩
    · rw [hupper]
      exact Or.inl ⟨.deck, by decide⟩
    · exact Or.inr ⟨by decide, by simp⟩

/-- A location has the word for a place as its value, or the word that ends in the Kelvin sign. -/
theorem of_location? (h : location? s = some (k, lex, r)) (p : Int) :
    Token.IsWellFormed ⟨k, value k lex, p⟩ ∨
      (k = .location ∧ value k lex = "DEC\u212A" ∧ '\u212A' ∈ lex) := by
  obtain ⟨rfl, -, ⟨hgap, -, hplace⟩, -⟩ := (takes_location _ _ _ _).1 h
  rename_i g w
  rw [value_location_append hgap hplace.isWord]
  rcases hplace.map_toUpper with ⟨q, hq⟩ | ⟨hkelvin, hmem⟩
  · exact Or.inl ⟨q, by rw [hq, String.ofList_toList]⟩
  · refine Or.inr ⟨rfl, by rw [hkelvin, String.ofList_toList], ?_⟩
    exact List.mem_append_right _ (List.mem_append_right _ hmem)

/-- **The first lexeme of a text** makes a well-formed token, or a location that ends in the Kelvin sign. -/
theorem of_first? {b : Bool} (h : first? b s = some (k, lex, r)) (p : Int) :
    Token.IsWellFormed ⟨k, value k lex, p⟩ ∨
      (k = .location ∧ value k lex = "DEC\u212A" ∧ '\u212A' ∈ lex) := by
  rcases reader_of_first? h with h | h | h | h | h
  · exact Or.inl (isWellFormed_of_paren? h p)
  · exact Or.inl (isWellFormed_of_operator? h p)
  · exact Or.inl (isWellFormed_of_number? h p)
  · exact of_location? h p
  · exact Or.inl (isWellFormed_of_name? h p)

end Lexeme

namespace Token

variable {b : Bool} {p : Nat} {s : List Char} {ts : List Token}

/-- **What a scan yields:** well-formed tokens, and locations that end in the Kelvin sign if the text holds one. -/
theorem of_mem_scan (h : scan b p s = .ok ts) :
    ∀ t ∈ ts, t.IsWellFormed ∨ (t.shape = (.location, "DEC\u212A") ∧ '\u212A' ∈ s) := by
  induction b, p, s using scan.induct generalizing ts with
  | case1 b p =>
      rw [scan_nil] at h
      obtain rfl := Except.ok.inj h
      exact List.forall_mem_nil _
  | case2 b p c s hb ih =>
      rw [scan_blank hb] at h
      exact fun t ht => (ih h t ht).imp_right fun hkelvin => ⟨hkelvin.1, List.mem_cons_of_mem c hkelvin.2⟩
  | case3 b p c s hb hnone =>
      rw [scan_none (Bool.eq_false_iff.2 hb) hnone] at h
      cases h
  | case4 b p c s hb k lex r hfirst ih =>
      rw [scan_some (Bool.eq_false_iff.2 hb) hfirst] at h
      obtain ⟨ts, hscan, rfl⟩ := map_eq_ok.1 h
      rw [(Lexeme.first?_eq hfirst).1]
      refine List.forall_mem_cons.2 ⟨?_, fun t ht => ?_⟩
      · rcases Lexeme.of_first? hfirst p with hwf | ⟨hk, hvalue, hmem⟩
        · exact Or.inl hwf
        · exact Or.inr ⟨Prod.ext hk hvalue, List.mem_append_left _ hmem⟩
      · exact (ih hscan t ht).imp_right fun hkelvin => ⟨hkelvin.1, List.mem_append_right _ hkelvin.2⟩

/-- A scan that stops does so at a character that no lexeme begins with. -/
theorem grammar_of_scan : Condition.OnlyFaults (·.kind = .grammar) (scan b p s) := by
  induction b, p, s using scan.induct with
  | case1 b p =>
      rw [scan_nil]
      exact .ok _
  | case2 b p c s hb ih =>
      rw [scan_blank hb]
      exact ih
  | case3 b p c s hb hnone =>
      rw [scan_none (Bool.eq_false_iff.2 hb) hnone]
      exact .error rfl
  | case4 b p c s hb k lex r hfirst ih =>
      rw [scan_some (Bool.eq_false_iff.2 hb) hfirst]
      exact Condition.OnlyFaults.map_iff.2 ih

end Token

end OpeningHand
