import OpeningHand.Condition.OfTokens
import OpeningHand.Proofs.Condition.Name
import OpeningHand.Proofs.Number.Digits

/-!
# Conditions that a text can write

A text writes only conditions whose counts are not negative, whose names are card names, and whose
right sides are leaves or stand in parentheses (`IsWritable`), because operators group to the left.

The scan leaves nothing else to the grammar: a count never has a sign in front, and a name token holds
a card name unless a number follows at once, as in `AND` before a digit of another script
(`isLegible_scan`). No condition goes on there, so whatever the grammar makes of such tokens is writable
(`isWritable_of_term`, `isWritable_of_operators`), and so is every condition read from a text
(`isWritable_of_ofText`).
-/

namespace OpeningHand

open Text

namespace Condition

/-- Whether a condition is a leaf or stands in parentheses. -/
def isGrouped : Condition → Bool
  | .leaf _ => true
  | .joint _ _ _ grouped => grouped

/-- Whether every joint that is a right side stands in parentheses. -/
def rightGrouped : Condition → Bool
  | .leaf _ => true
  | .joint _ a b _ => a.rightGrouped && b.rightGrouped && b.isGrouped

/-- Conditions that a text can write. -/
structure IsWritable (c : Condition) : Prop where
  /-- No count is negative. -/
  counts : ∀ l ∈ c.leaves, 0 ≤ l.count
  /-- Every name can stand in a text. -/
  names : ∀ l ∈ c.leaves, IsCardName l.name
  /-- Every right side is a leaf or stands in parentheses. -/
  grouped : c.rightGrouped = true

instance (c : Condition) : Decidable c.IsWritable :=
  decidable_of_iff ((∀ l ∈ c.leaves, 0 ≤ l.count) ∧ (∀ l ∈ c.leaves, IsCardName l.name) ∧
    c.rightGrouped = true) ⟨fun h => ⟨h.1, h.2.1, h.2.2⟩, fun h => ⟨h.1, h.2, h.3⟩⟩

@[simp]
theorem isGrouped_inParentheses (c : Condition) : c.inParentheses.isGrouped = true := by
  cases c <;> rfl

@[simp]
theorem leaves_inParentheses (c : Condition) : c.inParentheses.leaves = c.leaves := by
  cases c <;> rfl

@[simp]
theorem rightGrouped_inParentheses (c : Condition) :
    c.inParentheses.rightGrouped = c.rightGrouped := by
  cases c <;> rfl

namespace IsWritable

variable {a b c : Condition}

theorem leaf {l : Leaf} (hcount : 0 ≤ l.count) (hname : IsCardName l.name) :
    IsWritable (.leaf l) where
  counts := by simpa [leaves] using hcount
  names := by simpa [leaves] using hname
  grouped := rfl

theorem inParentheses (h : IsWritable c) : IsWritable c.inParentheses where
  counts := by simpa using h.counts
  names := by simpa using h.names
  grouped := by simpa using h.grouped

theorem joint (ha : IsWritable a) (hb : IsWritable b) (hgroup : b.isGrouped = true) (j : Joint)
    (grouped : Bool) : IsWritable (.joint j a b grouped) where
  counts l hl := (List.mem_append.1 hl).elim (ha.counts l) (hb.counts l)
  names l hl := (List.mem_append.1 hl).elim (ha.names l) (hb.names l)
  grouped := by simp [rightGrouped, ha.grouped, hb.grouped, hgroup]

end IsWritable

end Condition

/-! ### Tokens that a scan yields -/

theorem Comparison.mem_sign (o : Comparison) : ∀ c ∈ o.sign.toList, c = '+' ∨ c = '-' := by
  cases o <;> simp [sign]

namespace Token

/-- Whether the next token is a count. -/
def numberNext : List Token → Bool
  | [] => false
  | t :: _ => t.kind = .number

/-- Tokens whose names are card names unless a count follows, and whose counts are not negative. -/
def IsLegible : List Token → Prop
  | [] => True
  | t :: r =>
    (t.kind = .name → numberNext r = false → IsCardName t.value) ∧
      (t.kind = .number → ∀ n, Condition.countOf t.value.toList = .ok n → 0 ≤ n) ∧ IsLegible r

theorem IsLegible.suffix {r ts : List Token} (h : IsLegible ts) (hr : r <:+ ts) : IsLegible r := by
  induction ts with
  | nil => rwa [List.suffix_nil.1 hr]
  | cons t ts ih =>
      rcases List.suffix_cons_iff.1 hr with rfl | hr
      · exact h
      · exact ih h.2.2 hr

end Token

namespace Lexeme

/-- A count is digits and the sign of a comparison. -/
theorem of_number? {s lex r : List Char} {k : TokenKind} (h : number? s = some (k, lex, r)) :
    k = .number ∧ ∃ (ds : List Char) (o : Comparison), lex = ds ++ o.sign.toList ∧ ds ≠ [] ∧
      ∀ c ∈ ds, isDigit c = true := by
  have hds : ∀ c ∈ s.takeWhile isDigit, isDigit c = true := fun c hc => List.mem_takeWhile_imp hc
  simp only [number?] at h
  split at h
  · simp at h
  · rename_i hne
    have hne' : s.takeWhile isDigit ≠ [] := by simpa using hne
    split at h
    · simp at h
    · rename_i c t _
      split at h
      · rename_i hsign
        simp only [Option.some.injEq, Prod.mk.injEq] at h
        simp only [Bool.and_eq_true, Bool.or_eq_true, beq_iff_eq] at hsign
        obtain ⟨rfl | rfl, -⟩ := hsign
        · exact ⟨h.1.symm, s.takeWhile isDigit, .atLeast, h.2.1.symm, hne', hds⟩
        · exact ⟨h.1.symm, s.takeWhile isDigit, .atMost, h.2.1.symm, hne', hds⟩
      · split at h
        · simp only [Option.some.injEq, Prod.mk.injEq] at h
          exact ⟨h.1.symm, s.takeWhile isDigit, .exactly, by simp [h.2.1, Comparison.sign], hne', hds⟩
        · simp at h

theorem kind_of_operator? {s lex r : List Char} {k : TokenKind}
    (h : operator? s = some (k, lex, r)) : k = .operator ∧ ∀ c ∈ s.head?, isNameChar c = true := by
  unfold operator? at h
  split at h
  · split at h
    · simp only [Option.some.injEq, Prod.mk.injEq] at h
      exact ⟨h.1.symm, by simp; decide⟩
    · simp at h
  · split at h
    · simp only [Option.some.injEq, Prod.mk.injEq] at h
      exact ⟨h.1.symm, by simp; decide⟩
    · simp at h
  · simp at h

theorem kind_of_location? {s lex r : List Char} {k : TokenKind}
    (h : location? s = some (k, lex, r)) : k = .location ∧ ∀ c ∈ s.head?, isNameChar c = true := by
  unfold location? at h
  split at h
  · simp only at h
    split at h
    · simp at h
    · obtain ⟨p, -, hp⟩ := Option.map_eq_some_iff.1 h
      exact ⟨(Prod.mk.inj hp).1.symm, by simp; decide⟩
  · simp at h

theorem of_name? {c : Char} {s lex r : List Char} {k : TokenKind}
    (h : name? (c :: s) = some (k, lex, r)) :
    k = .name ∧ isNameChar c = true ∧ lex = (spanName (c :: s)).1 ∧ r = (spanName (c :: s)).2 := by
  simp only [name?] at h
  split at h
  · rename_i hc
    simp only [Option.some.injEq, Prod.mk.injEq] at h
    exact ⟨h.1.symm, hc, h.2.1.symm, h.2.2.symm⟩
  · simp at h

/-- Where the first lexeme comes from, by its kind. -/
theorem first?_cases {b : Bool} {c : Char} {s lex r : List Char} {k : TokenKind}
    (h : first? b (c :: s) = some (k, lex, r)) :
    (k = .paren ∧ (c = '(' ∨ c = ')')) ∨ (k = .operator ∧ isNameChar c = true) ∨
      (k = .number ∧ number? (c :: s) = some (k, lex, r)) ∨ (k = .location ∧ isNameChar c = true) ∨
      (k = .name ∧ isNameChar c = true ∧ operator? (c :: s) = none ∧
        lex = (spanName (c :: s)).1 ∧ r = (spanName (c :: s)).2) := by
  unfold first? at h
  rcases Option.or_eq_some_iff.1 h with h | ⟨-, h⟩
  · left
    simp only [paren?] at h
    split at h
    · rename_i hc
      simp only [Option.some.injEq, Prod.mk.injEq] at h
      exact ⟨h.1.symm, by simpa using hc⟩
    · simp at h
  rcases Option.or_eq_some_iff.1 h with h | ⟨ho, h⟩
  · obtain ⟨hk, hc⟩ := kind_of_operator? h
    exact Or.inr (Or.inl ⟨hk, hc c rfl⟩)
  rcases Option.or_eq_some_iff.1 h with h | ⟨-, h⟩
  · split at h
    · simp at h
    · rcases Option.or_eq_some_iff.1 h with h | ⟨-, h⟩
      · exact Or.inr (Or.inr (Or.inl ⟨(of_number? h).1, h⟩))
      · obtain ⟨hk, hc⟩ := kind_of_location? h
        exact Or.inr (Or.inr (Or.inr (Or.inl ⟨hk, hc c rfl⟩)))
  · obtain ⟨hk, hc, hlex, hr⟩ := of_name? h
    exact Or.inr (Or.inr (Or.inr (Or.inr ⟨hk, hc, ho, hlex, hr⟩)))

/-- A name stops at a blank or at something that is no name character. -/
theorem head?_spanName (s : List Char) :
    ∀ c ∈ (spanName s).2.head?, isBlank c = true ∨ isNameChar c = false := by
  induction s with
  | nil => simp [spanName]
  | cons c s ih =>
      rw [spanName]
      split
      · rename_i hb
        split
        · simp [hb]
        · exact ih
      · split
        · exact ih
        · rename_i hc
          simpa using Or.inr hc

end Lexeme

namespace Condition

/-- The signs at the end of a count go, its digits stay. -/
theorem withoutSigns_append {ds sign : List Char} (hds : ∀ c ∈ ds, isDigit c = true)
    (hsign : ∀ c ∈ sign, c = '+' ∨ c = '-') : withoutSigns (ds ++ sign) = ds := by
  rw [withoutSigns, List.reverse_append, dropWhile_append_of_head, List.reverse_reverse]
  · intro c hc
    simpa using hsign c (by simpa using hc)
  · intro c hc
    have hdigit := hds c (List.mem_reverse.1 (List.mem_of_mem_head? hc))
    simp [Number.ne_of_isDigit hdigit (d := '+') (by decide),
      Number.ne_of_isDigit hdigit (d := '-') (by decide)]

theorem countOf_append {ds sign : List Char} (hne : ds ≠ []) (hds : ∀ c ∈ ds, isDigit c = true)
    (hsign : ∀ c ∈ sign, c = '+' ∨ c = '-') : countOf (ds ++ sign) = .ok (ofDigits ds) := by
  simp only [countOf, withoutSigns_append hds hsign, Number.whole?_of_isDigit hne hds]

end Condition

namespace Token

/-- A text that goes on with a character of no other lexeme goes on with a count. -/
theorem numberNext_of_scan {p : Nat} {c : Char} {s : List Char} {ts : List Token}
    (hb : isBlank c = false) (hname : isNameChar c = false) (hopen : c ≠ '(') (hclose : c ≠ ')')
    (h : scan false p (c :: s) = .ok ts) : numberNext ts = true := by
  cases hfirst : Lexeme.first? false (c :: s) with
  | none =>
      rw [scan_none hb hfirst] at h
      cases h
  | some lexeme =>
      obtain ⟨k, lex, r⟩ := lexeme
      rw [scan_some hb hfirst] at h
      obtain ⟨ts', -, rfl⟩ := map_eq_ok.1 h
      rcases Lexeme.first?_cases hfirst with ⟨-, hc⟩ | ⟨-, hc⟩ | ⟨hk, -⟩ | ⟨-, hc⟩ | ⟨-, hc, -⟩
      · exact absurd hc (not_or.2 ⟨hopen, hclose⟩)
      · simp [hname] at hc
      · simp [numberNext, hk]
      · simp [hname] at hc
      · simp [hname] at hc

/-- A name in front of no count is a card name. -/
theorem isCardName_of_first? {b : Bool} {p : Nat} {c : Char} {s lex r : List Char} {ts : List Token}
    (hfirst : Lexeme.first? b (c :: s) = some (.name, lex, r)) (hscan : scan false p r = .ok ts)
    (hnext : numberNext ts = false) : IsCardName (Lexeme.value .name lex) := by
  rcases Lexeme.first?_cases hfirst with ⟨hk, -⟩ | ⟨hk, -⟩ | ⟨hk, -⟩ | ⟨hk, -⟩ | ⟨-, hc, ho, rfl, rfl⟩
  · simp at hk
  · simp at hk
  · simp at hk
  · simp at hk
  refine Lexeme.isCardName_of_spanName hc ho ?_
  have hhead := Lexeme.head?_spanName (c :: s)
  cases hr : (Lexeme.spanName (c :: s)).2 with
  | nil => rfl
  | cons d r =>
      rw [hr] at hhead hscan
      by_contra hends
      simp only [Lexeme.operatorEnds, Bool.or_eq_true, beq_iff_eq, not_or, Bool.not_eq_true] at hends
      obtain ⟨⟨hd, hopen⟩, hclose⟩ := hends
      have hname := (hhead d rfl).resolve_left (by simp [hd])
      rw [numberNext_of_scan hd hname hopen hclose hscan] at hnext
      exact Bool.false_ne_true hnext.symm

theorem nonneg_of_first? {b : Bool} {c : Char} {s lex r : List Char} {n : Int}
    (hfirst : Lexeme.first? b (c :: s) = some (.number, lex, r))
    (hn : Condition.countOf (Lexeme.value .number lex).toList = .ok n) : 0 ≤ n := by
  rcases Lexeme.first?_cases hfirst with ⟨hk, -⟩ | ⟨hk, -⟩ | ⟨-, hnum⟩ | ⟨hk, -⟩ | ⟨hk, -⟩
  · simp at hk
  · simp at hk
  · obtain ⟨-, ds, o, rfl, hne, hds⟩ := Lexeme.of_number? hnum
    change Condition.countOf (String.ofList (ds ++ o.sign.toList)).toList = .ok n at hn
    rw [String.toList_ofList, Condition.countOf_append hne hds o.mem_sign] at hn
    obtain rfl := Except.ok.inj hn
    exact Int.natCast_nonneg _
  · simp at hk
  · simp at hk

/-- **What a scan leaves to the grammar:** names are card names unless a count follows, and no count is
negative. -/
theorem isLegible_scan {b : Bool} {p : Nat} {s : List Char} {ts : List Token}
    (h : scan b p s = .ok ts) : IsLegible ts := by
  induction b, p, s using scan.induct generalizing ts with
  | case1 b p =>
      rw [scan_nil] at h
      obtain rfl := Except.ok.inj h
      trivial
  | case2 b p c s hb ih =>
      rw [scan_blank hb] at h
      exact ih h
  | case3 b p c s hb hnone =>
      rw [scan_none (Bool.eq_false_iff.2 hb) hnone] at h
      cases h
  | case4 b p c s hb k lex r hfirst ih =>
      rw [scan_some (Bool.eq_false_iff.2 hb) hfirst] at h
      obtain ⟨ts, hscan, rfl⟩ := map_eq_ok.1 h
      refine ⟨?_, ?_, ih hscan⟩
      · rintro rfl hnext
        exact isCardName_of_first? hfirst hscan hnext
      · rintro rfl n hn
        exact nonneg_of_first? hfirst hn

end Token

/-! ### What the grammar makes of them -/

namespace Condition

open Token

theorem placeNext_suffix {ts rest : List Token} {p : Place} (h : placeNext ts = .ok (p, rest)) :
    rest <:+ ts ∧ (numberNext rest = false → numberNext ts = false) := by
  cases ts with
  | nil =>
      obtain ⟨-, rfl⟩ := Prod.mk.inj (Except.ok.inj h)
      exact ⟨List.suffix_rfl, id⟩
  | cons t ts =>
      rw [placeNext] at h
      split at h
      · rename_i hk
        split at h
        · obtain ⟨-, rfl⟩ := Prod.mk.inj (Except.ok.inj h)
          exact ⟨List.suffix_cons .., fun _ => by simp [numberNext, hk]⟩
        · simp at h
      · obtain ⟨-, rfl⟩ := Prod.mk.inj (Except.ok.inj h)
        exact ⟨List.suffix_rfl, id⟩

/-- What a leaf after its count can be. -/
theorem leafAfter_cases {amount : String} {i : Int} {ts rest : List Token} {c : Condition}
    (h : leafAfter amount i ts = .ok (c, rest)) :
    ∃ t r k o p, ts = t :: r ∧ t.kind = .name ∧ placeNext r = .ok (p, rest) ∧
      c = .leaf ⟨t.value, k, o, p⟩ ∧ comparisonOf amount.toList = .ok o ∧
      countOf amount.toList = .ok k := by
  cases ts with
  | nil => simp [leafAfter] at h
  | cons t ts =>
      rw [leafAfter] at h
      split at h
      · rename_i hk
        obtain ⟨o, ho, h⟩ := bind_eq_ok.1 h
        obtain ⟨k, hcount, h⟩ := bind_eq_ok.1 h
        obtain ⟨⟨p, rest'⟩, hplace, h⟩ := bind_eq_ok.1 h
        obtain ⟨rfl, rfl⟩ := Prod.mk.inj (Except.ok.inj h)
        exact ⟨t, ts, k, o, p, rfl, hk, hplace, rfl, ho, hcount⟩
      · simp at h

/-- What a term can be. -/
theorem term_cases {n : Nat} {t : Token} {r rest : List Token} {c : Condition}
    (h : term (n + 1) (t :: r) = .ok (c, rest)) :
    (t.kind = .number ∧ leafAfter t.value t.position r = .ok (c, rest)) ∨
      (t.kind = .name ∧ ∃ p, placeNext r = .ok (p, rest) ∧ c = .leaf ⟨t.value, 1, .atLeast, p⟩) ∨
      (t.kind = .paren ∧ t.value = "(" ∧ ∃ first r₁ d r₂, term n r = .ok (first, r₁) ∧
        operators n first r₁ = .ok (d, r₂) ∧ parenNext ")" r₂ = true ∧ c = d.inParentheses ∧
        rest = r₂.drop 1) := by
  rw [term] at h
  split at h
  · rename_i hk
    exact Or.inl ⟨hk, h⟩
  · rename_i hk
    obtain ⟨⟨p, rest'⟩, hplace, h⟩ := bind_eq_ok.1 h
    obtain ⟨rfl, rfl⟩ := Prod.mk.inj (Except.ok.inj h)
    exact Or.inr (Or.inl ⟨hk, p, hplace, rfl⟩)
  · rename_i hk
    split at h
    · rename_i hopen
      split at h
      · simp at h
      · obtain ⟨⟨first, r₁⟩, hfirst, h⟩ := bind_eq_ok.1 h
        obtain ⟨⟨d, r₂⟩, hd, h⟩ := bind_eq_ok.1 h
        dsimp only at h
        split at h
        · rename_i hclose
          obtain ⟨rfl, rfl⟩ := Prod.mk.inj (Except.ok.inj h)
          exact Or.inr (Or.inr ⟨hk, beq_iff_eq.1 hopen, first, r₁, d, r₂, hfirst, hd, hclose, rfl, rfl⟩)
        · simp at h
    · simp at h
  · simp at h

theorem term_nil (n : Nat) : term n [] = .error .endOfCondition := by
  cases n <;> rfl

/-- What can follow a condition. -/
theorem operators_cases {n : Nat} {left c : Condition} {ts rest : List Token}
    (h : operators (n + 1) left ts = .ok (c, rest)) :
    (c = left ∧ rest = ts) ∨ ∃ t r j right r₁, ts = t :: r ∧ t.kind = .operator ∧
      Joint.ofWord? t.value = some j ∧ term n r = .ok (right, r₁) ∧
      operators n (.joint j left right false) r₁ = .ok (c, rest) := by
  cases ts with
  | nil =>
      rw [operators] at h
      obtain ⟨rfl, rfl⟩ := Prod.mk.inj (Except.ok.inj h)
      exact Or.inl ⟨rfl, rfl⟩
  | cons t r =>
      rw [operators] at h
      split at h
      · rename_i hk
        obtain ⟨⟨right, r₁⟩, hright, h⟩ := bind_eq_ok.1 h
        dsimp only at h
        split at h
        · rename_i j hj
          exact Or.inr ⟨t, r, j, right, r₁, rfl, hk, hj, hright, h⟩
        · simp at h
      · obtain ⟨rfl, rfl⟩ := Prod.mk.inj (Except.ok.inj h)
        exact Or.inl ⟨rfl, rfl⟩

/-- Terms leave the end of the tokens behind, and so do the operators after a condition. -/
theorem suffix_of_term_and_operators (n : Nat) :
    (∀ ts c rest, term n ts = .ok (c, rest) → rest <:+ ts.tail) ∧
      ∀ left ts c rest, operators n left ts = .ok (c, rest) → rest <:+ ts := by
  induction n with
  | zero =>
      refine ⟨fun ts c rest h => by simp [term] at h, fun left ts c rest h => ?_⟩
      rw [operators] at h
      obtain ⟨-, rfl⟩ := Prod.mk.inj (Except.ok.inj h)
      exact List.suffix_rfl
  | succ n ih =>
      obtain ⟨ihterm, ihop⟩ := ih
      refine ⟨fun ts c rest h => ?_, fun left ts c rest h => ?_⟩
      · cases ts with
        | nil => simp [term_nil] at h
        | cons t r =>
            rw [List.tail_cons]
            rcases term_cases h with ⟨-, hleaf⟩ | ⟨-, p, hplace, -⟩ |
              ⟨-, -, first, r₁, d, r₂, hfirst, hd, -, -, rfl⟩
            · obtain ⟨u, r, k, o, p, rfl, -, hplace, -⟩ := leafAfter_cases hleaf
              exact (placeNext_suffix hplace).1.trans (List.suffix_cons ..)
            · exact (placeNext_suffix hplace).1
            · have hr₁ : r₁ <:+ r := (ihterm _ _ _ hfirst).trans (List.tail_suffix r)
              exact (List.drop_suffix 1 r₂).trans ((ihop _ _ _ _ hd).trans hr₁)
      · rcases operators_cases h with ⟨-, rfl⟩ | ⟨t, r, j, right, r₁, rfl, -, -, hright, hrest⟩
        · exact List.suffix_rfl
        · have hr₁ : r₁ <:+ r := (ihterm _ _ _ hright).trans (List.tail_suffix r)
          exact (ihop _ _ _ _ hrest).trans (hr₁.trans (List.suffix_cons ..))

theorem suffix_of_term {n : Nat} {ts rest : List Token} {c : Condition}
    (h : term n ts = .ok (c, rest)) : rest <:+ ts.tail :=
  (suffix_of_term_and_operators n).1 ts c rest h

/-- **The grammar makes writable conditions of legible tokens** unless it leaves a count behind. -/
theorem isWritable_of_term_and_operators (n : Nat) :
    (∀ ts c rest, IsLegible ts → term n ts = .ok (c, rest) → numberNext rest = false →
      c.IsWritable ∧ c.isGrouped = true) ∧
      ∀ left ts c rest, IsLegible ts → (numberNext ts = false → left.IsWritable) →
        operators n left ts = .ok (c, rest) → numberNext rest = false → c.IsWritable := by
  induction n with
  | zero =>
      refine ⟨fun ts c rest _ h => by simp [term] at h, fun left ts c rest _ hleft h hnext => ?_⟩
      rw [operators] at h
      obtain ⟨rfl, rfl⟩ := Prod.mk.inj (Except.ok.inj h)
      exact hleft hnext
  | succ n ih =>
      obtain ⟨ihterm, ihop⟩ := ih
      have hlegible : ∀ {ts c rest}, IsLegible ts → term n ts = .ok (c, rest) → IsLegible rest :=
        fun hts h => hts.suffix ((suffix_of_term h).trans (List.tail_suffix _))
      refine ⟨fun ts c rest hts h hnext => ?_, fun left ts c rest hts hleft h hnext => ?_⟩
      · cases ts with
        | nil => simp [term_nil] at h
        | cons t r =>
            obtain ⟨htname, htcount, hr⟩ := hts
            rcases term_cases h with ⟨hk, hleaf⟩ | ⟨hk, p, hplace, rfl⟩ |
              ⟨-, -, first, r₁, d, r₂, hfirst, hd, hclose, rfl, rfl⟩
            · obtain ⟨u, r, k, o, p, rfl, hu, hplace, rfl, -, hcount⟩ := leafAfter_cases hleaf
              have hcard := hr.1 hu ((placeNext_suffix hplace).2 hnext)
              exact ⟨.leaf (htcount hk _ hcount) hcard, rfl⟩
            · exact ⟨.leaf Int.one_nonneg (htname hk ((placeNext_suffix hplace).2 hnext)), rfl⟩
            · have hr₂ : numberNext r₂ = false := by
                cases r₂ with
                | nil => rfl
                | cons u r₂ =>
                    simp only [parenNext, Bool.and_eq_true, decide_eq_true_eq] at hclose
                    simp [numberNext, hclose.1]
              have hfirst' : numberNext r₁ = false → first.IsWritable :=
                fun hr₁ => (ihterm r first r₁ hr hfirst hr₁).1
              have hd' := ihop first r₁ d r₂ (hlegible hr hfirst) hfirst' hd hr₂
              exact ⟨hd'.inParentheses, isGrouped_inParentheses d⟩
      · rcases operators_cases h with ⟨rfl, rfl⟩ | ⟨t, r, j, right, r₁, rfl, hk, -, hright, hrest⟩
        · exact hleft hnext
        · have hleft' : left.IsWritable := hleft (by simp [numberNext, hk])
          refine ihop _ r₁ c rest (hlegible hts.2.2 hright) (fun hr₁ => ?_) hrest hnext
          obtain ⟨hw, hg⟩ := ihterm r right r₁ hts.2.2 hright hr₁
          exact hleft'.joint hw hg j false

theorem ofTokens_eq_ok {ts : List Token} {c : Condition} : ofTokens ts = .ok c ↔
    ts ≠ [] ∧ ∃ first r, term (ts.length + 1) ts = .ok (first, r) ∧
      operators (ts.length + 1) first r = .ok (c, []) := by
  constructor
  · intro h
    unfold ofTokens at h
    split at h
    · simp at h
    · rename_i hne
      obtain ⟨⟨first, r⟩, hfirst, h⟩ := bind_eq_ok.1 h
      obtain ⟨⟨d, r'⟩, hd, h⟩ := bind_eq_ok.1 h
      dsimp only at h
      split at h
      · obtain rfl := Except.ok.inj h
        exact ⟨hne, first, r, hfirst, hd⟩
      · split at h <;> simp at h
  · rintro ⟨hne, first, r, hfirst, hc⟩
    unfold ofTokens
    split
    · exact absurd rfl hne
    · simp only [hfirst, hc, bind, Except.bind]
      rfl

/-- **A condition that is read from a text can be written in a text.** -/
theorem isWritable_of_ofText {s : String} {c : Condition} (h : ofText s = .ok c) :
    c.IsWritable := by
  obtain ⟨ts, hscan, h⟩ := bind_eq_ok.1 h
  have hts := isLegible_scan hscan
  obtain ⟨-, first, r, hfirst, hc⟩ := ofTokens_eq_ok.1 h
  obtain ⟨hterm, hop⟩ := isWritable_of_term_and_operators (ts.length + 1)
  have hr : IsLegible r := hts.suffix ((suffix_of_term hfirst).trans (List.tail_suffix ts))
  exact hop first r c [] hr (fun hr => (hterm ts first r hts hfirst hr).1) hc rfl

end Condition

end OpeningHand
