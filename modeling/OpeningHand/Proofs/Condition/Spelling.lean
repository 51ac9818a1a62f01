import OpeningHand.Condition.Written
import OpeningHand.Proofs.Condition.Lexemes

/-!
# The tokens of a written condition

The text of a condition whose counts are not negative and whose names are card names is cut into the
tokens one expects (`Condition.spelling`): a count, a name and a location for each leaf, the joints'
words between them, and a pair of parentheses for each joint that is written with one
(`Condition.cuts_text`). A number and a name need what follows them to be recognized; so each lexeme is
stated in front of the text behind it, and the texts are put together by `Token.Cuts.trans`.
-/

namespace OpeningHand

open Text

/-- What the grammar sees of a token. -/
def Token.shape (t : Token) : TokenKind × String := (t.kind, t.value)

/-- The tokens of a leaf. -/
def Leaf.spelling (l : Leaf) : List (TokenKind × String) :=
  [(.number, Number.text l.count ++ l.comparison.sign), (.name, l.name), (.location, l.place.word)]

/-- The tokens of a condition. -/
def Condition.spelling : Condition → List (TokenKind × String)
  | .leaf l => l.spelling
  | .joint j a b grouped =>
    let inner := a.spelling ++ (.operator, j.word) :: b.spelling
    if grouped then (.paren, "(") :: (inner ++ [(.paren, ")")]) else inner

/-! ### Lexemes in front of a text -/

namespace Lexeme

theorem first?_paren {c : Char} (hc : c = '(' ∨ c = ')') (b : Bool) (u : List Char) :
    first? b (c :: u) = some (.paren, [c], u) := by
  rcases hc with rfl | rfl <;> rfl

theorem first?_operator (b : Bool) (j : Joint) (u : List Char) :
    first? b (j.word.toList ++ ' ' :: u) = some (.operator, j.word.toList, ' ' :: u) := by
  cases j <;> rfl

theorem operator?_of_isDigit {c : Char} (hc : isDigit c = true) (s : List Char) :
    operator? (c :: s) = none := by
  rw [← Option.not_isSome_iff_eq_none, isSome_operator?_iff]
  rintro ⟨r, -, h | h⟩
  · exact Number.ne_of_isDigit hc (d := 'A') (by decide) (List.cons.inj h).1
  · exact Number.ne_of_isDigit hc (d := 'O') (by decide) (List.cons.inj h).1

/-- Digits and a sign in front of a space are a count. -/
theorem first?_number {ds : List Char} (hne : ds ≠ []) (hds : ∀ c ∈ ds, isDigit c = true)
    (o : Comparison) (u : List Char) :
    first? false (ds ++ (o.sign.toList ++ ' ' :: u))
      = some (.number, ds ++ o.sign.toList, ' ' :: u) := by
  have hnumber := number?_append hne hds o (r := ' ' :: u) (by rfl)
  obtain ⟨d, ds, rfl⟩ := List.exists_cons_of_ne_nil hne
  have hd := hds d (by simp)
  have hparen : paren? (d :: (ds ++ (o.sign.toList ++ ' ' :: u))) = none := by
    simp [paren?, Number.ne_of_isDigit hd (d := '(') (by decide),
      Number.ne_of_isDigit hd (d := ')') (by decide)]
  rw [List.cons_append] at hnumber ⊢
  simp [first?, hparen, operator?_of_isDigit hd, hnumber]

/-- The text of a place, behind the name of a leaf. -/
def inPlace (p : Place) (r : List Char) : List Char := 'I' :: 'N' :: ' ' :: (p.word.toList ++ r)

theorem location?_inPlace {r : List Char} (hr : wordEnds r = true) (p : Place) :
    location? (inPlace p r) = some (.location, "IN ".toList ++ p.word.toList, r) :=
  (takes_location _ _ _ _).2
    ⟨rfl, rfl, .mk (List.forall_mem_singleton.2 (by decide)) (List.cons_ne_nil ' ' []) (isPlaceWord_word p), hr⟩

theorem first?_inPlace {r : List Char} (hr : wordEnds r = true) (p : Place) :
    first? false (inPlace p r) = some (.location, "IN ".toList ++ p.word.toList, r) := by
  have hnumber : number? (inPlace p r) = none := by
    have : isDigit 'I' = false := by decide
    simp [number?, inPlace, this]
  have hparen : paren? (inPlace p r) = none := rfl
  have hoperator : operator? (inPlace p r) = none := rfl
  simp [first?, hparen, hoperator, hnumber, location?_inPlace hr p]

theorem value_location (p : Place) : value .location ("IN ".toList ++ p.word.toList) = p.word := by
  cases p <;> decide

/-- Right after a count a card name is a name token up to its location. -/
theorem first?_name {name : String} (h : IsCardName name) {r : List Char} (hr : wordEnds r = true)
    (p : Place) :
    first? true (name.toList ++ ' ' :: inPlace p r)
      = some (.name, name.toList, ' ' :: inPlace p r) := by
  have hstop : stopsName (inPlace p r) = true := by simp [stopsName, location?_inPlace hr p]
  have hplace : placeWord? (inPlace p r) = none := rfl
  have hhead : ∀ c ∈ (inPlace p r).head?, isBlank c = false := by simp [inPlace]; decide
  have hspan := spanName_of_isCardName hstop hplace hhead h
  have hoperator := h.operator?_append (inPlace p r)
  obtain ⟨c, s, hname, hc⟩ := h.exists_cons
  rw [hname, List.cons_append] at hspan hoperator ⊢
  have hopen : c ≠ '(' := by rintro rfl; exact absurd hc (by decide)
  have hclose : c ≠ ')' := by rintro rfl; exact absurd hc (by decide)
  simp [first?, paren?, hopen, hclose, hoperator, name?, hc, hspan]

end Lexeme

/-! ### Texts in front of a text -/

namespace Token

/-- Whether the front of a text is cut into tokens of the given shapes, wherever it begins, and the scan
goes on with the text behind it. -/
def Cuts (b : Bool) (s : List Char) (l : List (TokenKind × String)) (b' : Bool) (s' : List Char) :
    Prop :=
  ∀ p, ∃ ts p', ts.map shape = l ∧ scan b p s = (scan b' p' s').map (ts ++ ·)

namespace Cuts

variable {b b' b'' : Bool} {s s' s'' : List Char} {l l' : List (TokenKind × String)}

theorem trans (h : Cuts b s l b' s') (h' : Cuts b' s' l' b'' s'') : Cuts b s (l ++ l') b'' s'' := by
  intro p
  obtain ⟨ts, p', rfl, hscan⟩ := h p
  obtain ⟨ts', p'', rfl, hscan'⟩ := h' p'
  refine ⟨ts ++ ts', p'', by simp, ?_⟩
  rw [hscan, hscan']
  cases scan b'' p'' s'' with
  | error e => rfl
  | ok r => simp [Except.map]

theorem refl (b : Bool) (s : List Char) : Cuts b s [] b s := by
  intro p
  refine ⟨[], p, rfl, ?_⟩
  cases scan b p s <;> rfl

theorem blank {c : Char} (hc : isBlank c = true) (b : Bool) (s : List Char) : Cuts b (c :: s) [] b s := by
  intro p
  refine ⟨[], p + 1, rfl, ?_⟩
  rw [scan_blank hc]
  cases scan b (p + 1) s <;> rfl

theorem space (b : Bool) (s : List Char) : Cuts b (' ' :: s) [] b s := blank (by decide) b s

theorem first {c : Char} {lex r : List Char} {k : TokenKind} (hc : isBlank c = false)
    (h : Lexeme.first? b (c :: s) = some (k, lex, r)) :
    Cuts b (c :: s) [(k, Lexeme.value k lex)] (k == .number) r := by
  intro p
  refine ⟨[⟨k, Lexeme.value k lex, p⟩], p + lex.length, rfl, ?_⟩
  rw [scan_some hc h]
  rfl

end Cuts

end Token

/-- **A written leaf is cut into its count, its name and its location.** -/
theorem Leaf.cuts_text {l : Leaf} (hcount : 0 ≤ l.count) (hname : IsCardName l.name)
    {r : List Char} (hr : wordEnds r = true) :
    Token.Cuts false (l.text.toList ++ r) l.spelling false r := by
  have htext : l.text.toList ++ r = Number.digits l.count.natAbs ++
      (l.comparison.sign.toList ++ ' ' :: (l.name.toList ++ ' ' :: Lexeme.inPlace l.place r)) := by
    have hsigned : Number.signed l.count = Number.digits l.count.natAbs := by
      rw [Number.signed, if_neg (by omega)]
    simp [Leaf.text, Number.text, hsigned, Lexeme.inPlace, String.toList_append]
  have hvalue : Lexeme.value .number (Number.digits l.count.natAbs ++ l.comparison.sign.toList)
      = Number.text l.count ++ l.comparison.sign := by
    rw [Number.text, Number.signed, if_neg (by omega)]
    simp [Lexeme.value, String.ofList_append]
  have hnumber := Lexeme.first?_number (Number.digits_ne_nil l.count.natAbs)
    (fun c hc => Number.digits_isDigit hc) l.comparison
    (l.name.toList ++ ' ' :: Lexeme.inPlace l.place r)
  have hnext := Lexeme.first?_name hname hr l.place
  have hplace := Lexeme.first?_inPlace hr l.place
  obtain ⟨d, ds, hdigits⟩ := List.exists_cons_of_ne_nil (Number.digits_ne_nil l.count.natAbs)
  have hd : isBlank d = false := by
    have hdigit := Number.digits_isDigit (n := l.count.natAbs) (c := d) (by simp [hdigits])
    cases hb : isBlank d with
    | false => rfl
    | true => simp [isDigit_of_isBlank hb] at hdigit
  obtain ⟨c, cs, hchars, hc⟩ := hname.exists_cons
  have hname' : Lexeme.value .name l.name.toList = l.name := hname.value_name
  rw [htext]
  rw [hdigits] at hnumber hvalue ⊢
  rw [hchars] at hnumber hnext hname' ⊢
  have hcut := (Token.Cuts.first hd hnumber).trans ((Token.Cuts.space true _).trans
    ((Token.Cuts.first (Lexeme.isBlank_of_isNameChar hc) hnext).trans
      ((Token.Cuts.space false _).trans (Token.Cuts.first (by decide) hplace))))
  rw [hvalue, hname', Lexeme.value_location] at hcut
  exact hcut

/-- **A written condition is cut into the tokens of its spelling**, whatever follows it, provided that
no count is negative and every name is a card name. -/
theorem Condition.cuts_text {c : Condition} (hcount : ∀ l ∈ c.leaves, 0 ≤ l.count)
    (hname : ∀ l ∈ c.leaves, IsCardName l.name) {r : List Char} (hr : wordEnds r = true) :
    Token.Cuts false (c.text.toList ++ r) c.spelling false r := by
  induction c generalizing r with
  | leaf l => exact Leaf.cuts_text (hcount l (by simp [leaves])) (hname l (by simp [leaves])) hr
  | joint j a b grouped iha ihb =>
      have ha : ∀ r, wordEnds r = true → Token.Cuts false (a.text.toList ++ r) a.spelling false r :=
        fun r hr => iha (fun l hl => hcount l (List.mem_append_left _ hl))
          (fun l hl => hname l (List.mem_append_left _ hl)) hr
      have hb : ∀ r, wordEnds r = true → Token.Cuts false (b.text.toList ++ r) b.spelling false r :=
        fun r hr => ihb (fun l hl => hcount l (List.mem_append_right _ hl))
          (fun l hl => hname l (List.mem_append_right _ hl)) hr
      have hword : Lexeme.value .operator j.word.toList = j.word := by cases j <;> rfl
      have hinner : ∀ r, wordEnds r = true →
          Token.Cuts false (a.text.toList ++ ' ' :: (j.word.toList ++ ' ' :: (b.text.toList ++ r)))
            (a.spelling ++ (.operator, j.word) :: b.spelling) false r := by
        intro r hr
        have hop := Lexeme.first?_operator false j (b.text.toList ++ r)
        obtain ⟨d, ds, hds, hd⟩ : ∃ d ds, j.word.toList = d :: ds ∧ isBlank d = false := by
          cases j <;> exact ⟨_, _, rfl, by decide⟩
        rw [hds] at hop hword ⊢
        have hcut := (ha _ (by rfl)).trans ((Token.Cuts.space false _).trans
          ((Token.Cuts.first hd hop).trans ((Token.Cuts.space false _).trans (hb r hr))))
        rw [hword] at hcut
        exact hcut
      cases grouped with
      | false => simpa [text, spelling, String.toList_append] using hinner r hr
      | true =>
          have hopen := Lexeme.first?_paren (Or.inl rfl) false
            (a.text.toList ++ ' ' :: (j.word.toList ++ ' ' :: (b.text.toList ++ ')' :: r)))
          have hclose := Lexeme.first?_paren (Or.inr rfl) false r
          have hcut : Token.Cuts false _ _ false r :=
            (Token.Cuts.first (by decide) hopen).trans ((hinner (')' :: r) (by rfl)).trans
              (Token.Cuts.first (by decide) hclose))
          simpa [text, spelling, String.toList_append, Lexeme.value] using hcut

/-- The tokens of a written condition. -/
theorem Condition.ofText_text {c : Condition} (hcount : ∀ l ∈ c.leaves, 0 ≤ l.count)
    (hname : ∀ l ∈ c.leaves, IsCardName l.name) :
    ∃ ts, ts.map Token.shape = c.spelling ∧ Token.ofText c.text = .ok ts := by
  obtain ⟨ts, p', hshape, hscan⟩ := cuts_text hcount hname (r := []) (by rfl) 0
  refine ⟨ts, hshape, ?_⟩
  rw [List.append_nil] at hscan
  rw [Token.ofText, hscan, Token.scan_nil]
  simp [Except.map]

end OpeningHand
