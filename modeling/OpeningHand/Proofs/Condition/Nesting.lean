import OpeningHand.Proofs.Condition.Shapes

/-!
# Texts in parentheses

A text that is read as a condition keeps its meaning inside a longer text if it stands in parentheses there. Behind it
comes a closing parenthesis, and no lexeme looks past that one: it ends an operator and a word, it is no blank that a
count would need, and it stands in no lexeme but its own (`Lexeme.rel_first?_closed`). So the text is cut into the same
tokens as by itself (`Token.cuts_closed`), and the grammar derives the same condition from them, but for the mark of the
parentheses (`Condition.ofText_nested`).
-/

namespace OpeningHand

open Text

namespace Lexeme

variable {s u : List Char} {k : TokenKind}

/-- The second text goes on with a closing parenthesis, and what is given, where the first one ends. -/
def Closed (u s t : List Char) : Prop := t = s ++ ')' :: u

/-! ### Lexemes in front of a closing parenthesis -/

/-- A lexeme that holds no closing parenthesis is taken off a text alike whether or not one comes behind the text, if it
may come next at the end of a text. -/
theorem Takes.rel_closed {f : List Char → Option Lexeme} {Form Next : List Char → Prop} (hf : Takes f k Form Next)
    (hform : ∀ {lex}, Form lex → ')' ∉ lex) (hnext : ∀ r, Next (r ++ ')' :: u) ↔ Next r) (s : List Char) :
    Option.Rel (Alike (Closed u)) (f s) (f (s ++ ')' :: u)) := by
  refine hf.rel (fun {lex r} hs hlex hr => ?_) fun {lex r} ht hlex hr => ?_
  · subst hs
    exact ⟨lex, r ++ ')' :: u, List.append_assoc .., hlex, (hnext r).2 hr, rfl, rfl⟩
  · rcases append_eq_append_cons ht.symm with ⟨more, rfl⟩ | ⟨between, rfl, rfl⟩
    · exact absurd (List.mem_append_right s List.mem_cons_self) (hform hlex)
    · exact ⟨lex, between, rfl, hlex, (hnext between).1 hr⟩

theorem rel_operator?_closed (s u : List Char) :
    Option.Rel (Alike (Closed u)) (operator? s) (operator? (s ++ ')' :: u)) := by
  refine takes_operator.rel_closed ?_ (fun r => ?_) s
  · rintro _ ⟨j, rfl⟩
    cases j <;> decide
  · cases r <;> simp [operatorEnds]

theorem rel_number?_closed (s u : List Char) :
    Option.Rel (Alike (Closed u)) (number? s) (number? (s ++ ')' :: u)) := by
  refine takes_number.rel_closed ?_ (fun r => ?_) s
  · rintro _ ⟨ds, o, rfl, -, hds⟩ hmem
    rcases List.mem_append.1 hmem with hdigit | hsign
    · exact absurd (hds _ hdigit) (by decide)
    · rcases o.mem_sign _ hsign with h | h <;> exact absurd h (by decide)
  · cases r with
    | nil => exact iff_of_false (by simp only [List.nil_append, blankNext]; decide) (by simp [blankNext])
    | cons c r => rfl

theorem rel_location?_closed (s u : List Char) :
    Option.Rel (Alike (Closed u)) (location? s) (location? (s ++ ')' :: u)) := by
  refine takes_location.rel_closed ?_ (fun r => by rw [wordEnds_append (by rfl)]) s
  rintro _ ⟨hgap, -, hplace⟩ hmem
  rcases List.mem_append.1 hmem with hin | hmem
  · exact absurd hin (by decide)
  rcases List.mem_append.1 hmem with hblank | hword
  · exact absurd (hgap _ hblank) (by decide)
  · exact absurd (hplace.operatorEnds_eq_false _ hword) (by decide)

/-- A name ends in front of a closing parenthesis. -/
theorem spanName_closed (s u : List Char) : spanName (s ++ ')' :: u) = ((spanName s).1, (spanName s).2 ++ ')' :: u) := by
  induction s with
  | nil =>
      have hblank : isBlank ')' = false := by decide
      have hname : isNameChar ')' = false := by decide
      simp [spanName, hblank, hname]
  | cons c s ih =>
      have hstops := stopsName_eq_of_rel (rel_operator?_closed s u) (rel_location?_closed s u)
      rw [List.cons_append, spanName, spanName, ← hstops, ih]
      split
      · split <;> rfl
      · split <;> rfl

theorem rel_name?_closed (s u : List Char) : Option.Rel (Alike (Closed u)) (name? s) (name? (s ++ ')' :: u)) := by
  cases s with
  | nil =>
      have hname : isNameChar ')' = false := by decide
      rw [List.nil_append, name?, name?, hname]
      exact .none
  | cons c s =>
      have hspan := spanName_closed (c :: s) u
      rw [List.cons_append] at hspan ⊢
      rw [name?, name?, hspan]
      split
      · exact .some (.mk rfl rfl)
      · exact .none

/-- **The first lexeme of a text is the same in front of a closing parenthesis.** -/
theorem rel_first?_closed (c : Char) (s u : List Char) (b : Bool) :
    Option.Rel (Alike (Closed u)) (first? b (c :: s)) (first? b (c :: s ++ ')' :: u)) := by
  refine rel_first? ?_ (rel_operator?_closed (c :: s) u) (rel_number?_closed (c :: s) u)
    (rel_location?_closed (c :: s) u) (rel_name?_closed (c :: s) u) b
  rw [List.cons_append, paren?, paren?]
  split
  · exact .some (.mk rfl rfl)
  · exact .none

end Lexeme

/-! ### Texts in front of a closing parenthesis -/

namespace Token

/-- **A text is cut into the same tokens in front of a closing parenthesis.** -/
theorem cuts_closed {b : Bool} {p : Nat} {s : List Char} {ts : List Token} (h : scan b p s = .ok ts)
    (u : List Char) : ∃ b', Cuts b (s ++ ')' :: u) (ts.map shape) b' (')' :: u) := by
  induction b, p, s using scan.induct generalizing ts with
  | case1 b p =>
      rw [scan_nil] at h
      obtain rfl := Except.ok.inj h
      exact ⟨b, .refl b _⟩
  | case2 b p c s hb ih =>
      rw [scan_blank hb] at h
      obtain ⟨b', hcut⟩ := ih h
      exact ⟨b', (Cuts.blank hb b _).trans hcut⟩
  | case3 b p c s hb hnone =>
      rw [scan_none (Bool.eq_false_iff.2 hb) hnone] at h
      cases h
  | case4 b p c s hb k lex r hfirst ih =>
      have hc := Bool.eq_false_iff.2 hb
      rw [scan_some hc hfirst] at h
      obtain ⟨ts, hscan, rfl⟩ := map_eq_ok.1 h
      obtain ⟨b', hcut⟩ := ih hscan
      have hrel := Lexeme.rel_first?_closed c s u b
      rw [hfirst] at hrel
      generalize hfirst' : Lexeme.first? b (c :: s ++ ')' :: u) = x at hrel
      cases hrel with
      | some halike =>
          cases halike with
          | @mk _ _ _ lex' r' hvalue hrest =>
              obtain rfl : r' = r ++ ')' :: u := hrest
              have hcuts := (Cuts.first hc hfirst').trans hcut
              rw [← hvalue] at hcuts
              exact ⟨b', hcuts⟩

/-- The shapes of tokens in parentheses. -/
def inGroup (l : List (TokenKind × String)) : List (TokenKind × String) := (.paren, "(") :: (l ++ [(.paren, ")")])

/-- **A text in parentheses is cut into its tokens and the two parentheses.** -/
theorem cuts_group {text : String} {ts : List Token} (h : ofText text = .ok ts) (u : List Char) :
    Cuts false ('(' :: (text.toList ++ ')' :: u)) (inGroup (ts.map shape)) false u := by
  obtain ⟨b, hcut⟩ := cuts_closed h u
  have hopen := Cuts.first (by decide) (Lexeme.first?_paren (Or.inl rfl) false (text.toList ++ ')' :: u))
  have hclose := Cuts.first (by decide) (Lexeme.first?_paren (Or.inr rfl) b u)
  exact hopen.trans (hcut.trans hclose)

/-- A text that is cut up to its end is scanned. -/
theorem Cuts.ofText {text : String} {l : List (TokenKind × String)} {b : Bool} (h : Cuts false text.toList l b []) :
    ∃ ts, Token.ofText text = .ok ts ∧ ts.map shape = l := by
  obtain ⟨ts, p, hshapes, hscan⟩ := h 0
  refine ⟨ts, ?_, hshapes⟩
  rw [Token.ofText, hscan, scan_nil]
  exact congrArg Except.ok (List.append_nil ts)

end Token

/-! ### Conditions in parentheses -/

namespace Grammar

variable {ts us : List Token} {c : Condition}

/-- Tokens in parentheses are a term. -/
theorem Sentence.term (h : Sentence ts c) (hus : us.map Token.shape = Token.inGroup (ts.map Token.shape)) :
    Term us c.inParentheses := by
  obtain ⟨t, us, rfl, ht, htail⟩ := List.map_eq_cons_iff.1 hus
  obtain ⟨us, vs, rfl, hinner, hvs⟩ := List.map_eq_append_iff.1 htail
  obtain ⟨v, vs, rfl, hv, hnil⟩ := List.map_eq_cons_iff.1 hvs
  obtain rfl := List.map_eq_nil_iff.1 hnil
  exact .group ht (h.of_shapes hinner.symm) hv

theorem Term.sentence (h : Term ts c) : Sentence ts c := by
  have hsentence := Sentence.mk h (.done c)
  rwa [List.append_nil] at hsentence

end Grammar

namespace Condition

open Grammar

theorem same_inParentheses (c : Condition) : c.inParentheses.same c = true := by
  cases c <;> simp [same, inParentheses, bare]

/-- **Texts in parentheses are read as they are read by themselves.** A text that is a condition is the same condition
in parentheses, and two such texts in parentheses with a joint between them are the joint of the two conditions. Only
the conditions in parentheses remember them, which makes no difference to what they are the same as. -/
theorem ofText_nested {s t : String} {a b : Condition} (hs : ofText s = .ok a) (ht : ofText t = .ok b) (j : Joint) :
    ofText ("(" ++ s ++ ")") = .ok a.inParentheses ∧
      ofText ("(" ++ s ++ ") " ++ j.word ++ " (" ++ t ++ ")") =
        .ok (.joint j a.inParentheses b.inParentheses false) ∧
      a.inParentheses.same a = true ∧ b.inParentheses.same b = true := by
  obtain ⟨ts, hts, ha⟩ := ofText_eq_ok_iff.1 hs
  obtain ⟨us, hus, hb⟩ := ofText_eq_ok_iff.1 ht
  refine ⟨ofText_eq_ok_iff.2 ?_, ofText_eq_ok_iff.2 ?_, same_inParentheses a, same_inParentheses b⟩
  · have htext : ("(" ++ s ++ ")").toList = '(' :: (s.toList ++ ')' :: []) := by simp [String.toList_append]
    have hcut := Token.cuts_group hts []
    rw [← htext] at hcut
    obtain ⟨vs, hvs, hshapes⟩ := hcut.ofText
    exact ⟨vs, hvs, (ha.term hshapes).sentence⟩
  · have htext : ("(" ++ s ++ ") " ++ j.word ++ " (" ++ t ++ ")").toList =
        '(' :: (s.toList ++ ')' :: (' ' :: (j.word.toList ++ (' ' :: '(' :: (t.toList ++ ')' :: []))))) := by
      simp [String.toList_append]
    have hjoint : Token.Cuts false (j.word.toList ++ (' ' :: '(' :: (t.toList ++ ')' :: []))) [(.operator, j.word)]
        false (' ' :: '(' :: (t.toList ++ ')' :: [])) := by
      cases j <;> exact Token.Cuts.first (by decide) rfl
    have hcut := (Token.cuts_group hts _).trans ((Token.Cuts.space false _).trans
      (hjoint.trans ((Token.Cuts.space false _).trans (Token.cuts_group hus []))))
    rw [← htext] at hcut
    obtain ⟨vs, hvs, hshapes⟩ := hcut.ofText
    obtain ⟨fs, vs, rfl, hfs, htail⟩ := List.map_eq_append_iff.1 hshapes
    obtain ⟨v, gs, rfl, hv, hgs⟩ := List.map_eq_cons_iff.1 htail
    have hsteps : Steps a.inParentheses (v :: (gs ++ [])) (.joint j a.inParentheses b.inParentheses false) :=
      .more hv (hb.term hgs) (.done _)
    rw [List.append_nil] at hsteps
    exact ⟨fs ++ v :: gs, hvs, .mk (ha.term hfs) hsteps⟩

/-- A joint, which takes the mark of the parentheses, and a leaf, which has none. -/
theorem ofText_nested_leaf :
    ofText "(2+ A OR B IN deck) AND (C)" = .ok
        (.joint .and
          (.joint .or (.leaf ⟨"A", 2, .atLeast, .hand⟩) (.leaf ⟨"B", 1, .atLeast, .deck⟩) true)
          (.leaf ⟨"C", 1, .atLeast, .hand⟩) false) := by
  have hs : ofText "2+ A OR B IN deck" = .ok
      (.joint .or (.leaf ⟨"A", 2, .atLeast, .hand⟩) (.leaf ⟨"B", 1, .atLeast, .deck⟩) false) := by decide +kernel
  have ht : ofText "C" = .ok (.leaf ⟨"C", 1, .atLeast, .hand⟩) := by decide +kernel
  exact (ofText_nested hs ht .and).2.1

end Condition

end OpeningHand
