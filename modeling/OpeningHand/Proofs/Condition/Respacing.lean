import OpeningHand.Proofs.Condition.Shapes
import OpeningHand.Proofs.Text.Respaced

/-!
# Gaps of any width

How wide a gap is, and of which blanks, does not matter to a condition text, wherever the gap stands: between tokens, in
a name, or behind the `IN` of a location. Two texts that differ in their gaps only are cut into tokens of the same kinds
and values, or both are refused (`Token.sameShapes_scan`), and they are read as the same condition
(`Condition.ofText_of_respaced`).

Each lexeme is taken off both texts at once. A lexeme that is one word stands in both of them; what comes next begins
alike in both; and a name runs on in both of them up to the same stop word (`Lexeme.respaced_spanName`).
-/

namespace OpeningHand

open Text

namespace Lexeme

variable {s t : List Char} {k : TokenKind}

/-! ### Lexemes that are words -/

/-- A lexeme that is one word is taken off both texts if what comes next may come next in both. -/
theorem Takes.rel_respaced {f : List Char → Option Lexeme} {Form Next : List Char → Prop} (hf : Takes f k Form Next)
    (hform : ∀ {lex}, Form lex → IsWord lex) (hnext : ∀ {r r'}, Respaced r r' → Next r → Next r')
    (h : Respaced s t) : Option.Rel (Alike Respaced) (f s) (f t) := by
  refine hf.rel (fun {lex r} hs hlex hr => ?_) fun {lex r} ht hlex hr => ?_
  · subst hs
    obtain ⟨r', rfl, hrest⟩ := h.of_append (hform hlex).2
    exact ⟨lex, r', rfl, hlex, hnext hrest hr, rfl, hrest⟩
  · subst ht
    obtain ⟨r', rfl, hrest⟩ := h.symm.of_append (hform hlex).2
    exact ⟨lex, r', rfl, hlex, hnext hrest hr⟩

theorem rel_paren? (h : Respaced s t) : Option.Rel (Alike Respaced) (paren? s) (paren? t) :=
  takes_paren.rel_respaced IsParen.isWord (fun _ h => h) h

theorem operatorEnds_of_respaced (h : Respaced s t) (hs : operatorEnds s = true) : operatorEnds t = true :=
  h.head_congr (P := fun r => operatorEnds r = true) (fun _ hc => hc) (fun _ hb _ => by simp [operatorEnds, hb]) hs

theorem rel_operator? (h : Respaced s t) : Option.Rel (Alike Respaced) (operator? s) (operator? t) :=
  takes_operator.rel_respaced IsJointWord.isWord operatorEnds_of_respaced h

theorem blankNext_of_respaced (h : Respaced s t) (hs : blankNext s = true) : blankNext t = true :=
  h.head_congr (P := fun r => blankNext r = true) (fun _ hc => hc) (fun _ hb _ => hb) hs

theorem rel_number? (h : Respaced s t) : Option.Rel (Alike Respaced) (number? s) (number? t) :=
  takes_number.rel_respaced IsCount.isWord blankNext_of_respaced h

/-! ### Locations -/

theorem wordEnds_of_respaced (h : Respaced s t) (hs : wordEnds s = true) : wordEnds t = true :=
  h.head_congr (P := fun r => wordEnds r = true) (fun _ hc => hc)
    (fun _ hb _ => by simp [wordEnds, isWord_of_isBlank hb]) hs

/-- A location stands in both texts, with a gap in it in each. -/
theorem exists_location {lex r : List Char} (h : Respaced (lex ++ r) t) (hlex : IsLocation lex) :
    ∃ lex' r', t = lex' ++ r' ∧ IsLocation lex' ∧ value .location lex = value .location lex' ∧ Respaced r r' := by
  obtain ⟨hgap, hne, hplace⟩ := hlex
  rename_i g w
  have hhead : ∀ c ∈ (w ++ r).head?, isBlank c = false := fun c hc =>
    hplace.isWord.2 c (List.mem_of_mem_head? (by rwa [List.head?_append_of_ne_nil _ hplace.isWord.1] at hc))
  rw [List.append_assoc, List.append_assoc] at h
  obtain ⟨u, rfl, hbehind⟩ := h.of_append isWord_in.2
  obtain ⟨g', u, rfl, hgap', hne', hword⟩ := hbehind.of_gap hgap hne hhead
  obtain ⟨r', rfl, hrest⟩ := hword.of_append hplace.isWord.2
  refine ⟨"IN".toList ++ (g' ++ w), r', by simp only [List.append_assoc], ⟨hgap', hne', hplace⟩, ?_, hrest⟩
  rw [value_location_append hgap hplace.isWord, value_location_append hgap' hplace.isWord]

theorem rel_location? (h : Respaced s t) : Option.Rel (Alike Respaced) (location? s) (location? t) := by
  refine takes_location.rel (fun {lex r} hs hlex hr => ?_) fun {lex r} ht hlex hr => ?_
  · subst hs
    obtain ⟨lex', r', ht, hlex', hvalue, hrest⟩ := exists_location h hlex
    exact ⟨lex', r', ht, hlex', wordEnds_of_respaced hrest hr, hvalue, hrest⟩
  · subst ht
    obtain ⟨lex', r', hs, hlex', -, hrest⟩ := exists_location h.symm hlex
    exact ⟨lex', r', hs, hlex', wordEnds_of_respaced hrest hr⟩

/-! ### Names -/

/-- A name begins as the text does. -/
theorem head?_fst_spanName (h : ∀ c ∈ s.head?, isBlank c = false) : ∀ c ∈ (spanName s).1.head?, isBlank c = false := by
  intro c hc
  refine h c ?_
  rw [spanName_eq s, List.head?_append, Option.mem_def.1 hc]
  rfl

/-- **A name runs on to the same place in both texts**, and it is the same but for its gaps. -/
theorem respaced_spanName (h : Respaced s t) :
    Respaced (spanName s).2 (spanName t).2 ∧
      trimRight (collapse (spanName s).1) = trimRight (collapse (spanName t).1) := by
  induction h with
  | nil => exact ⟨.nil, rfl⟩
  | @char c s t hc rest ih =>
      obtain ⟨ihrest, ihvalue⟩ := ih
      have hblank : ¬isBlank c = true := by simp [hc]
      rw [spanName, spanName, if_neg hblank, if_neg hblank]
      split
      · refine ⟨ihrest, ?_⟩
        rw [collapse_cons_of_not_isBlank hc, collapse_cons_of_not_isBlank hc, trimRight_cons, trimRight_cons, ihvalue]
      · exact ⟨.char hc rest, rfl⟩
  | @gap g g' s t hg hne hg' hne' whole rest ih =>
      have hstops := stopsName_eq_of_rel (rel_operator? rest) (rel_location? rest)
      rcases Bool.eq_false_or_eq_true (stopsName s) with hstop | hstop
      · -- the last blank of either gap is left in front of the stop word
        obtain ⟨x, b, hx, hxgap, hb⟩ := spanName_gap_of_stopsName hg hne hstop
        obtain ⟨y, d, hy, hygap, hd⟩ := spanName_gap_of_stopsName hg' hne' (hstops ▸ hstop)
        rw [hx, hy, trimRight_collapse_gap hxgap, trimRight_collapse_gap hygap]
        exact ⟨.gap (List.forall_mem_singleton.2 hb) (List.cons_ne_nil b []) (List.forall_mem_singleton.2 hd)
          (List.cons_ne_nil d []) whole rest, rfl⟩
      · obtain ⟨ihrest, ihvalue⟩ := ih
        rw [spanName_gap hg hne hstop, spanName_gap hg' hne' (hstops ▸ hstop)]
        refine ⟨ihrest, ?_⟩
        rw [collapse_gap_append hg hne (head?_fst_spanName whole),
          collapse_gap_append hg' hne' (head?_fst_spanName (rest.head_not_isBlank whole)), trimRight_cons,
          trimRight_cons, ihvalue]

theorem rel_name? (h : Respaced s t) : Option.Rel (Alike Respaced) (name? s) (name? t) := by
  have hnone : ∀ {g u : List Char}, IsGap g → g ≠ [] → name? (g ++ u) = none := by
    intro g u hg hne
    obtain ⟨b, g, rfl⟩ := List.exists_cons_of_ne_nil hne
    refine if_neg fun hb => ?_
    have hblank := hg b List.mem_cons_self
    rw [isBlank_of_isNameChar hb] at hblank
    cases hblank
  obtain ⟨hrest, hvalue⟩ := respaced_spanName h
  cases h with
  | nil => exact .none
  | gap hg hne hg' hne' =>
      rw [hnone hg hne, hnone hg' hne']
      exact .none
  | @char c s t hc rest =>
      have hhead : ∀ u, ∀ d ∈ (c :: u).head?, isBlank d = false := by
        intro u d hd
        obtain rfl := Option.some.inj hd
        exact hc
      rw [name?, name?]
      split
      · refine .some (.mk ?_ hrest)
        rw [value, value, trim_collapse_of_head (head?_fst_spanName (hhead s)),
          trim_collapse_of_head (head?_fst_spanName (hhead t)), hvalue]
      · exact .none

/-- **The first lexemes of texts with the same gaps are alike.** -/
theorem rel_first?_respaced (h : Respaced s t) (b : Bool) :
    Option.Rel (Alike Respaced) (first? b s) (first? b t) :=
  rel_first? (rel_paren? h) (rel_operator? h) (rel_number? h) (rel_location? h) (rel_name? h) b

end Lexeme

/-! ### Scans -/

namespace Token

/-- Both scans are refused, or both yield tokens, of the same kinds and values. -/
inductive SameShapes : Except Fault (List Token) → Except Fault (List Token) → Prop
  | ok {ts us : List Token} (shapes : ts.map shape = us.map shape) : SameShapes (.ok ts) (.ok us)
  | error (f g : Fault) : SameShapes (.error f) (.error g)

theorem SameShapes.cons {x y : Except Fault (List Token)} (h : SameShapes x y) {t u : Token}
    (htu : t.shape = u.shape) : SameShapes (x.map (t :: ·)) (y.map (u :: ·)) := by
  cases h with
  | ok shapes => exact .ok (by rw [List.map_cons, List.map_cons, htu, shapes])
  | error f g => exact .error f g

/-- Blanks in front of a text are skipped. -/
theorem scan_gap {g : List Char} (hg : IsGap g) (b : Bool) (p : Nat) (s : List Char) :
    scan b p (g ++ s) = scan b (p + g.length) s := by
  induction g generalizing p with
  | nil => rfl
  | cons c g ih =>
      obtain ⟨hc, hg⟩ := List.forall_mem_cons.1 hg
      rw [List.cons_append, scan_blank hc, ih hg, List.length_cons, Nat.add_right_comm, Nat.add_assoc]

/-- **Texts with the same gaps are scanned alike**, wherever they begin. -/
theorem sameShapes_scan {b : Bool} {p : Nat} {s t : List Char} (h : Respaced s t) (q : Nat) :
    SameShapes (scan b p s) (scan b q t) := by
  induction b, p, s using scan.induct generalizing t q with
  | case1 b p =>
      obtain rfl := h.eq_nil
      rw [scan_nil, scan_nil]
      exact .ok rfl
  | case2 b p c s hb ih =>
      obtain ⟨g, u, rfl, hg, hrest⟩ := h.of_blank_cons hb
      rw [scan_blank hb, scan_gap hg]
      exact ih hrest _
  | case3 b p c s hb hnone =>
      have hc := Bool.eq_false_iff.2 hb
      have hrel := Lexeme.rel_first?_respaced h b
      obtain ⟨u, rfl, -⟩ := h.of_cons hc
      rw [hnone] at hrel
      generalize hfirst : Lexeme.first? b (c :: u) = x at hrel
      cases hrel with
      | none =>
          rw [scan_none hc hnone, scan_none hc hfirst]
          exact .error _ _
  | case4 b p c s hb k lex r hfirst ih =>
      have hc := Bool.eq_false_iff.2 hb
      have hrel := Lexeme.rel_first?_respaced h b
      obtain ⟨u, rfl, -⟩ := h.of_cons hc
      rw [hfirst] at hrel
      generalize hfirst' : Lexeme.first? b (c :: u) = x at hrel
      cases hrel with
      | some halike =>
          cases halike with
          | mk hvalue hrest =>
              rw [scan_some hc hfirst, scan_some hc hfirst']
              exact (ih hrest _).cons (Prod.ext rfl hvalue)

end Token

/-! ### Conditions -/

/-- **The width of gaps does not matter.** Of two texts that differ in their gaps only, both are cut into tokens or
neither is; the tokens have the same kinds and values; and both are read as the same condition, or neither as any. -/
theorem Condition.ofText_of_respaced {s t : String} (h : Respaced s.toList t.toList) :
    ((∃ ts, Token.ofText s = .ok ts) ↔ ∃ us, Token.ofText t = .ok us) ∧
      (∀ ts us, Token.ofText s = .ok ts → Token.ofText t = .ok us → ts.map Token.shape = us.map Token.shape) ∧
      ∀ c, ofText s = .ok c ↔ ofText t = .ok c := by
  have hscan : Token.SameShapes (Token.ofText s) (Token.ofText t) := Token.sameShapes_scan h 0
  generalize hs : Token.ofText s = x at hscan
  generalize ht : Token.ofText t = y at hscan
  cases hscan with
  | ok shapes =>
      refine ⟨⟨fun _ => ⟨_, rfl⟩, fun _ => ⟨_, rfl⟩⟩, ?_, ofText_of_shapes hs ht shapes⟩
      intro ts us hts hus
      obtain rfl := Except.ok.inj hts
      obtain rfl := Except.ok.inj hus
      exact shapes
  | error f g =>
      refine ⟨by simp, by simp, fun c => ?_⟩
      rw [ofText, ofText, hs, ht]
      refine iff_of_false (fun h => ?_) fun h => ?_
      · cases h
      · cases h

/-- Gaps of other blanks, behind a count, in a name, in front of an operator and in a location. -/
theorem Condition.ofText_of_respaced_tabs :
    Respaced "2+ Pot of Greed AND (B IN deck)".toList "2+\t\tPot of \n Greed   AND  (B IN\u3000deck)".toList ∧
      ofText "2+\t\tPot of \n Greed   AND  (B IN\u3000deck)" = .ok
        (.joint .and (.leaf ⟨"Pot of Greed", 2, .atLeast, .hand⟩) (.leaf ⟨"B", 1, .atLeast, .deck⟩) false) := by
  have h : Respaced "2+ Pot of Greed AND (B IN deck)".toList
      "2+\t\tPot of \n Greed   AND  (B IN\u3000deck)".toList := by decide +kernel
  have hread : ofText "2+ Pot of Greed AND (B IN deck)" = .ok
      (.joint .and (.leaf ⟨"Pot of Greed", 2, .atLeast, .hand⟩) (.leaf ⟨"B", 1, .atLeast, .deck⟩) false) := by
    decide +kernel
  exact ⟨h, ((ofText_of_respaced h).2.2 _).1 hread⟩

end OpeningHand
