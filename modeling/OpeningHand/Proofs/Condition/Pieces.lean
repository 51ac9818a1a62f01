import OpeningHand.Proofs.Condition.Lexemes

/-!
# Nothing of a text is lost

A scan cuts a text into pieces, one for each token: its lexeme and the blanks behind it. Before the first piece stand
blanks only (`Token.exists_pieces`). So a piece goes from where its token begins to where the next one begins, or to the
end of the text, and but for its gaps it is what the token stands for (`Token.StandsFor`): the value of the token, or for
a location `IN` and the word whose capitals are the value.
-/

namespace OpeningHand

open Text

namespace Token

/-- What the token stands for, with single spaces between its words. -/
def StandsFor (t : Token) (written : List Char) : Prop :=
  match t.kind with
  | .paren | .operator | .number | .name => t.value.toList = written
  | .location => ∃ word, IsWord word ∧ written = "IN ".toList ++ word ∧ t.value.toList = word.map Char.toUpper
  | .other _ => False

/-- Where the first of the tokens begins, or else where the text ends. -/
def firstPlace (text : List Char) : List Token → Nat
  | [] => text.length
  | t :: _ => t.position.toNat

/-- What is written in a text from one place to another, without blanks at the ends and with single spaces for gaps. -/
def writtenBetween (text : List Char) (i j : Nat) : List Char := trim (collapse ((text.take j).drop i))

end Token

/-! ### One lexeme -/

namespace Lexeme

variable {s lex r : List Char} {k : TokenKind}

theorem trim_collapse_word {w : List Char} (h : IsWord w) : trim (collapse w) = w := by
  have hspaced := (Spaced.last h (g := []) nofun).trim_collapse
  rwa [List.append_nil, List.intercalate_singleton] at hspaced

/-- A lexeme that is one word is its own value. -/
theorem toList_value_word {w : List Char} (h : IsWord w) (hname : k ≠ .name) (hlocation : k ≠ .location) :
    (value k w).toList = trim (collapse w) := by
  rw [trim_collapse_word h]
  cases k with
  | name => exact absurd rfl hname
  | location => exact absurd rfl hlocation
  | _ => exact String.toList_ofList

theorem standsFor_of_isLocation (h : IsLocation lex) (p : Int) :
    Token.StandsFor ⟨.location, value .location lex, p⟩ (trim (collapse lex)) := by
  obtain ⟨hgap, hne, hplace⟩ := h
  rename_i g w
  have hspaced := (Spaced.more isWord_in hgap hne (Spaced.last hplace.isWord (g := []) nofun)).trim_collapse
  rw [List.append_nil] at hspaced
  refine ⟨w, hplace.isWord, ?_, ?_⟩
  · rw [hspaced]
    simp [List.intercalate, List.intersperse]
  · rw [value_location_append hgap hplace.isWord, String.toList_ofList]

/-- **A lexeme is what its token stands for**, up to its gaps. -/
theorem standsFor_of_first? {b : Bool} (h : first? b s = some (k, lex, r)) (p : Int) :
    Token.StandsFor ⟨k, value k lex, p⟩ (trim (collapse lex)) := by
  rcases reader_of_first? h with h | h | h | h | h
  · obtain ⟨rfl, -, hparen, -⟩ := (takes_paren _ _ _ _).1 h
    exact toList_value_word hparen.isWord nofun nofun
  · obtain ⟨rfl, -, hword, -⟩ := (takes_operator _ _ _ _).1 h
    exact toList_value_word hword.isWord nofun nofun
  · obtain ⟨rfl, -, hcount, -⟩ := (takes_number _ _ _ _).1 h
    exact toList_value_word hcount.isWord nofun nofun
  · obtain ⟨rfl, -, hlocation, -⟩ := (takes_location _ _ _ _).1 h
    exact standsFor_of_isLocation hlocation p
  · cases s with
    | nil => cases h
    | cons c s =>
        obtain ⟨rfl, -⟩ := of_name? h
        exact String.toList_ofList

end Lexeme

/-! ### All pieces -/

namespace Token

/-- A text whose first character has a position is cut into pieces, each of which its token stands for, and begins. -/
inductive Pieces : Nat → List Char → List Token → Prop
  | nil (p : Nat) : Pieces p [] []
  | cons {p : Nat} {t : Token} {piece s : List Char} {ts : List Token} (place : t.position = p) (ne : piece ≠ [])
      (stands : t.StandsFor (trim (collapse piece))) (rest : Pieces (p + piece.length) s ts) :
      Pieces p (piece ++ s) (t :: ts)

/-- **A scanned text** is cut into pieces behind the blanks in front of it. -/
theorem exists_pieces {b : Bool} {p : Nat} {s : List Char} {ts : List Token} (h : scan b p s = .ok ts) :
    ∃ g u, s = g ++ u ∧ IsGap g ∧ Pieces (p + g.length) u ts := by
  induction b, p, s using scan.induct generalizing ts with
  | case1 b p =>
      rw [scan_nil] at h
      obtain rfl := Except.ok.inj h
      exact ⟨[], [], rfl, List.forall_mem_nil _, .nil p⟩
  | case2 b p c s hb ih =>
      rw [scan_blank hb] at h
      obtain ⟨g, u, rfl, hg, hpieces⟩ := ih h
      refine ⟨c :: g, u, rfl, List.forall_mem_cons.2 ⟨hb, hg⟩, ?_⟩
      rwa [List.length_cons, Nat.add_comm g.length, ← Nat.add_assoc]
  | case3 b p c s hb hnone =>
      rw [scan_none (Bool.eq_false_iff.2 hb) hnone] at h
      cases h
  | case4 b p c s hb k lex r hfirst ih =>
      rw [scan_some (Bool.eq_false_iff.2 hb) hfirst] at h
      obtain ⟨ts, hscan, rfl⟩ := map_eq_ok.1 h
      obtain ⟨g, u, rfl, hg, hpieces⟩ := ih hscan
      obtain ⟨hs, hne⟩ := Lexeme.first?_eq hfirst
      -- the blanks behind the lexeme belong to its piece
      have hstands := Lexeme.standsFor_of_first? hfirst p
      have hhead : ∀ d ∈ lex.head?, isBlank d = false := by
        obtain ⟨d, lex, rfl⟩ := List.exists_cons_of_ne_nil hne
        obtain ⟨rfl, -⟩ := List.cons.inj hs
        intro d hd
        obtain rfl := Option.some.inj hd
        exact Bool.eq_false_iff.2 hb
      have hhead' : ∀ d ∈ (lex ++ g).head?, isBlank d = false := by
        rwa [List.head?_append_of_ne_nil _ hne]
      rw [trim_collapse_of_head hhead, ← trimRight_collapse_append_gap hg, ← trim_collapse_of_head hhead'] at hstands
      refine ⟨[], (lex ++ g) ++ u, by rw [hs, List.append_assoc, List.nil_append], List.forall_mem_nil _, ?_⟩
      refine .cons rfl (by simp [hne]) hstands ?_
      rwa [List.length_append, List.length_nil, Nat.add_zero, ← Nat.add_assoc]

namespace Pieces

variable {p : Nat} {s front : List Char} {ts : List Token}

/-- A text begins where the first of its tokens does. -/
theorem firstPlace_eq (h : Pieces front.length s ts) : firstPlace (front ++ s) ts = front.length := by
  cases h with
  | nil => simp [firstPlace]
  | cons place => simp [firstPlace, place]

theorem position_bounds (h : Pieces p s ts) : ∀ t ∈ ts, (p : Int) ≤ t.position ∧ t.position < p + s.length := by
  induction h with
  | nil => nofun
  | @cons p t piece s ts place ne _ _ ih =>
      have hpos := List.length_pos_iff.2 ne
      refine List.forall_mem_cons.2 ⟨?_, fun u hu => ?_⟩
      · rw [place, List.length_append]
        omega
      · have hu := ih u hu
        rw [List.length_append]
        omega

/-- Tokens begin one behind the other. -/
theorem pairwise (h : Pieces p s ts) : ts.Pairwise fun t u => t.position < u.position := by
  induction h with
  | nil => exact .nil
  | @cons p t piece s ts place ne _ rest ih =>
      have hpos := List.length_pos_iff.2 ne
      refine .cons (fun u hu => ?_) ih
      have hu := (rest.position_bounds u hu).1
      omega

/-- A token stands for what is written from where it begins to where the next one does. -/
theorem standsFor (h : Pieces front.length s ts) {before after : List Token} {t : Token}
    (hts : ts = before ++ t :: after) :
    t.StandsFor (writtenBetween (front ++ s) t.position.toNat (firstPlace (front ++ s) after)) := by
  induction before generalizing front s ts with
  | nil =>
      subst hts
      cases h with
      | @cons _ _ piece s _ place ne stands rest =>
          have hrest : Pieces (front ++ piece).length s after := by rwa [List.length_append]
          rw [← List.append_assoc, hrest.firstPlace_eq, place, writtenBetween, List.take_left, Int.toNat_natCast,
            List.drop_left]
          exact stands
  | cons u before ih =>
      subst hts
      cases h with
      | @cons _ _ piece s _ place ne stands rest =>
          have hrest : Pieces (front ++ piece).length s (before ++ t :: after) := by rwa [List.length_append]
          rw [← List.append_assoc]
          exact ih hrest rfl

end Pieces

/-- **A scan loses nothing of a text.** Tokens begin one behind the other; before the first of them stand blanks only; and
each token stands for what is written from where it begins to where the next one begins, or to the end of the text. -/
theorem ofText_covers {text : String} {ts : List Token} (h : ofText text = .ok ts) :
    (ts.Pairwise fun t u => t.position < u.position) ∧
      (∀ t ∈ ts, 0 ≤ t.position ∧ t.position < text.toList.length) ∧
      (∀ c ∈ text.toList.take (firstPlace text.toList ts), isBlank c = true) ∧
      ∀ before t after, ts = before ++ t :: after →
        t.StandsFor (writtenBetween text.toList t.position.toNat (firstPlace text.toList after)) := by
  obtain ⟨g, u, htext, hg, hpieces⟩ := exists_pieces h
  rw [Nat.zero_add] at hpieces
  rw [htext]
  refine ⟨hpieces.pairwise, fun t ht => ?_, ?_, fun before t after hts => hpieces.standsFor hts⟩
  · have hbounds := hpieces.position_bounds t ht
    rw [List.length_append]
    omega
  · rw [hpieces.firstPlace_eq, List.take_left]
    exact hg

/-- A name with a gap in it, a location with one, and an operator right before a parenthesis. -/
theorem ofText_covers_gaps :
    ofText " 2+ Pot of \t Greed  IN  deck OR(B)" = .ok
        [⟨.number, "2+", 1⟩, ⟨.name, "Pot of Greed", 4⟩, ⟨.location, "DECK", 20⟩, ⟨.operator, "OR", 29⟩,
          ⟨.paren, "(", 31⟩, ⟨.name, "B", 32⟩, ⟨.paren, ")", 33⟩] ∧
      StandsFor ⟨.name, "Pot of Greed", 4⟩ (writtenBetween " 2+ Pot of \t Greed  IN  deck OR(B)".toList 4 20) ∧
      StandsFor ⟨.location, "DECK", 20⟩ (writtenBetween " 2+ Pot of \t Greed  IN  deck OR(B)".toList 20 29) := by
  have hread : ofText " 2+ Pot of \t Greed  IN  deck OR(B)" = .ok
      [⟨.number, "2+", 1⟩, ⟨.name, "Pot of Greed", 4⟩, ⟨.location, "DECK", 20⟩, ⟨.operator, "OR", 29⟩,
        ⟨.paren, "(", 31⟩, ⟨.name, "B", 32⟩, ⟨.paren, ")", 33⟩] := by decide +kernel
  have hcovers := (ofText_covers hread).2.2.2
  exact ⟨hread, hcovers [⟨.number, "2+", 1⟩] _ _ rfl, hcovers [⟨.number, "2+", 1⟩, ⟨.name, "Pot of Greed", 4⟩] _ _ rfl⟩

end Token

end OpeningHand
