import OpeningHand.Proofs.Condition.Refusal

/-!
# Texts and the grammar

The grammar looks at the kinds and the values of tokens, and not at where they stand (`Grammar.Sentence.of_shapes`). A
text is read as a condition exactly if it can be cut into tokens and the grammar derives the condition from them
(`Condition.ofText_eq_ok_iff`): the counts of a text are well-formed, and all other tokens are looked at when they are
read.

So two texts are read alike if they are cut into tokens of the same shapes (`Condition.ofText_of_shapes`).
-/

namespace OpeningHand

open Text

theorem Token.Counts.of_shape {t u : Token} {n : Nat} {o : Comparison} (ht : t.Counts n o) (h : t.shape = u.shape) :
    u.Counts n o := by
  obtain ⟨hkind, hvalue⟩ := Prod.mk.inj h
  rwa [Token.Counts, hkind, hvalue] at ht

namespace Grammar

theorem Location.of_shapes {ts us : List Token} {p : Place} (h : Location ts p) (hus : ts.map Token.shape = us.map Token.shape) :
    Location us p := by
  cases h with
  | missing =>
      obtain rfl := List.map_eq_nil_iff.1 hus.symm
      exact .missing
  | named ht =>
      obtain ⟨u, us, rfl, hu, htail⟩ := List.map_eq_cons_iff.1 hus.symm
      obtain rfl := List.map_eq_nil_iff.1 htail
      exact .named (hu.trans ht)

mutual

theorem Term.of_shapes {ts us : List Token} {c : Condition} (h : Term ts c)
    (hus : ts.map Token.shape = us.map Token.shape) : Term us c := by
  match h with
  | .name ht hts =>
      obtain ⟨u, us, rfl, hu, htail⟩ := List.map_eq_cons_iff.1 hus.symm
      obtain ⟨hkind, hvalue⟩ := Prod.mk.inj hu
      rw [← hvalue]
      exact .name (hkind.trans ht) (hts.of_shapes htail.symm)
  | .count ht hn hts =>
      obtain ⟨u, us, rfl, hu, htail⟩ := List.map_eq_cons_iff.1 hus.symm
      obtain ⟨v, us, rfl, hv, htail⟩ := List.map_eq_cons_iff.1 htail
      obtain ⟨hkind, hvalue⟩ := Prod.mk.inj hv
      rw [← hvalue]
      exact .count (ht.of_shape hu.symm) (hkind.trans hn) (hts.of_shapes htail.symm)
  | .group ht hts hv =>
      obtain ⟨u, us, rfl, hu, htail⟩ := List.map_eq_cons_iff.1 hus.symm
      rw [List.map_append] at htail
      obtain ⟨us, vs, rfl, husmap, hvs⟩ := List.map_eq_append_iff.1 htail
      obtain ⟨v, vs, rfl, hvshape, hnil⟩ := List.map_eq_cons_iff.1 hvs
      obtain rfl := List.map_eq_nil_iff.1 hnil
      exact .group (hu.trans ht) (Sentence.of_shapes hts husmap.symm) (hvshape.trans hv)

theorem Steps.of_shapes {ts us : List Token} {left c : Condition} (h : Steps left ts c)
    (hus : ts.map Token.shape = us.map Token.shape) : Steps left us c := by
  match h with
  | .done _ =>
      obtain rfl := List.map_eq_nil_iff.1 hus.symm
      exact .done left
  | .more ht hts hrest =>
      obtain ⟨u, us, rfl, hu, htail⟩ := List.map_eq_cons_iff.1 hus.symm
      rw [List.map_append] at htail
      obtain ⟨us, vs, rfl, husmap, hvs⟩ := List.map_eq_append_iff.1 htail
      exact .more (hu.trans ht) (Term.of_shapes hts husmap.symm) (Steps.of_shapes hrest hvs.symm)

/-- **What is derived from tokens is derived from any tokens of the same shapes.** -/
theorem Sentence.of_shapes {ts us : List Token} {c : Condition} (h : Sentence ts c)
    (hus : ts.map Token.shape = us.map Token.shape) : Sentence us c := by
  match h with
  | .mk hts hrest =>
      rw [List.map_append] at hus
      obtain ⟨us, vs, rfl, husmap, hvs⟩ := List.map_eq_append_iff.1 hus.symm
      exact .mk (Term.of_shapes hts husmap.symm) (Steps.of_shapes hrest hvs.symm)

end

end Grammar

namespace Condition

open Grammar

variable {s t : String} {ts us : List Token} {c : Condition}

/-- A text holds no count that is not well-formed. -/
theorem isWellFormed_of_ofText (h : Token.ofText s = .ok ts) : ∀ t ∈ ts, t.kind = .number → t.IsWellFormed := by
  intro t ht hkind
  refine (Token.of_mem_scan h t ht).resolve_right fun hkelvin => ?_
  rw [(Prod.mk.inj hkelvin.1).1] at hkind
  cases hkind

/-- **A text is read as what the grammar derives from its tokens.** -/
theorem ofText_eq_ok_iff : ofText s = .ok c ↔ ∃ ts, Token.ofText s = .ok ts ∧ Sentence ts c := by
  rw [ofText, bind_eq_ok]
  refine exists_congr fun ts => and_congr_right fun hscan => ?_
  rw [ofTokens_eq_ok]
  have hwf := isWellFormed_of_ofText hscan
  constructor
  · rintro ⟨-, first, r, hfirst, hc⟩
    obtain ⟨hterm, hop⟩ := derives_of_counts (ts.length + 1)
    obtain ⟨front, rfl, hfront⟩ := hterm ts first r hwf hfirst
    obtain ⟨back, rfl, hback⟩ := hop first r c [] (forall_mem_of_term hwf hfirst) hc
    rw [List.append_nil]
    exact .mk hfront hback
  · intro h
    cases h with
    | @mk first _ ts us hts hus =>
        obtain ⟨t, r, hcons, -⟩ := hts.exists_cons
        obtain ⟨hterm, hop⟩ := term_and_operators_of_derives ((ts ++ us).length + 1)
        have hus' := hop hus [] (by simp) (by simp) (by simp; omega)
        have hhead : ∀ t ∈ (us ++ []).head?, t.kind ≠ .location := head?_of_steps hus (by simp)
        rw [List.append_nil] at hus' hhead
        exact ⟨by simp [hcons], first, us, hterm hts us hhead (by omega), hus'⟩

/-- Texts with tokens of the same shapes are read alike. -/
theorem ofText_of_shapes (hs : Token.ofText s = .ok ts) (ht : Token.ofText t = .ok us)
    (h : ts.map Token.shape = us.map Token.shape) (c : Condition) : ofText s = .ok c ↔ ofText t = .ok c := by
  rw [ofText_eq_ok_iff, ofText_eq_ok_iff]
  constructor
  · rintro ⟨_, hs', hc⟩
    obtain rfl := Except.ok.inj (hs.symm.trans hs')
    exact ⟨us, ht, hc.of_shapes h⟩
  · rintro ⟨_, ht', hc⟩
    obtain rfl := Except.ok.inj (ht.symm.trans ht')
    exact ⟨ts, hs, hc.of_shapes h.symm⟩

end Condition

end OpeningHand
