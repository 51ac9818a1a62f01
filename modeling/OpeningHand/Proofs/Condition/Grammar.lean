import OpeningHand.Proofs.Condition.RoundTrip

/-!
# What the grammar derives

The grammar of conditions says which tokens make up a term or a whole condition, and which condition they
stand for (`Grammar.Term`, `Grammar.Sentence`). Operators know no precedence: each takes all that stands before
it as its left side (`Grammar.Steps`).

```
sentence := term steps
steps    := ((AND | OR) term)*
term     := number? name location? | '(' sentence ')'
```

Well-formed tokens are read as a condition exactly if the grammar derives it from all of them, and so it
derives at most one; all other lists of such tokens are refused with a fault of the grammar
(`Condition.ofTokens_eq_ok_iff`). Tokens that are not well-formed may be refused with other faults
(`Condition.Refuses`).
-/

namespace OpeningHand

open Text

namespace Token

/-- A token that writes a count: its digits, and then the sign of a comparison. -/
def Counts (t : Token) (n : Nat) (o : Comparison) : Prop :=
  t.kind = .number ∧ ∃ ds, ds ≠ [] ∧ (∀ c ∈ ds, isDigit c = true) ∧ ofDigits ds = n ∧
    t.value.toList = ds ++ o.sign.toList

/-- Tokens of the five kinds with the values that belong to them. -/
def IsWellFormed (t : Token) : Prop :=
  match t.kind with
  | .paren => t.value = "(" ∨ t.value = ")"
  | .operator => ∃ j : Joint, t.value = j.word
  | .number => ∃ n o, t.Counts n o
  | .name => t.value ≠ ""
  | .location => ∃ p : Place, t.value = p.word
  | .other _ => False

end Token

theorem Place.word_of_ofWord? {s : String} {p : Place} (h : Place.ofWord? s = some p) : p.word = s := by
  simpa using List.find?_some h

theorem Joint.word_of_ofWord? {s : String} {j : Joint} (h : Joint.ofWord? s = some j) : j.word = s := by
  simpa using List.find?_some h

namespace Grammar

/-- A location, or none: then the hand is meant. -/
inductive Location : List Token → Place → Prop
  | missing : Location [] .hand
  | named {t : Token} {p : Place} (ht : t.shape = (.location, p.word)) : Location [t] p

mutual

/-- The tokens of a term. One card of a name is enough if no count stands before it. -/
inductive Term : List Token → Condition → Prop
  | name {t : Token} {ts : List Token} {p : Place} (ht : t.kind = .name) (hts : Location ts p) :
      Term (t :: ts) (.leaf ⟨t.value, 1, .atLeast, p⟩)
  | count {t u : Token} {ts : List Token} {n : Nat} {o : Comparison} {p : Place} (ht : t.Counts n o)
      (hu : u.kind = .name) (hts : Location ts p) : Term (t :: u :: ts) (.leaf ⟨u.value, n, o, p⟩)
  | group {t u : Token} {ts : List Token} {c : Condition} (ht : t.shape = (.paren, "("))
      (hts : Sentence ts c) (hu : u.shape = (.paren, ")")) : Term (t :: (ts ++ [u])) c.inParentheses

/-- The tokens that make one condition of another: operators, each with the term on its right side. -/
inductive Steps : Condition → List Token → Condition → Prop
  | done (left : Condition) : Steps left [] left
  | more {left right c : Condition} {t : Token} {j : Joint} {ts us : List Token}
      (ht : t.shape = (.operator, j.word)) (hts : Term ts right)
      (hus : Steps (.joint j left right false) us c) : Steps left (t :: (ts ++ us)) c

/-- The tokens of a condition: a term, and what goes on from it. -/
inductive Sentence : List Token → Condition → Prop
  | mk {first c : Condition} {ts us : List Token} (hts : Term ts first) (hus : Steps first us c) :
      Sentence (ts ++ us) c

end

/-- No term begins with a closing parenthesis, and none is empty. -/
theorem Term.exists_cons {ts : List Token} {c : Condition} (h : Term ts c) :
    ∃ t r, ts = t :: r ∧ t.shape ≠ (.paren, ")") := by
  cases h with
  | @name t r _ ht _ => exact ⟨t, r, rfl, fun h => by simp [Token.shape, ht] at h⟩
  | @count t u r _ _ _ ht _ _ => exact ⟨t, u :: r, rfl, fun h => by simp [Token.shape, ht.1] at h⟩
  | @group t u r _ ht _ _ => exact ⟨t, r ++ [u], rfl, fun h => by simp [ht] at h⟩

end Grammar

namespace Condition

open Grammar

variable {ts rest : List Token} {c left : Condition} {t : Token}

/-! ### What is read is derived -/

theorem location_of_placeNext {p : Place} (h : placeNext ts = .ok (p, rest)) :
    ∃ front, ts = front ++ rest ∧ Location front p := by
  cases ts with
  | nil =>
      obtain ⟨rfl, rfl⟩ := Prod.mk.inj (Except.ok.inj h)
      exact ⟨[], rfl, .missing⟩
  | cons t ts =>
      rw [placeNext] at h
      split at h
      · rename_i hk
        split at h
        · rename_i q hq
          obtain ⟨rfl, rfl⟩ := Prod.mk.inj (Except.ok.inj h)
          exact ⟨[t], rfl, .named (Prod.ext hk (Place.word_of_ofWord? hq).symm)⟩
        · cases h
      · obtain ⟨rfl, rfl⟩ := Prod.mk.inj (Except.ok.inj h)
        exact ⟨[], rfl, .missing⟩

/-- A count is read as what its token writes. -/
theorem comparisonOf_of_counts {n : Nat} {o : Comparison} (h : t.Counts n o) :
    comparisonOf t.value.toList = .ok o ∧ countOf t.value.toList = .ok n := by
  obtain ⟨-, ds, hne, hds, rfl, hvalue⟩ := h
  rw [hvalue]
  exact ⟨comparisonOf_append hne hds o,
    countOf_append hne hds o.mem_sign⟩

theorem term_of_leafAfter (ht : t.kind = .number) (hwf : t.IsWellFormed)
    (h : leafAfter t.value t.position ts = .ok (c, rest)) :
    ∃ front, t :: ts = front ++ rest ∧ Term front c := by
  obtain ⟨u, r, k, o, p, rfl, hu, hplace, rfl, ho, hk⟩ := leafAfter_cases h
  simp only [Token.IsWellFormed, ht] at hwf
  obtain ⟨n, o', hcounts⟩ := hwf
  obtain ⟨ho', hk'⟩ := comparisonOf_of_counts hcounts
  obtain rfl := Except.ok.inj (ho.symm.trans ho')
  obtain rfl := Except.ok.inj (hk.symm.trans hk')
  obtain ⟨front, rfl, hfront⟩ := location_of_placeNext hplace
  exact ⟨t :: u :: front, rfl, .count hcounts hu hfront⟩

theorem forall_mem_of_term {n : Nat} {Q : Token → Prop} (hts : ∀ t ∈ ts, Q t)
    (h : term n ts = .ok (c, rest)) : ∀ t ∈ rest, Q t := fun t ht =>
  hts t (List.mem_of_mem_tail ((suffix_of_term h).subset ht))

/-- A parenthesis that comes next. -/
theorem exists_of_parenNext {word : String} (h : parenNext word ts = true) :
    ∃ u, u.shape = (.paren, word) ∧ ts = u :: ts.drop 1 := by
  cases ts with
  | nil => cases h
  | cons u ts =>
      simp only [parenNext, Bool.and_eq_true, decide_eq_true_eq, beq_iff_eq] at h
      exact ⟨u, Prod.ext h.1 h.2, rfl⟩

/-- **What is read off the front of tokens, the grammar derives** if the counts among them are well-formed. All other
tokens are looked at when they are read. -/
theorem derives_of_counts (n : Nat) :
    (∀ ts c rest, (∀ t ∈ ts, t.kind = .number → t.IsWellFormed) → term n ts = .ok (c, rest) →
      ∃ front, ts = front ++ rest ∧ Term front c) ∧
    ∀ left ts c rest, (∀ t ∈ ts, t.kind = .number → t.IsWellFormed) → operators n left ts = .ok (c, rest) →
      ∃ front, ts = front ++ rest ∧ Steps left front c := by
  induction n with
  | zero =>
      refine ⟨fun ts c rest _ h => by simp [term] at h, fun left ts c rest _ h => ?_⟩
      rw [operators] at h
      obtain ⟨rfl, rfl⟩ := Prod.mk.inj (Except.ok.inj h)
      exact ⟨[], rfl, .done left⟩
  | succ n ih =>
      obtain ⟨ihterm, ihop⟩ := ih
      refine ⟨fun ts c rest hwf h => ?_, fun left ts c rest hwf h => ?_⟩
      · cases ts with
        | nil => simp [term_nil] at h
        | cons t r =>
            rw [List.forall_mem_cons] at hwf
            rcases term_cases h with ⟨hk, hleaf⟩ | ⟨hk, p, hplace, rfl⟩ |
              ⟨hk, hopen, first, r₁, d, r₂, hfirst, hd, hclose, rfl, rfl⟩
            · exact term_of_leafAfter hk (hwf.1 hk) hleaf
            · obtain ⟨front, rfl, hfront⟩ := location_of_placeNext hplace
              exact ⟨t :: front, rfl, .name hk hfront⟩
            · have hwf₁ := forall_mem_of_term hwf.2 hfirst
              obtain ⟨fs, rfl, hfs⟩ := ihterm r first r₁ hwf.2 hfirst
              obtain ⟨us, rfl, hus⟩ := ihop first r₁ d r₂ hwf₁ hd
              obtain ⟨u, hu, hr₂⟩ := exists_of_parenNext hclose
              refine ⟨t :: ((fs ++ us) ++ [u]), ?_, .group (Prod.ext hk hopen) (.mk hfs hus) hu⟩
              rw [hr₂]
              simp
      · rcases operators_cases h with ⟨rfl, rfl⟩ | ⟨t, r, j, right, r₁, rfl, hk, hj, hright, hrest⟩
        · exact ⟨[], rfl, .done c⟩
        · rw [List.forall_mem_cons] at hwf
          have hwf₁ := forall_mem_of_term hwf.2 hright
          obtain ⟨fs, rfl, hfs⟩ := ihterm r right r₁ hwf.2 hright
          obtain ⟨us, rfl, hus⟩ := ihop _ r₁ c rest hwf₁ hrest
          refine ⟨t :: (fs ++ us), by simp, .more ?_ hfs hus⟩
          exact Prod.ext hk (Joint.word_of_ofWord? hj).symm

theorem derives_of_term_and_operators (n : Nat) :
    (∀ ts c rest, (∀ t ∈ ts, t.IsWellFormed) → term n ts = .ok (c, rest) →
      ∃ front, ts = front ++ rest ∧ Term front c) ∧
    ∀ left ts c rest, (∀ t ∈ ts, t.IsWellFormed) → operators n left ts = .ok (c, rest) →
      ∃ front, ts = front ++ rest ∧ Steps left front c :=
  ⟨fun ts c rest hwf => (derives_of_counts n).1 ts c rest fun t ht _ => hwf t ht,
    fun left ts c rest hwf => (derives_of_counts n).2 left ts c rest fun t ht _ => hwf t ht⟩

/-! ### What is derived is read -/

theorem placeNext_of_location {p : Place} (h : Location ts p)
    (hrest : ∀ t ∈ rest.head?, t.kind ≠ .location) : placeNext (ts ++ rest) = .ok (p, rest) := by
  cases h with
  | missing =>
      cases rest with
      | nil => rfl
      | cons t rest => exact if_neg (hrest t rfl)
  | @named t p ht =>
      obtain ⟨hk, hv⟩ := Prod.mk.inj ht
      show placeNext (t :: rest) = _
      rw [placeNext, if_pos hk, hv, Place.ofWord?_word]

/-- Operators go on with no location. -/
theorem head?_of_steps (h : Steps left ts c) (hrest : ∀ t ∈ rest.head?, t.kind ≠ .location) :
    ∀ t ∈ (ts ++ rest).head?, t.kind ≠ .location := by
  cases h with
  | done => exact hrest
  | @more _ _ _ u _ _ _ hu _ _ =>
      intro t ht
      obtain rfl : u = t := by simpa using ht
      rw [(Prod.mk.inj hu).1]
      simp

/-- A pair of parentheses with a term in it is not empty. -/
theorem parenNext_of_term (h : Term ts c) (r : List Token) : parenNext ")" (ts ++ r) = false := by
  obtain ⟨t, us, rfl, ht⟩ := h.exists_cons
  rw [← Bool.not_eq_true]
  intro hparen
  obtain ⟨u, hu, hcons⟩ := exists_of_parenNext hparen
  obtain ⟨rfl, -⟩ := List.cons.inj hcons
  exact ht hu

/-- **What the grammar derives is read off the front of any tokens** with which it does not go on. -/
theorem term_and_operators_of_derives (n : Nat) :
    (∀ {ts c}, Term ts c → ∀ rest, (∀ t ∈ rest.head?, t.kind ≠ .location) →
      (ts ++ rest).length ≤ n → term n (ts ++ rest) = .ok (c, rest)) ∧
    ∀ {left ts c}, Steps left ts c → ∀ rest, (∀ t ∈ rest.head?, t.kind ≠ .location) →
      (∀ t ∈ rest.head?, t.kind ≠ .operator) → (ts ++ rest).length ≤ n →
      operators n left (ts ++ rest) = .ok (c, rest) := by
  -- on the fuel: each part of a derivation has fewer tokens than the whole
  induction n with
  | zero =>
      refine ⟨fun {ts c} h rest hrest hn => ?_, fun {left ts c} h rest hrest hop hn => ?_⟩
      · obtain ⟨t, r, rfl, -⟩ := h.exists_cons
        simp at hn
      · cases h with
        | done => rfl
        | more => simp at hn
  | succ n ih =>
      obtain ⟨ihterm, ihop⟩ := ih
      refine ⟨fun {ts c} h rest hrest hn => ?_, fun {left ts c} h rest hrest hop hn => ?_⟩
      · cases h with
        | @name t ts p ht hts =>
            rw [List.cons_append, term, ht]
            simp only [placeNext_of_location hts hrest, bind, Except.bind]
            rfl
        | @count t u ts k o p ht hu hts =>
            obtain ⟨ho, hk⟩ := comparisonOf_of_counts ht
            rw [List.cons_append, List.cons_append, term, ht.1]
            show leafAfter t.value t.position (u :: (ts ++ rest)) = _
            rw [leafAfter, if_pos hu, ho, hk, placeNext_of_location hts hrest]
            rfl
        | @group t u ts c ht hts hu =>
            have hrest' : ∀ v ∈ (u :: rest).head?, v.kind ≠ .location ∧ v.kind ≠ .operator := by
              rintro v hv
              obtain rfl : u = v := by simpa using hv
              rw [(Prod.mk.inj hu).1]
              simp
            cases hts with
            | @mk first _ ts us hts hus =>
                have happend : t :: (ts ++ us ++ [u]) ++ rest = t :: (ts ++ (us ++ u :: rest)) := by simp
                rw [happend] at hn ⊢
                simp only [List.length_cons, List.length_append] at hn
                have hhead := head?_of_steps hus fun v hv => (hrest' v hv).1
                have hread := ihterm hts (us ++ u :: rest) hhead
                  (by simp only [List.length_cons, List.length_append]; omega)
                have hread' := ihop hus (u :: rest) (fun v hv => (hrest' v hv).1)
                  (fun v hv => (hrest' v hv).2)
                  (by simp only [List.length_cons, List.length_append]; omega)
                refine term_paren ht hu (parenNext_of_term hts _) ?_
                rw [resume, hread]
                exact hread'
      · cases h with
        | done =>
            cases rest with
            | nil => rfl
            | cons t rest => rw [List.nil_append, operators, if_neg (hop t rfl)]
        | @more _ right _ t j ts us ht hts hus =>
            have happend : t :: (ts ++ us) ++ rest = t :: (ts ++ (us ++ rest)) := by simp
            rw [happend] at hn ⊢
            simp only [List.length_cons, List.length_append] at hn
            have hread := ihterm hts (us ++ rest) (head?_of_steps hus hrest)
              (by simp only [List.length_append]; omega)
            have hread' := ihop hus rest hrest hop (by simp only [List.length_append]; omega)
            rw [operators_cons ht, resume, hread]
            exact hread'

/-! ### What is not derived is refused -/

/-- Whatever stops a reading is a fault of some sort. -/
def OnlyFaults (P : Fault → Prop) {α : Type} (r : Except Fault α) : Prop := ∀ f, r = .error f → P f

namespace OnlyFaults

variable {P : Fault → Prop} {α β : Type}

theorem ok (a : α) : OnlyFaults P (.ok a : Except Fault α) := fun _ h => by cases h

theorem error {f : Fault} (hf : P f) : OnlyFaults P (.error f : Except Fault α) := by
  intro g h
  obtain rfl := Except.error.inj h
  exact hf

theorem bind {x : Except Fault α} {f : α → Except Fault β} (hx : OnlyFaults P x)
    (hf : ∀ a, x = .ok a → OnlyFaults P (f a)) : OnlyFaults P (x >>= f) := by
  intro g h
  rcases bind_eq_error.1 h with hfirst | ⟨a, ha, hrest⟩
  · exact hx g hfirst
  · exact hf a ha g hrest

theorem bind_iff {x : Except Fault α} {f : α → Except Fault β} :
    OnlyFaults P (x >>= f) ↔ OnlyFaults P x ∧ ∀ a, x = .ok a → OnlyFaults P (f a) := by
  refine ⟨fun h => ⟨fun g hg => h g (bind_eq_error.2 (Or.inl hg)), fun a ha g hg => ?_⟩, fun h => h.1.bind h.2⟩
  exact h g (bind_eq_error.2 (Or.inr ⟨a, ha, hg⟩))

theorem map_iff {x : Except Fault α} {f : α → β} : OnlyFaults P (x.map f) ↔ OnlyFaults P x := by
  simp only [OnlyFaults, map_eq_error]

end OnlyFaults

/-- Tokens of some kind are refused with faults of some sort: with those of the grammar, and with what counts, places
and operators come to whose values are none. -/
structure Refuses (P : Fault → Prop) (Q : Token → Prop) : Prop where
  grammar : ∀ f : Fault, f.kind = .grammar → P f
  count : ∀ t, Q t → t.kind = .number →
    OnlyFaults P (comparisonOf t.value.toList) ∧ OnlyFaults P (countOf t.value.toList)
  place : ∀ t, Q t → t.kind = .location → Place.ofWord? t.value = none →
    P (.notAChoice (.text t.value) "Location")
  operator : ∀ t, Q t → t.kind = .operator → Joint.ofWord? t.value = none →
    P (.notAChoice (.text t.value) "LogicType")

namespace Refuses

variable {P : Fault → Prop} {Q : Token → Prop}

theorem placeNext (h : Refuses P Q) (hts : ∀ t ∈ ts, Q t) : OnlyFaults P (Condition.placeNext ts) := by
  cases ts with
  | nil => exact .ok _
  | cons t ts =>
      rw [Condition.placeNext]
      split
      · rename_i hk
        split
        · exact .ok _
        · rename_i hp
          exact .error (h.place t (hts t List.mem_cons_self) hk hp)
      · exact .ok _

theorem leafAfter (h : Refuses P Q) (hk : t.kind = .number) (ht : Q t) (hts : ∀ u ∈ ts, Q u) :
    OnlyFaults P (Condition.leafAfter t.value t.position ts) := by
  cases ts with
  | nil => exact .error (h.grammar _ rfl)
  | cons u ts =>
      rw [Condition.leafAfter]
      split
      · obtain ⟨hsign, hcount⟩ := h.count t ht hk
        have hplace := h.placeNext fun v hv => hts v (List.mem_cons_of_mem u hv)
        exact hsign.bind fun _ _ => hcount.bind fun _ _ => hplace.bind fun _ _ => .ok _
      · exact .error (h.grammar _ rfl)

theorem term_and_operators (h : Refuses P Q) (n : Nat) :
    (∀ ts, (∀ t ∈ ts, Q t) → OnlyFaults P (term n ts)) ∧
    ∀ left ts, (∀ t ∈ ts, Q t) → OnlyFaults P (operators n left ts) := by
  induction n with
  | zero => exact ⟨fun ts _ => .error (h.grammar _ rfl), fun left ts _ => .ok _⟩
  | succ n ih =>
      obtain ⟨ihterm, ihop⟩ := ih
      refine ⟨fun ts hts => ?_, fun left ts hts => ?_⟩
      · cases ts with
        | nil => exact .error (h.grammar _ rfl)
        | cons t r =>
            obtain ⟨ht, hr⟩ := List.forall_mem_cons.1 hts
            rw [term]
            split
            · rename_i hk
              exact h.leafAfter hk ht hr
            · exact (h.placeNext hr).bind fun p _ => .ok _
            · split
              · split
                · exact .error (h.grammar _ rfl)
                · refine (ihterm r hr).bind ?_
                  rintro ⟨first, r₁⟩ hfirst
                  refine (ihop first r₁ (forall_mem_of_term hr hfirst)).bind ?_
                  rintro ⟨d, r₂⟩ -
                  dsimp only
                  split
                  · exact .ok _
                  · exact .error (h.grammar _ rfl)
              · exact .error (h.grammar _ rfl)
            · exact .error (h.grammar _ rfl)
      · cases ts with
        | nil => exact .ok _
        | cons t r =>
            obtain ⟨ht, hr⟩ := List.forall_mem_cons.1 hts
            rw [operators]
            split
            · rename_i hk
              refine (ihterm r hr).bind ?_
              rintro ⟨right, r₁⟩ hright
              dsimp only
              split
              · exact ihop _ r₁ (forall_mem_of_term hr hright)
              · rename_i hj
                exact .error (h.operator t ht hk hj)
            · exact .ok _

/-- **What stops the reading of tokens.** -/
theorem ofTokens (h : Refuses P Q) (hts : ∀ t ∈ ts, Q t) : OnlyFaults P (Condition.ofTokens ts) := by
  obtain ⟨hterm, hop⟩ := h.term_and_operators (ts.length + 1)
  unfold Condition.ofTokens
  split
  · exact .error (h.grammar _ rfl)
  · refine (hterm ts hts).bind ?_
    rintro ⟨first, r⟩ hfirst
    refine (hop first r (forall_mem_of_term hts hfirst)).bind ?_
    rintro ⟨d, r'⟩ -
    dsimp only
    split
    · exact .ok _
    · split
      · exact .error (h.grammar _ rfl)
      · exact .error (h.grammar _ rfl)

end Refuses

/-- Well-formed tokens are refused with faults of the grammar only: they have the values that belong to them. -/
theorem refuses_wellFormed : Refuses (·.kind = .grammar) Token.IsWellFormed where
  grammar _ h := h
  count t ht hk := by
    simp only [Token.IsWellFormed, hk] at ht
    obtain ⟨n, o, hcounts⟩ := ht
    obtain ⟨ho, hn⟩ := comparisonOf_of_counts hcounts
    rw [ho, hn]
    exact ⟨.ok _, .ok _⟩
  place t ht hk hp := by
    simp only [Token.IsWellFormed, hk] at ht
    obtain ⟨p, hword⟩ := ht
    rw [hword, Place.ofWord?_word] at hp
    cases hp
  operator t ht hk hj := by
    simp only [Token.IsWellFormed, hk] at ht
    obtain ⟨j, hword⟩ := ht
    rw [hword, Joint.ofWord?_word] at hj
    cases hj

/-- **Reading is deriving.** Well-formed tokens are read as a condition exactly if the grammar derives it from
all of them. So it derives at most one condition from them; if it derives none, they are refused with a
fault of the grammar. -/
theorem ofTokens_eq_ok_iff (hwf : ∀ t ∈ ts, t.IsWellFormed) :
    (∀ c, ofTokens ts = .ok c ↔ Sentence ts c) ∧
      (∀ c d, Sentence ts c → Sentence ts d → c = d) ∧
      ((¬ ∃ c, Sentence ts c) → ∃ f, ofTokens ts = .error f ∧ f.kind = .grammar) := by
  have hiff : ∀ c, ofTokens ts = .ok c ↔ Sentence ts c := by
    intro c
    rw [ofTokens_eq_ok]
    constructor
    · rintro ⟨-, first, r, hfirst, hc⟩
      obtain ⟨hterm, hop⟩ := derives_of_term_and_operators (ts.length + 1)
      have hr := forall_mem_of_term hwf hfirst
      obtain ⟨front, rfl, hfront⟩ := hterm ts first r hwf hfirst
      obtain ⟨back, rfl, hback⟩ := hop first r c [] hr hc
      rw [List.append_nil]
      exact .mk hfront hback
    · intro h
      cases h with
      | @mk first _ ts us hts hus =>
          obtain ⟨t, r, hcons, -⟩ := hts.exists_cons
          obtain ⟨hterm, hop⟩ := term_and_operators_of_derives ((ts ++ us).length + 1)
          have hus' := hop hus [] (by simp) (by simp) (by simp; omega)
          have hhead : ∀ t ∈ (us ++ []).head?, t.kind ≠ .location := head?_of_steps hus (by simp)
          rw [List.append_nil] at hus' hhead
          exact ⟨by simp [hcons], first, us, hterm hts us hhead (by omega), hus'⟩
  refine ⟨hiff, fun c d hc hd => ?_, fun hno => ?_⟩
  · exact Except.ok.inj (((hiff c).2 hc).symm.trans ((hiff d).2 hd))
  · cases hread : ofTokens ts with
    | ok c => exact absurd ⟨c, (hiff c).1 hread⟩ hno
    | error f => exact ⟨f, rfl, refuses_wellFormed.ofTokens hwf f hread⟩

/-- A count, two operators, and two pairs of parentheses. -/
def mixed : List Token :=
  [⟨.number, "2-", 0⟩, ⟨.name, "A", 3⟩, ⟨.operator, "OR", 5⟩, ⟨.paren, "(", 8⟩, ⟨.name, "B", 9⟩,
    ⟨.location, "DECK", 11⟩, ⟨.paren, ")", 18⟩, ⟨.operator, "AND", 20⟩, ⟨.paren, "(", 24⟩,
    ⟨.name, "C", 25⟩, ⟨.operator, "OR", 27⟩, ⟨.name, "D", 30⟩, ⟨.paren, ")", 31⟩]

/-- The operators group to the left, and only the joint in parentheses remembers them. Without its last token
nothing is derived from the list. -/
theorem ofTokens_eq_ok_iff_mixed :
    Sentence mixed (.joint .and
        (.joint .or (.leaf ⟨"A", 2, .atMost, .hand⟩) (.leaf ⟨"B", 1, .atLeast, .deck⟩) false)
        (.joint .or (.leaf ⟨"C", 1, .atLeast, .hand⟩) (.leaf ⟨"D", 1, .atLeast, .hand⟩) true) false) ∧
      (∀ t ∈ mixed, t.IsWellFormed) ∧ ¬ ∃ c, Sentence mixed.dropLast c := by
  have hwf : ∀ t ∈ mixed, t.IsWellFormed := by
    have hdigit : ∀ c ∈ ['2'], isDigit c = true := List.forall_mem_singleton.2 (by decide)
    have hcount : Token.IsWellFormed ⟨.number, "2-", 0⟩ :=
      ⟨2, .atMost, rfl, ['2'], by decide, hdigit, by decide, by decide⟩
    have hor : ∀ i, Token.IsWellFormed ⟨.operator, "OR", i⟩ := fun i => ⟨.or, rfl⟩
    have hand : ∀ i, Token.IsWellFormed ⟨.operator, "AND", i⟩ := fun i => ⟨.and, rfl⟩
    have hdeck : ∀ i, Token.IsWellFormed ⟨.location, "DECK", i⟩ := fun i => ⟨.deck, rfl⟩
    have hopen : ∀ i, Token.IsWellFormed ⟨.paren, "(", i⟩ := fun i => Or.inl rfl
    have hclose : ∀ i, Token.IsWellFormed ⟨.paren, ")", i⟩ := fun i => Or.inr rfl
    have hname : ∀ s i, s ≠ "" → Token.IsWellFormed ⟨.name, s, i⟩ := fun s i hs => hs
    simp [mixed, hcount, hor, hand, hdeck, hopen, hclose, hname]
  refine ⟨((ofTokens_eq_ok_iff hwf).1 _).1 (by decide +kernel), hwf, ?_⟩
  rintro ⟨c, hc⟩
  have hless : ∀ t ∈ mixed.dropLast, t.IsWellFormed := fun t ht => hwf t (List.dropLast_subset mixed ht)
  have hread := ((ofTokens_eq_ok_iff hless).1 c).2 hc
  have hno : ofTokens mixed.dropLast = .error (.unclosedParenthesis 24) := by decide +kernel
  rw [hno] at hread
  cases hread

end Condition

end OpeningHand
