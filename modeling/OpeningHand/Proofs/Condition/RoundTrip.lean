import OpeningHand.Proofs.Condition.Spelling

/-!
# Conditions written and read back

Operators group to the left, so the text of a condition is read back as the condition in which each
right side without parentheses has been taken apart and its joints moved to the left
(`Condition.regroup`, `Condition.ofText_text_eq`). That is the same condition exactly if no right side
is a joint without parentheses: regrouping never makes the right sides of a condition heavier, and makes
them lighter if it changes anything (`Condition.weight_regroupOnto`).
-/

namespace OpeningHand.Condition

open Text

/-! ### Grouping to the left -/

/-- A condition as the right side of what is open before it, if anything is. -/
def onto : Option (Condition × Joint) → Condition → Condition
  | none, c => c
  | some (left, j), c => .joint j left c false

/-- The condition that is read from the text of a condition, behind what is open before it. -/
def regroupOnto (before : Option (Condition × Joint)) : Condition → Condition
  | .leaf l => onto before (.leaf l)
  | .joint j a b grouped =>
    if grouped then onto before (regroupOnto (some (regroupOnto none a, j)) b).inParentheses
    else regroupOnto (some (regroupOnto before a, j)) b

/-- The condition that is read from the text of a condition. -/
def regroup (c : Condition) : Condition := regroupOnto none c

/-- The number of joints. -/
def joints : Condition → Nat
  | .leaf _ => 0
  | .joint _ a b _ => a.joints + b.joints + 1

/-- The number of joints in right sides, those in several of them counted for each. -/
def weight : Condition → Nat
  | .leaf _ => 0
  | .joint _ a b _ => a.weight + b.weight + b.joints

@[simp]
theorem joints_inParentheses (c : Condition) : c.inParentheses.joints = c.joints := by
  cases c <;> rfl

@[simp]
theorem weight_inParentheses (c : Condition) : c.inParentheses.weight = c.weight := by
  cases c <;> rfl

@[simp]
theorem joints_bare (c : Condition) : c.bare.joints = c.joints := by
  induction c with
  | leaf l => rfl
  | joint j a b g iha ihb => simp [bare, joints, iha, ihb]

@[simp]
theorem weight_bare (c : Condition) : c.bare.weight = c.weight := by
  induction c with
  | leaf l => rfl
  | joint j a b g iha ihb => simp [bare, weight, iha, ihb]

theorem joints_onto (before : Option (Condition × Joint)) {c d : Condition}
    (h : c.joints = d.joints) : (onto before c).joints = (onto before d).joints := by
  cases before with
  | none => exact h
  | some p => simp [onto, joints, h]

theorem joints_regroupOnto (before : Option (Condition × Joint)) (c : Condition) :
    (regroupOnto before c).joints = (onto before c).joints := by
  induction c generalizing before with
  | leaf l => rfl
  | joint j a b grouped iha ihb =>
      have hinner : ∀ before', (regroupOnto (some (regroupOnto before' a, j)) b).joints
          = (onto before' a).joints + b.joints + 1 := by
        intro before'
        rw [ihb, onto, joints, iha]
      cases grouped with
      | true =>
          rw [regroupOnto, if_pos rfl]
          exact joints_onto before (by rw [joints_inParentheses, hinner, onto, joints])
      | false =>
          rw [regroupOnto, if_neg (by simp), hinner]
          cases before with
          | none => rfl
          | some p => simp [onto, joints]; omega

/-- **Regrouping makes right sides lighter, or changes nothing.** -/
theorem weight_regroupOnto (before : Option (Condition × Joint)) (c : Condition) :
    (regroupOnto before c).weight ≤ (onto before c).weight ∧
      ((regroupOnto before c).weight = (onto before c).weight →
        c.rightGrouped = true ∧ (before = none ∨ c.isGrouped = true)) := by
  induction c generalizing before with
  | leaf l => exact ⟨le_rfl, fun _ => ⟨rfl, Or.inr rfl⟩⟩
  | joint j a b grouped iha ihb =>
      have hb : ∀ before', (regroupOnto (some (regroupOnto before' a, j)) b).weight
          ≤ (regroupOnto before' a).weight + b.weight + b.joints := fun before' =>
        (ihb (some (regroupOnto before' a, j))).1
      have ha : ∀ before', (regroupOnto before' a).weight ≤ (onto before' a).weight :=
        fun before' => (iha before').1
      -- nothing is open before: then both sides must have kept their weight
      have hnone : (regroupOnto (some (regroupOnto none a, j)) b).weight
          = a.weight + b.weight + b.joints → rightGrouped (.joint j a b grouped) = true := by
        intro h
        have hea : (regroupOnto none a).weight = (onto none a).weight := by
          have h₁ := hb none
          have h₂ := ha none
          rw [onto] at h₂ ⊢
          omega
        have heb : (regroupOnto (some (regroupOnto none a, j)) b).weight
            = (onto (some (regroupOnto none a, j)) b).weight := by
          rw [h, onto, weight, hea, onto]
        have hga := ((iha none).2 hea).1
        obtain ⟨hgb, hopen⟩ := (ihb _).2 heb
        simpa [rightGrouped, hga, hgb] using hopen
      have hle : (regroupOnto (some (regroupOnto none a, j)) b).weight
          ≤ a.weight + b.weight + b.joints := by
        have h₁ := hb none
        have h₂ := ha none
        rw [onto] at h₂
        omega
      cases grouped with
      | true =>
          rw [regroupOnto, if_pos rfl]
          cases before with
          | none =>
              rw [onto, weight_inParentheses]
              exact ⟨hle, fun h => ⟨hnone h, Or.inl rfl⟩⟩
          | some p =>
              have hj : (regroupOnto (some (regroupOnto none a, j)) b).joints
                  = (Condition.joint j a b true).joints := by
                rw [joints_regroupOnto, onto, joints, joints_regroupOnto, onto, joints]
              simp only [onto, weight, weight_inParentheses, joints_inParentheses, hj]
              exact ⟨by omega, fun h => ⟨hnone (by omega), Or.inr rfl⟩⟩
      | false =>
          rw [regroupOnto, if_neg (by simp)]
          cases before with
          | none => exact ⟨hle, fun h => ⟨hnone h, Or.inl rfl⟩⟩
          | some p =>
              -- a joint without parentheses behind something open is taken apart
              have h₁ := hb (some p)
              have h₂ := ha (some p)
              simp only [onto, weight, joints] at h₁ h₂ ⊢
              exact ⟨by omega, fun h => by omega⟩

theorem regroupOnto_eq {before : Option (Condition × Joint)} {c : Condition}
    (hc : c.rightGrouped = true) (hbefore : before = none ∨ c.isGrouped = true) :
    regroupOnto before c = onto before c := by
  induction c generalizing before with
  | leaf l => rfl
  | joint j a b grouped iha ihb =>
      simp only [rightGrouped, Bool.and_eq_true] at hc
      obtain ⟨⟨ha, hb⟩, hgb⟩ := hc
      have hinner : regroupOnto (some (regroupOnto none a, j)) b = .joint j a b false := by
        rw [ihb hb (Or.inr hgb), iha ha (Or.inl rfl)]
        rfl
      cases grouped with
      | true =>
          rw [regroupOnto, if_pos rfl, hinner]
          rfl
      | false =>
          obtain rfl : before = none := by simpa [isGrouped] using hbefore
          rw [regroupOnto, if_neg (by simp), hinner]
          rfl

/-- **Reading back keeps exactly the conditions whose right sides are leaves or stand in
parentheses.** -/
theorem same_regroup_iff {c : Condition} : c.regroup.same c = true ↔ c.rightGrouped = true := by
  constructor
  · intro h
    have hbare : c.regroup.bare = c.bare := by simpa [same] using h
    have hweight : c.regroup.weight = c.weight := by rw [← weight_bare, hbare, weight_bare]
    exact ((weight_regroupOnto none c).2 hweight).1
  · intro h
    rw [regroup, regroupOnto_eq h (Or.inl rfl)]
    simp [onto, same]

/-! ### Reading the tokens of a condition -/

open Token

/-- As much fuel as there are tokens is enough. -/
theorem fuel_of_length_le (n : Nat) :
    (∀ ts : List Token, ts.length ≤ n → term (n + 1) ts = term n ts) ∧
      ∀ left, ∀ ts : List Token, ts.length ≤ n → operators (n + 1) left ts = operators n left ts := by
  induction n with
  | zero =>
      refine ⟨fun ts hts => ?_, fun left ts hts => ?_⟩
      · obtain rfl := List.length_eq_zero_iff.1 (Nat.le_zero.1 hts)
        rfl
      · obtain rfl := List.length_eq_zero_iff.1 (Nat.le_zero.1 hts)
        rfl
  | succ n ih =>
      obtain ⟨ihterm, ihop⟩ := ih
      have hrest : ∀ {r rest : List Token} {c : Condition}, r.length ≤ n →
          term n r = .ok (c, rest) → rest.length ≤ n := fun hr h =>
        ((suffix_of_term h).length_le.trans (List.tail_suffix _).length_le).trans hr
      refine ⟨fun ts hts => ?_, fun left ts hts => ?_⟩
      · cases ts with
        | nil => rfl
        | cons t r =>
            have hr : r.length ≤ n := by simpa using hts
            rw [term, term, ihterm r hr]
            cases h : term n r with
            | error e => rfl
            | ok p =>
                obtain ⟨first, rest⟩ := p
                simp only [bind, Except.bind]
                rw [ihop first rest (hrest hr h)]
      · cases ts with
        | nil => rfl
        | cons t r =>
            have hr : r.length ≤ n := by simpa using hts
            rw [operators, operators, ihterm r hr]
            cases h : term n r with
            | error e => rfl
            | ok p =>
                obtain ⟨right, rest⟩ := p
                simp only [bind, Except.bind]
                split
                · split
                  · exact ihop _ rest (hrest hr h)
                  · rfl
                · rfl

theorem operators_succ {n : Nat} {ts : List Token} (left : Condition) (h : ts.length ≤ n) :
    operators (n + 1) left ts = operators n left ts := (fuel_of_length_le n).2 left ts h

/-- A term and the operators after it, behind what is open before it. -/
def resume (n : Nat) (before : Option (Condition × Joint)) (ts : List Token) :
    Except Fault (Condition × List Token) :=
  term n ts >>= fun p => operators n (onto before p.1) p.2

theorem operators_cons {n : Nat} {left : Condition} {t : Token} {j : Joint}
    (ht : t.shape = (.operator, j.word)) (ts : List Token) :
    operators (n + 1) left (t :: ts) = resume n (some (left, j)) ts := by
  obtain ⟨hk, hv⟩ := Prod.mk.inj ht
  rw [operators, if_pos hk, hv, Joint.ofWord?_word]
  rfl

/-- The sign of a written count is read back. -/
theorem comparisonOf_append {ds : List Char} (hne : ds ≠ []) (hds : ∀ c ∈ ds, isDigit c = true)
    (o : Comparison) : comparisonOf (ds ++ o.sign.toList) = .ok o := by
  cases o with
  | atLeast => simp [comparisonOf, Comparison.sign]
  | atMost => simp [comparisonOf, Comparison.sign]
  | exactly =>
      have hlast : ds.getLast? = some (ds.getLast hne) := List.getLast?_eq_some_getLast hne
      have hdigit := hds _ (List.getLast_mem hne)
      simp only [comparisonOf, Comparison.sign, String.toList_empty, List.append_nil, hlast]
      split
      · simp_all
      · rename_i heq
        rw [Option.some.inj heq] at hdigit
        exact absurd hdigit (by decide)
      · rename_i heq
        rw [Option.some.inj heq] at hdigit
        exact absurd hdigit (by decide)
      · rfl

theorem term_spelling_leaf {n : Nat} {l : Leaf} {ts : List Token} (hcount : 0 ≤ l.count)
    (hts : ts.map Token.shape = l.spelling) (r : List Token) :
    term (n + 1) (ts ++ r) = .ok (.leaf l, r) := by
  obtain ⟨t₁, ts, rfl, ht₁, hts⟩ := List.map_eq_cons_iff.1 hts
  obtain ⟨t₂, ts, rfl, ht₂, hts⟩ := List.map_eq_cons_iff.1 hts
  obtain ⟨t₃, ts, rfl, ht₃, hts⟩ := List.map_eq_cons_iff.1 hts
  obtain rfl := List.map_eq_nil_iff.1 hts
  obtain ⟨hk₁, hv₁⟩ := Prod.mk.inj ht₁
  obtain ⟨hk₂, hv₂⟩ := Prod.mk.inj ht₂
  obtain ⟨hk₃, hv₃⟩ := Prod.mk.inj ht₃
  have hamount : t₁.value.toList
      = Number.digits l.count.natAbs ++ l.comparison.sign.toList := by
    rw [hv₁, String.toList_append, Number.text, Number.signed, if_neg (by omega),
      String.toList_ofList]
  have hdigits : ∀ c ∈ Number.digits l.count.natAbs, isDigit c = true := fun c hc =>
    Number.digits_isDigit hc
  have hne := Number.digits_ne_nil l.count.natAbs
  have hcomparison : comparisonOf t₁.value.toList = .ok l.comparison := by
    rw [hamount, comparisonOf_append hne hdigits]
  have hcount' : countOf t₁.value.toList = .ok l.count := by
    rw [hamount, countOf_append hne hdigits l.comparison.mem_sign,
      Number.ofDigits_digits, Int.natAbs_of_nonneg hcount]
  have hplace : placeNext (t₃ :: r) = .ok (l.place, r) := by
    rw [placeNext, if_pos hk₃, hv₃, Place.ofWord?_word]
  show term (n + 1) (t₁ :: t₂ :: t₃ :: r) = _
  rw [term, hk₁]
  show leafAfter t₁.value t₁.position (t₂ :: t₃ :: r) = _
  rw [leafAfter, if_pos hk₂, hcomparison, hcount', hplace, hv₂]
  rfl

/-- No condition's tokens begin with a closing parenthesis. -/
theorem exists_spelling_eq_cons (c : Condition) :
    ∃ x l, c.spelling = x :: l ∧ x ≠ (.paren, ")") := by
  induction c with
  | leaf l => exact ⟨_, _, rfl, by simp⟩
  | joint j a b grouped iha ihb =>
      obtain ⟨x, l, ha, hx⟩ := iha
      cases grouped with
      | true => exact ⟨(.paren, "("), _, rfl, by simp⟩
      | false => exact ⟨x, _, by simp [spelling, ha]; rfl, hx⟩

theorem parenNext_spelling {c : Condition} {ts : List Token} (hts : ts.map Token.shape = c.spelling)
    (r : List Token) : parenNext ")" (ts ++ r) = false := by
  obtain ⟨x, l, hc, hx⟩ := exists_spelling_eq_cons c
  rw [hc] at hts
  obtain ⟨t, ts, rfl, rfl, -⟩ := List.map_eq_cons_iff.1 hts
  rw [← Bool.not_eq_true]
  intro h
  simp only [List.cons_append, parenNext, Bool.and_eq_true, decide_eq_true_eq, beq_iff_eq] at h
  exact hx (Prod.ext h.1 h.2)

/-- A pair of parentheses around what is read as a condition up to the closing one. -/
theorem term_paren {n : Nat} {t u : Token} {ts r : List Token} {c : Condition}
    (ht : t.shape = (.paren, "(")) (hu : u.shape = (.paren, ")")) (hopen : parenNext ")" ts = false)
    (h : resume n none ts = .ok (c, u :: r)) : term (n + 1) (t :: ts) = .ok (c.inParentheses, r) := by
  obtain ⟨hk, hv⟩ := Prod.mk.inj ht
  obtain ⟨hk', hv'⟩ := Prod.mk.inj hu
  obtain ⟨⟨first, rest⟩, hfirst, hc⟩ := bind_eq_ok.1 h
  have hc' : operators n first rest = .ok (c, u :: r) := hc
  have hclose : parenNext ")" (u :: r) = true := by simp [parenNext, hk', hv']
  rw [term, hk]
  simp [hv, hopen, hfirst, hc', hclose, bind, Except.bind]
  rfl

/-- The operators end at a closing parenthesis. -/
theorem operators_paren {u : Token} (hu : u.shape = (.paren, ")")) (n : Nat) (c : Condition)
    (r : List Token) : operators n c (u :: r) = .ok (c, u :: r) := by
  obtain ⟨hk, -⟩ := Prod.mk.inj hu
  cases n with
  | zero => rfl
  | succ n => rw [operators, if_neg (by simp [hk])]

/-- **The tokens of a condition are read as the regrouped condition**, behind anything. -/
theorem resume_spelling {c : Condition} (hcount : ∀ l ∈ c.leaves, 0 ≤ l.count) {n : Nat}
    (before : Option (Condition × Joint)) {ts r : List Token}
    (hts : ts.map Token.shape = c.spelling) (hn : (ts ++ r).length ≤ n) :
    resume n before (ts ++ r) = operators n (regroupOnto before c) r := by
  induction c generalizing n before ts r with
  | leaf l =>
      cases n with
      | zero =>
          obtain ⟨t, ts, rfl, -⟩ := List.map_eq_cons_iff.1 hts
          simp at hn
      | succ n =>
          rw [resume, term_spelling_leaf (hcount l (by simp [leaves])) hts]
          rfl
  | joint j a b grouped iha ihb =>
      have hca : ∀ l ∈ a.leaves, 0 ≤ l.count := fun l hl => hcount l (List.mem_append_left _ hl)
      have hcb : ∀ l ∈ b.leaves, 0 ≤ l.count := fun l hl => hcount l (List.mem_append_right _ hl)
      -- both sides with the word between them
      have hinner : ∀ {n : Nat} (before : Option (Condition × Joint)) {ts r : List Token},
          ts.map Token.shape = a.spelling ++ (.operator, j.word) :: b.spelling →
          (ts ++ r).length ≤ n → resume n before (ts ++ r)
            = operators n (regroupOnto (some (regroupOnto before a, j)) b) r := by
        intro n before ts r hts hn
        obtain ⟨us, vs, rfl, hus, hvs⟩ := List.map_eq_append_iff.1 hts
        obtain ⟨t, ts, rfl, ht, hts⟩ := List.map_eq_cons_iff.1 hvs
        rw [List.append_assoc] at hn ⊢
        cases n with
        | zero => simp at hn
        | succ n =>
            rw [List.length_append, List.cons_append, List.length_cons] at hn
            rw [iha hca before hus (by simp at hn ⊢; omega), List.cons_append, operators_cons ht,
              ihb hcb _ hts (by omega), operators_succ]
            rw [List.length_append] at hn
            omega
      cases grouped with
      | false =>
          rw [regroupOnto, if_neg (by simp)]
          exact hinner before (by simpa [spelling] using hts) hn
      | true =>
          rw [spelling, if_pos rfl] at hts
          obtain ⟨t, ts, rfl, ht, hts⟩ := List.map_eq_cons_iff.1 hts
          obtain ⟨us, vs, rfl, hus, hvs⟩ := List.map_eq_append_iff.1 hts
          obtain ⟨u, vs, rfl, hu, hvs⟩ := List.map_eq_cons_iff.1 hvs
          obtain rfl := List.map_eq_nil_iff.1 hvs
          cases n with
          | zero => simp at hn
          | succ n =>
              have hopen : parenNext ")" (us ++ u :: r) = false := by
                obtain ⟨vs, ws, rfl, hvs, -⟩ := List.map_eq_append_iff.1 hus
                rw [List.append_assoc]
                exact parenNext_spelling hvs _
              have hread := hinner none (r := u :: r) hus (by simp at hn ⊢; omega)
              rw [operators_paren hu] at hread
              have hterm := term_paren ht hu hopen hread
              rw [resume, List.cons_append, List.append_assoc, List.singleton_append, hterm]
              rfl

/-- **What is read from a written condition.** -/
theorem ofText_text_eq {c : Condition} (hcount : ∀ l ∈ c.leaves, 0 ≤ l.count)
    (hname : ∀ l ∈ c.leaves, IsCardName l.name) : ofText c.text = .ok c.regroup := by
  obtain ⟨ts, hts, hscan⟩ := ofText_text hcount hname
  have hread := resume_spelling hcount none hts (r := []) (n := ts.length + 1) (by simp)
  rw [List.append_nil, operators] at hread
  obtain ⟨⟨first, r⟩, hfirst, hc⟩ := bind_eq_ok.1 hread
  have hne : ts ≠ [] := by
    rintro rfl
    obtain ⟨x, l, hx, -⟩ := exists_spelling_eq_cons c
    rw [hx] at hts
    simp at hts
  rw [ofText, hscan]
  exact ofTokens_eq_ok.2 ⟨hne, first, r, hfirst, hc⟩

/-- Conditions that a text can write are told apart by their texts. -/
theorem IsWritable.eq_of_text_eq {a b : Condition} (ha : a.IsWritable) (hb : b.IsWritable)
    (h : a.text = b.text) : a = b := by
  have hread : ∀ {c : Condition}, c.IsWritable → ofText c.text = .ok c := fun hc => by
    rw [ofText_text_eq hc.counts hc.names, regroup, regroupOnto_eq hc.grouped (Or.inl rfl), onto]
  exact Except.ok.inj ((hread ha).symm.trans (h ▸ hread hb))

/-- **Writing a condition and reading it back.**  The condition that is read from the text of a
condition is the same one if and only if no count is negative, every name is a card name, and every
right side is a leaf or stands in parentheses; then the memory of parentheses comes back too. Every
condition that is read from any text is of this kind, so it is read back from its own text. -/
theorem ofText_text_iff :
    (∀ c : Condition, (∃ d, ofText c.text = .ok d ∧ d.same c = true) ↔ c.IsWritable) ∧
      (∀ c : Condition, c.IsWritable → ofText c.text = .ok c) ∧
      ∀ s d, ofText s = .ok d → d.IsWritable ∧ ofText d.text = .ok d := by
  have hback : ∀ c : Condition, c.IsWritable → ofText c.text = .ok c := by
    intro c hc
    rw [ofText_text_eq hc.counts hc.names, regroup, regroupOnto_eq hc.grouped (Or.inl rfl), onto]
  refine ⟨fun c => ⟨?_, fun h => ⟨c, hback c h, by simp [same]⟩⟩, hback, fun s d h => ?_⟩
  · rintro ⟨d, hread, hsame⟩
    have hd := isWritable_of_ofText hread
    have hleaves : d.leaves = c.leaves := by
      have hbare : d.bare = c.bare := by simpa [same] using hsame
      rw [← leaves_bare, hbare, leaves_bare]
    have hcount : ∀ l ∈ c.leaves, 0 ≤ l.count := hleaves ▸ hd.counts
    have hname : ∀ l ∈ c.leaves, IsCardName l.name := hleaves ▸ hd.names
    rw [ofText_text_eq hcount hname] at hread
    obtain rfl := Except.ok.inj hread
    exact ⟨hcount, hname, same_regroup_iff.1 hsame⟩
  · have hd := isWritable_of_ofText h
    exact ⟨hd, hback d hd⟩

/-- A name of two words that could be a location, words that look like counts and joints, and a right
side in parentheses. -/
theorem ofText_text_iff_parentheses :
    ∃ c : Condition, c = .joint .or (.leaf ⟨"IN Deck-Out", 2, .atMost, .deck⟩)
        (.joint .and (.leaf ⟨"7", 0, .exactly, .hand⟩) (.leaf ⟨"ANDY", 1, .atLeast, .hand⟩) true) false ∧
      c.IsWritable ∧ ofText c.text = .ok c ∧ ∃ d, ofText c.text = .ok d ∧ d.same c = true := by
  refine ⟨_, rfl, ?_⟩
  have h : IsWritable (.joint .or (.leaf ⟨"IN Deck-Out", 2, .atMost, .deck⟩)
      (.joint .and (.leaf ⟨"7", 0, .exactly, .hand⟩) (.leaf ⟨"ANDY", 1, .atLeast, .hand⟩) true)
      false) := by decide +kernel
  have hread := ofText_text_iff.2.1 _ h
  exact ⟨(ofText_text_iff.2.2 _ _ hread).1, hread, (ofText_text_iff.1 _).2 h⟩

end OpeningHand.Condition
