import OpeningHand.Proofs.Condition.Scanned

/-!
# What a text is refused with

A text that is no condition should be refused with a fault of the grammar. All but one are: the word for a place may end
in the Kelvin sign (`Token.of_mem_scan`), and such a location is refused as the word for no place, with a fault of
another kind (`kelvinPlace`).

It is refused where it is read, which is behind the name of a leaf and nowhere else. So this happens exactly if some
condition begins with the tokens before it and goes on with a location (`Grammar.LocationNext`); whatever comes later is
not looked at any more (`Condition.ofTokens_eq_error_iff`). Everywhere else the location breaks the grammar.
-/

namespace OpeningHand

/-- Two ways to split a list at one of its members. -/
theorem append_eq_append_cons {α : Type} {xs ys before after : List α} {z : α} (h : xs ++ ys = before ++ z :: after) :
    (∃ more, xs = before ++ z :: more) ∨ ∃ between, before = xs ++ between ∧ ys = between ++ z :: after := by
  rcases List.append_eq_append_iff.1 h with ⟨between, hbefore, hys⟩ | ⟨more, hxs, hmore⟩
  · exact Or.inr ⟨between, hbefore, hys⟩
  · cases more with
    | nil =>
        rw [List.append_nil] at hxs
        exact Or.inr ⟨[], by rw [hxs, List.append_nil], hmore.symm⟩
    | cons w more =>
        obtain ⟨rfl, -⟩ := List.cons.inj hmore
        exact Or.inl ⟨more, hxs⟩

/-- Tokens of some form begin with these tokens and go on with a location. -/
def Grammar.LocationNext (Form : List Token → Prop) (before : List Token) : Prop :=
  ∃ t more, t.kind = .location ∧ Form (before ++ t :: more)

namespace Condition

open Grammar

variable {ts before after : List Token} {t : Token} {n : Nat} {word : String} {f : Fault}

/-! ### Where a fault comes from that is none of the grammar -/

/-- The fault of a location whose word is the word for no place. -/
abbrev noPlace (word : String) : Fault := .notAChoice (.text word) "Location"

theorem placeNext_eq_error : placeNext ts = .error f ↔
    ∃ t after, ts = t :: after ∧ t.kind = .location ∧ Place.ofWord? t.value = none ∧ f = noPlace t.value := by
  cases ts with
  | nil => simp [placeNext]
  | cons t ts =>
      rw [placeNext]
      constructor
      · intro h
        split at h
        · rename_i hk
          split at h
          · cases h
          · rename_i hno
            exact ⟨t, ts, rfl, hk, hno, (Except.error.inj h).symm⟩
        · cases h
      · rintro ⟨_, _, hcons, hk, hno, rfl⟩
        obtain ⟨rfl, rfl⟩ := List.cons.inj hcons
        rw [if_pos hk, hno]

/-- A leaf after a well-formed count. -/
theorem leafAfter_eq_error (hk : t.kind = .number) (hwf : t.IsWellFormed) (hf : f.kind ≠ .grammar) :
    leafAfter t.value t.position ts = .error f ↔ ∃ u r, ts = u :: r ∧ u.kind = .name ∧ placeNext r = .error f := by
  simp only [Token.IsWellFormed, hk] at hwf
  obtain ⟨count, o, hcounts⟩ := hwf
  obtain ⟨ho, hcount⟩ := comparisonOf_of_counts hcounts
  cases ts with
  | nil =>
      refine iff_of_false (fun h => hf ?_) (by simp)
      obtain rfl := Except.error.inj h
      rfl
  | cons u r =>
      rw [leafAfter, ho, hcount]
      constructor
      · intro h
        split at h
        · rename_i hu
          rcases bind_eq_error.1 h with h | ⟨_, -, h⟩
          · cases h
          rcases bind_eq_error.1 h with h | ⟨_, -, h⟩
          · cases h
          rcases bind_eq_error.1 h with h | ⟨_, -, h⟩
          · exact ⟨u, r, rfl, hu, h⟩
          · cases h
        · obtain rfl := Except.error.inj h
          exact absurd rfl hf
      · rintro ⟨_, _, hcons, hu, hplace⟩
        obtain ⟨rfl, rfl⟩ := List.cons.inj hcons
        rw [if_pos hu, hplace]
        rfl

/-- A closing parenthesis where a term is to begin is a fault of the grammar. -/
theorem parenNext_of_resume {before : Option (Condition × Joint)} (hf : f.kind ≠ .grammar)
    (h : resume n before ts = .error f) : parenNext ")" ts = false := by
  rw [← Bool.not_eq_true]
  intro hparen
  obtain ⟨u, hu, hcons⟩ := exists_of_parenNext hparen
  obtain ⟨hk, hv⟩ := Prod.mk.inj hu
  have hterm : ∃ g : Fault, g.kind = .grammar ∧ term n ts = .error g := by
    rw [hcons]
    cases n with
    | zero => exact ⟨_, rfl, rfl⟩
    | succ n =>
        refine ⟨.strayParenthesis u.position, rfl, ?_⟩
        rw [term, hk]
        simp [hv]
  obtain ⟨g, hg, hterm⟩ := hterm
  rw [resume, hterm] at h
  obtain rfl := Except.error.inj h
  exact hf hg

/-- A step after a term and its operators that adds only faults of the grammar to theirs. -/
theorem resume_then_eq_error {α : Type} {g : Condition × List Token → Except Fault α}
    (hg : ∀ p, OnlyFaults (·.kind = .grammar) (g p)) (hf : f.kind ≠ .grammar) :
    (term n ts >>= fun p => operators n p.1 p.2 >>= g) = .error f ↔ resume n none ts = .error f := by
  constructor
  · intro h
    rcases bind_eq_error.1 h with hterm | ⟨p, hterm, h⟩
    · exact bind_eq_error.2 (Or.inl hterm)
    · rcases bind_eq_error.1 h with hop | ⟨q, -, hafter⟩
      · exact bind_eq_error.2 (Or.inr ⟨p, hterm, hop⟩)
      · exact absurd (hg q f hafter) hf
  · intro h
    rcases bind_eq_error.1 h with hterm | ⟨p, hterm, hop⟩
    · exact bind_eq_error.2 (Or.inl hterm)
    · exact bind_eq_error.2 (Or.inr ⟨p, hterm, bind_eq_error.2 (Or.inl hop)⟩)

/-- A pair of parentheses adds only faults of the grammar to what stands in it. -/
theorem term_paren_eq_error (ht : t.shape = (.paren, "(")) (hf : f.kind ≠ .grammar) :
    term (n + 1) (t :: ts) = .error f ↔ resume n none ts = .error f := by
  obtain ⟨hk, hv⟩ := Prod.mk.inj ht
  have hopens : (t.value == "(") = true := by rw [hv]; rfl
  rw [term, hk]
  dsimp only
  rw [if_pos hopens]
  split
  · rename_i hparen
    refine iff_of_false (fun h => hf ?_) fun h => ?_
    · obtain rfl := Except.error.inj h
      rfl
    · rw [parenNext_of_resume hf h] at hparen
      cases hparen
  · refine resume_then_eq_error (fun p => ?_) hf
    split
    · exact .ok _
    · exact .error rfl

/-- What comes behind a condition adds only faults of the grammar. -/
theorem ofTokens_eq_error (hf : f.kind ≠ .grammar) :
    ofTokens ts = .error f ↔ resume (ts.length + 1) none ts = .error f := by
  cases ts with
  | nil =>
      refine iff_of_false (fun h => hf ?_) (fun h => hf ?_)
      · obtain rfl := Except.error.inj h
        rfl
      · obtain rfl := Except.error.inj h
        rfl
  | cons t ts =>
      refine resume_then_eq_error (fun p => ?_) hf
      dsimp only
      split
      · exact .ok _
      · split
        · exact .error rfl
        · exact .error rfl

/-! ### A location that is expected is read -/

/-- With so much fuel all tokens are read up to a location that is expected, where what follows is refused. -/
structure Reaches (n : Nat) (rest : List Token) (f : Fault) : Prop where
  term : ∀ {ts before u more c}, Term ts c → ts = before ++ u :: more → u.kind = .location →
    (before ++ rest).length ≤ n → Condition.term n (before ++ rest) = .error f
  operators : ∀ {ts before u more left c}, Steps left ts c → ts = before ++ u :: more → u.kind = .location →
    (before ++ rest).length ≤ n → Condition.operators n left (before ++ rest) = .error f

/-- A location among tokens of which the first is none stands behind that one. -/
theorem eq_cons_of_kind_ne {v u : Token} {vs more : List Token} (h : v :: vs = before ++ u :: more)
    (hu : u.kind = .location) (hv : v.kind ≠ .location) : ∃ r, before = v :: r ∧ vs = r ++ u :: more := by
  rcases List.cons_eq_append_iff.1 h with ⟨-, hcons⟩ | hbehind
  · obtain ⟨rfl, -⟩ := List.cons.inj hcons
    exact absurd hu hv
  · exact hbehind

/-- What comes before a location that stands in operators and their terms begins with none. -/
theorem head?_of_steps_append {left c : Condition} {u : Token} {more : List Token}
    (h : Steps left (before ++ u :: more) c) (hu : u.kind = .location) (rest : List Token) :
    ∀ t ∈ (before ++ rest).head?, t.kind ≠ .location := by
  have hhead : ∀ t ∈ ((before ++ u :: more) ++ []).head?, t.kind ≠ .location := head?_of_steps h (by simp)
  cases before with
  | nil => exact absurd hu (hhead u rfl)
  | cons b r => exact hhead

theorem Reaches.resume {rest fs us more : List Token} {o : Option (Condition × Joint)} {first c : Condition}
    {u : Token} (h : Reaches n rest f) (hfs : Term fs first) (hus : Steps (onto o first) us c)
    (hsplit : fs ++ us = before ++ u :: more) (hu : u.kind = .location) (hn : (before ++ rest).length ≤ n) :
    Condition.resume n o (before ++ rest) = .error f := by
  rcases append_eq_append_cons hsplit with ⟨more', hts⟩ | ⟨between, rfl, rfl⟩
  · exact bind_eq_error.2 (Or.inl (h.term hfs hts hu hn))
  · rw [List.append_assoc] at hn ⊢
    have hfirst := (term_and_operators_of_derives n).1 hfs (between ++ rest) (head?_of_steps_append hus hu rest) hn
    rw [List.length_append] at hn
    exact bind_eq_error.2 (Or.inr ⟨_, hfirst, h.operators hus rfl hu (by omega)⟩)

/-- A location at which a term goes on is the last of its tokens. -/
theorem eq_nil_of_location {p : Place} {u : Token} {more : List Token} (h : Location (before ++ u :: more) p) :
    before = [] := by
  generalize hts : before ++ u :: more = ts at h
  cases h with
  | missing => simp at hts
  | named =>
      cases before with
      | nil => rfl
      | cons b r => simp at hts

theorem reaches (ht : t.kind = .location) (hno : Place.ofWord? t.value = none) (after : List Token) (n : Nat) :
    Reaches n (t :: after) (noPlace t.value) := by
  have hplace : placeNext (t :: after) = .error (noPlace t.value) :=
    placeNext_eq_error.2 ⟨t, after, rfl, ht, hno, rfl⟩
  have hf : (noPlace t.value).kind ≠ .grammar := FaultKind.noConfusion
  -- on the fuel: each part of a derivation has fewer tokens than the whole
  induction n with
  | zero => exact ⟨fun _ _ _ hn => by simp at hn, fun _ _ _ hn => by simp at hn⟩
  | succ n ih =>
      refine ⟨fun {ts before u more c} h hts hu hn => ?_, fun {ts before u more left c} h hts hu hn => ?_⟩
      · cases h with
        | @name v vs p hv hvs =>
            obtain ⟨r, rfl, rfl⟩ := eq_cons_of_kind_ne hts hu (by simp [hv])
            obtain rfl := eq_nil_of_location hvs
            rw [List.cons_append, List.nil_append, term, hv]
            exact bind_eq_error.2 (Or.inl hplace)
        | @count v w vs k o p hv hw hvs =>
            obtain ⟨r, rfl, htail⟩ := eq_cons_of_kind_ne hts hu (by simp [hv.1])
            obtain ⟨r, rfl, rfl⟩ := eq_cons_of_kind_ne htail hu (by simp [hw])
            obtain rfl := eq_nil_of_location hvs
            have hwf : v.IsWellFormed := by
              rw [Token.IsWellFormed, hv.1]
              exact ⟨k, o, hv⟩
            rw [List.cons_append, List.cons_append, List.nil_append, term, hv.1]
            exact (leafAfter_eq_error hv.1 hwf hf).2 ⟨w, _, rfl, hw, hplace⟩
        | @group v w vs c hv hvs hw =>
            obtain ⟨r, rfl, htail⟩ := eq_cons_of_kind_ne hts hu (by simp [(Prod.mk.inj hv).1])
            rw [List.cons_append, term_paren_eq_error hv hf]
            cases hvs with
            | @mk first _ fs us hfs hus =>
                rcases append_eq_append_cons htail with ⟨more', hsplit⟩ | ⟨between, rfl, hclose⟩
                · exact ih.resume hfs hus hsplit hu (by simpa using hn)
                · -- the location would come behind the closing parenthesis
                  obtain ⟨r, rfl, hnil⟩ := eq_cons_of_kind_ne hclose hu (by simp [(Prod.mk.inj hw).1])
                  simp at hnil
      · cases h with
        | done => simp at hts
        | @more _ right _ v j vs us hv hvs hus =>
            obtain ⟨r, rfl, htail⟩ := eq_cons_of_kind_ne hts hu (by simp [(Prod.mk.inj hv).1])
            rw [List.cons_append, operators_cons hv]
            exact ih.resume hvs hus htail hu (by simpa using hn)

/-! ### A location that is refused is expected -/

/-- The tokens come to a location whose word is the word for no place, where tokens of some form have a location. -/
def ComesTo (word : String) (Form : List Token → Prop) (ts : List Token) : Prop :=
  ∃ before t after, ts = before ++ t :: after ∧ t.shape = (.location, word) ∧ Place.ofWord? word = none ∧
    LocationNext Form before

theorem ComesTo.imp {Form Form' : List Token → Prop} (h : ComesTo word Form ts)
    (hforms : ∀ us, Form us → Form' us) : ComesTo word Form' ts := by
  obtain ⟨before, t, after, rfl, ht, hno, u, more, hu, hform⟩ := h
  exact ⟨before, t, after, rfl, ht, hno, u, more, hu, hforms _ hform⟩

/-- What comes to such a location does so behind other tokens. -/
theorem ComesTo.behind {Form Form' : List Token → Prop} (h : ComesTo word Form ts) (front back : List Token)
    (hforms : ∀ us, Form us → Form' (front ++ (us ++ back))) : ComesTo word Form' (front ++ ts) := by
  obtain ⟨before, t, after, rfl, ht, hno, u, more, hu, hform⟩ := h
  refine ⟨front ++ before, t, after, (List.append_assoc ..).symm, ht, hno, u, more ++ back, hu, ?_⟩
  simpa using hforms _ hform

/-- A place of a name is refused only if a location stands there. -/
theorem comesTo_of_placeNext (h : placeNext ts = .error (noPlace word)) :
    ComesTo word (fun us => ∃ p, Location us p) ts := by
  obtain ⟨t, after, rfl, hk, hno, hfault⟩ := placeNext_eq_error.1 h
  obtain rfl : word = t.value := by simpa using hfault
  exact ⟨[], t, after, rfl, Prod.ext hk rfl, hno, ⟨.location, Place.deck.word, 0⟩, [], rfl, .deck, .named rfl⟩

/-- With so much fuel tokens are refused for the word of a location only where one is expected. -/
structure Traces (n : Nat) (word : String) : Prop where
  term : ∀ {ts}, (∀ t ∈ ts, t.kind ≠ .location → t.IsWellFormed) →
    Condition.term n ts = .error (noPlace word) → ComesTo word (fun us => ∃ c, Term us c) ts
  operators : ∀ {left ts}, (∀ t ∈ ts, t.kind ≠ .location → t.IsWellFormed) →
    Condition.operators n left ts = .error (noPlace word) → ComesTo word (fun us => ∃ c, Steps left us c) ts

theorem Traces.resume {o : Option (Condition × Joint)} (h : Traces n word)
    (hts : ∀ t ∈ ts, t.kind ≠ .location → t.IsWellFormed) (hread : Condition.resume n o ts = .error (noPlace word)) :
    ComesTo word (fun us => ∃ fs first vs c, us = fs ++ vs ∧ Term fs first ∧ Steps (onto o first) vs c) ts := by
  rcases bind_eq_error.1 hread with hterm | ⟨⟨first, r⟩, hfirst, hop⟩
  · refine (h.term hts hterm).imp ?_
    rintro us ⟨first, hus⟩
    exact ⟨us, first, [], _, (List.append_nil us).symm, hus, .done _⟩
  · have hcounts : ∀ t ∈ ts, t.kind = .number → t.IsWellFormed := fun t ht hk =>
      hts t ht (by simp [hk])
    obtain ⟨front, rfl, hfront⟩ := (derives_of_counts n).1 ts first r hcounts hfirst
    have hr : ∀ t ∈ r, t.kind ≠ .location → t.IsWellFormed := fun t ht => hts t (List.mem_append_right _ ht)
    refine (h.operators hr hop).behind front [] ?_
    rintro us ⟨c, hus⟩
    exact ⟨front, first, us, c, by rw [List.append_nil], hfront, hus⟩

theorem traces (n : Nat) (word : String) : Traces n word := by
  have hf : (noPlace word).kind ≠ .grammar := FaultKind.noConfusion
  induction n with
  | zero =>
      refine ⟨fun {ts} _ h => ?_, fun {left ts} _ h => ?_⟩
      · cases h
      · cases h
  | succ n ih =>
      refine ⟨fun {ts} hts h => ?_, fun {left ts} hts h => ?_⟩
      · cases ts with
        | nil => cases h
        | cons t r =>
            obtain ⟨ht, hr⟩ := List.forall_mem_cons.1 hts
            have hread := h
            rw [term] at hread
            split at hread
            · rename_i hk
              have hwf := ht (by simp [hk])
              obtain ⟨u, r, rfl, hu, hplace⟩ := (leafAfter_eq_error hk hwf hf).1 hread
              simp only [Token.IsWellFormed, hk] at hwf
              obtain ⟨count, o, hcounts⟩ := hwf
              refine (comesTo_of_placeNext hplace).behind [t, u] [] ?_
              rintro us ⟨p, hus⟩
              rw [List.append_nil]
              exact ⟨_, .count hcounts hu hus⟩
            · rename_i hk
              rcases bind_eq_error.1 hread with hplace | ⟨_, -, hread⟩
              · refine (comesTo_of_placeNext hplace).behind [t] [] ?_
                rintro us ⟨p, hus⟩
                rw [List.append_nil]
                exact ⟨_, .name hk hus⟩
              · cases hread
            · rename_i hk
              split at hread
              · rename_i hopens
                have hshape : t.shape = (.paren, "(") := Prod.ext hk (eq_of_beq hopens)
                have hinside := (term_paren_eq_error hshape hf).1 h
                refine (ih.resume hr hinside).behind [t] [⟨.paren, ")", 0⟩] ?_
                rintro _ ⟨fs, first, vs, c, rfl, hfs, hvs⟩
                exact ⟨_, .group hshape (.mk hfs hvs) rfl⟩
              · cases hread
            · cases hread
      · cases ts with
        | nil => cases h
        | cons t r =>
            obtain ⟨ht, hr⟩ := List.forall_mem_cons.1 hts
            by_cases hk : t.kind = .operator
            · have hwf := ht (by simp [hk])
              simp only [Token.IsWellFormed, hk] at hwf
              obtain ⟨j, hj⟩ := hwf
              have hshape : t.shape = (.operator, j.word) := Prod.ext hk hj
              rw [operators_cons hshape] at h
              refine (ih.resume hr h).behind [t] [] ?_
              rintro _ ⟨fs, first, vs, c, rfl, hfs, hvs⟩
              rw [List.append_nil]
              show ∃ c, Steps left (t :: (fs ++ vs)) c
              exact ⟨c, .more hshape hfs hvs⟩
            · rw [operators, if_neg hk] at h
              cases h

/-! ### What a text is refused with -/

/-- **A location is refused for its word exactly where it is expected.** -/
theorem ofTokens_eq_error_iff (hts : ∀ t ∈ ts, t.kind ≠ .location → t.IsWellFormed) :
    ofTokens ts = .error (noPlace word) ↔ ComesTo word (fun us => ∃ c, Sentence us c) ts := by
  have hf : (noPlace word).kind ≠ .grammar := FaultKind.noConfusion
  rw [ofTokens_eq_error hf]
  constructor
  · intro h
    refine ((traces (ts.length + 1) word).resume hts h).imp ?_
    rintro _ ⟨fs, first, vs, c, rfl, hfs, hvs⟩
    exact ⟨c, .mk hfs hvs⟩
  · rintro ⟨before, t, after, rfl, ht, hno, u, more, hu, c, hc⟩
    obtain ⟨hk, rfl⟩ := Prod.mk.inj ht
    generalize hus : before ++ u :: more = us at hc
    cases hc with
    | mk hfs hvs => exact (reaches hk hno after _).resume hfs hvs hus.symm hu (Nat.le_succ _)

/-- The fault of a location that ends in the Kelvin sign. -/
def kelvinPlace : Fault := noPlace "DEC\u212A"

/-- What the tokens of a text are refused with. -/
theorem refuses_scanned : Refuses (fun f => f.kind = .grammar ∨ f = kelvinPlace)
    fun t => t.IsWellFormed ∨ t.shape = (.location, "DEC\u212A") where
  grammar _ h := Or.inl h
  count t ht hk := by
    obtain ⟨hsign, hcount⟩ := refuses_wellFormed.count t (ht.resolve_right fun h => by simp [Token.shape, hk] at h) hk
    exact ⟨fun f h => Or.inl (hsign f h), fun f h => Or.inl (hcount f h)⟩
  place t ht hk hno := by
    rcases ht with hwf | hkelvin
    · exact Or.inl (refuses_wellFormed.place t hwf hk hno)
    · exact Or.inr (by rw [kelvinPlace, (Prod.mk.inj hkelvin).2])
  operator t ht hk hno :=
    Or.inl (refuses_wellFormed.operator t (ht.resolve_right fun h => by simp [Token.shape, hk] at h) hk hno)

/-- **What a text may be refused with** is a fault of the grammar, or that a location is none. -/
theorem faults_of_ofText {text : String} : OnlyFaults (fun f => f.kind = .grammar ∨ f = kelvinPlace) (ofText text) :=
  OnlyFaults.bind (fun f h => Or.inl (Token.grammar_of_scan f h)) fun _ hscan =>
    refuses_scanned.ofTokens fun t ht => (Token.of_mem_scan hscan t ht).imp_right And.left

/-- **Texts are refused with faults that say that a value was not acceptable.** -/
theorem isValue_of_ofText {text : String} {f : Fault} (h : ofText text = .error f) : f.isValue = true := by
  rcases faults_of_ofText f h with hgrammar | rfl
  · rw [Fault.isValue, hgrammar]
    rfl
  · rfl

/-- **A text is read, or refused with a fault of the grammar, or its location is none.** The last happens exactly if the
text is cut into tokens of which one is a location that ends in the Kelvin sign, and some condition begins with the
tokens before it and goes on with a location. So it does not happen to texts without that sign. -/
theorem ofText_refuses (text : String) :
    ((∃ c, ofText text = .ok c) ∨ (∃ f, ofText text = .error f ∧ f.kind = .grammar) ∨
        ofText text = .error kelvinPlace) ∧
      (ofText text = .error kelvinPlace ↔ ∃ before t after, Token.ofText text = .ok (before ++ t :: after) ∧
        t.shape = (.location, "DEC\u212A") ∧ LocationNext (fun us => ∃ c, Sentence us c) before) ∧
      ('\u212A' ∉ text.toList →
        (∃ c, ofText text = .ok c) ∨ ∃ f, ofText text = .error f ∧ f.kind = .grammar) := by
  have hf : kelvinPlace.kind ≠ .grammar := FaultKind.noConfusion
  have hcases : (∃ c, ofText text = .ok c) ∨ (∃ f, ofText text = .error f ∧ f.kind = .grammar) ∨
      ofText text = .error kelvinPlace := by
    cases hread : ofText text with
    | ok c => exact Or.inl ⟨c, rfl⟩
    | error f =>
        rcases faults_of_ofText f hread with hgrammar | rfl
        · exact Or.inr (Or.inl ⟨f, rfl, hgrammar⟩)
        · exact Or.inr (Or.inr rfl)
  have htokens : ∀ {ts}, Token.ofText text = .ok ts → ∀ t ∈ ts, t.kind ≠ .location → t.IsWellFormed :=
    fun hscan t ht hk => (Token.of_mem_scan hscan t ht).resolve_right fun h => hk (Prod.mk.inj h.1).1
  have hiff : ofText text = .error kelvinPlace ↔ ∃ before t after, Token.ofText text = .ok (before ++ t :: after) ∧
      t.shape = (.location, "DEC\u212A") ∧ LocationNext (fun us => ∃ c, Sentence us c) before := by
    constructor
    · intro h
      rcases bind_eq_error.1 h with hscan | ⟨ts, hscan, hread⟩
      · exact absurd (Token.grammar_of_scan _ hscan) hf
      · obtain ⟨before, t, after, rfl, ht, -, hnext⟩ := (ofTokens_eq_error_iff (htokens hscan)).1 hread
        exact ⟨before, t, after, hscan, ht, hnext⟩
    · rintro ⟨before, t, after, hscan, ht, hnext⟩
      refine bind_eq_error.2 (Or.inr ⟨_, hscan, (ofTokens_eq_error_iff (htokens hscan)).2 ?_⟩)
      exact ⟨before, t, after, rfl, ht, by decide, hnext⟩
  refine ⟨hcases, hiff, fun hno => ?_⟩
  rcases hcases with hok | hgrammar | hkelvin
  · exact Or.inl hok
  · exact Or.inr hgrammar
  · obtain ⟨before, t, after, hscan, ht, -⟩ := hiff.1 hkelvin
    rcases Token.of_mem_scan hscan t (List.mem_append_right _ List.mem_cons_self) with hwf | ⟨-, hmem⟩
    · obtain ⟨hk, hv⟩ := Prod.mk.inj ht
      simp only [Token.IsWellFormed, hk] at hwf
      obtain ⟨p, hp⟩ := hwf
      rw [hv] at hp
      cases p <;> exact absurd hp (by decide)
    · exact absurd hmem hno

/-- A location whose last letter is the Kelvin sign is refused, but not with a fault of the grammar. -/
theorem ofText_strays : ofText "1+ A IN dec\u212A" = .error kelvinPlace ∧ kelvinPlace.kind ≠ .grammar := by
  decide +kernel

end Condition

end OpeningHand
