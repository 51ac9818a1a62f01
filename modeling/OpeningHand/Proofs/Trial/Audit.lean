import OpeningHand.Audit
import OpeningHand.Proofs.Condition.Refusal
import OpeningHand.Proofs.Search.Truncation
import OpeningHand.Proofs.Trial.Dealing

/-!
# What an audit says about trials

An audit goes through the entries of a deck list, a trial plays with the cards of a template. A name can be found in a
trial exactly if some card of the template answers to it: the cards that are dealt are those of the template, and
plays bring no new ones (`answeredBy_deal`, `Simulation.answeredBy_of_run`). The template has a card for each copy that is
listed, and fillers. So the two differ on two kinds of names. An entry without copies is known to the audit, and
no card answers to it. And fillers answer to names that the audit does not know, because it reads the deck list
only. On all other names they agree (`Audit.mem_unknown_iff`).
-/

namespace OpeningHand

open Card

/-! ### Cards that answer -/

/-- Whether some of the cards answers to a name. -/
def answeredBy (cards : List Card) (name : String) : Bool := cards.any (·.answersTo name)

/-- Whether a card with this face answers to a name. -/
def answersAs (face : String × List Value × Option Effect) (name : String) : Bool :=
  name == face.1 || face.2.1.contains (.text name)

theorem answeredBy_eq (cards : List Card) (name : String) :
    answeredBy cards name = (cards.map face).any (answersAs · name) := by
  rw [List.any_map]
  rfl

/-- Cards with the same faces answer to the same names. -/
theorem answeredBy_of_perm {a b : List Card} (h : (a.map face).Perm (b.map face)) (name : String) :
    answeredBy a name = answeredBy b name := by
  rw [answeredBy_eq, answeredBy_eq, h.any_eq]

theorem answeredBy_copy (b : Board) (name : String) :
    answeredBy (b.copy.hand ++ b.copy.deck) name = answeredBy (b.hand ++ b.deck) name := by
  rw [answeredBy_eq, answeredBy_eq, b.map_face_copy]

/-- The leaf finds no card on a board, whichever place it looks in. -/
def Leaf.FindsNothing (l : Leaf) (b : Board) : Prop :=
  ∀ p : Place, ({ l with place := p }.found b.hand b.deck).length = 0

theorem Leaf.findsNothing_iff {l : Leaf} {b : Board} :
    l.FindsNothing b ↔ answeredBy (b.hand ++ b.deck) l.name = false := by
  have hfound : ∀ cards : List Card, (answering [l.name] cards).length = 0 ↔ answeredBy cards l.name = false := by
    intro cards
    simp [answering, answeredBy]
  rw [answeredBy, List.any_append, Bool.or_eq_false_iff]
  constructor
  · intro h
    exact ⟨(hfound _).1 (h .hand), (hfound _).1 (h .deck)⟩
  · rintro ⟨hhand, hdeck⟩ (_ | _)
    · exact (hfound _).2 hhand
    · exact (hfound _).2 hdeck

/-! ### The cards of a trial -/

/-- What is dealt answers to what the template answers to. -/
theorem answeredBy_deal (cards : List Card) (t : Twister) (handSize : Int) (name : String) :
    answeredBy ((deal cards t handSize).hand ++ (deal cards t handSize).deck) name = answeredBy cards name := by
  obtain ⟨hand, rest, hdeal, hperm, -⟩ := deal_eq cards t handSize
  rw [hdeal]
  refine answeredBy_of_perm ?_ name
  rw [← map_face_rename (Board.ofDeck cards).shifted cards]
  exact hperm.map face

/-- A play brings no card that answers to a name to which none answered before. -/
theorem Plays.answeredBy {c : Condition} {card : Card} {b b' : Board} (h : Plays c card b b') {name : String}
    (hno : answeredBy (b.hand ++ b.deck) name = false) : answeredBy (b'.hand ++ b'.deck) name = false := by
  rw [OpeningHand.answeredBy, List.any_eq_false] at hno ⊢
  intro d hd
  have hd := h.stock.subset hd
  refine hno d ?_
  rcases List.mem_append.1 hd with hd | hd
  · exact List.mem_append_left _ ((without_sublist _ _).subset hd)
  · exact List.mem_append_right _ hd

/-- **No judged hand, and no deck below it, has a card that answers to a name if none did at the beginning.** -/
theorem Simulation.answeredBy_of_run {caps : Caps} {opening : Board} {cs : List Condition} {s : Simulation}
    (h : run opening cs caps = .ok s) {name : String}
    (hno : answeredBy (opening.hand ++ opening.deck) name = false) :
    ∀ r ∈ s.runs, ∀ branch ∈ r.branches,
      answeredBy (branch.board.hand ++ branch.board.deck) name = false := by
  intro r hr branch hbranch
  obtain ⟨found, hfound, hbranches⟩ := exists_search_of_run h hr
  rw [hbranches] at hbranch
  have hcopy := (answeredBy_copy opening name).trans hno
  refine @invariant_search (fun _ b => answeredBy (b.hand ++ b.deck) name = false) _ _ ?_ _ _ hcopy
    ((answeredBy_copy opening.copy name).trans hcopy) hfound branch hbranch
  intro depth b tried card scene hb ht
  obtain ⟨-, hplay, -⟩ := ht.plays
  exact hplay.answeredBy ((answeredBy_copy b name).trans hb)

/-- The deck list has a copy of a card of this name or tag. -/
def DeckList.HasCopyOf (deck : DeckList) (name : String) : Prop :=
  ∃ e ∈ deck, 0 < e.2.copies ∧ (name = e.1 ∨ name ∈ e.2.tags)

/-- The names and tags of the blank cards that fill up a deck, by default. -/
def fillerKeys : List String := [fillerCardName, "Empty", "Blank", "Non Engine"]

theorem DeckList.mem_keys {deck : DeckList} {name : String} :
    name ∈ deck.keys ↔ ∃ e ∈ deck, name = e.1 ∨ name ∈ e.2.tags := by
  simp [keys]

theorem answersAs_faceOf {e : String × DeckEntry} {name : String} :
    answersAs (DeckList.faceOf e) name = true ↔ name = e.1 ∨ name ∈ e.2.tags := by
  simp [answersAs, DeckList.faceOf]

/-- **Which names a template answers to**: those of entries with copies, and those of fillers if there are any. -/
theorem answeredBy_template {deck : DeckList} {size : Int} {fillerName : String} {fillerTags : List Value}
    {name : String} : answeredBy (template deck size fillerName fillerTags) name = true ↔
      deck.HasCopyOf name ∨ deck.listed < size ∧ answersAs (fillerName, fillerTags, none) name = true := by
  have hcopies : ∀ (n : Int) face, (List.replicate n.toNat face).any (answersAs · name) = true ↔
      0 < n ∧ answersAs face name = true := by
    intro n face
    rw [List.any_replicate]
    split
    · simp only [Bool.false_eq_true, false_iff]
      omega
    · rename_i hn
      exact (and_iff_right (by omega)).symm
  rw [answeredBy_eq, map_face_template, List.any_append, Bool.or_eq_true, hcopies, Int.sub_pos, List.any_flatMap,
    List.any_eq_true]
  simp only [hcopies, answersAs_faceOf]
  rfl

/-! ### What an audit lists -/

theorem Draft.leaves_ofCondition (c : Condition) : (Draft.ofCondition c).leaves =
    .ok (c.leaves.map fun l => .leaf l.name l.count (.known l.comparison) (.known l.place)) := by
  induction c with
  | leaf l => rfl
  | joint j a b g iha ihb =>
      rw [Draft.ofCondition, Draft.leaves, iha, ihb, Condition.leaves, List.map_append]
      rfl

theorem Draft.names_ofCondition (c : Condition) :
    (Draft.ofCondition c).names = .ok (c.leaves.map (·.name)) := by
  rw [Draft.names, Draft.leaves_ofCondition]
  exact congrArg Except.ok List.map_map

namespace Audit

/-- The names in a condition that are not among the keys, each with the number of the condition. -/
def unknownIn (keys : List String) (s : String) (i : Nat) : List (Nat × String) :=
  match Condition.ofText s with
  | .ok c => ((c.leaves.map (·.name)).filter fun n => !keys.contains n).map (i, ·)
  | .error _ => []

theorem mem_unknownIn {keys : List String} {s : String} {i j : Nat} {name : String} {c : Condition}
    (h : Condition.ofText s = .ok c) :
    (j, name) ∈ unknownIn keys s i ↔ j = i ∧ name ∈ c.leaves.map (·.name) ∧ name ∉ keys := by
  rw [unknownIn, h]
  simp only [List.mem_map, List.mem_filter, Prod.mk.injEq, Bool.not_eq_true', List.contains_eq_mem,
    decide_eq_false_iff_not]
  constructor
  · rintro ⟨_, hname, rfl, rfl⟩
    exact ⟨rfl, hname⟩
  · rintro ⟨rfl, hname⟩
    exact ⟨name, hname, rfl, rfl⟩

/-- **The audit of texts comes to its end**: each condition is read or its fault is one that the audit lists. -/
theorem exists_ofConditions (keys : List String) (texts : List (String × Nat)) :
    ∃ a, ofConditions keys (texts.map fun p => (.document (.text p.1), p.2)) = .ok a ∧
      a.unknown = texts.flatMap fun p => unknownIn keys p.1 p.2 := by
  induction texts with
  | nil => exact ⟨_, rfl, rfl⟩
  | cons p texts ih =>
      obtain ⟨rest, hrest, hunknown⟩ := ih
      rw [List.map_cons, ofConditions, List.flatMap_cons, ← hunknown, unknownIn]
      cases h : Condition.ofText p.1 with
      | error f =>
          have hdraft : (Given.document (.text p.1)).toDraft = .error f := map_eq_error.2 h
          simp only [hdraft, Condition.isValue_of_ofText h, if_true, hrest]
          exact ⟨_, rfl, rfl⟩
      | ok c =>
          have hdraft : (Given.document (.text p.1)).toDraft = .ok (.ofCondition c) := map_eq_ok.2 ⟨c, h, rfl⟩
          simp only [hdraft, Draft.names_ofCondition, hrest]
          exact ⟨_, rfl, rfl⟩

theorem exists_ofFile (deck : DeckList) (texts : List String) (deckName : Value) :
    ∃ a, ofFile ⟨deck, texts.map fun s => .document (.text s), deckName⟩ = .ok a ∧
      ∀ i s c, texts[i]? = some s → Condition.ofText s = .ok c → ∀ name,
        (i, name) ∈ a.unknown ↔ name ∈ c.leaves.map (·.name) ∧ name ∉ deck.keys := by
  obtain ⟨a, ha, hunknown⟩ := exists_ofConditions deck.keys texts.zipIdx
  refine ⟨a, ?_, fun i s c hs hc name => ?_⟩
  · rw [ofFile, List.zipIdx_map]
    exact ha
  · rw [hunknown, List.mem_flatMap]
    constructor
    · rintro ⟨⟨s', j⟩, hmem, hname⟩
      have hs' := List.mk_mem_zipIdx_iff_getElem?.1 hmem
      cases hc' : Condition.ofText s' with
      | error f =>
          simp only [unknownIn, hc'] at hname
          cases hname
      | ok c' =>
          obtain ⟨rfl, hname⟩ := (mem_unknownIn hc').1 hname
          obtain rfl := Option.some.inj (hs.symm.trans hs')
          obtain rfl := Except.ok.inj (hc.symm.trans hc')
          exact hname
    · exact fun hname => ⟨(s, i), List.mk_mem_zipIdx_iff_getElem?.2 hs, (mem_unknownIn hc).2 ⟨rfl, hname⟩⟩

end Audit

/-! ### The audit and the trials -/

/-- The opening board of a simulation and all boards judged in it. -/
def Simulation.boards (s : Simulation) : List Board :=
  s.opening :: s.runs.flatMap fun r => r.branches.map (·.board)

/-- What no card of a template answers to is on no board of a trial. -/
theorem answeredBy_of_runTrial {template : List Card} {listed : Nat} {drafts : List Draft} {seed : Int}
    {settings : Settings} {s : Simulation} (h : runTrial template listed drafts seed settings = .ok s) {name : String}
    (hno : answeredBy template name = false) : ∀ b ∈ s.boards, answeredBy (b.hand ++ b.deck) name = false := by
  obtain ⟨hand, s', log, -, hrun, rfl⟩ := of_runTrial h
  have hdealt := (answeredBy_deal template (.ofSeed seed) hand name).trans hno
  refine List.forall_mem_cons.2 ⟨?_, ?_⟩
  · rw [Simulation.opening_of_run hrun]
    exact (answeredBy_copy _ name).trans hdealt
  · intro b hb
    obtain ⟨r, hr, hb⟩ := List.mem_flatMap.1 hb
    obtain ⟨branch, hbranch, rfl⟩ := List.mem_map.1 hb
    exact Simulation.answeredBy_of_run hrun hdealt r hr branch hbranch

namespace Audit

/-- **What an audit of texts lists, and what trials find.** The audit comes to its end, and of the names in a condition
that can be read it lists those that no entry of the deck list has as its name or tag. With the default settings some
card of the template answers to a name exactly if an entry with copies has it, or if fewer than forty cards are listed
and fillers have it; so the audit and the template agree on a name exactly if this is so for the names of all entries
and no others. What no card of the template answers to is found in no hand and no deck of any trial, and what is found
in none that is dealt, no card of the template answers to. -/
theorem mem_unknown_iff (deck : DeckList) (texts : List String) (deckName : Value) :
    ∃ a cards, ofFile ⟨deck, texts.map fun s => .document (.text s), deckName⟩ = .ok a ∧
      Settings.default.template deck = .ok cards ∧
      ∀ i s c, texts[i]? = some s → Condition.ofText s = .ok c → ∀ l ∈ c.leaves,
        ((i, l.name) ∈ a.unknown ↔ ∀ e ∈ deck, l.name ≠ e.1 ∧ l.name ∉ e.2.tags) ∧
        (answeredBy cards l.name = true ↔ deck.HasCopyOf l.name ∨ deck.listed < 40 ∧ l.name ∈ fillerKeys) ∧
        (((i, l.name) ∈ a.unknown ↔ answeredBy cards l.name = false) ↔
          (l.name ∈ deck.keys ↔ deck.HasCopyOf l.name ∨ deck.listed < 40 ∧ l.name ∈ fillerKeys)) ∧
        (answeredBy cards l.name = false ↔ (∀ seed : Int, l.FindsNothing (deal cards (.ofSeed seed) 5)) ∧
          ∀ drafts seed sim, runTrial cards deck.faces.length drafts seed Settings.default = .ok sim →
            ∀ b ∈ sim.boards, l.FindsNothing b) := by
  obtain ⟨a, ha, hunknown⟩ := exists_ofFile deck texts deckName
  have htags : Settings.default .fillerTags = .list (["Empty", "Blank", "Non Engine"].map .text) := rfl
  have htemplate := Settings.template_eq_ok (by rfl : Settings.default .deckSize = .int 40) rfl
    (Settings.tagsOfFiller_of_texts htags) deck
  refine ⟨a, _, ha, htemplate, fun i s c hs hc l hl => ?_⟩
  have hlisted : (i, l.name) ∈ a.unknown ↔ l.name ∉ deck.keys := by
    rw [hunknown i s c hs hc, and_iff_right (List.mem_map_of_mem hl)]
  have hanswered : answeredBy (template deck 40 fillerCardName (["Empty", "Blank", "Non Engine"].map .text)) l.name
      = true ↔ deck.HasCopyOf l.name ∨ deck.listed < 40 ∧ l.name ∈ fillerKeys := by
    rw [answeredBy_template]
    simp [answersAs, fillerKeys]
  refine ⟨?_, hanswered, ?_, fun hno => ⟨fun seed => ?_, fun drafts seed sim hsim b hb => ?_⟩, fun h => ?_⟩
  · rw [hlisted, DeckList.mem_keys]
    simp only [not_exists, not_and, not_or]
  · rw [hlisted, ← hanswered, ← Bool.not_eq_true]
    tauto
  · exact Leaf.findsNothing_iff.2 ((answeredBy_deal ..).trans hno)
  · exact Leaf.findsNothing_iff.2 (answeredBy_of_runTrial hsim hno b hb)
  · rw [← answeredBy_deal _ (.ofSeed 0) 5]
    exact Leaf.findsNothing_iff.1 (h.1 0)

/-- A name that no card has, and the tag of a card. -/
theorem mem_unknown_iff_nope :
    ∃ a cards, ofFile ⟨[("A", ⟨3, ["Engine"], none⟩)], [.document (.text "1+ Engine AND 1+ Nope")], .null⟩ = .ok a ∧
      Settings.default.template [("A", ⟨3, ["Engine"], none⟩)] = .ok cards ∧
      (0, "Engine") ∉ a.unknown ∧ answeredBy cards "Engine" = true ∧
      (0, "Nope") ∈ a.unknown ∧ answeredBy cards "Nope" = false ∧
      ∀ seed : Int, Leaf.FindsNothing ⟨"Nope", 1, .atLeast, .hand⟩ (deal cards (.ofSeed seed) 5) := by
  obtain ⟨a, cards, ha, hcards, hall⟩ :=
    mem_unknown_iff [("A", ⟨3, ["Engine"], none⟩)] ["1+ Engine AND 1+ Nope"] .null
  have hread : Condition.ofText "1+ Engine AND 1+ Nope" = .ok (.joint .and
      (.leaf ⟨"Engine", 1, .atLeast, .hand⟩) (.leaf ⟨"Nope", 1, .atLeast, .hand⟩) false) := by decide +kernel
  obtain ⟨hengine, hcopy, -, -⟩ := hall 0 _ _ rfl hread ⟨"Engine", 1, .atLeast, .hand⟩ (by decide)
  obtain ⟨hnope, hnone, -, hfound⟩ := hall 0 _ _ rfl hread ⟨"Nope", 1, .atLeast, .hand⟩ (by decide)
  have hno : answeredBy cards "Nope" = false := by
    rw [← Bool.not_eq_true, hnone]
    simp [DeckList.HasCopyOf, fillerKeys, fillerCardName]
  refine ⟨a, cards, ha, hcards, ?_, ?_, ?_, hno, (hfound.1 hno).1⟩
  · rw [hengine]
    simp
  · rw [hcopy]
    exact Or.inl ⟨_, List.mem_cons_self, by decide, Or.inr (by decide)⟩
  · rw [hnope]
    simp

/-- **The audit and the template may differ either way.** Of a deck list whose only entry has no copies, the audit knows
the name, to which no card answers; and it does not know the fillers, which do answer to theirs. -/
theorem unknown_differs :
    let deck : DeckList := [("A", ⟨0, [], none⟩)]
    ∃ cards, ofFile ⟨deck, [.document (.text "1+ A"), .document (.text "1+ Empty Card")], .null⟩
        = .ok ⟨[], [(1, "Empty Card")]⟩ ∧
      Settings.default.template deck = .ok cards ∧
      Condition.ofText "1+ A" = .ok (.leaf ⟨"A", 1, .atLeast, .hand⟩) ∧ answeredBy cards "A" = false ∧
      Condition.ofText "1+ Empty Card" = .ok (.leaf ⟨"Empty Card", 1, .atLeast, .hand⟩) ∧
      answeredBy cards "Empty Card" = true := by
  intro deck
  have hcards : (Settings.default.template deck).map (fun cards => (answeredBy cards "A", answeredBy cards "Empty Card"))
      = .ok (false, true) := by decide +kernel
  obtain ⟨cards, htemplate, h⟩ := map_eq_ok.1 hcards
  obtain ⟨hnone, hfiller⟩ := Prod.mk.inj h
  exact ⟨cards, by decide +kernel, htemplate, by decide +kernel, hnone, by decide +kernel, hfiller⟩

end Audit

end OpeningHand
