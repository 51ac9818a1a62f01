import OpeningHand.Proofs.Play.Faults
import OpeningHand.Proofs.Play.Payable
import OpeningHand.Proofs.Search.Completeness

/-!
# Which copy a name finds

A search picks a card that is usable, copies the board, and plays by name there. The name finds the first free card
that bears it (`Board.copies`), whether or not that is the card that was picked, and no other copy is tried: nothing
is played exactly if the first copy is not usable (`Play.playNamed_eq_none_iff`). So a candidate leads to a judged
hand exactly if the first copy of its name is usable (`exists_judged_iff`), not if some copy is.

Where the copies have one face, it does not matter which one is taken, except that each counts among the cards that
can pay for the other. For a number of cards no free card counts; for names that are clear any copy serves as well as
any other. Then all copies are usable or none is (`Board.Interchangeable.usable`), and playing by name finds a usable
copy if there is one (`playNamed_by_first_copy`).
-/

namespace OpeningHand

open Card

/-! ### Copies of a card -/

namespace Board

variable {b : Board} {name : String} {card : Card}

/-- The free cards of a name in the hand. -/
def copies (name : String) (b : Board) : List Card := b.freeInHand.filter fun c => c.name == name

/-- Some free card of the name in the hand can be played. -/
def SomeUsable (name : String) (b : Board) : Prop := ∃ card ∈ b.copies name, b.usable card = true

/-- The first free card of the name in the hand can be played. -/
def FirstUsable (name : String) (b : Board) : Prop := ∃ card ∈ (b.copies name).head?, b.usable card = true

theorem mem_copies : card ∈ b.copies name ↔ card ∈ b.hand ∧ card.isFree = true ∧ card.name = name := by
  rw [copies, freeInHand, List.mem_filter, List.mem_filter, beq_iff_eq, and_assoc]

theorem find?_freeInHand (name : String) (b : Board) :
    (b.freeInHand.find? fun c => c.name == name) = (b.copies name).head? := List.head?_filter.symm

theorem FirstUsable.someUsable (h : b.FirstUsable name) : b.SomeUsable name := by
  obtain ⟨card, hfirst, hu⟩ := h
  exact ⟨card, List.mem_of_mem_head? hfirst, hu⟩

theorem copies_copy (name : String) (b : Board) : b.copy.copies name = (b.copies name).map (rename b.shifted) := by
  rw [copies, copies, freeInHand, freeInHand, copy_eq, Board.map, List.filter_map, List.filter_map]
  rfl

/-- On a copy of the board the same cards can be played. -/
theorem firstUsable_copy : b.copy.FirstUsable name ↔ b.FirstUsable name := by
  have husable : ∀ card : Card, b.copy.usable (card.rename b.shifted) = b.usable card := fun card =>
    (copy_alike b).usable (shifted_injective b) (Or.inl trivial)
  simp only [FirstUsable, copies_copy, List.head?_map, Option.mem_map, exists_exists_and_eq_and, husable]

end Board

theorem mem_of_mem_firstOfEachName {seen : List String} {cards : List Card} {x : Card}
    (h : x ∈ firstOfEachName seen cards) : x ∈ cards := by
  induction cards generalizing seen with
  | nil => cases h
  | cons c cards ih =>
      unfold firstOfEachName at h
      split at h
      · exact List.mem_cons_of_mem _ (ih h)
      · rcases List.mem_cons.1 h with rfl | h
        · exact List.mem_cons_self
        · exact List.mem_cons_of_mem _ (ih h)

/-- A candidate is a copy of its name that can be played. -/
theorem Board.someUsable_of_mem_candidates {b : Board} {used : List Card} {card : Card}
    (h : card ∈ b.candidates used) : b.SomeUsable card.name := by
  obtain ⟨hfree, hcond⟩ := List.mem_filter.1 (mem_of_mem_firstOfEachName h)
  rw [Bool.and_eq_true] at hcond
  exact ⟨card, List.mem_filter.2 ⟨hfree, beq_self_eq_true _⟩, hcond.2⟩

/-! ### Playing by name -/

/-- Whether the card draws more than the deck holds. -/
def Card.overdraws (card : Card) (b : Board) : Bool := card.effect.any fun e => decide ((b.deck.length : Int) < e.draws)

namespace Play

variable {name : String} {card : Card} {s : Scene} {wanted : List String}

/-- What playing a free card of the hand gives. -/
theorem fst_playFree (wanted : List String) (hcard : card ∈ s.board.hand) (hfree : card.isFree = true) :
    (playFree (.ok wanted) card s).1 =
      if s.board.usable card then if card.overdraws s.board then .error .emptyDeck else .ok true else .ok false := by
  obtain ⟨e, he⟩ := Option.isSome_iff_exists.1 hfree
  cases hu : s.board.usable card with
  | false =>
      rcases playFree_eq (.ok wanted) card s with ⟨lines, hno, -⟩ | ⟨e, after, -, -, hu', -⟩
      · rw [hno]
        rfl
      · rw [hu] at hu'
        cases hu'
  | true =>
      obtain ⟨b, log⟩ := s
      let after : Board := { b with played := b.played ++ [card], hand := without b.hand [card] }
      obtain ⟨hends, hstops⟩ :=
        resolve_of_usable wanted (s := ⟨after, log ++ ["[FREE] play " ++ card.name]⟩) hu he rfl
      rw [if_pos rfl, overdraws, he, Option.any_some, playFree_of_mem hcard he hu]
      rcases le_or_gt e.draws b.deck.length with hle | hlt
      · obtain ⟨s', hs'⟩ := hends hle
        rw [if_neg (by simpa using hle), bind_eq_ok.2 ⟨(), s', hs', rfl⟩]
      · obtain ⟨s', hs'⟩ := hstops hlt
        rw [if_pos (by simpa using hlt), bind_eq_error.2 (Or.inl hs')]

/-- **A name stands for its first copy.** -/
theorem fst_playNamed (aim : Aim) (name : String) (s : Scene) :
    (playNamed aim name s).1 = match (s.board.copies name).head? with
      | none => .ok none
      | some card => (playFree aim card s).1.map fun played => if played then some card else none := by
  unfold playNamed
  simp only [bind, Play.bind, board, Board.find?_freeInHand]
  cases (s.board.copies name).head? with
  | none => rfl
  | some card =>
      dsimp only
      unfold Play.bind
      obtain ⟨r, s'⟩ := playFree aim card s
      cases r with
      | error f => rfl
      | ok played => cases played <;> rfl

theorem fst_playNamed_of_first (wanted : List String) (h : (s.board.copies name).head? = some card) :
    (playNamed (.ok wanted) name s).1 =
      if s.board.usable card then if card.overdraws s.board then .error .emptyDeck else .ok (some card)
      else .ok none := by
  obtain ⟨hcard, hfree, -⟩ := Board.mem_copies.1 (List.mem_of_mem_head? h)
  rw [fst_playNamed, h]
  dsimp only
  rw [fst_playFree wanted hcard hfree]
  cases s.board.usable card <;> cases card.overdraws s.board <;> rfl

/-- **Nothing is played exactly if the first copy is not usable.** -/
theorem playNamed_eq_none_iff : (playNamed (.ok wanted) name s).1 = .ok none ↔ ¬ s.board.FirstUsable name := by
  cases hfirst : (s.board.copies name).head? with
  | none => simp [fst_playNamed, Board.FirstUsable, hfirst]
  | some card =>
      rw [fst_playNamed_of_first wanted hfirst]
      cases hu : s.board.usable card <;> cases card.overdraws s.board <;> simp [Board.FirstUsable, hfirst, hu]

/-- What is played is the first copy, if it is usable and the deck holds what it draws. -/
theorem playNamed_eq_some_iff : (playNamed (.ok wanted) name s).1 = .ok (some card) ↔
    (s.board.copies name).head? = some card ∧ s.board.usable card = true ∧ card.overdraws s.board = false := by
  cases hfirst : (s.board.copies name).head? with
  | none => simp [fst_playNamed, hfirst]
  | some d =>
      rw [fst_playNamed_of_first wanted hfirst]
      by_cases hcard : d = card
      · obtain rfl := hcard
        cases s.board.usable d <;> cases d.overdraws s.board <;> simp
      · cases s.board.usable d <;> cases d.overdraws s.board <;> simp [hcard]

end Play

/-! ### Copies with one face -/

/-- The names that a card asks of the hand as its cost. -/
def Card.namesAsked (card : Card) : List Value :=
  match card.effect.bind (·.cost) with
  | some ⟨.discard, .named names⟩ => names
  | some ⟨.banishFromHand, .named names⟩ => names
  | _ => []

namespace Board

variable {b : Board} {name : String} {x y : Card}

/-- The copies of a card have one face, and the names that they ask of the hand are clear. -/
structure Interchangeable (name : String) (b : Board) : Prop where
  faces : AlikeCopies (b.copies name)
  names : ∀ card ∈ b.copies name, ClearNames b.hand card.namesAsked

/-- No free card can be spent for a number of cards. -/
theorem costPool_of_isFree (hd : AllDifferent b.hand) (hx : x ∈ b.hand) (hfree : x.isFree = true) :
    b.costPool x = plain b.hand := by
  refine List.filter_congr fun c hc => Bool.and_eq_right_iff_imp.2 fun hplain => ?_
  rw [Bool.not_eq_true', Bool.eq_false_iff]
  intro hsame
  obtain rfl := hd.eq_of_id_eq hc hx (beq_iff_eq.1 hsame)
  rw [hfree] at hplain
  cases hplain

/-- What serves for one copy serves for the other, with the copies in each other's place. -/
theorem canServe_others_of_face {names : List Value} (hd : AllDifferent b.hand) (hx : x ∈ b.hand) (hy : y ∈ b.hand)
    (hface : x.face = y.face) (h : CanServe (b.others x) names) : CanServe (b.others y) names := by
  obtain ⟨cards, hnames, hdifferent, hsub⟩ := h
  have hswap := (Equiv.swap x.id y.id).injective
  refine ⟨cards.map (rename (Equiv.swap x.id y.id)), ?_, hdifferent.rename hswap, ?_⟩
  · exact List.forall₂_map_left_iff.2 (hnames.imp fun c n hcn => by rwa [answersToValue_rename])
  · intro z hz
    obtain ⟨c, hc, rfl⟩ := List.mem_map.1 hz
    obtain ⟨hhand, hother⟩ := List.mem_filter.1 (hsub hc)
    have hsame := is_rename hswap c x
    rw [rename_swap_left hface] at hsame
    exact List.mem_filter.2 ⟨(perm_rename_swap hd hx hy hface).subset (List.mem_map_of_mem hhand), by rwa [hsame]⟩

theorem canServe_others_iff_of_face {names : List Value} (hd : AllDifferent b.hand) (hx : x ∈ b.hand)
    (hy : y ∈ b.hand) (hface : x.face = y.face) : CanServe (b.others x) names ↔ CanServe (b.others y) names :=
  ⟨canServe_others_of_face hd hx hy hface, canServe_others_of_face hd hy hx hface.symm⟩

theorem isSome_pickNamed_others_iff {names : List Value} (hd : AllDifferent b.hand) (hclear : ClearNames b.hand names)
    (card : Card) : (pickNamed (b.others card) [] names).isSome = true ↔ CanServe (b.others card) names :=
  isSome_pickNamed_iff_canServe (hd.sublist List.filter_sublist)
    (hclear.mono List.filter_sublist.subset (List.Subset.refl _))

theorem canPay_of_face (hd : AllDifferent b.hand) (hx : x ∈ b.hand) (hy : y ∈ b.hand) (hfree : x.isFree = true)
    (hface : x.face = y.face) (hclear : ClearNames b.hand x.namesAsked) : b.canPay x = b.canPay y := by
  obtain ⟨-, -, heffect⟩ : x.name = y.name ∧ x.tags = y.tags ∧ x.effect = y.effect := by
    simpa only [face, Prod.mk.injEq] using hface
  have hpool : b.costPool x = b.costPool y := by
    rw [costPool_of_isFree hd hx hfree, costPool_of_isFree hd hy (by rwa [isFree, ← heffect])]
  unfold canPay
  rw [← heffect]
  rw [namesAsked] at hclear
  cases hcost : x.effect.bind (·.cost) with
  | none => rfl
  | some cost =>
      rw [hcost] at hclear
      obtain ⟨kind, price⟩ := cost
      have hnamed : ∀ names, ClearNames b.hand names →
          (pickNamed (b.others x) [] names).isSome = (pickNamed (b.others y) [] names).isSome := fun names hclear => by
        rw [Bool.eq_iff_iff, isSome_pickNamed_others_iff hd hclear, isSome_pickNamed_others_iff hd hclear,
          canServe_others_iff_of_face hd hx hy hface]
      cases kind <;> cases price <;> simp only [canPayCost, hpool]
      · exact hnamed _ hclear
      · exact hnamed _ hclear

/-- **Of interchangeable copies all are usable or none is.** -/
theorem Interchangeable.usable (h : b.Interchangeable name) (hd : AllDifferent b.hand) (hx : x ∈ b.copies name)
    (hy : y ∈ b.copies name) : b.usable x = b.usable y := by
  obtain ⟨hxhand, hfree, hxname⟩ := mem_copies.1 hx
  obtain ⟨hyhand, -, hyname⟩ := mem_copies.1 hy
  have hname : x.name = y.name := hxname.trans hyname.symm
  have hface := h.faces x hx y hy hname
  have heffect : x.effect = y.effect := congrArg (·.2.2) hface
  have hpay := canPay_of_face hd hxhand hyhand hfree hface (h.names x hx)
  rw [Board.usable, Board.usable, heffect, hname, hpay]

theorem Interchangeable.firstUsable_iff (h : b.Interchangeable name) (hd : AllDifferent b.hand) :
    b.FirstUsable name ↔ b.SomeUsable name := by
  refine ⟨FirstUsable.someUsable, fun hsome => ?_⟩
  obtain ⟨card, hcard, hu⟩ := hsome
  have hfirst := List.head?_eq_some_head (List.ne_nil_of_mem hcard)
  exact ⟨_, hfirst, by rw [h.usable hd (List.mem_of_mem_head? hfirst) hcard, hu]⟩

end Board

/-! ### What a search makes of a candidate -/

section

variable {c : Condition} {caps : Caps} {depth recorded : Nat} {used cards : List Card} {b : Board}
  {deeper : Nat → List Card → Board → Except Fault Found} {card : Card} {found : Found}

/-- A candidate that is played is judged, and judged first. -/
theorem head?_branches_of_tries {played : Card} {scene : Scene} (hmore : caps.allowsMore recorded = .ok true)
    (h : tryEach c caps depth used b deeper recorded (card :: cards) = .ok found)
    (htries : Tries c b card.name played scene) : found.branches.head? = some (judge c depth scene.board) := by
  unfold tryEach at h
  rw [hmore, htries] at h
  dsimp only at h
  split at h
  · obtain rfl := Except.ok.inj h
    rfl
  · split at h
    · cases h
    · split at h
      · obtain rfl := Except.ok.inj h
        rfl
      · obtain ⟨rest, -, rfl⟩ := map_eq_ok.1 h
        rfl

/-- Unless a fault ends the search, a candidate is played if the first copy of its name is usable. -/
theorem exists_tries_iff (hmore : caps.allowsMore recorded = .ok true)
    (h : tryEach c caps depth used b deeper recorded (card :: cards) = .ok found) :
    (∃ played scene, Tries c b card.name played scene) ↔ b.FirstUsable card.name := by
  have hnone : (Play.playNamed c.aim card.name ⟨b.copy, []⟩).1 = .ok none ↔ ¬ b.FirstUsable card.name := by
    rw [← Board.firstUsable_copy]
    exact Play.playNamed_eq_none_iff
  unfold Tries
  unfold tryEach at h
  rw [hmore] at h
  generalize Play.playNamed c.aim card.name ⟨b.copy, []⟩ = p at h hnone
  obtain ⟨r, scene⟩ := p
  rcases r with f | _ | played
  · cases h
  · simpa using hnone
  · simpa using hnone

/-- **A candidate leads to a judged hand exactly if the first copy of its name is usable.** -/
theorem exists_judged_iff (hmore : caps.allowsMore recorded = .ok true)
    (h : tryEach c caps depth used b deeper recorded (card :: cards) = .ok found) :
    (∃ played scene, Tries c b card.name played scene ∧
      found.branches.head? = some (judge c depth scene.board)) ↔ b.FirstUsable card.name := by
  rw [← exists_tries_iff hmore h]
  constructor
  · rintro ⟨played, scene, htries, -⟩
    exact ⟨played, scene, htries⟩
  · rintro ⟨played, scene, htries⟩
    exact ⟨played, scene, htries, head?_branches_of_tries hmore h htries⟩

end

namespace Play

/-- **Playing by name stands and falls with the first copy.** What is played is the first free card of the name in the
hand, if it is usable and the deck holds what it draws; nothing is played exactly if it is not usable, whatever the
other copies are. A candidate of a search is a usable copy of its name, and it leads to a judged hand exactly if the
first copy is usable too. If the copies are interchangeable, the first is usable as soon as any is. -/
theorem playNamed_by_first_copy {b : Board} (hd : AllDifferent b.hand) (c : Condition) (name : String)
    (log : List String) :
    (∀ card, (playNamed c.aim name ⟨b, log⟩).1 = .ok (some card) ↔
      (b.copies name).head? = some card ∧ b.usable card = true ∧ card.overdraws b = false) ∧
    ((playNamed c.aim name ⟨b, log⟩).1 = .ok none ↔ ¬ b.FirstUsable name) ∧
    (∀ caps depth used deeper recorded candidate cards found, candidate ∈ b.candidates used →
      caps.allowsMore recorded = .ok true →
      tryEach c caps depth used b deeper recorded (candidate :: cards) = .ok found →
      b.SomeUsable candidate.name ∧
        ((∃ played scene, Tries c b candidate.name played scene ∧
          found.branches.head? = some (judge c depth scene.board)) ↔ b.FirstUsable candidate.name)) ∧
    (b.Interchangeable name → (b.FirstUsable name ↔ b.SomeUsable name)) := by
  refine ⟨fun card => playNamed_eq_some_iff, playNamed_eq_none_iff, ?_, fun h => h.firstUsable_iff hd⟩
  intro caps depth used deeper recorded candidate cards found hcandidate hmore hfound
  exact ⟨Board.someUsable_of_mem_candidates hcandidate, exists_judged_iff hmore hfound⟩

/-- A free card that draws some cards. -/
def drawer (number : Nat) (draws : Int) : Card := ⟨⟨number, 0⟩, "A", [], some ⟨draws, true, none, [], none, none⟩⟩

/-- A hand with free cards of one name over a deck of one card. -/
def copiesOver (hand : List Card) : Board := ⟨[tagged 9 "T" []], hand, [], [], []⟩

/-- Of two copies with one face the first is played, since each of them is usable. -/
theorem playNamed_by_first_copy_alike :
    (playNamed unrelated.aim "A" ⟨copiesOver [drawer 0 1, drawer 1 1], []⟩).1 = .ok (some (drawer 0 1)) ∧
      (copiesOver [drawer 0 1, drawer 1 1]).FirstUsable "A" := by
  have hd : AllDifferent (copiesOver [drawer 0 1, drawer 1 1]).hand := by decide
  obtain ⟨hplayed, -, -, hcopies⟩ := playNamed_by_first_copy hd unrelated "A" []
  have hsome : (copiesOver [drawer 0 1, drawer 1 1]).SomeUsable "A" := ⟨drawer 1 1, by decide, by decide⟩
  have hsame : (copiesOver [drawer 0 1, drawer 1 1]).Interchangeable "A" := ⟨by decide, by decide⟩
  exact ⟨(hplayed _).2 ⟨by decide, by decide, by decide⟩, (hcopies hsame).2 hsome⟩

/-- A hand with two free cards of one name, the first of which draws more than the deck holds. -/
def mixed : Board := copiesOver [drawer 0 2, drawer 1 1]

/-- A free card that discards an A and a B and draws a card. It is an A itself. -/
def swapper (number : Nat) : Card :=
  ⟨⟨number, 0⟩, "A", [], some ⟨1, true, some ⟨.discard, .named [.text "A", .text "B"]⟩, [], none, none⟩⟩

/-- A hand with two copies of that card, an A and B before the second and an A after it. -/
def twins : Board := copiesOver [swapper 0, tagged 2 "X" ["A", "B"], swapper 1, tagged 3 "Y" ["A"]]

/-- **A usable copy may be passed over.** The first A draws two cards, and the deck holds one; the second A is usable,
but the name finds the first. The search for the card of the deck ends with the opening hand, though playing the
second A would have drawn it. With copies of one face it happens too: for the first copy X is taken as the A, and no
B is left; for the second copy the first one is taken. -/
theorem playNamed_passes_over :
    (AllDifferent mixed.cards ∧ mixed.usable (drawer 1 1) = true ∧ mixed.candidates [] = [drawer 1 1] ∧
      playNamed unrelated.aim "A" ⟨mixed, []⟩ = (.ok none, ⟨mixed, []⟩) ∧
      (∃ found, search unrelated (.ofInts 100 none) mixed = .ok found ∧ found.success = false ∧
        found.branches = [judge unrelated 0 mixed.copy]) ∧
      ∃ scene, playFree unrelated.aim (drawer 1 1) ⟨mixed, []⟩ = (.ok true, scene) ∧ scene.board.meets unrelated) ∧
    AllDifferent twins.cards ∧ AlikeCopies twins.cards ∧ twins.usable (swapper 1) = true ∧
      playNamed unrelated.aim "A" ⟨twins, []⟩ = (.ok none, ⟨twins, []⟩) := by
  refine ⟨⟨by decide, by decide, by decide, by decide +kernel, ?_, ?_⟩, by decide, by decide, by decide +kernel, ?_⟩
  · exact ⟨⟨false, [judge unrelated 0 mixed.copy], _⟩, by rfl, rfl, rfl⟩
  · exact ⟨_, by rfl, by decide +kernel⟩
  · decide +kernel

end Play

end OpeningHand
