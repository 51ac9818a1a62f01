import OpeningHand.Proofs.Play.Costs

/-!
# When a play runs out of cards

Before a card is played it is checked that the deck holds what its deck cost and its draws take together
(`Effect.cardsNeeded`). After that only one thing can stop the play: the card draws more than the deck holds
(`Play.playFree_cases`). An excavation digs no deeper than the deck, and a toll that cannot be paid costs the hand.

The check excludes this for every effect whose draws count in full (`Effect.CoversDraws`). They do not if a deck cost
is a negative number: nothing is banished for it, but it makes up for draws. With such a cost there is always a board
on which the card is usable and the play runs out of cards, so the cards whose plays come to an end on every board are
just those with draws that count in full (`Play.playFree_stops_iff`).
-/

namespace OpeningHand

/-- An effect whose draws count in full among the cards that it needs. -/
def Effect.CoversDraws (e : Effect) : Prop := 0 < e.draws → e.draws ≤ e.cardsNeeded

instance (e : Effect) : Decidable e.CoversDraws := inferInstanceAs (Decidable (_ → _))

/-- A card whose draws count in full, if it is free. -/
def Card.CoversDraws (card : Card) : Prop := ∀ e ∈ card.effect, e.CoversDraws

instance (card : Card) : Decidable card.CoversDraws :=
  match h : card.effect with
  | none => isTrue fun e he => by simp [h] at he
  | some e => decidable_of_iff e.CoversDraws (by simp [Card.CoversDraws, h])

/-- The number of cards that a cost banishes from the deck. -/
def Cost.fromDeck : Cost → Int
  | ⟨.banishFromDeck, .amount n⟩ => n
  | _ => 0

/-- What an effect needs of the deck, if its cost can be paid at all. -/
theorem Effect.cardsNeeded_of_canPayCost {e : Effect} {cost : Cost} {card : Card} {b : Board}
    (hcost : e.cost = some cost) (h : b.canPayCost card cost = true) :
    e.cardsNeeded = e.draws + cost.fromDeck := by
  obtain ⟨kind, price⟩ := cost
  rw [cardsNeeded, hcost]
  cases kind with
  | banishFromDeck =>
      cases price with
      | amount n => rfl
      | named names => cases h
  | payLife => exact (Int.add_zero _).symm
  | banishFromHand => exact (Int.add_zero _).symm
  | discard => exact (Int.add_zero _).symm

/-- The deck holds what a usable card needs. -/
theorem Board.cardsNeeded_le_of_usable {b : Board} {card : Card} {e : Effect} (hu : b.usable card = true)
    (he : card.effect = some e) : e.cardsNeeded ≤ b.deck.length := by
  simp only [usable, he, Bool.and_eq_true, decide_eq_true_eq] at hu
  exact hu.1.1.1.2

@[simp]
theorem Board.deck_giveUp (banished : Bool) (cards : List Card) (b : Board) :
    (b.giveUp banished cards).deck = b.deck := by
  cases banished <;> rfl

namespace Play

variable {wanted : List String} {card : Card} {s : Scene}

/-! ### Steps that come to their end -/

/-- A cost that can be paid is paid, and takes from the deck what it says. -/
theorem payCost_of_canPayCost (wanted : List String) {b : Board} {cost : Cost} (h : b.canPayCost card cost = true)
    (hdeck : s.board.deck = b.deck) :
    ∃ s', payCost (.ok wanted) card cost s = (.ok (), s') ∧
      s'.board.deck.length = s.board.deck.length - cost.fromDeck.toNat := by
  obtain ⟨kind, price⟩ := cost
  have hhand : ∀ kind, ∃ s', payFromHand (.ok wanted) card kind price s = (.ok (), s') ∧
      s'.board.deck.length = s.board.deck.length := by
    intro kind
    obtain ⟨log, hlog⟩ := payFromHand_eq wanted card kind price s
    exact ⟨_, hlog, by rw [Board.deck_giveUp]⟩
  cases kind with
  | payLife => exact ⟨_, rfl, rfl⟩
  | banishFromDeck =>
      cases price with
      | named names => cases h
      | amount n =>
          have hn : n ≤ s.board.deck.length := by
            rw [hdeck]
            exact of_decide_eq_true h
          obtain ⟨cards, deck, hdraw, hlength⟩ := draw_of_le hn
          refine ⟨_, bind_eq_ok.2 ⟨cards, _, hdraw, rfl⟩, hlength⟩
  | banishFromHand => exact hhand _
  | discard => exact hhand _

/-- An excavation goes no deeper than the deck. -/
theorem excavate_ends (wanted : List String) (card : Card) (rule : Excavation) (s : Scene) :
    ∃ s', excavate (.ok wanted) card rule s = (.ok (), s') := by
  have hsay : ∀ reason line, ∃ log, sayIf reason line s = (.ok (), ⟨s.board, log⟩) := by
    intro reason line
    cases reason <;> exact ⟨_, rfl⟩
  obtain ⟨log, hlog⟩ := hsay (s.board.deck.length < rule.count) ("[FREE] WARN " ++ card.name ++ " excavate " ++
    Number.text rule.count ++ " with only " ++ Number.text s.board.deck.length ++ " cards in deck")
  have hmin : min rule.count s.board.deck.length ≤ (s.board.deck.length : Int) := min_le_right _ _
  obtain ⟨cards, deck, hdraw, -⟩ := draw_of_le (s := ⟨s.board, log⟩) hmin
  exact ⟨_, bind_eq_ok.2 ⟨_, s, rfl, bind_eq_ok.2 ⟨(), _, hlog, bind_eq_ok.2 ⟨cards, _, hdraw, rfl⟩⟩⟩⟩

/-- A toll that cannot be paid costs the hand. -/
theorem sufferOrForfeit_ends (wanted : List String) (card : Card) (a : Aftermath) (s : Scene) :
    ∃ s', sufferOrForfeit (.ok wanted) card a s = (.ok (), s') := by
  unfold sufferOrForfeit orElse
  rcases exacts_suffer (.ok wanted) card a s with ⟨s', h, -⟩ | ⟨f, h, hf | hf⟩
  · rw [h]
    exact ⟨s', rfl⟩
  · rw [h]
    dsimp only
    rw [if_pos hf]
    exact ⟨_, rfl⟩
  · cases hf

theorem ifAny_ends {α : Type} {step : α → Play Unit} (h : ∀ a s, ∃ s', step a s = (.ok (), s')) (a : Option α)
    (s : Scene) : ∃ s', ifAny a step s = (.ok (), s') := by
  cases a with
  | none => exact ⟨s, rfl⟩
  | some a => exact h a s

/-! ### Plays -/

/-- The cost of a usable card, if it has one, is paid, and leaves as many cards in the deck as the card draws, unless
it draws more than the deck held before. -/
theorem payCost_of_usable (wanted : List String) {b : Board} {e : Effect} (hu : b.usable card = true)
    (he : card.effect = some e) (hdeck : s.board.deck = b.deck) :
    ∃ s', ifAny e.cost (payCost (.ok wanted) card) s = (.ok (), s') ∧
      (e.draws ≤ s'.board.deck.length ↔ e.draws ≤ b.deck.length) := by
  cases hcost : e.cost with
  | none => exact ⟨s, rfl, by rw [hdeck]⟩
  | some cost =>
      have hpay := Board.canPayCost_of_usable hu he hcost
      obtain ⟨s', hs', hlength⟩ := payCost_of_canPayCost wanted hpay hdeck
      have hneeded := Board.cardsNeeded_le_of_usable hu he
      rw [Effect.cardsNeeded_of_canPayCost hcost hpay] at hneeded
      refine ⟨s', hs', ?_⟩
      rw [hlength, hdeck]
      omega

/-- **The effect of a usable card is resolved to its end exactly if it draws no more than the deck holds.** -/
theorem resolve_of_usable (wanted : List String) {b : Board} {e : Effect} (hu : b.usable card = true)
    (he : card.effect = some e) (hdeck : s.board.deck = b.deck) :
    (e.draws ≤ b.deck.length → ∃ s', resolve (.ok wanted) card e s = (.ok (), s')) ∧
      ((b.deck.length : Int) < e.draws → ∃ s', resolve (.ok wanted) card e s = (.error .emptyDeck, s')) := by
  obtain ⟨s₁, hcost, hdraws⟩ := payCost_of_usable wanted hu he hdeck
  refine ⟨fun hn => ?_, fun hn => ?_⟩
  · have hdrawn : ∃ s₂, drawCards card e.draws s₁ = (.ok (), s₂) := by
      unfold drawCards
      split
      · obtain ⟨cards, deck, hdraw, -⟩ := draw_of_le (hdraws.2 hn)
        exact ⟨_, bind_eq_ok.2 ⟨cards, _, hdraw, rfl⟩⟩
      · exact ⟨s₁, rfl⟩
    obtain ⟨s₂, hdrawn⟩ := hdrawn
    obtain ⟨s₃, hdug⟩ := ifAny_ends (excavate_ends wanted card) e.excavation s₂
    obtain ⟨s₄, htoll⟩ := ifAny_ends (sufferOrForfeit_ends wanted card) e.aftermath s₃
    exact ⟨s₄, bind_eq_ok.2 ⟨(), s₁, hcost, bind_eq_ok.2 ⟨(), s₂, hdrawn,
      bind_eq_ok.2 ⟨(), s₃, hdug, htoll⟩⟩⟩⟩
  · have hmore : (s₁.board.deck.length : Int) < e.draws := not_le.1 fun h => not_le.2 hn (hdraws.1 h)
    obtain ⟨s₂, hdraw⟩ := draw_of_lt hmore
    refine ⟨s₂, bind_eq_error.2 (Or.inr ⟨(), s₁, hcost, bind_eq_error.2 (Or.inl ?_)⟩)⟩
    unfold drawCards
    rw [if_pos (by omega)]
    exact bind_eq_error.2 (Or.inl hdraw)

/-- A usable card of the hand that draws more than the deck holds stops the play. -/
theorem playFree_of_lt_draws (wanted : List String) {e : Effect} (hin : card.isIn s.board.hand = true)
    (he : card.effect = some e) (hu : s.board.usable card = true) (hmore : (s.board.deck.length : Int) < e.draws) :
    ∃ s', playFree (.ok wanted) card s = (.error .emptyDeck, s') := by
  obtain ⟨b, log⟩ := s
  obtain ⟨s', hs'⟩ := (resolve_of_usable wanted
    (s := ⟨{ b with played := b.played ++ [card], hand := without b.hand [card] }, log ++ ["[FREE] play " ++ card.name]⟩)
    hu he rfl).2 hmore
  refine ⟨s', ?_⟩
  unfold playFree
  simp only [bind, Play.bind, board, Board.play?, hin, he, hu, if_true, change, say, hs']

/-- **A play comes to its end, or a usable card draws more than the deck holds.** -/
theorem playFree_cases (wanted : List String) (card : Card) (s : Scene) :
    (∃ ok s', playFree (.ok wanted) card s = (.ok ok, s')) ∨
      ∃ e s', playFree (.ok wanted) card s = (.error .emptyDeck, s') ∧ card.isIn s.board.hand = true ∧
        card.effect = some e ∧ s.board.usable card = true ∧ (s.board.deck.length : Int) < e.draws := by
  rcases playFree_eq (.ok wanted) card s with ⟨lines, hno, -⟩ | ⟨e, after, hplay, he, hu, hplayed⟩
  · exact Or.inl ⟨false, _, hno⟩
  · obtain ⟨hin, hafter⟩ := Option.ite_none_right_eq_some.1 hplay
    have hdeck : after.deck = s.board.deck := by
      obtain rfl := Option.some.inj hafter
      rfl
    obtain ⟨hends, -⟩ := resolve_of_usable wanted (s := ⟨after, s.log ++ ["[FREE] play " ++ card.name]⟩) hu he hdeck
    rcases le_or_gt e.draws s.board.deck.length with hn | hmore
    · obtain ⟨s', hs'⟩ := hends hn
      exact Or.inl ⟨true, s', by rw [hplayed]; exact bind_eq_ok.2 ⟨(), s', hs', rfl⟩⟩
    · obtain ⟨s', hs'⟩ := playFree_of_lt_draws wanted hin he hu hmore
      exact Or.inr ⟨e, s', hs', hin, he, hu, hmore⟩

/-- **Only a card whose draws do not count in full can stop a play**, and then the deck has run out. -/
theorem playFree_error {f : Fault} {s' : Scene} (h : playFree (.ok wanted) card s = (.error f, s')) :
    f = .emptyDeck ∧ card.isIn s.board.hand = true ∧ ¬ card.CoversDraws := by
  rcases playFree_cases wanted card s with ⟨ok, s₁, hends⟩ | ⟨e, s₁, hstops, hin, he, hu, hmore⟩
  · rw [h] at hends
    cases (Prod.mk.inj hends).1
  · rw [h] at hstops
    obtain rfl := Except.error.inj (Prod.mk.inj hstops).1
    refine ⟨rfl, hin, fun hcovers => ?_⟩
    have hneeded := Board.cardsNeeded_le_of_usable hu he
    have hcounts := hcovers e he (by omega)
    omega

theorem playNamed_error {name : String} {f : Fault} {s' : Scene}
    (h : playNamed (.ok wanted) name s = (.error f, s')) :
    f = .emptyDeck ∧ ∃ card ∈ s.board.hand, ¬ card.CoversDraws := by
  unfold playNamed at h
  simp only [bind, Play.bind, board] at h
  cases hfind : s.board.freeInHand.find? fun d => d.name == name with
  | none =>
      rw [hfind] at h
      cases (Prod.mk.inj h).1
  | some card =>
      rw [hfind] at h
      rcases bind_eq_error.1 h with h | ⟨ok, s₁, -, h⟩
      · obtain ⟨hf, -, hcard⟩ := playFree_error h
        exact ⟨hf, card, (List.mem_filter.1 (List.mem_of_find?_eq_some hfind)).1, hcard⟩
      · cases ok <;> cases (Prod.mk.inj h).1

end Play

/-! ### Cards that can always be played to the end -/

/-- The draws of an effect count in full unless a negative number of cards is to be banished from the deck for it. -/
theorem Effect.coversDraws_iff {e : Effect} : e.CoversDraws ↔
    (0 < e.draws → ∀ n, e.cost = some ⟨.banishFromDeck, .amount n⟩ → 0 ≤ n) := by
  obtain ⟨draws, oncePerTurn, cost, restrictions, excavation, aftermath⟩ := e
  refine forall_congr' fun _ => ?_
  rcases cost with _ | ⟨_ | _ | _ | _, n | names⟩ <;> simp [cardsNeeded]

namespace Board

/-- A card in the hand over a deck of so many other cards. -/
def aloneOver (card : Card) (n : Nat) : Board :=
  ⟨(List.range n).map fun i => ⟨⟨card.id.number + 1 + i, 0⟩, "", [], none⟩, [card], [], [], []⟩

@[simp]
theorem length_deck_aloneOver (card : Card) (n : Nat) : (aloneOver card n).deck.length = n := by
  simp [aloneOver]

theorem allDifferent_aloneOver (card : Card) (n : Nat) : AllDifferent (aloneOver card n).cards := by
  have hids : (aloneOver card n).cards.map (·.id)
      = (List.range n).map (fun i => ⟨card.id.number + 1 + i, 0⟩) ++ [card.id] := by
    simp [aloneOver, cards, Function.comp_def]
  rw [AllDifferent, hids, List.nodup_append]
  refine ⟨List.nodup_range.map fun i j h => ?_, List.nodup_singleton _, ?_⟩
  · simpa using h
  · rintro id hid other hother rfl
    obtain ⟨i, -, hi⟩ := List.mem_map.1 hid
    rw [List.mem_singleton.1 hother] at hi
    have hnumber := congrArg CardId.number hi
    dsimp only at hnumber
    omega

/-- With nothing played before, a card with a deck cost is usable if the deck holds what it needs. -/
theorem usable_aloneOver {card : Card} {e : Effect} {n : Int} {k : Nat} (he : card.effect = some e)
    (hcost : e.cost = some ⟨.banishFromDeck, .amount n⟩) (hneeded : e.cardsNeeded ≤ k) (hn : n ≤ k) :
    (aloneOver card k).usable card = true := by
  have hpay : (aloneOver card k).canPay card = true := by
    simpa [canPay, he, hcost, canPayCost] using hn
  have hplayed : (aloneOver card k).played = [] := rfl
  simp [usable, he, hpay, hplayed, hneeded, drawsForbidden, allows, freePlayed]

end Board

/-- A card whose draws do not count in full is usable over a deck that is one card short of them. -/
theorem Card.exists_usable_of_not_coversDraws {card : Card} (h : ¬ card.CoversDraws) :
    ∃ e k, card.effect = some e ∧ (Board.aloneOver card k).usable card = true ∧ (k : Int) < e.draws := by
  simp only [CoversDraws, Option.mem_def, not_forall] at h
  obtain ⟨e, he, hdraws⟩ := h
  have hneg := hdraws
  rw [Effect.coversDraws_iff] at hneg
  push Not at hneg
  obtain ⟨hpos, n, hcost, hn⟩ := hneg
  have hneeded : e.cardsNeeded < e.draws := by
    simp only [Effect.CoversDraws, not_forall, not_le] at hdraws
    exact hdraws.2
  refine ⟨e, (e.draws - 1).toNat, he, Board.usable_aloneOver he hcost ?_ ?_, ?_⟩ <;> omega

namespace Play

/-- **What a play takes from the deck is what the check asks for, except where a deck cost is a negative number.** A play
stops exactly if a usable card of the hand draws more than the deck holds, and then because the deck runs out; no other
cost, no excavation and no toll stops it. So a card can be played to the end on every board exactly if its draws count
in full among the cards that it needs. They do unless a negative number of cards is to be banished from the deck. -/
theorem playFree_stops_iff (c : Condition) (card : Card) :
    (∀ s f, (∃ s', playFree c.aim card s = (.error f, s')) ↔
      f = .emptyDeck ∧ card.isIn s.board.hand = true ∧ s.board.usable card = true ∧
        ∃ e, card.effect = some e ∧ (s.board.deck.length : Int) < e.draws) ∧
    ((∀ s : Scene, AllDifferent s.board.cards → ∃ ok s', playFree c.aim card s = (.ok ok, s')) ↔
      card.CoversDraws) ∧
    (card.CoversDraws ↔ ∀ e, card.effect = some e → 0 < e.draws →
      ∀ n, e.cost = some ⟨.banishFromDeck, .amount n⟩ → 0 ≤ n) := by
  refine ⟨fun s f => ⟨?_, ?_⟩, ⟨fun hends => ?_, fun hcovers s _ => ?_⟩, ?_⟩
  · rintro ⟨s', hs'⟩
    rcases playFree_cases c.wanted card s with ⟨ok, s₁, hends⟩ | ⟨e, s₁, hstops, hin, he, hu, hmore⟩
    · cases (Prod.mk.inj (hs'.symm.trans hends)).1
    · obtain rfl := Except.error.inj (Prod.mk.inj (hs'.symm.trans hstops)).1
      exact ⟨rfl, hin, hu, e, he, hmore⟩
  · rintro ⟨rfl, hin, hu, e, he, hmore⟩
    exact playFree_of_lt_draws c.wanted hin he hu hmore
  · by_contra hcovers
    obtain ⟨e, k, he, hu, hmore⟩ := Card.exists_usable_of_not_coversDraws hcovers
    have hin : card.isIn (Board.aloneOver card k).hand = true := Card.isIn_iff.2 (List.mem_singleton_self _)
    obtain ⟨s', hs'⟩ := playFree_of_lt_draws c.wanted (s := ⟨Board.aloneOver card k, []⟩) hin he hu
      (by rwa [Board.length_deck_aloneOver])
    obtain ⟨ok, s₁, hok⟩ := hends ⟨Board.aloneOver card k, []⟩ (Board.allDifferent_aloneOver card k)
    cases (Prod.mk.inj (hok.symm.trans hs')).1
  · rcases playFree_cases c.wanted card s with hends | ⟨e, s', hstops, -⟩
    · exact hends
    · exact absurd hcovers (playFree_error hstops).2.2
  · simp only [Card.CoversDraws, Option.mem_def, Effect.coversDraws_iff]

/-- **A usable card may run out of cards.** The document asks for two draws and says that minus one card is banished from
the deck. Over a deck of one card the check is passed, since one card is needed, and the second draw fails. -/
theorem playFree_overdraws :
    ∃ e, Effect.ofValue (.record [("count", .int 2), ("cost", .record [("type", .text "BanishFromDeck"),
        ("value", .int (-1))])]) = .ok e ∧ e.cardsNeeded = 1 ∧
      let card : Card := ⟨⟨0, 0⟩, "O", [], some e⟩
      let b : Board := ⟨[⟨⟨1, 0⟩, "T", [], none⟩], [card], [], [], []⟩
      AllDifferent b.cards ∧ card.isIn b.hand = true ∧ b.usable card = true ∧
        ∃ s', playFree (Condition.leaf ⟨"T", 1, .atLeast, .hand⟩).aim card ⟨b, []⟩ = (.error .emptyDeck, s') := by
  refine ⟨⟨2, false, some ⟨.banishFromDeck, .amount (-1)⟩, [], none, none⟩, by decide +kernel, by decide, by decide,
    by decide, by decide, ?_⟩
  exact playFree_of_lt_draws _ (by decide) rfl (by decide) (by decide)

end Play

end OpeningHand
