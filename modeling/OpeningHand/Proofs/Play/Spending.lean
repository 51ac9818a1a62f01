import OpeningHand.Proofs.Play.Costs

/-!
# The least useful cards are spent first

A cost or an aftermath that asks for a number of cards from the hand takes the cheapest ones: none of the cards that
are spent has a higher score than one that could have been spent instead, and the cards that stay in the hand stay in
their order (`Board.GivesUpCheapest`). A cost spends neither the card that is played nor any other free card, an
aftermath whatever is in the hand (`Play.spends_cheapest`).

A cost is checked before it is paid, so there are cards enough for it. An aftermath is not: if the hand holds too few
cards, it moves none of them and stops with a fault.
-/

namespace OpeningHand

/-- Cards of the hand are given up, as many as asked for and the cheapest ones of a pool, and the others stay in the
hand in their order. -/
def Board.GivesUpCheapest (c : Condition) (pool : List Card) (n : Int) (banished : Bool) (b after : Board) : Prop :=
  ∃ spent, c.Cheapest pool n spent ∧ after = b.giveUp banished spent ∧ after.hand.Sublist b.hand ∧
    (spent ++ after.hand).Perm b.hand

namespace Board

variable {b : Board} {card : Card} {c : Condition} {e : Effect} {kind : CostKind} {n : Int}

@[simp]
theorem hand_giveUp (banished : Bool) (cards : List Card) (b : Board) :
    (b.giveUp banished cards).hand = without b.hand cards := by
  cases banished <;> rfl

theorem mem_costPool {d : Card} : d ∈ b.costPool card ↔ d ∈ b.hand ∧ d.is card = false ∧ d.isFree = false := by
  rw [costPool, List.mem_filter, Bool.and_eq_true, Bool.not_eq_true', Bool.not_eq_true']

theorem givesUpCheapest {pool spent : List Card} (hd : AllDifferent b.hand) (hpool : pool.Sublist b.hand)
    (h : c.Cheapest pool n spent) (banished : Bool) :
    b.GivesUpCheapest c pool n banished (b.giveUp banished spent) := by
  refine ⟨spent, h, rfl, ?_, ?_⟩
  · rw [hand_giveUp]
    exact without_sublist b.hand spent
  · rw [hand_giveUp]
    exact hd.perm_append_without (h.fromPool.trans hpool.subperm)

/-- A number of hand cards can be paid if the pool holds so many. -/
theorem le_of_canPay_amount (he : card.effect = some e) (hcost : e.cost = some ⟨kind, .amount n⟩)
    (hkind : kind = .discard ∨ kind = .banishFromHand) (h : b.canPay card = true) : n ≤ (b.costPool card).length := by
  rw [canPay, he, Option.bind_some, hcost] at h
  rcases hkind with rfl | rfl <;> exact of_decide_eq_true h

end Board

namespace Play

variable {b : Board} {card : Card} {c : Condition} {n : Int}

theorem payCost_amount {kind : CostKind} (hkind : kind = .discard ∨ kind = .banishFromHand) (c : Condition)
    (card : Card) (n : Int) (s : Scene) : ∃ log, payCost c.aim card ⟨kind, .amount n⟩ s = (.ok (),
      ⟨s.board.giveUp (kind = .banishFromHand)
        (firstCards n (byUsefulness c.wanted (s.board.costPool card)).reverse), log⟩) := by
  obtain ⟨log, hlog⟩ := payFromHand_eq c.wanted card kind (.amount n) s
  refine ⟨log, ?_⟩
  rcases hkind with rfl | rfl <;> exact hlog

/-- An aftermath is suffered if the cards that it would take are as many as it asks for. -/
theorem suffer_amount {kind : AftermathKind} (hkind : kind = .discard ∨ kind = .banishFromHand) (c : Condition)
    (card : Card) (n : Int) (s : Scene) : suffer c.aim card ⟨kind, .amount n⟩ s =
      (if ((firstCards n (byUsefulness c.wanted s.board.hand).reverse).length : Int) < n
        then stop (.needCards n (firstCards n (byUsefulness c.wanted s.board.hand).reverse).length)
        else giveUp card "condition" (kind = .banishFromHand)
          (firstCards n (byUsefulness c.wanted s.board.hand).reverse)) s := by
  rcases hkind with rfl | rfl <;> rfl

/-- **The least useful cards are spent first.** A number of cards that a cost asks for is paid in cards of the hand,
without the card that is played and without free cards, and an aftermath takes a number of any cards of the hand. None
of the cards that are spent has a higher score than one that is not, and the hand keeps its order. If the hand holds
fewer cards than an aftermath asks for, nothing happens but that it stops with a fault. -/
theorem spends_cheapest (hd : AllDifferent b.hand) (h0 : 0 ≤ n) (log : List String) :
    (∀ card e kind, card.effect = some e → e.cost = some ⟨kind, .amount n⟩ →
      kind = .discard ∨ kind = .banishFromHand → b.canPay card = true →
      (∀ d, d ∈ b.costPool card ↔ d ∈ b.hand ∧ d.is card = false ∧ d.isFree = false) ∧
      ∃ after log', payCost c.aim card ⟨kind, .amount n⟩ ⟨b, log⟩ = (.ok (), ⟨after, log'⟩) ∧
        b.GivesUpCheapest c (b.costPool card) n (kind = .banishFromHand) after) ∧
    ∀ card kind, kind = .discard ∨ kind = .banishFromHand →
      (n ≤ b.hand.length →
        ∃ after log', suffer c.aim card ⟨kind, .amount n⟩ ⟨b, log⟩ = (.ok (), ⟨after, log'⟩) ∧
          b.GivesUpCheapest c b.hand n (kind = .banishFromHand) after) ∧
      ((b.hand.length : Int) < n →
        suffer c.aim card ⟨kind, .amount n⟩ ⟨b, log⟩ = (.error (.needCards n b.hand.length), ⟨b, log⟩)) := by
  refine ⟨fun card e kind he hcost hkind hpay => ?_, fun card kind hkind => ⟨fun hn => ?_, fun hmore => ?_⟩⟩
  · obtain ⟨log', hpaid⟩ := payCost_amount hkind c card n ⟨b, log⟩
    have hn := Board.le_of_canPay_amount he hcost hkind hpay
    exact ⟨fun d => Board.mem_costPool, _, log', hpaid,
      Board.givesUpCheapest hd List.filter_sublist (Condition.cheapest_firstCards h0 hn) _⟩
  · have hcheapest := Condition.cheapest_firstCards (c := c) h0 hn
    obtain ⟨log', hgiven⟩ := giveUp_eq card "condition" (kind = .banishFromHand)
      (firstCards n (byUsefulness c.wanted b.hand).reverse) ⟨b, log⟩
    refine ⟨_, log', ?_, Board.givesUpCheapest hd (.refl _) hcheapest _⟩
    rw [suffer_amount hkind, if_neg (not_lt.2 hcheapest.size.ge)]
    exact hgiven
  · -- the whole hand is not enough
    have hlength := (reverse_byUsefulness_perm c.wanted b.hand).length_eq
    have hall : firstCards n (byUsefulness c.wanted b.hand).reverse = (byUsefulness c.wanted b.hand).reverse :=
      firstCards_of_length_le (by omega)
    rw [suffer_amount hkind, hall, hlength, if_pos hmore]
    rfl

/-- A free card that discards a card when it is played. -/
def spender : Card := ⟨⟨0, 0⟩, "F", [], some ⟨0, true, some ⟨.discard, .amount 1⟩, [], none, none⟩⟩

/-- A hand with such a card, a card for both sides of a condition, and one for the left side. -/
def spending : Board := ⟨[], [spender, tagged 1 "X" ["A", "B"], tagged 2 "Y" ["A"]], [], [], []⟩

/-- A condition with two leaves. -/
def pair : Condition := .joint .and (.leaf ⟨"A", 1, .atLeast, .hand⟩) (.leaf ⟨"B", 1, .atLeast, .hand⟩) false

/-- As a cost, Y is spent and X is kept, which answers to more leaves. An aftermath takes F, which answers to none; four
cards are too many for it. -/
theorem spends_cheapest_pair : AllDifferent spending.hand ∧ spending.canPay spender = true ∧
    (∃ after log, payCost pair.aim spender ⟨.discard, .amount 1⟩ ⟨spending, []⟩ = (.ok (), ⟨after, log⟩) ∧
      after.graveyard = [tagged 2 "Y" ["A"]] ∧ after.hand = [spender, tagged 1 "X" ["A", "B"]] ∧
      spending.GivesUpCheapest pair (spending.costPool spender) 1 false after) ∧
    (∃ after log, suffer pair.aim spender ⟨.banishFromHand, .amount 1⟩ ⟨spending, []⟩ = (.ok (), ⟨after, log⟩) ∧
      spending.GivesUpCheapest pair spending.hand 1 true after) ∧
    suffer pair.aim spender ⟨.discard, .amount 4⟩ ⟨spending, []⟩ = (.error (.needCards 4 3), ⟨spending, []⟩) := by
  have hd : AllDifferent spending.hand := by decide
  have hpay : spending.canPay spender = true := by decide +kernel
  obtain ⟨hcost, htoll⟩ := spends_cheapest (c := pair) (n := 1) hd Int.one_nonneg []
  obtain ⟨-, after, log, hpaid, hcheapest⟩ := hcost spender _ .discard rfl rfl (Or.inl rfl) hpay
  refine ⟨hd, hpay, ⟨after, log, hpaid, ?_, ?_, hcheapest⟩, (htoll spender _ (Or.inr rfl)).1 (by decide),
    ((spends_cheapest (c := pair) (n := 4) hd (by decide) []).2 spender _ (Or.inl rfl)).2 (by decide)⟩
  · have hboard : (payCost pair.aim spender ⟨.discard, .amount 1⟩ ⟨spending, []⟩).2.board.graveyard
        = [tagged 2 "Y" ["A"]] := by cbv
    rwa [hpaid] at hboard
  · have hboard : (payCost pair.aim spender ⟨.discard, .amount 1⟩ ⟨spending, []⟩).2.board.hand
        = [spender, tagged 1 "X" ["A", "B"]] := by cbv
    rwa [hpaid] at hboard

end Play

end OpeningHand
