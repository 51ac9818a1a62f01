import OpeningHand.Proofs.Play.Moves
import OpeningHand.Proofs.Play.Stock
import Mathlib.Data.List.Forall2
import Mathlib.Algebra.Module.Submodule.Lattice
import Mathlib.Data.List.Permutation

-- The last two hold the equations of `≤` and of `Prod.snd` by which `cbv` evaluates a play.

/-!
# What a cost takes

Before a card is played it is checked that its cost can be paid (`Board.canPayCost`), and the play then goes
on from the board where the cost has been paid (`Play.playFree_of_usable`). Check and payment look at the same
cards, since the card that is played counts for neither. But the check goes through them as they lie in the
hand, the payment from the least useful one on.

For a number the order does not matter. For names it does: picking is greedy, so cards that fit in one order
may not fit in the other (`pickNamed`). Then the check succeeds, the payment finds nothing, and the play goes
on with nothing paid (`Play.playFree_unpaid`). Names that are clear, a single name among them, are paid whenever
the check succeeds.
-/

namespace OpeningHand

/-- Cards that are what a price asks for: so many cards none of which is free, or one card for each name. -/
def Price.IsMetBy : Price → List Card → Prop
  | .amount n, cards => (cards.length : Int) = n ∧ ∀ c ∈ cards, c.isFree = false
  | .named names, cards => Answers cards names

theorem without_singleton (hand : List Card) (card : Card) :
    without hand [card] = hand.filter fun c => !c.is card := by
  refine List.filter_congr fun c _ => ?_
  rw [Card.isIn, List.any_cons, List.any_nil, Bool.or_false, Card.is, Card.is, Bool.beq_comm]

namespace Board

variable {b after : Board} {card : Card} {e : Effect} {cost : Cost}

theorem play?_of_mem (h : card ∈ b.hand) :
    b.play? card = some { b with played := b.played ++ [card], hand := without b.hand [card] } :=
  if_pos (Card.isIn_iff.2 (List.mem_map_of_mem h))

theorem canPayCost_of_usable (hu : b.usable card = true) (he : card.effect = some e)
    (hcost : e.cost = some cost) : b.canPayCost card cost = true := by
  simp only [usable, he, Bool.and_eq_true] at hu
  have hpay := hu.2
  simpa only [canPay, he, Option.bind_some, hcost] using hpay

/-- The card that is played counts neither before nor after it has left the hand. -/
theorem costPool_of_hand (h : after.hand = without b.hand [card]) :
    after.costPool card = b.costPool card := by
  rw [costPool, h, without_singleton, List.filter_filter, costPool]
  exact List.filter_congr fun c _ => by cases c.is card <;> simp

/-- A number of cards that can be paid is paid, in cards that are not free. -/
theorem isMetBy_payment_amount (wanted : List String) (card : Card) {n : Int} (h0 : 0 ≤ n)
    (hn : n ≤ (b.costPool card).length) :
    (Price.amount n).IsMetBy (b.payment wanted card (.amount n)) := by
  have hpool := reverse_byUsefulness_perm wanted (b.costPool card)
  refine ⟨length_firstCards h0 (by rwa [hpool.length_eq]), fun c hc => ?_⟩
  have hmem := hpool.subset ((firstCards_sublist n _).subset hc)
  have hcond := (List.mem_filter.1 hmem).2
  rw [Bool.and_eq_true] at hcond
  simpa using hcond.2

/-- Names are paid exactly if they can be picked from the least useful card on; otherwise nothing is paid. -/
theorem isMetBy_payment_named (wanted : List String) (card : Card) (names : List Value) (b : Board) :
    ((Price.named names).IsMetBy (b.payment wanted card (.named names)) ↔
      (pickNamed (byUsefulness wanted b.hand).reverse [] names).isSome = true) ∧
    ((pickNamed (byUsefulness wanted b.hand).reverse [] names).isSome = false →
      b.payment wanted card (.named names) = []) := by
  unfold payment Price.IsMetBy
  dsimp only
  cases h : pickNamed (byUsefulness wanted b.hand).reverse [] names with
  | some cards =>
      obtain ⟨picked, rfl, hnames, -, -⟩ := pickNamed_eq_some h
      exact ⟨⟨fun _ => rfl, fun _ => hnames⟩, fun hno => by cases hno⟩
  | none =>
      refine ⟨⟨fun hnames => ?_, fun hsome => by cases hsome⟩, fun _ => rfl⟩
      -- no cards are right for no names only, and no names can be picked
      obtain rfl := (List.forall₂_nil_left_iff.1 hnames)
      cases h

end Board

namespace Play

variable {b : Board} {card : Card} {c : Condition} {e : Effect} {cost : Cost}

/-- A usable card of the hand is played: its effect is resolved once it has left the hand. -/
theorem playFree_of_mem (hcard : card ∈ b.hand) (he : card.effect = some e) (hu : b.usable card = true)
    (aim : Aim) (log : List String) :
    playFree aim card ⟨b, log⟩ = (resolve aim card e >>= fun _ => pure true)
      ⟨{ b with played := b.played ++ [card], hand := without b.hand [card] },
        log ++ ["[FREE] play " ++ card.name]⟩ := by
  unfold playFree
  simp only [bind, Play.bind, board, Board.play?_of_mem hcard, he, hu, if_true, change, say]

/-- An effect with a cost that is paid goes on as without it. -/
theorem resolve_of_payCost {aim : Aim} {s s' : Scene} (hcost : e.cost = some cost)
    (h : payCost aim card cost s = (.ok (), s')) :
    resolve aim card e s = resolve aim card { e with cost := none } s' := by
  simp only [resolve, bind, Play.bind, ifAny, hcost, h]
  rfl

/-- **What the cost of a usable card takes.** The card leaves the hand, different cards of the hand go to the
graveyard or are banished, and the play goes on as that of a card without a cost. These cards are as many as
the price says, and none of them is free. Where the price is a list of names, they answer to the names one by
one exactly if they can be picked in the order of payment, and there are none of them otherwise; clear names
can always be picked. -/
theorem playFree_of_usable (hd : AllDifferent b.hand) (hcard : card ∈ b.hand)
    (hu : b.usable card = true) (he : card.effect = some e) (hcost : e.cost = some cost)
    (hkind : cost.kind = .discard ∨ cost.kind = .banishFromHand) (log : List String) :
    ∃ after paid log', b.play? card = some after ∧
      playFree c.aim card ⟨b, log⟩ = (resolve c.aim card { e with cost := none } >>= fun _ => pure true)
        ⟨after.giveUp (cost.kind = .banishFromHand) paid, log'⟩ ∧
      AllDifferent paid ∧ (paid ++ without after.hand paid).Perm after.hand ∧
      (∀ n, cost.price = .amount n → 0 ≤ n → cost.price.IsMetBy paid) ∧
      ∀ names, cost.price = .named names →
        (cost.price.IsMetBy paid ↔
          (pickNamed (byUsefulness c.wanted after.hand).reverse [] names).isSome = true) ∧
        (cost.price.IsMetBy paid ∨ paid = []) ∧
        (ClearNames after.hand names → cost.price.IsMetBy paid) := by
  set after : Board := { b with played := b.played ++ [card], hand := without b.hand [card] } with hafter
  have hhand : AllDifferent after.hand := hd.sublist (without_sublist _ _)
  have hpaid := Board.payment_subperm c.wanted card cost.price after
  have hcheck := Board.canPayCost_of_usable hu he hcost
  obtain ⟨kind, price⟩ := cost
  dsimp only at hkind hpaid ⊢
  obtain ⟨log', hlog⟩ := payFromHand_eq c.wanted card kind price
    ⟨after, log ++ ["[FREE] play " ++ card.name]⟩
  have hpay : payCost c.aim card ⟨kind, price⟩ ⟨after, log ++ ["[FREE] play " ++ card.name]⟩
      = (.ok (), ⟨after.giveUp (kind = .banishFromHand) (after.payment c.wanted card price), log'⟩) := by
    rcases hkind with rfl | rfl <;> exact hlog
  refine ⟨after, after.payment c.wanted card price, log', Board.play?_of_mem hcard, ?_, ?_,
    hhand.perm_append_without hpaid, ?_, ?_⟩
  · rw [playFree_of_mem hcard he hu, ← hafter]
    show Play.bind _ _ _ = Play.bind _ _ _
    unfold Play.bind
    rw [resolve_of_payCost hcost hpay]
  · obtain ⟨cards, hperm, hsub⟩ := hpaid
    exact (hhand.sublist hsub).perm hperm
  · rintro n rfl h0
    have hn : n ≤ (b.costPool card).length := by
      rcases hkind with rfl | rfl <;> exact of_decide_eq_true hcheck
    have hpool : after.costPool card = b.costPool card := Board.costPool_of_hand rfl
    rw [← hpool] at hn
    exact Board.isMetBy_payment_amount c.wanted card h0 hn
  · rintro names rfl
    obtain ⟨hmet, hnone⟩ := Board.isMetBy_payment_named c.wanted card names after
    refine ⟨hmet, ?_, fun hclear => hmet.2 ?_⟩
    · cases hsome : (pickNamed (byUsefulness c.wanted after.hand).reverse [] names).isSome with
      | true => exact Or.inl (hmet.2 hsome)
      | false => exact Or.inr (hnone hsome)
    · -- the check picked the same names, from the same cards in another order
      have hpool := (reverse_byUsefulness_perm c.wanted after.hand).symm
      have hpick : (pickNamed after.hand [] names).isSome = true := by
        rw [hafter, without_singleton]
        rcases hkind with rfl | rfl <;> exact hcheck
      rwa [← isSome_pickNamed_perm hpool hhand hclear]

/-- A card that is not free and has some tags. -/
def tagged (number : Nat) (name : String) (tags : List String) : Card :=
  ⟨⟨number, 0⟩, name, tags.map .text, none⟩

/-- A free card that discards an A and a B, and does nothing else. -/
def asker : Card :=
  ⟨⟨0, 0⟩, "F", [], some ⟨0, true, some ⟨.discard, .named [.text "A", .text "B"]⟩, [], none, none⟩⟩

/-- A hand with such a card, an A, and a card with some tags. -/
def asking (tags : List String) : Board :=
  ⟨[], [asker, tagged 1 "Y" ["A"], tagged 2 "X" tags], [], [], []⟩

/-- A condition that no card of these hands has to do with. -/
def unrelated : Condition := .leaf ⟨"T", 1, .atLeast, .hand⟩

/-- An A and a B in the hand are paid. -/
theorem playFree_of_usable_clear :
    ∃ after paid log', (asking ["B"]).play? asker = some after ∧
      playFree unrelated.aim asker ⟨asking ["B"], []⟩
        = (.ok true, ⟨after.giveUp false paid, log'⟩) ∧
      Answers paid [.text "A", .text "B"] := by
  have hd : AllDifferent (asking ["B"]).hand := by decide
  have hu : (asking ["B"]).usable asker = true := by decide +kernel
  obtain ⟨after, paid, log', hafter, hplay, -, -, -, hnamed⟩ :=
    playFree_of_usable (c := unrelated) hd List.mem_cons_self hu rfl rfl (Or.inl rfl) []
  obtain ⟨-, -, hclear⟩ := hnamed _ rfl
  obtain rfl := Option.some.inj hafter
  exact ⟨_, paid, log', rfl, hplay, hclear (by decide +kernel)⟩

/-- **A cost may be left unpaid.** The check takes Y for the A and X for the B. The payment begins with the
card that lies last: it takes X for the A, and nothing is left for the B. -/
theorem playFree_unpaid :
    AllDifferent (asking ["A", "B"]).cards ∧ (asking ["A", "B"]).usable asker = true ∧
      Answers [tagged 1 "Y" ["A"], tagged 2 "X" ["A", "B"]] [.text "A", .text "B"] ∧
      ∃ log, playFree unrelated.aim asker ⟨asking ["A", "B"], []⟩ = (.ok true,
        ⟨⟨[], [tagged 1 "Y" ["A"], tagged 2 "X" ["A", "B"]], [], [], [asker]⟩, log⟩) := by
  refine ⟨by decide, by decide +kernel, by decide +kernel, ["[FREE] play F", "[FREE] F cost: discarded —"], ?_⟩
  cbv

end Play

end OpeningHand
