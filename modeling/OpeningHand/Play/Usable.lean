import OpeningHand.Board

/-!
# When a free card can be played

A free card is usable if its limit per turn is not used up, the deck holds enough cards, no card
played before forbids draws, and its cost can be paid.
-/

namespace OpeningHand

/-- Whether a card answers to a value: a text is a name, anything else can only be one of its tags. -/
def Card.answersToValue (c : Card) : Value → Bool
  | .text s => c.answersTo s
  | v => c.tags.any fun t => t.same v

/-- One card for each of some names, in turn the first of the pool that answers and is not yet
taken. -/
def pickNamed (pool : List Card) : (taken : List Card) → List Value → Option (List Card)
  | taken, [] => some taken
  | taken, name :: names =>
    match pool.find? fun c => c.answersToValue name && !c.isIn taken with
    | some c => pickNamed pool (taken ++ [c]) names
    | none => none

namespace Board

/-- The hand cards that a numeric cost may spend: neither the card that is played nor a free card. -/
def costPool (card : Card) (b : Board) : List Card :=
  b.hand.filter fun c => !c.is card && !c.isFree

/-- Whether a cost can be paid for playing a card. -/
def canPayCost (card : Card) (b : Board) (cost : Cost) : Bool :=
  match cost.kind, cost.price with
  | .payLife, _ => true
  | .banishFromDeck, .amount n => decide (n ≤ b.deck.length)
  | .banishFromDeck, .named _ => false
  | .banishFromHand, .amount n | .discard, .amount n => decide (n ≤ (b.costPool card).length)
  | .banishFromHand, .named names | .discard, .named names =>
    (pickNamed (b.hand.filter fun c => !c.is card) [] names).isSome

/-- Whether the cost of a card, if it has one, can be paid. -/
def canPay (card : Card) (b : Board) : Bool :=
  match card.effect.bind (·.cost) with
  | some cost => b.canPayCost card cost
  | none => true

/-- Whether the restrictions of an effect allow it after the plays so far. -/
def allows (e : Effect) (b : Board) : Bool :=
  !(e.restrictions.contains .noPreviousDraws && !b.freePlayed.isEmpty)

/-- Whether some card played before forbids all further draws. -/
def drawsForbidden (b : Board) : Bool :=
  b.played.any fun c => match c.effect with
    | some e => e.restrictions.contains .noMoreDraws
    | none => false

/-- Whether a card can be played for free. -/
def usable (card : Card) (b : Board) : Bool :=
  match card.effect with
  | none => false
  | some e =>
    !(e.oncePerTurn && b.played.any fun c => c.name == card.name) &&
      decide (e.cardsNeeded ≤ b.deck.length) && !b.drawsForbidden && b.allows e && b.canPay card

end Board

end OpeningHand
