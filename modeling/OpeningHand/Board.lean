import OpeningHand.Condition.Evaluation
import OpeningHand.Fault

/-!
# The board

Where the cards of a player lie: the deck, its top card last, the hand, and three piles. A move takes
cards out of one place and puts them into another; cards are told apart by identity, and a copy of the
board (`Board.copy`) gives every card a new one, the same for the same card.
-/

namespace OpeningHand

/-- The five places where a card can lie. -/
structure Board where
  deck : List Card
  hand : List Card
  banished : List Card
  graveyard : List Card
  played : List Card
deriving DecidableEq, Repr

namespace Board

/-- A board with a deck and nothing else. -/
def ofDeck (deck : List Card) : Board := ⟨deck, [], [], [], []⟩

/-- All cards on the board. -/
def cards (b : Board) : List Card := b.deck ++ b.hand ++ b.banished ++ b.graveyard ++ b.played

/-- The number of cards on the board. -/
def size (b : Board) : Nat :=
  b.deck.length + b.hand.length + b.banished.length + b.graveyard.length + b.played.length

/-- Changes every card, place by place. -/
def map (f : Card → Card) (b : Board) : Board :=
  ⟨b.deck.map f, b.hand.map f, b.banished.map f, b.graveyard.map f, b.played.map f⟩

/-- The first edition that no card of the board belongs to. -/
def nextEdition (b : Board) : Nat := (b.cards.map (·.id.edition + 1)).foldl max 0

/-- The board with new cards in the places of the old ones: the same card where the same card lay. -/
def copy (b : Board) : Board :=
  let shift := b.nextEdition
  b.map fun c => { c with id := { c.id with edition := c.id.edition + shift } }

/-- Takes the top `n` cards of the deck, the top one first; none if `n` is not positive. Without
enough cards the deck is used up and the cards are lost. -/
def draw (n : Int) (b : Board) : Except Fault (List Card) × Board :=
  if n.toNat ≤ b.deck.length then
    (.ok (b.deck.reverse.take n.toNat), { b with deck := b.deck.take (b.deck.length - n.toNat) })
  else (.error .emptyDeck, { b with deck := [] })

/-- Puts cards under the deck. -/
def addToBottom (cards : List Card) (b : Board) : Board := { b with deck := cards ++ b.deck }

/-- Draws a new hand, which takes the place of the old one. -/
def drawHand (n : Int) (b : Board) : Except Fault Unit × Board :=
  match b.draw n with
  | (.ok cards, b) => (.ok (), { b with hand := cards })
  | (.error f, b) => (.error f, b)

/-- Puts a card of the hand on the pile of played cards. -/
def play? (card : Card) (b : Board) : Option Board :=
  if card.isIn b.hand then
    some { b with played := b.played ++ [card], hand := without b.hand [card] }
  else none

/-- Puts cards from the hand into the graveyard. -/
def discard (cards : List Card) (b : Board) : Board :=
  { b with graveyard := b.graveyard ++ cards, hand := without b.hand cards }

/-- Banishes cards from the hand. -/
def banishFromHand (cards : List Card) (b : Board) : Board :=
  { b with banished := b.banished ++ cards, hand := without b.hand cards }

/-- Banishes cards that were drawn from the deck. -/
def banish (cards : List Card) (b : Board) : Board := { b with banished := b.banished ++ cards }

/-- The free cards of the hand. -/
def freeInHand (b : Board) : List Card := b.hand.filter (·.isFree)

/-- The free cards that were played. -/
def freePlayed (b : Board) : List Card := b.played.filter (·.isFree)

end Board

end OpeningHand
