import OpeningHand.Card.Effect

/-!
# Cards

A card is a physical object. Two copies of the same card have the same face (name, tags, effect) but
are different objects, told apart by their identity: the number in the order of creation, and which
copy of the table the card lies on. Copying a table gives every card a new identity and leaves its
number.

Tags are texts, but the cards that fill up a deck may have other values as tags. No condition asks for
these; a cost may.
-/

namespace OpeningHand

/-- What makes a card this card and no other. -/
structure CardId where
  number : Nat
  edition : Nat
deriving DecidableEq, Repr

/-- A physical card. -/
structure Card where
  id : CardId
  name : String
  tags : List Value
  effect : Option Effect
deriving DecidableEq, Repr

namespace Card

/-- A card with an effect is a free card. -/
def isFree (c : Card) : Bool := c.effect.isSome

/-- Whether the card answers to a name: its own, or one of its tags. -/
def answersTo (c : Card) (name : String) : Bool := name == c.name || c.tags.contains (.text name)

/-- Whether two terms stand for one and the same card. -/
def is (c d : Card) : Bool := c.id == d.id

/-- The face of a card: all but its identity. -/
def face (c : Card) : String × List Value × Option Effect := (c.name, c.tags, c.effect)

/-- Whether a card is among some cards, by identity. -/
def isIn (c : Card) (cards : List Card) : Bool := cards.any (·.is c)

end Card

/-- The cards that are not among others, by identity. -/
def without (cards removed : List Card) : List Card := cards.filter fun c => !c.isIn removed

/-- The cards that answer to one of some names. -/
def answering (names : List String) (cards : List Card) : List Card :=
  cards.filter fun c => names.any c.answersTo

/-- The names of cards in order, or a dash. -/
def nameList (cards : List Card) : String :=
  if cards.isEmpty then "—" else ", ".intercalate (cards.map (·.name))

/-- The first card of each name, after the names already seen. -/
def firstOfEachName (seen : List String) : List Card → List Card
  | [] => []
  | c :: cs =>
    if seen.contains c.name then firstOfEachName seen cs
    else c :: firstOfEachName (c.name :: seen) cs

end OpeningHand
