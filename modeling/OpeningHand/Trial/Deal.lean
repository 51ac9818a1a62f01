import OpeningHand.Card.DeckList
import OpeningHand.Chance.Shuffle
import OpeningHand.Board
import OpeningHand.Number.Digits

/-!
# Dealing an opening hand

The template deck holds the cards of the deck list in order, and fillers up to the size of the deck.
A deal copies the template, shuffles the copy and draws the hand from its top.
-/

namespace OpeningHand

/-- The faces of the cards that a deck list asks for, in order. -/
def DeckList.faces (deck : DeckList) : List (String × List Value × Option Effect) :=
  deck.flatMap fun e => List.replicate e.2.copies.toNat (e.1, e.2.tags.map .text, e.2.effect)

/-- Cards with the faces given, numbered from a number on. -/
def cardsFrom : (number : Nat) → List (String × List Value × Option Effect) → List Card
  | _, [] => []
  | n, f :: fs => ⟨⟨n, 0⟩, f.1, f.2.1, f.2.2⟩ :: cardsFrom (n + 1) fs

/-- The template deck: the listed cards, and as many fillers as are missing. -/
def template (deck : DeckList) (size : Int) (fillerName : String) (fillerTags : List Value) :
    List Card :=
  let faces := deck.faces
  cardsFrom 0 (faces ++
    List.replicate (size - faces.length).toNat (fillerName, fillerTags, none))

/-- The opening board dealt from a template deck. -/
def deal (template : List Card) (t : Twister) (handSize : Int) : Board :=
  let board := (Board.ofDeck template).copy
  let board := { board with deck := (shuffle board.deck t).1 }
  (board.drawHand (min handSize board.deck.length)).2

/-- The lines that describe a board. -/
def Board.describe (b : Board) : List String :=
  let pile := fun (title : String) (cards : List Card) =>
    title ++ " (" ++ Number.text cards.length ++ "): " ++ nameList cards
  let pileIf := fun (title : String) (cards : List Card) =>
    if cards.isEmpty then [] else [pile title cards]
  [pile "Hand" b.hand, "Deck: " ++ Number.text b.deck.length ++ " cards"] ++
    pileIf "Played" b.played ++ pileIf "Banished" b.banished ++ pileIf "Graveyard" b.graveyard ++
    [String.ofList (List.replicate 40 '-')]

end OpeningHand
