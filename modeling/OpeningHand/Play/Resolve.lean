import OpeningHand.Play.Scene
import OpeningHand.Play.Usable

/-!
# Playing a free card

A usable card leaves the hand, its cost is paid, it draws, it excavates, and its aftermath takes its
toll. Where cards must be chosen, the aim decides: costs and tolls take the least useful cards, an
excavation keeps the most useful ones. If the toll cannot be paid, the whole hand is discarded.
-/

namespace OpeningHand

/-- What a line of play aims at: the names that a condition asks for, or the fault that hides
them. -/
abbrev Aim := Except Fault (List String)

/-- The aim of a condition. -/
def Condition.aim (c : Condition) : Aim := .ok c.wanted

namespace Play

/-- Cards from the most to the least useful for an aim. -/
def ranked (aim : Aim) (cards : List Card) : Play (List Card) :=
  Play.ofExcept (aim.map fun wanted => byUsefulness wanted cards)

/-- The line for a step of a free card. -/
def freeLine (card : Card) (text : String) : String := "[FREE] " ++ card.name ++ text

/-- The text of a price. -/
def priceText : Price → String
  | .amount n => Number.text n
  | .named names => (Value.tuple names).exact

/-- Gives up cards of the hand for a reason: they are banished or discarded. -/
def giveUp (card : Card) (reason : String) (banished : Bool) (cards : List Card) : Play Unit :=
  if banished then do
    change (·.banishFromHand cards)
    say (freeLine card (" " ++ reason ++ ": banished from hand " ++ nameList cards))
  else do
    change (·.discard cards)
    say (freeLine card (" " ++ reason ++ ": discarded " ++ nameList cards))

/-- Pays a cost from the hand: the least useful cards that fit. -/
def payFromHand (aim : Aim) (card : Card) (kind : CostKind) (price : Price) : Play Unit := do
  let b ← board
  match price with
  | .named names => do
    let cards ← ranked aim b.hand
    giveUp card "cost" (kind = .banishFromHand) ((pickNamed cards.reverse [] names).getD [])
  | .amount n => do
    let cards ← ranked aim (b.costPool card)
    giveUp card "cost" (kind = .banishFromHand) (firstCards n cards.reverse)

/-- Pays a cost. Names cannot be banished from the deck. -/
def payCost (aim : Aim) (card : Card) (cost : Cost) : Play Unit :=
  match cost.kind, cost.price with
  | .payLife, price => say (freeLine card (" cost: pay life " ++ priceText price ++ " (ignored)"))
  | .banishFromDeck, .named _ => stop .wrongKind
  | .banishFromDeck, .amount n => do
    let banished ← draw n
    change (·.banish banished)
    say (freeLine card (" cost: banished from deck " ++ nameList banished))
  | kind, price => payFromHand aim card kind price

/-- Reveals the top cards of the deck, keeps the most useful ones and puts the others under the
deck. -/
def dig (aim : Aim) (card : Card) (count pick : Int) : Play Unit := do
  let revealed ← draw count
  let cards ← ranked aim revealed
  change fun b => { b with hand := b.hand ++ firstCards pick cards }
  change (·.addToBottom (otherCards pick cards))
  say (freeLine card (" excavated " ++ nameList revealed ++ " -> kept " ++
    nameList (firstCards pick cards)))

/-- Digs as deep as asked, or as deep as the deck is. -/
def excavate (aim : Aim) (card : Card) (rule : Excavation) : Play Unit := do
  let b ← board
  let size := b.deck.length
  sayIf (size < rule.count) ("[FREE] WARN " ++ card.name ++ " excavate " ++ Number.text rule.count ++
    " with only " ++ Number.text size ++ " cards in deck")
  dig aim card (min rule.count size) rule.pick

/-- Banishes the toll from the deck. -/
def tollFromDeck (card : Card) (toll : Toll) : Play Unit := do
  let b ← board
  match toll with
  | .amount n =>
    if (b.deck.length : Int) < n then stop (.cannotBanish (.int n) b.deck.length)
    else do
      let banished ← draw n
      change (·.banish banished)
      say (freeLine card (" condition: banished from deck " ++ nameList banished))
  | .named s => stop (.cannotBanish (.text s) b.deck.length)

/-- Takes the toll from the hand: the least useful cards that fit. -/
def tollFromHand (aim : Aim) (card : Card) (kind : AftermathKind) (toll : Toll) : Play Unit := do
  let b ← board
  let cards ← ranked aim b.hand
  match toll with
  | .amount n =>
    let chosen := firstCards n cards.reverse
    if (chosen.length : Int) < n then stop (.needCards n chosen.length)
    else giveUp card "condition" (kind = .banishFromHand) chosen
  | .named s => match pickNamed cards.reverse [] [.text s] with
    | some chosen => giveUp card "condition" (kind = .banishFromHand) chosen
    | none => stop (.noneInHand s)

/-- Takes the toll of an aftermath. -/
def suffer (aim : Aim) (card : Card) (a : Aftermath) : Play Unit :=
  match a.kind with
  | .banishFromDeck => tollFromDeck card a.toll
  | kind => tollFromHand aim card kind a.toll

/-- What follows a toll that cannot be paid: the hand is discarded. -/
def forfeit (card : Card) (f : Fault) : Play Unit := do
  say ("[FREE] WARN " ++ card.name ++ " post condition failed (" ++ f.message ++ "); hand discarded")
  change fun b => b.discard b.hand

/-- Draws cards, if there are any to draw. -/
def drawCards (card : Card) (n : Int) : Play Unit :=
  if 0 < n then do
    let drawn ← draw n
    change fun b => { b with hand := b.hand ++ drawn }
    say (freeLine card (" drew " ++ nameList drawn))
  else pure ()

/-- Takes the toll of an aftermath, or the whole hand. -/
def sufferOrForfeit (aim : Aim) (card : Card) (a : Aftermath) : Play Unit :=
  (suffer aim card a).orElse fun f => if f.kind = .aftermath then some (forfeit card f) else none

/-- The effect of a card that has left the hand. -/
def resolve (aim : Aim) (card : Card) (e : Effect) : Play Unit := do
  ifAny e.cost (payCost aim card)
  drawCards card e.draws
  ifAny e.excavation (excavate aim card)
  ifAny e.aftermath (sufferOrForfeit aim card)

/-- Plays a free card of the hand; says whether it could be played. -/
def playFree (aim : Aim) (card : Card) : Play Bool := do
  let b ← board
  match b.play? card, card.effect with
  | none, _ =>
    say ("[FREE] WARN " ++ card.name ++ " is not in hand")
    pure false
  | some _, none => pure false
  | some after, some e =>
    if b.usable card then
      change fun _ => after
      say ("[FREE] play " ++ card.name)
      resolve aim card e
      pure true
    else pure false

/-- Plays the first free card of a name in the hand; gives the card that was played. -/
def playNamed (aim : Aim) (name : String) : Play (Option Card) := do
  let b ← board
  match b.freeInHand.find? fun c => c.name == name with
  | none =>
    say ("[FREE] WARN " ++ name ++ " is not in hand")
    pure none
  | some card =>
    if ← playFree aim card then pure (some card) else pure none

end Play

end OpeningHand
