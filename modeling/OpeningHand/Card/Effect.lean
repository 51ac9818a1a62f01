import OpeningHand.Document.Conversion

/-!
# Effects of free cards

A free card can be played from the hand at no charge but what its effect says: it may ask for a
cost, draw cards, excavate the deck, and end with an aftermath. Restrictions say when it cannot be
played and what it forbids to later plays.
-/

namespace OpeningHand

/-- How a cost is paid. -/
inductive CostKind where
  | banishFromDeck
  | banishFromHand
  | discard
  | payLife
deriving DecidableEq, Repr

/-- How much is paid: a number of cards, or one card for each of some names. -/
inductive Price where
  | amount (n : Int)
  | named (names : List Value)
deriving DecidableEq, Repr

/-- What must be paid when the card is played. -/
structure Cost where
  kind : CostKind
  price : Price
deriving DecidableEq, Repr

/-- What an aftermath takes, and from where. -/
inductive AftermathKind where
  | discard
  | banishFromHand
  | banishFromDeck
deriving DecidableEq, Repr

/-- How much an aftermath takes: a number of cards, or one card of a name. -/
inductive Toll where
  | amount (n : Int)
  | named (name : String)
deriving DecidableEq, Repr

/-- What must be given up after all other effects. -/
structure Aftermath where
  kind : AftermathKind
  toll : Toll
deriving DecidableEq, Repr

/-- What a free card forbids. -/
inductive Restriction where
  | noSpecialSummon
  | noMoreDraws
  | noPreviousDraws
deriving DecidableEq, Repr

/-- Reveal the top `count` cards of the deck and keep `pick` of them. -/
structure Excavation where
  count : Int
  pick : Int
deriving DecidableEq, Repr

/-- What happens when a free card is played. -/
structure Effect where
  draws : Int
  oncePerTurn : Bool
  cost : Option Cost
  restrictions : List Restriction
  excavation : Option Excavation
  aftermath : Option Aftermath
deriving DecidableEq, Repr

/-- The words for kinds of costs. -/
def CostKind.word : CostKind → String
  | .banishFromDeck => "BanishFromDeck"
  | .banishFromHand => "BanishFromHand"
  | .discard => "Discard"
  | .payLife => "PayLife"

/-- The words for kinds of aftermaths. -/
def AftermathKind.word : AftermathKind → String
  | .discard => "Discard"
  | .banishFromHand => "BanishFromHand"
  | .banishFromDeck => "BanishFromDeck"

/-- The words for restrictions. -/
def Restriction.word : Restriction → String
  | .noSpecialSummon => "NoSpecialSummon"
  | .noMoreDraws => "NoMoreDraws"
  | .noPreviousDraws => "NoPreviousDraws"

/-- The kind of cost of a word. -/
def CostKind.ofWord? (s : String) : Option CostKind :=
  [CostKind.banishFromDeck, .banishFromHand, .discard, .payLife].find? (·.word == s)

/-- The kind of aftermath of a word. -/
def AftermathKind.ofWord? (s : String) : Option AftermathKind :=
  [AftermathKind.discard, .banishFromHand, .banishFromDeck].find? (·.word == s)

/-- The restriction of a word. -/
def Restriction.ofWord? (s : String) : Option Restriction :=
  [Restriction.noSpecialSummon, .noMoreDraws, .noPreviousDraws].find? (·.word == s)

@[simp]
theorem CostKind.ofWord?_word (k : CostKind) : CostKind.ofWord? k.word = some k := by
  cases k <;> decide

@[simp]
theorem AftermathKind.ofWord?_word (k : AftermathKind) : AftermathKind.ofWord? k.word = some k := by
  cases k <;> decide

@[simp]
theorem Restriction.ofWord?_word (r : Restriction) : Restriction.ofWord? r.word = some r := by
  cases r <;> decide

/-- Whether a price asks for cards by name. -/
def Price.isNamed : Price → Bool
  | .amount _ => false
  | .named _ => true

/-- A price as a value of a document. -/
def Price.toValue : Price → Value
  | .amount n => .int n
  | .named names => .list names

/-- A toll as a value of a document. -/
def Toll.toValue : Toll → Value
  | .amount n => .int n
  | .named s => .text s

/-- Whether a value counts as a number: numbers do, and truth values. -/
def Value.isNumeric : Value → Bool
  | .bool _ | .int _ | .float _ => true
  | _ => false

namespace Effect

/-- The cards that playing takes from the deck before anything is excavated: the draws, and what a
cost banishes from the deck, where a list of names counts as one card. -/
def cardsNeeded (e : Effect) : Int :=
  match e.cost with
  | some ⟨.banishFromDeck, .amount n⟩ => e.draws + n
  | some ⟨.banishFromDeck, .named _⟩ => e.draws + 1
  | _ => e.draws

/-- The price that a value writes: a number, a list of names, or a single name. -/
def priceOf (v : Value) : Except Fault Price :=
  if v.isNumeric then v.toWhole.map .amount
  else match v with
    | .list l => .ok (.named l)
    | v => .ok (.named [v])

/-- The toll that a value writes: a number, or a name. -/
def tollOf (v : Value) : Except Fault Toll :=
  if v.isNumeric then v.toWhole.map .amount else .ok (.named v.shown)

/-- The value of a cost or an aftermath; one card if it is not given. -/
def valueOr1 (fields : Entries) : Value := (fields.get? "value").getD (.int 1)

/-- The cost that a document describes. -/
def costOf (v : Value) : Except Fault Cost := do
  let fields ← v.toFields
  let kind ← Value.choice CostKind.ofWord? "CostType" (← Value.require fields "type")
  let price ← priceOf (valueOr1 fields)
  pure ⟨kind, price⟩

/-- The excavation that a document describes. -/
def excavationOf (v : Value) : Except Fault Excavation := do
  let count ← (← v.item "count").toWhole
  let pick ← (← v.item "pick").toWhole
  pure ⟨count, pick⟩

/-- The aftermath that a document describes. -/
def aftermathOf (v : Value) : Except Fault Aftermath := do
  let fields ← v.toFields
  let kind ← Value.choice AftermathKind.ofWord? "PostConditionType" (← Value.require fields "type")
  let toll ← tollOf (valueOr1 fields)
  pure ⟨kind, toll⟩

/-- A part of an effect that is there only if its field counts as true. -/
def optional {α : Type} (read : Value → Except Fault α) (v : Value) : Except Fault (Option α) :=
  if v.truthy then (read v).map some else .ok none

/-- The effect that a document describes. -/
def ofValue (v : Value) : Except Fault Effect := do
  let fields ← v.toFields
  let cost ← optional costOf (fields.get "cost")
  let excavation ← optional excavationOf (fields.get "excavate")
  let aftermath ← optional aftermathOf (fields.get "condition")
  let draws ← optional Value.toWhole (fields.get "count")
  let restrictions ← (← (fields.get "restriction").toItemsOrNone).mapM
    (Value.choice Restriction.ofWord? "Restriction")
  pure ⟨draws.getD 0, (fields.get "oncePerTurn").truthy, cost, restrictions, excavation, aftermath⟩

/-- A field that is written only if it is there. -/
def fieldIf (key : String) (v : Option Value) : List (String × Value) :=
  match v with
  | some v => [(key, v)]
  | none => []

/-- The document of an effect. What equals its default is left out, the limit to one play excepted. -/
def toValue (e : Effect) : Value :=
  .record ([("oncePerTurn", .bool e.oncePerTurn)] ++
    fieldIf "count" (if e.draws = 0 then none else some (.int e.draws)) ++
    fieldIf "cost" (e.cost.map fun c =>
      .record [("type", .text c.kind.word), ("value", c.price.toValue)]) ++
    fieldIf "restriction" (if e.restrictions.isEmpty then none
      else some (.list (e.restrictions.map fun r => .text r.word))) ++
    fieldIf "excavate" (e.excavation.map fun x =>
      .record [("count", .int x.count), ("pick", .int x.pick)]) ++
    fieldIf "condition" (e.aftermath.map fun a =>
      .record [("type", .text a.kind.word), ("value", a.toll.toValue)]))

/-- An effect that draws two cards and does nothing else. -/
example : (ofValue (.record [("count", .int 2)])).toOption =
    some ⟨2, false, none, [], none, none⟩ := by decide +kernel

end Effect

end OpeningHand
