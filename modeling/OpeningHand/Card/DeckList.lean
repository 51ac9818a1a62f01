import OpeningHand.Card.Basic

/-!
# Deck lists

A deck list says, name by name, how many copies of a card the deck holds and what they look like.
-/

namespace OpeningHand

/-- The name of the blank cards that fill up a deck. -/
def fillerCardName : String := "Empty Card"

/-- One entry of a deck list. -/
structure DeckEntry where
  copies : Int
  tags : List String
  effect : Option Effect
deriving DecidableEq, Repr

/-- The entries of a deck by card name, in order. -/
abbrev DeckList := List (String × DeckEntry)

namespace DeckEntry

/-- The number of copies that a value writes; only a natural number will do. -/
def copiesOf (card : String) (v : Value) : Except Fault Int :=
  match v with
  | .int i => if 0 ≤ i then .ok i else .error (.copies card v.exact)
  | _ => .error (.copies card v.exact)

/-- The entry that a document describes; the empty value stands for one plain copy. -/
def ofValue (card : String) (v : Value) : Except Fault DeckEntry :=
  let details := match v with
    | .null => some []
    | .map fields => some fields
    | _ => none
  match details with
  | none => .error (.cardDetails card)
  | some (fields : Entries) => do
    let copies ← copiesOf card ((fields.get? "qty").getD (.int 1))
    let tags ← (fields.get "tags").toItemsOrNone
    let effect ← Effect.optional Effect.ofValue (fields.get "free")
    pure ⟨copies, tags.map Value.shown, effect⟩

/-- The document of an entry. -/
def toValue (e : DeckEntry) : Value :=
  .record ([("qty", .int e.copies)] ++
    Effect.fieldIf "tags" (if e.tags.isEmpty then none else some (.list (e.tags.map .text))) ++
    Effect.fieldIf "free" (e.effect.map Effect.toValue))

end DeckEntry

namespace DeckList

/-- Adds an entry; a name that is already there keeps its place and takes the new entry. -/
def insert (name : String) (entry : DeckEntry) : DeckList → DeckList
  | [] => [(name, entry)]
  | (n, e) :: r => if n = name then (n, entry) :: r else (n, e) :: insert name entry r

/-- Entries in the order given, later ones winning over earlier ones of the same name. -/
def ofList (l : List (String × DeckEntry)) : DeckList := l.foldl (fun d e => insert e.1 e.2 d) []

/-- The number of cards that the entries list together. -/
def total (deck : DeckList) : Int := deck.foldr (fun e n => e.2.copies + n) 0

end DeckList

end OpeningHand
