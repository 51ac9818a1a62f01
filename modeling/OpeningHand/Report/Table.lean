import OpeningHand.Report.Basic

/-!
# Tables and lines of a report

The card table has a row for each name and each tag of a report, names first, the most often seen
first within each kind. The condition table has a row for each condition, followed by the rows of its
parts. The report in lines is the condition table with rates, and the free cards by name.
-/

namespace OpeningHand

open Number

/-- Whether a row of the card table is about a name or a tag. -/
inductive KeyKind where
  | name
  | tag
deriving DecidableEq, Repr

/-- The word for a kind of key. -/
def KeyKind.word : KeyKind → String
  | .name => "name"
  | .tag => "tag"

/-- A row of the card table. -/
structure CardRow where
  kind : KeyKind
  key : Value
  handsSeen : Nat
  averageCopies : Binary64
  drawn : Nat
  banished : Nat
  discarded : Nat
  seenRate : Binary64
deriving DecidableEq, Repr

/-- A row of the condition table. -/
structure ConditionRow where
  text : String
  depth : Nat
  successes : Nat
  rate : Binary64
deriving DecidableEq, Repr

namespace Report

/-- The share of simulations that a count makes up. -/
def rate (r : Report) (n : Nat) : Binary64 := Binary64.quotient n (max r.iterations 1)

/-- The total of the entry of a key in a ledger of piles. -/
def pileTotal {α : Type} [DecidableEq α] (l : Ledger α (Ledger Nat Nat)) (key : α) : Nat :=
  match l.find? key with
  | some counts => counts.total
  | none => 0

/-- The average number of copies in the hands that hold any. -/
def averageCopies (seen : Ledger Nat Nat) : Binary64 :=
  if seen.isEmpty then Binary64.zero
  else Binary64.quotient (seen.foldr (fun e n => e.1 * e.2 + n) 0) seen.total

/-- The row of a key, which is shown as a value. -/
def cardRow {α : Type} [DecidableEq α] (r : Report) (kind : KeyKind) (asValue : α → Value)
    (banished discarded : Ledger α (Ledger Nat Nat)) (e : α × CardStat) : CardRow :=
  let hands := e.2.seen.total
  ⟨kind, asValue e.1, hands, averageCopies e.2.seen, e.2.drawn, pileTotal banished e.1,
    pileTotal discarded e.1, r.rate hands⟩

/-- Rows with the most often seen first; rows seen equally often keep their order. -/
def bySeen (rows : List CardRow) : List CardRow :=
  rows.mergeSort fun a b => decide (b.handsSeen ≤ a.handsSeen)

/-- The card table. -/
def cardTable (r : Report) : List CardRow :=
  bySeen (r.cardNames.map (r.cardRow .name .text r.banishedNames r.discardedNames)) ++
    bySeen (r.cardTags.map (r.cardRow .tag id r.banishedTags r.discardedTags))

/-- The rows of a condition and its parts. -/
def conditionRows (r : Report) (depth : Nat) (text : String) : ConditionStat → List ConditionRow
  | .mk n none => [⟨text, depth, n, r.rate n⟩]
  | .mk n (some sides) => ⟨text, depth, n, r.rate n⟩ :: sideRows r (depth + 1) sides
where
  /-- The rows of the sides of a joint. -/
  sideRows (r : Report) (depth : Nat) : List (String × ConditionStat) → List ConditionRow
    | [] => []
    | (t, s) :: rest => conditionRows r depth t s ++ sideRows r depth rest

/-- The condition table. -/
def conditionTable (r : Report) : List ConditionRow :=
  r.conditions.flatMap fun e => r.conditionRows 0 e.1 e.2

/-- The share of successful simulations. -/
def successRate (r : Report) : Binary64 :=
  if r.iterations = 0 then Binary64.zero else Binary64.quotient r.successful r.iterations

/-- A count with its rate. -/
def countAndRate (n : Nat) (x : Binary64) : String := Number.text n ++ " (" ++ percent x ++ ")"

/-- The line of a row of the condition table. -/
def conditionLine (row : ConditionRow) : String :=
  String.ofList (List.replicate (2 * (row.depth + 1)) ' ') ++ row.text ++ ": " ++
    countAndRate row.successes row.rate

/-- The line of a free card. -/
def freeLine (e : String × FreeStat) : String :=
  "  " ++ e.1 ++ ": " ++ Number.text e.2.usedOverall ++ " / " ++ Number.text e.2.unusedOverall

/-- The lines of a report. -/
def lines (r : Report) : List String :=
  ["Iterations: " ++ Number.text r.iterations,
    "Successful: " ++ countAndRate r.successful r.successRate, "", "Conditions:"] ++
    r.conditionTable.map conditionLine ++
    if r.freeCards.isEmpty then []
    else ["", "Free cards (used to win / unused):"] ++
      (r.freeCards.mergeSort fun a b => decide (a.1 ≤ b.1)).map freeLine

end Report

end OpeningHand
