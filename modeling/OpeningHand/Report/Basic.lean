import OpeningHand.Number.Fixed
import OpeningHand.Report.Ledger
import OpeningHand.Search.Simulation

/-!
# Reports

A report sums up simulations: how often cards and tags are seen in opening hands and drawn later, what
winning lines banish and discard, which free cards they use and leave, and how often each condition
and each of its parts holds.

Simulations are summed up one after another, each in the same six steps.
-/

namespace OpeningHand

/-- How often a name or tag is seen: for each number of copies the number of opening hands that hold
so many, and the number of cards drawn later. -/
structure CardStat where
  seen : Ledger Nat Nat
  drawn : Nat
deriving DecidableEq, Repr

/-- How often a free card is used on the way to a win, and how often it is left over: counted for
each condition, and once for each simulation. -/
structure FreeStat where
  usedByCondition : Nat
  unusedByCondition : Nat
  usedOverall : Nat
  unusedOverall : Nat
deriving DecidableEq, Repr

/-- How often a condition holds, and for a joint how often its sides hold, by their texts. -/
inductive ConditionStat where
  | mk (successes : Nat) (sides : Option (List (String × ConditionStat)))
deriving Repr

/-- The sums over some simulations. -/
structure Report where
  iterations : Nat
  successful : Nat
  cardNames : Ledger String CardStat
  cardTags : Ledger Value CardStat
  banishedNames : Ledger String (Ledger Nat Nat)
  banishedTags : Ledger Value (Ledger Nat Nat)
  discardedNames : Ledger String (Ledger Nat Nat)
  discardedTags : Ledger Value (Ledger Nat Nat)
  freeCards : Ledger String FreeStat
  conditions : Ledger String ConditionStat
deriving Repr

namespace CardStat

/-- Nothing seen and nothing drawn. -/
def zero : CardStat := ⟨[], 0⟩

end CardStat

namespace FreeStat

/-- Neither used nor left. -/
def zero : FreeStat := ⟨0, 0, 0, 0⟩

end FreeStat

/-- How often each key occurs, in order of first appearance. -/
def occurrences {α : Type} [DecidableEq α] (keys : List α) : List (α × Nat) :=
  (distinct keys).map fun k => (k, keys.count k)

/-- The names of cards. -/
def namesOf (cards : List Card) : List String := cards.map (·.name)

/-- The tags of cards. -/
def tagsOf (cards : List Card) : List Value := cards.flatMap (·.tags)

/-- The cards of a hand that were not in an earlier one, copies of a name being counted off. -/
def newcomers : (earlier : List String) → List Card → List Card
  | _, [] => []
  | earlier, c :: cs =>
    if earlier.contains c.name then newcomers (earlier.erase c.name) cs
    else c :: newcomers earlier cs

/-- The newcomers of each judged hand, compared with the hand judged before it. -/
def drawnCards : List Branch → List Card
  | [] => []
  | [_] => []
  | a :: b :: r => newcomers (namesOf a.board.hand) b.board.hand ++ drawnCards (b :: r)

namespace ConditionStat

/-- How often the condition holds. -/
def successes : ConditionStat → Nat
  | .mk n _ => n

/-- The sides of a joint. -/
def sides : ConditionStat → Option (List (String × ConditionStat))
  | .mk _ s => s

/-- The entry of a condition that never held. Sides of the same text share one entry. -/
def zeroFor : Condition → ConditionStat
  | .leaf _ => .mk 0 none
  | .joint _ a b _ =>
    .mk 0 (some (if a.text = b.text then [(a.text, zeroFor b)]
      else [(a.text, zeroFor a), (b.text, zeroFor b)]))

/-- Replaces the entry of a text. -/
def replace (text : String) (stat : ConditionStat) :
    List (String × ConditionStat) → List (String × ConditionStat)
  | [] => []
  | (t, s) :: r => if t = text then (t, stat) :: r else (t, s) :: replace text stat r

/-- The entry of a text among the sides of a joint. An entry made for another condition of the same
text may lack it. -/
def sideFor (text : String) (sides : List (String × ConditionStat)) : Except Fault ConditionStat :=
  match Ledger.find? sides text with
  | some s => .ok s
  | none => .error (.missingKey (.text text))

/-- Counts one simulation: each part of the condition whose text is among the satisfied ones. -/
def credit (satisfied : List String) : Condition → ConditionStat → Except Fault ConditionStat
  | .leaf l, .mk n sides =>
    .ok (.mk (if satisfied.contains l.text then n + 1 else n) sides)
  | .joint j a b g, .mk n sides => do
    let n := if satisfied.contains (Condition.joint j a b g).text then n + 1 else n
    match sides with
    | none => .error (.missingKey (.text "sub_conditions"))
    | some sides => do
      let left ← credit satisfied a (← sideFor a.text sides)
      let sides := replace a.text left sides
      let right ← credit satisfied b (← sideFor b.text sides)
      pure (.mk n (some (replace b.text right sides)))

end ConditionStat

namespace Report

/-- The report of no simulation, with the numbers that are known beforehand. -/
def blank (iterations successful : Nat) : Report :=
  ⟨iterations, successful, [], [], [], [], [], [], [], []⟩

section

variable {α : Type} [DecidableEq α]

/-- Counts the keys of an opening hand. -/
def countSeen (keys : List α) (l : Ledger α CardStat) : Ledger α CardStat :=
  (occurrences keys).foldl
    (fun l e => l.adjust e.1 CardStat.zero fun s => { s with seen := s.seen.credit e.2 }) l

/-- Counts drawn keys. -/
def countDrawn (keys : List α) (l : Ledger α CardStat) : Ledger α CardStat :=
  keys.foldl (fun l k => l.adjust k CardStat.zero fun s => { s with drawn := s.drawn + 1 }) l

/-- Counts the keys of a pile. -/
def countPile (keys : List α) (l : Ledger α (Ledger Nat Nat)) : Ledger α (Ledger Nat Nat) :=
  (occurrences keys).foldl (fun l e => l.adjust e.1 [] fun s => s.credit e.2) l

end

/-- Changes the entries of free cards. -/
def countFree (keys : List String) (f : FreeStat → FreeStat) (l : Ledger String FreeStat) :
    Ledger String FreeStat :=
  keys.foldl (fun l k => l.adjust k FreeStat.zero f) l

/-- The opening hand. -/
def addOpening (s : Simulation) (r : Report) : Report :=
  { r with
    cardNames := countSeen (namesOf s.opening.hand) r.cardNames
    cardTags := countSeen (tagsOf s.opening.hand) r.cardTags }

/-- The cards drawn between the hands judged for a condition. -/
def addDrawn (c : ConditionRun) (r : Report) : Report :=
  let cards := drawnCards c.branches
  { r with
    cardNames := countDrawn (namesOf cards) r.cardNames
    cardTags := countDrawn (tagsOf cards) r.cardTags }

/-- The free cards used and left by the winning line of a condition. -/
def addFreeOfCondition (c : ConditionRun) (r : Report) : Report :=
  match c.winner? with
  | none => r
  | some w =>
    let used := countFree (namesOf w.board.freePlayed)
      (fun s => { s with usedByCondition := s.usedByCondition + 1 }) r.freeCards
    { r with
      freeCards := countFree (namesOf w.board.freeInHand)
        (fun s => { s with unusedByCondition := s.unusedByCondition + 1 }) used }

/-- The free cards left by the winning lines of a simulation, each name once; only if there are none,
the ones that they used. -/
def addFreeOverall (s : Simulation) (r : Report) : Report :=
  let unused := distinct (s.winners.flatMap fun w => namesOf w.board.freeInHand)
  if unused.isEmpty then
    let used := distinct (s.winners.flatMap fun w => namesOf w.board.freePlayed)
    { r with
      freeCards := countFree used (fun s => { s with usedOverall := s.usedOverall + 1 })
        r.freeCards }
  else
    { r with
      freeCards := countFree unused (fun s => { s with unusedOverall := s.unusedOverall + 1 })
        r.freeCards }

/-- The piles of a winning line. -/
def addPiles (w : Branch) (r : Report) : Report :=
  { r with
    banishedNames := countPile (namesOf w.board.banished) r.banishedNames
    banishedTags := countPile (tagsOf w.board.banished) r.banishedTags
    discardedNames := countPile (namesOf w.board.graveyard) r.discardedNames
    discardedTags := countPile (tagsOf w.board.graveyard) r.discardedTags }

/-- The texts satisfied in some hand judged for a condition; the condition's own text only if it was
met. -/
def satisfiedTexts (c : ConditionRun) : List String :=
  let texts := (c.branches.flatMap (·.evaluation.satisfied)).map Condition.text
  if c.success then texts else texts.filter (· ≠ c.condition.text)

/-- A condition and its parts. -/
def addCondition (c : ConditionRun) (r : Report) : Except Fault Report := do
  let text := c.condition.text
  let stat := (r.conditions.find? text).getD (.zeroFor c.condition)
  let stat ← stat.credit (satisfiedTexts c) c.condition
  pure { r with conditions := r.conditions.adjust text stat fun _ => stat }

/-- Adds one simulation. -/
def add (s : Simulation) (r : Report) : Except Fault Report := do
  let r := addOpening s r
  let r := s.runs.foldl (fun r c => addFreeOfCondition c (addDrawn c r)) r
  let r := addFreeOverall s r
  let r := s.winners.foldl (fun r w => addPiles w r) r
  s.runs.foldlM (fun r c => addCondition c r) r

/-- The report of simulations. -/
def ofSimulations (sims : List Simulation) : Except Fault Report :=
  sims.foldlM (fun r s => add s r) (blank sims.length (sims.countP (·.success)))

/-- The cards whose tags are counted for a simulation. -/
def countedCards (s : Simulation) : List Card :=
  s.opening.hand ++ s.runs.flatMap (fun r => drawnCards r.branches) ++
    s.winners.flatMap fun w => w.board.banished ++ w.board.graveyard

/-- The report of trials. Their fillers may have tags of any kind; those that cannot be keys cannot be
counted. -/
def ofTrials (sims : List Simulation) : Except Fault Report :=
  if (tagsOf (sims.flatMap countedCards)).all (·.isKey) then ofSimulations sims
  else .error .wrongKind

/-- The report of simulations whose conditions may be faulty drafts: each simulation comes with the
fault of its first faulty draft, which stops the report when its turn comes. -/
def ofDraftSimulations (sims : List (Simulation × Option Fault)) : Except Fault Report :=
  sims.foldlM
    (fun r s => do
      let r ← add s.1 r
      match s.2 with
      | some f => .error f
      | none => pure r)
    (blank sims.length (sims.countP (·.1.success)))

end Report

end OpeningHand
