import OpeningHand.Condition.Draft
import OpeningHand.Search.Explore

/-!
# Simulations

A simulation runs the search for each of some conditions on one opening board. The conditions do not
see each other: each search starts from the opening board and has caps of its own.
-/

namespace OpeningHand

/-- A condition with the hands judged for it. -/
structure ConditionRun where
  condition : Condition
  branches : List Branch
deriving DecidableEq, Repr

/-- An opening board, what was found for each condition, and the log. -/
structure Simulation where
  opening : Board
  runs : List ConditionRun
  log : List String
deriving DecidableEq, Repr

namespace ConditionRun

/-- Whether some judged hand met the condition. -/
def success (r : ConditionRun) : Bool := r.branches.any (·.success)

/-- The first judged hand that met the condition. -/
def winner? (r : ConditionRun) : Option Branch := r.branches.find? (·.success)

/-- How often nodes of a text are satisfied, over all judged hands, by text in order of their first
appearance. -/
def successes (r : ConditionRun) : List (String × Nat) :=
  let texts := (r.branches.flatMap (·.evaluation.satisfied)).map Condition.text
  (distinct texts).map fun t => (t, texts.count t)

end ConditionRun

namespace Simulation

/-- A simulation that has not run yet. -/
def prepare (opening : Board) (conditions : List Condition) : Simulation :=
  ⟨opening.copy, conditions.map fun c => ⟨c, []⟩, []⟩

/-- Whether some condition was met. -/
def success (s : Simulation) : Bool := s.runs.any (·.success)

/-- Whether the condition at a place was met. -/
def conditionResult (s : Simulation) (i : Nat) : Bool :=
  match s.runs[i]? with
  | some r => r.success
  | none => false

/-- The winning hands of the conditions, as far as there are any. -/
def winners (s : Simulation) : List Branch := s.runs.filterMap (·.winner?)

/-- The line that opens the search for a condition. -/
def heading (i : Nat) (c : Condition) : String :=
  "[SIM] condition " ++ Number.text i ++ ": " ++ c.text

/-- Runs the searches for conditions, the first of which has a given number. -/
def runFrom (caps : Caps) (opening : Board) : (first : Nat) → List Condition →
    Except Fault (List ConditionRun × List String)
  | _, [] => .ok ([], [])
  | i, c :: cs => do
    let found ← search c caps opening
    let (runs, log) ← runFrom caps opening (i + 1) cs
    pure (⟨c, found.branches⟩ :: runs, heading i c :: found.log ++ log)

/-- Runs the searches for all conditions. -/
def run (opening : Board) (conditions : List Condition) (caps : Caps) : Except Fault Simulation := do
  let opening := opening.copy
  let (runs, log) ← runFrom caps opening 0 conditions
  pure ⟨opening, runs, log⟩

/-- The conditions before the first faulty draft, and the fault met when that one is written down. -/
def soundPart : List Draft → List Condition × Option Fault
  | [] => ([], none)
  | d :: ds => match d.toCondition?, d.text with
    | some c, _ => let p := soundPart ds; (c :: p.1, p.2)
    | none, .error f => ([], some f)
    | none, .ok _ => ([], none)

/-- Runs the searches for drafts. A faulty draft stops the simulation when its turn comes. -/
def runDrafts (opening : Board) (drafts : List Draft) (caps : Caps) : Except Fault Simulation := do
  let (conditions, fault) := soundPart drafts
  let s ← run opening conditions caps
  match fault with
  | some f => .error f
  | none => pure s

end Simulation

end OpeningHand
