import OpeningHand.Condition.Written
import OpeningHand.Play.Resolve

/-!
# The search for a line of plays

If the opening hand does not meet a condition, the free cards are tried depth first: each usable free
card of the hand, one of each name, is played on a copy of the board, the new hand is judged, and the
search goes on from there until some hand meets the condition. Two caps cut it short: one on the
number of hands judged, one on the number of plays in a line.

Every play takes a free card out of the hand and the deck for good, so a line has at most as many
plays as these hold free cards, and that number bounds the recursion.
-/

namespace OpeningHand

/-- The caps of a search: numbers of any kind. They are looked at only when they are asked, and a
cap on the plays that is the empty value is none. -/
structure Caps where
  branches : Value
  depth : Value
deriving DecidableEq, Repr

/-- Caps that are whole numbers. -/
def Caps.ofInts (branches : Int) (depth : Option Int) : Caps :=
  ⟨.int branches, (depth.map Value.int).getD .null⟩

/-- A hand that was judged: after how many plays, with what outcome, and on which board. -/
structure Branch where
  depth : Nat
  evaluation : Evaluation
  board : Board
deriving DecidableEq, Repr

/-- Whether the hand met the condition. -/
def Branch.success (b : Branch) : Bool := b.evaluation.success

/-- What a part of a search found: whether it succeeded, the hands it judged, and its log. -/
structure Found where
  success : Bool
  branches : List Branch
  log : List String
deriving DecidableEq, Repr

namespace Found

/-- Nothing to try. -/
def nothing : Found := ⟨false, [], []⟩

/-- A part that only has a line to say. -/
def line (s : String) : Found := ⟨false, [], [s]⟩

/-- One part of a search and the next. -/
def andThen (a b : Found) : Found := ⟨b.success, a.branches ++ b.branches, a.log ++ b.log⟩

end Found

/-- Judges a board and records the outcome. -/
def judge (c : Condition) (depth : Nat) (b : Board) : Branch :=
  ⟨depth, c.evaluate b.hand b.deck, b⟩

/-- The log line of a judged hand. -/
def Branch.line (b : Branch) : String :=
  "[BRANCH d=" ++ Number.text b.depth ++ "] hand: " ++ nameList b.board.hand ++ " -> " ++
    if b.success then "PASS" else "FAIL"

/-- The part of a search that one judged hand makes up, after the log of how it came about. -/
def Branch.found (b : Branch) (log : List String) : Found := ⟨b.success, [b], log ++ [b.line]⟩

namespace Board

/-- The free cards worth trying: usable, not the ones used on the way here, one of each name. -/
def candidates (used : List Card) (b : Board) : List Card :=
  firstOfEachName [] (b.freeInHand.filter fun c => !c.isIn used && b.usable c)

/-- The number of free cards in the hand and the deck, which bounds the plays that can follow. -/
def freeAhead (b : Board) : Nat := (b.hand ++ b.deck).countP (·.isFree)

end Board

namespace Caps

/-- Whether a line of so many plays is longer than the cap allows. -/
def isTooDeep (caps : Caps) (depth : Nat) : Except Fault Bool :=
  if caps.depth = .null then .ok false else caps.depth.isLessThan depth

/-- Whether one more hand may be judged after so many. -/
def allowsMore (caps : Caps) (recorded : Nat) : Except Fault Bool := caps.branches.isMoreThan recorded

@[simp]
theorem isTooDeep_ofInts (branches : Int) (limit : Option Int) (depth : Nat) :
    (ofInts branches limit).isTooDeep depth = .ok (limit.any fun d : Int => decide (d < depth)) := by
  cases limit <;> simp [ofInts, isTooDeep]

@[simp]
theorem allowsMore_ofInts (branches : Int) (limit : Option Int) (recorded : Nat) :
    (ofInts branches limit).allowsMore recorded = .ok (decide ((recorded : Int) < branches)) := by
  simp [ofInts, allowsMore]

/-- The log line for a cap that is reached. -/
def line (what : String) (cap : Value) : String :=
  "[SIM] WARN " ++ what ++ " cap " ++ cap.shown ++ " reached"

end Caps

/-- Tries candidates in turn, `deeper` being the search from a board after a play. `recorded` counts
the hands judged for the condition so far. -/
def tryEach (c : Condition) (caps : Caps) (depth : Nat) (used : List Card) (board : Board)
    (deeper : (recorded : Nat) → (used : List Card) → Board → Except Fault Found) :
    (recorded : Nat) → List Card → Except Fault Found
  | _, [] => .ok .nothing
  | recorded, card :: cards =>
    match caps.allowsMore recorded with
    | .error f => .error f
    | .ok false => .ok (.line (Caps.line "branch" caps.branches))
    | .ok true =>
      match Play.playNamed c.aim card.name ⟨board.copy, []⟩ with
      | (.error f, _) => .error f
      | (.ok none, scene) =>
        (tryEach c caps depth used board deeper recorded cards).map
          (Found.andThen ⟨false, [], scene.log⟩)
      | (.ok (some played), scene) =>
        let here := (judge c depth scene.board).found scene.log
        if here.success then .ok here
        else
          match deeper (recorded + 1) (used ++ [played]) scene.board with
          | .error f => .error f
          | .ok below =>
            if below.success then .ok (here.andThen below)
            else
              (tryEach c caps depth used board deeper
                (recorded + 1 + below.branches.length) cards).map
                (here.andThen below).andThen

/-- Searches from a board, at the depth of the next play. The first argument is the number of free
cards still ahead. -/
def explore (c : Condition) (caps : Caps) :
    (ahead depth recorded : Nat) → (used : List Card) → Board → Except Fault Found
  | ahead, depth, recorded, used, board =>
    match caps.isTooDeep depth with
    | .error f => .error f
    | .ok true => .ok (.line (Caps.line "depth" caps.depth))
    | .ok false =>
      match ahead with
      | 0 => .ok .nothing
      | ahead + 1 =>
        tryEach c caps depth used board (explore c caps ahead (depth + 1)) recorded
          (board.candidates used)

/-- The whole search for a condition: the opening hand first, then all lines of plays. -/
def search (c : Condition) (caps : Caps) (opening : Board) : Except Fault Found :=
  let here := (judge c 0 opening.copy).found []
  if here.success then .ok here
  else (explore c caps opening.freeAhead 1 1 [] opening).map here.andThen

end OpeningHand
