/-!
# Classes of characters by turning points

A class of code points is stored as the sorted list of the places where membership changes: the
first is the first member, the second the first code point after its run, and so on.
-/

namespace OpeningHand.Text

/-- Whether a code point lies inside: an odd number of turning points is at or below it. -/
def insideTurns (turns : Array Nat) (n : Nat) : Bool :=
  turns.foldl (fun inside t => if t ≤ n then !inside else inside) false

example : insideTurns #[3, 5, 9] 4 = true ∧ insideTurns #[3, 5, 9] 5 = false := by decide

end OpeningHand.Text
