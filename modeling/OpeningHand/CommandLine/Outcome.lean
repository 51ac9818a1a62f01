import OpeningHand.CommandLine.Arguments

/-!
# Outcomes of commands
-/

namespace OpeningHand.CommandLine

/-- What a command writes to its two channels, line by line, and its exit code. -/
structure Outcome where
  code : Nat
  out : List String
  err : List String
deriving DecidableEq, Repr

/-- A command stops at its arguments, or runs. -/
inductive Ending where
  | stopped (s : Stop)
  | ran (o : Outcome)
deriving DecidableEq, Repr

/-- Lines as text, each with its line end. -/
def text (lines : List String) : String := String.join (lines.map (· ++ "\n"))

end OpeningHand.CommandLine
