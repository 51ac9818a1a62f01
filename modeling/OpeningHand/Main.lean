import OpeningHand.CommandLine.Audit
import OpeningHand.CommandLine.Simulate

/-!
# The program

The first argument chooses the command. The files that the other arguments name are read, and the
command's lines are written.
-/

namespace OpeningHand.CommandLine

/-- The text of a file, if there is one. -/
def fileText? (path : String) : IO (Option String) := do
  try
    pure (some (← IO.FS.readFile path))
  catch _ => pure none

/-- The texts of those arguments, or parts of arguments behind an equals sign, that are files. -/
def folderOf (args : List String) : IO Folder := do
  let paths := args.flatMap fun s => s :: ((Piece.assignment s).2).toList
  paths.filterMapM fun (path : String) => do pure ((← fileText? path).map fun s => (path, s))

/-- Writes what a command says and returns its exit code. -/
def Outcome.report (o : Outcome) : IO UInt32 := do
  IO.print (text o.out)
  IO.eprint (text o.err)
  pure (UInt32.ofNat o.code)

/-- Runs the command that the first argument names. -/
def run (args : List String) : IO UInt32 := do
  let folder ← folderOf (args.drop 1)
  let ending := match args with
    | "simulate" :: r => simulate r folder
    | "audit" :: r => (audit r folder).map Ending.ran
    | _ => .ok (.stopped .misuse)
  match ending with
  | .ok (.ran o) => o.report
  | .ok (.stopped s) => pure (UInt32.ofNat s.code)
  | .error f => Outcome.report ⟨1, [], [f.message]⟩

end OpeningHand.CommandLine

/-- The program. -/
def main (args : List String) : IO UInt32 := OpeningHand.CommandLine.run args
