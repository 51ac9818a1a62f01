import OpeningHand.Audit
import OpeningHand.CommandLine.Outcome
import OpeningHand.DeckFile.Folder

/-!
# The audit command

The first argument names the deck file, the second one, if there is one, its format. The exit code tells
whether the audit found anything.
-/

namespace OpeningHand.CommandLine

/-- The audit command. -/
def audit (args : List String) (folder : Folder) : Except Fault Outcome :=
  match args with
  | [] => .ok ⟨1, [], ["usage: audit.py <input file> [format]"]⟩
  | path :: more => do
    let file ← folder.load path ((more.head?.map Value.text).getD .null)
    let found ← Audit.ofFile file
    pure ⟨if found.isClean then 0 else 2, found.lines file.deck, []⟩

end OpeningHand.CommandLine
