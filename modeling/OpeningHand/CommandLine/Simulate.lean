import OpeningHand.CommandLine.Outcome
import OpeningHand.DeckFile.Folder
import OpeningHand.Report.Columns
import OpeningHand.Trial.Run

/-!
# The simulation command

The command reads a deck file, runs trials on it, and writes their report. Settings come from the
defaults, then from a settings file, then from the arguments. A deck file that cannot be read or used
ends the command with an error line; faults of other kinds are not the command's to report.
-/

namespace OpeningHand

/-- Settings with the settings file at a path laid over them, if a path is given and something is there.
Numbers name no file of the folder; values that hold others are no paths. -/
def Settings.overlayFrom (s : Settings) (folder : Folder) (path : Value) : Except Fault Settings :=
  match path with
  | .text "" => .ok s
  | .text p => match folder.read p with
    | .ok text => s.overlayFile text
    | .error (.isFolder p) => .error (.isFolder p)
    | .error _ => .ok s
  | .null | .bool _ | .int _ => .ok s
  | v => if v.truthy then .error .wrongKind else .ok s

namespace CommandLine

/-- A text that may be missing, as a value. -/
def valueOf (o : Option String) : Value := (o.map Value.text).getD .null

/-- Settings with those that the arguments name. -/
def Arguments.overlay (a : Arguments) (s : Settings) : Settings :=
  [(Setting.iterations, a.iterations), (.handSize, a.handSize), (.deckSize, a.deckSize),
    (.seed, a.seed), (.workers, a.workers)].foldl
    (fun s e => match e.2 with
      | some n => s.set e.1 (.int n)
      | none => s) s

/-- The format to read the deck file in: the one asked for, else the one its name ends with, else the
one of the settings. -/
def Arguments.formatFor (a : Arguments) (path : String) (s : Settings) : Value :=
  if a.format.isNone && !Arguments.formats.contains (DeckFormat.small (Path.ending path)) then
    s .dataFormat
  else valueOf a.format

/-- A fault that a command reports, or lets through. -/
def reported (f : Fault) (isReported : Bool) : Except Fault Outcome :=
  if isReported then .ok ⟨1, [], ["ERROR: " ++ f.message]⟩ else .error f

/-- The lines of finished trials. -/
def trialLines (a : Arguments) (deckName : Value) (trials : List Simulation) :
    Except Fault (List String) := do
  let report ← Report.ofTrials trials
  pure ((if a.verbose then trials.flatMap (·.log) ++ [""] else []) ++
    (if deckName.truthy then ["=== " ++ deckName.shown ++ " ==="] else []) ++ report.lines ++
    if a.cards then "" :: report.cardLines else [])

/-- The command with arguments that are understood. -/
def Arguments.run (a : Arguments) (folder : Folder) : Except Fault Outcome := do
  let path := a.input.getD ""
  let settings := a.overlay (← Settings.default.overlayFrom folder (valueOf a.config))
  match folder.load path (a.formatFor path settings) with
  | .error f => reported f (f.isValue || f.kind.isFile)
  | .ok file =>
    match runTrials file settings with
    | .error f => reported f f.isValue
    | .ok trials => pure ⟨0, ← trialLines a file.deckName trials, []⟩

/-- The simulation command. -/
def simulate (args : List String) (folder : Folder) : Except Fault Ending :=
  match Arguments.ofList args with
  | .error s => .ok (.stopped s)
  | .ok a => (a.run folder).map .ran

end CommandLine

end OpeningHand
