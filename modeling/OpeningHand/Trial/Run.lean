import OpeningHand.DeckFile.Basic
import OpeningHand.Trial.Settings
import OpeningHand.Trial.Deal
import OpeningHand.Search.Simulation

/-!
# Trials

A trial deals one opening hand from a seed of its own and runs the searches on it. The seeds of a run
of trials come from one generator, so a longer run only adds trials at its end. Trials share nothing
but the template, and the number of workers does not change what they find.
-/

namespace OpeningHand

/-- The seeds of the trials: numbers of 63 bits. -/
def trialSeeds (settings : Settings) : Except Fault (List Nat) := do
  let seed ← settings.firstSeed
  let n ← settings.numberOfTrials
  pure (Twister.draws 63 n.toNat (Twister.ofSeed seed))

/-- The template deck that settings make of a deck list. -/
def Settings.template (settings : Settings) (deck : DeckList) : Except Fault (List Card) := do
  let tags ← settings.tagsOfFiller
  let size ← settings.sizeFor deck.faces.length
  pure (OpeningHand.template deck size (settings .fillerName).shown tags)

/-- A filler whose name is no text cannot be listed: it is a fault as soon as it is out of the deck. -/
def Settings.checkListed (settings : Settings) (listed : Nat) (boards : List Board) :
    Except Fault Unit :=
  match settings .fillerName with
  | .text _ => .ok ()
  | _ =>
    let isOut := fun (b : Board) =>
      (b.hand ++ b.banished ++ b.graveyard ++ b.played).any fun c => decide (listed ≤ c.id.number)
    if boards.any isOut then .error .wrongKind else .ok ()

/-- One trial on a template in which so many cards are no fillers: the log begins with its seed and its
opening board. -/
def runTrial (template : List Card) (listed : Nat) (drafts : List Draft) (seed : Int)
    (settings : Settings) : Except Fault Simulation := do
  let hand ← settings.handFrom template.length
  let board := deal template (.ofSeed seed) hand
  settings.checkListed listed [board]
  let s ← Simulation.runDrafts board drafts settings.caps
  settings.checkListed listed (s.runs.flatMap fun r => r.branches.map (·.board))
  let heading := ("--- TRIAL seed=" ++ Number.text seed ++ " ---") :: board.describe
  pure { s with log := heading ++ s.log }

/-- The trials that settings ask for, in the order of their seeds. -/
def runTrialsWith (deck : DeckList) (drafts : List Draft) (settings : Settings) :
    Except Fault (List Simulation) := do
  let template ← settings.template deck
  let seeds ← trialSeeds settings
  settings.checkWorkers
  seeds.mapM fun (seed : Nat) => runTrial template deck.faces.length drafts seed settings

/-- Runs trials. The conditions are read first, then the settings. -/
def runTrials (input : DeckFile) (settings : Settings) : Except Fault (List Simulation) := do
  let drafts ← Given.toDrafts input.conditions
  runTrialsWith input.deck drafts settings

end OpeningHand
