import OpeningHand.Card.DeckList
import OpeningHand.Json.Reader
import OpeningHand.Json.Writer
import OpeningHand.Search.Explore

/-!
# Settings

What a run of trials can be told: ten settings, each with a default. A settings file is a JSON
mapping; the keys it shares with the settings replace them, whatever their values are. Whether a value
has the right kind is asked by what uses it.
-/

namespace OpeningHand

/-- What can be set. -/
inductive Setting where
  | handSize
  | deckSize
  | iterations
  | seed
  | maxBranches
  | maxDepth
  | workers
  | fillerName
  | fillerTags
  | dataFormat
deriving DecidableEq, Repr

namespace Setting

/-- All settings, in order. -/
def all : List Setting :=
  [handSize, deckSize, iterations, seed, maxBranches, maxDepth, workers, fillerName, fillerTags,
    dataFormat]

/-- The key of a setting in a file. -/
def key : Setting → String
  | handSize => "hand_size"
  | deckSize => "deck_size"
  | iterations => "iterations"
  | seed => "seed"
  | maxBranches => "max_branches"
  | maxDepth => "max_depth"
  | workers => "workers"
  | fillerName => "filler_name"
  | fillerTags => "filler_tags"
  | dataFormat => "data_format"

/-- The setting of a key. -/
def ofKey? (s : String) : Option Setting := all.find? (·.key == s)

end Setting

/-- A value for each setting. -/
abbrev Settings := Setting → Value

namespace Settings

/-- The defaults. -/
def default : Settings
  | .handSize => .int 5
  | .deckSize => .int 40
  | .iterations => .int 1000
  | .seed => .null
  | .maxBranches => .int 10000
  | .maxDepth => .null
  | .workers => .int 1
  | .fillerName => .text fillerCardName
  | .fillerTags => .list [.text "Empty", .text "Blank", .text "Non Engine"]
  | .dataFormat => .text "json"

/-- Settings with one of them changed. -/
def set (s : Settings) (k : Setting) (v : Value) : Settings := fun i => if i = k then v else s i

/-- Settings with the entries of a mapping laid over them. Unknown keys are passed over; the tags of
the filler are taken apart into their members. -/
def overlay (s : Settings) : Entries → Except Fault Settings
  | [] => .ok s
  | (k, v) :: r =>
    match k with
    | .text key => match Setting.ofKey? key with
      | some .fillerTags => do overlay (s.set .fillerTags (.list (← v.toItems))) r
      | some i => overlay (s.set i v) r
      | none => overlay s r
    | _ => overlay s r

/-- Settings with a settings file laid over them. A file that holds no mapping changes nothing. -/
def overlayFile (s : Settings) (text : String) : Except Fault Settings :=
  match Json.read? text with
  | none => .error .badJson
  | some (.map fields) => s.overlay fields
  | some _ => .ok s

/-- The settings as a settings file. -/
def fileText (s : Settings) : Except Fault String := do
  let tags ← (s .fillerTags).toItems
  let s := s.set .fillerTags (.list tags)
  Json.writeIndented 0 (.record (Setting.all.map fun k => (k.key, s k)))

/-! ## What the settings say

Settings may have values of any kind. Each is taken for what it should be when a trial needs it, and
only then is it a fault if it cannot be. -/

/-- The caps of the searches. -/
def caps (s : Settings) : Caps := ⟨s .maxBranches, s .maxDepth⟩

/-- The number of trials. -/
def numberOfTrials (s : Settings) : Except Fault Int := (s .iterations).toCount

/-- The seed that the seeds of the trials come from. Without a seed any will do; zero is taken. Only whole
numbers are seeds: a text or a number with a fraction could seed a generator through its hash, and is of the
wrong kind here. -/
def firstSeed (s : Settings) : Except Fault Int :=
  if s .seed = .null then .ok 0 else (s .seed).toCount

/-- The size of a deck in which so many cards are listed; it may be any number if none are missing. -/
def sizeFor (s : Settings) (listed : Nat) : Except Fault Int := do
  match s .deckSize with
  | .float x => if ← (Value.float x).isMoreThan listed then .error .wrongKind else pure 0
  | v => v.toCount

/-- The size of a hand from a deck of so many cards; it may be any number if that is more. -/
def handFrom (s : Settings) (deckSize : Nat) : Except Fault Int := do
  if ← (s .handSize).isMoreThan deckSize then pure deckSize else (s .handSize).toCount

/-- Whether the number of workers is a number; what they find does not depend on it. -/
def checkWorkers (s : Settings) : Except Fault Unit := do
  let _ ← (s .workers).isMoreThan 1

/-- The tags of the fillers. Of values that are equal as keys the first stands for all. -/
def tagsOfFiller (s : Settings) : Except Fault (List Value) := do
  let tags ← (s .fillerTags).toItems
  pure (tags.map fun t => (tags.find? (·.same t)).getD t)

example : default.tagsOfFiller.toOption =
    some [.text "Empty", .text "Blank", .text "Non Engine"] := by decide +kernel

end Settings

end OpeningHand
