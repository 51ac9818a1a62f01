import OpeningHand.Number.Whole

/-!
# Arguments of the simulation command

One argument names the deck file; the others are options. An option may be shortened as long as no other
begins alike, and its value may follow it or stand behind an equals sign. A number with a minus sign is
no option. After two dashes nothing is an option.
-/

namespace OpeningHand.CommandLine

/-- The options. -/
inductive Flag where
  | help
  | iterations
  | handSize
  | deckSize
  | seed
  | workers
  | config
  | format
  | cards
  | verbose
deriving DecidableEq, Repr

/-- The names of the options. -/
def Flag.names : List (String × Flag) :=
  [("-h", help), ("--help", help), ("--iterations", iterations), ("--hand-size", handSize),
    ("--deck-size", deckSize), ("--seed", seed), ("--workers", workers), ("--config", config),
    ("--format", format), ("--cards", cards), ("--verbose", verbose)]

/-- Why a command stops at its arguments. -/
inductive Stop where
  /-- Help was asked for. -/
  | help
  /-- The arguments are not understood. -/
  | misuse
deriving DecidableEq, Repr

/-- The exit code of a command that stops at its arguments. -/
def Stop.code : Stop → Nat
  | help => 0
  | misuse => 2

/-- What an argument is, looked at alone. -/
inductive Piece where
  | plain (s : String)
  | separator
  | flag (f : Flag) (attached : Option String)
  | unknown
deriving DecidableEq, Repr

namespace Piece

/-- A text in front of its first equals sign, and behind it, if it has one. -/
def assignment (s : String) : String × Option String :=
  let before := s.toList.takeWhile (· != '=')
  let rest := s.toList.drop before.length
  (String.ofList before, if rest.isEmpty then none else some (String.ofList (rest.drop 1)))

/-- A minus sign and a number, perhaps with a point. -/
def isNegative (s : List Char) : Bool :=
  match s with
  | '-' :: r =>
    let after := r.dropWhile Text.isDigit
    match after with
    | [] => !r.isEmpty
    | '.' :: ds => !ds.isEmpty && ds.all Text.isDigit
    | _ => false
  | _ => false

/-- What is attached to the short option for help. Letters after it are short options of their own, and
there is no other than the one for help. -/
def afterShortHelp (s : List Char) : Option String :=
  if s ≠ [] ∧ s.all (· == 'h') then none else some (String.ofList s)

/-- The options that an argument shortens, with what is attached to it. -/
def shortened (s : String) : List (Flag × Option String) :=
  match s.toList with
  | '-' :: '-' :: _ =>
    let (name, attached) := assignment s
    (Flag.names.filter fun e => name.toList.isPrefixOf e.1.toList).map fun e => (e.2, attached)
  | '-' :: 'h' :: r => [(.help, afterShortHelp r)]
  | _ => []

/-- What an argument is; nothing, if it shortens several options. -/
def ofArgument (s : String) : Option Piece :=
  if s.toList.head? != some '-' || s = "-" then some (.plain s)
  else match Flag.names.lookup s with
    | some f => some (.flag f none)
    | none =>
      let (name, attached) := assignment s
      match Flag.names.lookup name, attached with
      | some f, some t => some (.flag f (if name = "-h" then afterShortHelp t.toList else some t))
      | _, _ => match shortened s with
        | [(f, t)] => some (.flag f t)
        | _ :: _ => none
        | [] => some (if isNegative s.toList || s.toList.contains ' ' then .plain s else .unknown)

/-- What the arguments are. After the first separator all are plain. -/
def ofArguments : List String → Option (List Piece)
  | [] => some []
  | s :: r =>
    if s = "--" then some (.separator :: r.map .plain)
    else do
      let p ← ofArgument s
      let ps ← ofArguments r
      pure (p :: ps)

end Piece

/-- What the arguments say. -/
structure Arguments where
  input : Option String := none
  iterations : Option Int := none
  handSize : Option Int := none
  deckSize : Option Int := none
  seed : Option Int := none
  workers : Option Int := none
  config : Option String := none
  format : Option String := none
  cards : Bool := false
  verbose : Bool := false
  /-- Whether there are arguments that have no place. -/
  surplus : Bool := false
deriving DecidableEq, Repr

namespace Arguments

/-- The names of formats that may be asked for. -/
def formats : List String := ["csv", "json", "yaml", "yml"]

/-- Sets an option that has a value. Later values replace earlier ones. -/
def set (a : Arguments) (f : Flag) (s : String) : Option Arguments :=
  let number := Number.whole? s.toList
  match f with
  | .iterations => number.map fun n => { a with iterations := some n }
  | .handSize => number.map fun n => { a with handSize := some n }
  | .deckSize => number.map fun n => { a with deckSize := some n }
  | .seed => number.map fun n => { a with seed := some n }
  | .workers => number.map fun n => { a with workers := some n }
  | .config => some { a with config := some s }
  | .format => if formats.contains s then some { a with format := some s } else none
  | .help | .cards | .verbose => none

/-- Sets an option that has no value; asking for help stops. -/
def turnOn (a : Arguments) (f : Flag) (attached : Option String) : Except Stop Arguments :=
  match f, attached with
  | .help, none => .error .help
  | .cards, none => .ok { a with cards := true }
  | .verbose, none => .ok { a with verbose := true }
  | _, _ => .error .misuse

/-- Whether an option has a value. -/
def hasValue : Flag → Bool
  | .help | .cards | .verbose => false
  | _ => true

/-- Reads pieces from left to right. The first plain one names the deck file, together with a separator
next to it (`beside`). -/
def read (a : Arguments) (beside : Bool) : List Piece → Except Stop Arguments
  | [] => if a.input.isNone || a.surplus then .error .misuse else .ok a
  | .plain s :: r =>
    if a.input.isNone then read { a with input := some s } true r
    else read { a with surplus := true } false r
  | .separator :: r => read { a with surplus := a.surplus || (a.input.isSome && !beside) } false r
  | .unknown :: r => read { a with surplus := true } false r
  | .flag f (some s) :: r =>
    if hasValue f then
      match a.set f s with
      | some a => read a false r
      | none => .error .misuse
    else match a.turnOn f (some s) with
      | .ok a => read a false r
      | .error e => .error e
  | .flag f none :: .plain s :: r =>
    if hasValue f then
      match a.set f s with
      | some a => read a false r
      | none => .error .misuse
    else match a.turnOn f none with
      | .ok a => read a false (.plain s :: r)
      | .error e => .error e
  | .flag f none :: r =>
    if hasValue f then .error .misuse
    else match a.turnOn f none with
      | .ok a => read a false r
      | .error e => .error e

/-- What a list of arguments says. -/
def ofList (args : List String) : Except Stop Arguments :=
  match Piece.ofArguments args with
  | none => .error .misuse
  | some ps => read {} false ps

example : (ofList ["d.json", "--iter=5", "--seed", "-7", "--ca"]).toOption =
    some { input := some "d.json", iterations := some 5, seed := some (-7), cards := true } := by
  decide +kernel

example : ofList ["--c", "x", "d.json"] = .error .misuse ∧ ofList ["--bogus", "-h"] = .error .help :=
  ⟨by rfl, by rfl⟩

end Arguments

end OpeningHand.CommandLine
