import OpeningHand.Board

/-!
# Scenes and plays

A scene is a board with the log of what happened on it. A play changes a scene step by step and may
stop with a fault; what it did before it stopped remains.
-/

namespace OpeningHand

/-- A board and its log. -/
structure Scene where
  board : Board
  log : List String
deriving DecidableEq, Repr

/-- A step that changes a scene and gives a result or a fault. -/
def Play (α : Type) : Type := Scene → Except Fault α × Scene

namespace Play

/-- A result without a change. -/
protected def pure {α : Type} (a : α) : Play α := fun s => (.ok a, s)

/-- One step after another; a fault ends the play. -/
protected def bind {α β : Type} (x : Play α) (f : α → Play β) : Play β := fun s =>
  match x s with
  | (.ok a, s) => f a s
  | (.error e, s) => (.error e, s)

instance : Monad Play where
  pure := Play.pure
  bind := Play.bind

/-- Adds a line to the log. -/
def say (line : String) : Play Unit := fun s => (.ok (), { s with log := s.log ++ [line] })

/-- Adds a line to the log if there is a reason to. -/
def sayIf (reason : Bool) (line : String) : Play Unit := if reason then say line else pure ()

/-- A step that is taken only with something that may not be there. -/
def ifAny {α : Type} (a : Option α) (step : α → Play Unit) : Play Unit :=
  match a with
  | some a => step a
  | none => pure ()

/-- Stops with a fault. -/
def stop {α : Type} (f : Fault) : Play α := fun s => (.error f, s)

/-- A result that does not depend on the scene, or a fault. -/
def ofExcept {α : Type} (r : Except Fault α) : Play α := fun s => (r, s)

/-- The board as it is. -/
def board : Play Board := fun s => (.ok s.board, s)

/-- Changes the board. -/
def change (f : Board → Board) : Play Unit := fun s => (.ok (), { s with board := f s.board })

/-- Draws from the deck. -/
def draw (n : Int) : Play (List Card) := fun s =>
  let p := s.board.draw n
  (p.1, { s with board := p.2 })

/-- Does something else when a step stops with a fault for which that is provided. -/
def orElse {α : Type} (x : Play α) (instead : Fault → Option (Play α)) : Play α := fun s =>
  match x s with
  | (.ok a, s) => (.ok a, s)
  | (.error f, s) => match instead f with
    | some y => y s
    | none => (.error f, s)

end Play

end OpeningHand
