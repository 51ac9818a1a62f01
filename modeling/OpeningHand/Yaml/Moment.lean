import OpeningHand.Fault
import OpeningHand.Text.Digit

/-!
# Dates and times of a YAML text

A date is written `2020-01-31`. A time may follow, after a `T` or blanks: `12:30:00`, with a fraction
and an offset from universal time if need be. One line feed may end the text.
-/

namespace OpeningHand.Yaml

namespace Moment

/-- At least `least` and at most `most` digits: their number, and what follows. -/
def number? (least most : Nat) (s : List Char) : Option (Nat × List Char) :=
  let ds := (s.take most).takeWhile Char.isDigit
  if least ≤ ds.length then some (Text.ofDigits ds, s.drop ds.length) else none

/-- Moves on over a character that must come next. -/
def past? (c : Char) : List Char → Option (List Char)
  | [] => none
  | x :: r => if x = c then some r else none

/-- Drops spaces and tabs. -/
def dropBlanks (s : List Char) : List Char := s.dropWhile fun c => c == ' ' || c == '\t'

/-- Microseconds after the point, cut to six digits. -/
def micro (s : List Char) : Nat × List Char :=
  match s with
  | '.' :: r =>
    let ds := r.takeWhile Char.isDigit
    (Text.ofDigits ((ds ++ List.replicate 6 '0').take 6), r.drop ds.length)
  | s => (0, s)

/-- An offset that ends the text; there may be none. -/
def offset? (s : List Char) : Option (Option Int) :=
  let sized := fun (sign : Int) (r : List Char) => do
    let (h, r) ← number? 1 2 r
    match r with
    | [] => pure (some (sign * (3600 * h)))
    | r => do
      let (m, r) ← number? 2 2 (← past? ':' r)
      if r.isEmpty then pure (some (sign * (3600 * h + 60 * m))) else none
  if s.isEmpty then some none
  else match dropBlanks s with
    | ['Z'] => some (some 0)
    | '+' :: r => sized 1 r
    | '-' :: r => sized (-1) r
    | _ => none

/-- The time after a date. -/
def clock? (s : List Char) : Option Clock := do
  let r ← match s with
    | 'T' :: r | 't' :: r => some r
    | ' ' :: _ | '\t' :: _ => some (dropBlanks s)
    | _ => none
  let (hour, r) ← number? 1 2 r
  let (minute, r) ← number? 2 2 (← past? ':' r)
  let (second, r) ← number? 2 2 (← past? ':' r)
  let (us, r) := micro r
  pure ⟨hour, minute, second, us, ← offset? r⟩

/-- A text without the line feed that ends it. -/
def withoutFeed (s : List Char) : List Char := if s.getLast? = some '\n' then s.dropLast else s

/-- The date or time that a text writes, whether or not the calendar has it. -/
def ofText? (text : String) : Option Moment := do
  let (year, r) ← number? 4 4 (withoutFeed text.toList)
  let (month, r) ← number? 1 2 (← past? '-' r)
  let (day, r) ← number? 1 2 (← past? '-' r)
  if r.isEmpty then pure ⟨year, month, day, none⟩
  else pure ⟨year, month, day, some (← clock? r)⟩

/-- Whether a text has the form that makes it a date or time without a tag: a date alone must have two
digits for its month and its day. -/
def hasForm (text : String) : Bool :=
  match ofText? text with
  | none => false
  | some m => m.clock.isSome || text.length == 10

/-- A moment as a value, if the calendar has it. -/
def toValue (m : Moment) : Except Fault Value :=
  match m.objection? with
  | some reason => .error (.noSuchDate reason)
  | none => .ok (.moment m)

example : (Moment.ofText? "2001-1-2T3:04:05.5 +01:30").map OpeningHand.Moment.shown =
    some "2001-01-02 03:04:05.500000+01:30" := by decide +kernel

end Moment

end OpeningHand.Yaml
