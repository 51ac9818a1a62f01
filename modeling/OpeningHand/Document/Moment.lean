import OpeningHand.Number.Digits

/-!
# Dates and times

A date of the calendar, with or without a time of day; a time may have an offset from universal time. Two
moments with offsets are the same if they are the same instant.
-/

namespace OpeningHand

open Number

/-- A time of day: its microsecond too, and its offset from universal time in seconds. -/
structure Clock where
  hour : Nat
  minute : Nat
  second : Nat
  micro : Nat
  offset : Option Int
deriving DecidableEq, Repr

/-- A date, or a date and a time. -/
structure Moment where
  year : Nat
  month : Nat
  day : Nat
  clock : Option Clock
deriving DecidableEq, Repr

namespace Moment

/-- The number of days in the years before a year. -/
def daysBeforeYear (year : Nat) : Nat :=
  let y := year - 1
  365 * y + y / 4 - y / 100 + y / 400

/-! ## Showing -/

/-- At least two digits. -/
def twoDigits (n : Nat) : String := String.ofList (padded 2 n)

/-- A date as text. -/
def dateText (m : Moment) : String :=
  String.ofList (padded 4 m.year) ++ "-" ++ twoDigits m.month ++ "-" ++ twoDigits m.day

/-- An offset as text. -/
def offsetText (seconds : Int) : String :=
  let n := seconds.natAbs / 60
  (if seconds < 0 then "-" else "+") ++ twoDigits (n / 60) ++ ":" ++ twoDigits (n % 60)

/-- The text of a moment alone. -/
def shown (m : Moment) : String :=
  match m.clock with
  | none => m.dateText
  | some c =>
    m.dateText ++ " " ++ twoDigits c.hour ++ ":" ++ twoDigits c.minute ++ ":" ++ twoDigits c.second ++
      (if c.micro = 0 then "" else "." ++ String.ofList (padded 6 c.micro)) ++
      (c.offset.map offsetText).getD ""

/-- A stretch of time inside other values. -/
def stretch (seconds : Int) : String :=
  let days := seconds.fdiv 86400
  let rest := seconds.fmod 86400
  let parts := (if days = 0 then [] else ["days=" ++ text days]) ++
    (if rest = 0 then [] else ["seconds=" ++ text rest])
  "datetime.timedelta(" ++ (if parts.isEmpty then "0" else ", ".intercalate parts) ++ ")"

/-- The text of a moment inside other values. -/
def exact (m : Moment) : String :=
  let call := fun (name : String) (ns : List Nat) (more : List String) =>
    "datetime." ++ name ++ "(" ++ ", ".intercalate ((ns.map fun (n : Nat) => text n) ++ more) ++ ")"
  match m.clock with
  | none => call "date" [m.year, m.month, m.day] []
  | some c =>
    let fine := if c.micro ≠ 0 then [c.second, c.micro] else if c.second ≠ 0 then [c.second] else []
    let zone := c.offset.map fun s =>
      "tzinfo=" ++ (if s = 0 then "datetime.timezone.utc" else "datetime.timezone(" ++ stretch s ++ ")")
    call "datetime" ([m.year, m.month, m.day, c.hour, c.minute] ++ fine) zone.toList

/-! ## The calendar -/

/-- The number of days of a month. -/
def daysIn (year month : Nat) : Nat :=
  if month = 2 then
    if year % 4 = 0 ∧ (year % 100 ≠ 0 ∨ year % 400 = 0) then 29 else 28
  else if month = 4 ∨ month = 6 ∨ month = 9 ∨ month = 11 then 30
  else 31

/-- The day of a date, counted from the first day of the first year. -/
def dayNumber (m : Moment) : Nat :=
  daysBeforeYear m.year + ((List.range (m.month - 1)).map fun i => daysIn m.year (i + 1)).foldr (· + ·) 0 +
    m.day

/-- The instant of a moment with an offset, in microseconds of universal time. -/
def instant? (m : Moment) : Option Int :=
  m.clock.bind fun c => c.offset.map fun offset =>
    ((m.dayNumber * 86400 + c.hour * 3600 + c.minute * 60 + c.second : Nat) - offset) * 1000000 + c.micro

/-- Whether two moments are equal: instants, if both have an offset. -/
def same (a b : Moment) : Bool :=
  match a.instant?, b.instant? with
  | some i, some j => i == j
  | _, _ => a == b

/-- Why the calendar does not have a moment, if it does not. -/
def objection? (m : Moment) : Option String :=
  let date :=
    if m.year = 0 then some "year 0 is out of range"
    else if m.month = 0 ∨ 12 < m.month then some "month must be in 1..12"
    else if m.day = 0 ∨ daysIn m.year m.month < m.day then some "day is out of range for month"
    else none
  match m.clock with
  | none => date
  | some c =>
    let tooFar := match c.offset with
      | none => none
      | some s =>
        if s.natAbs < 86400 then none
        else some ("offset must be a timedelta strictly between -timedelta(hours=24) and " ++
          "timedelta(hours=24), not " ++ stretch s ++ ".")
    let time :=
      if 23 < c.hour then some "hour must be in 0..23"
      else if 59 < c.minute then some "minute must be in 0..59"
      else if 59 < c.second then some "second must be in 0..59"
      else none
    tooFar <|> date <|> time

example : (⟨2021, 2, 29, none⟩ : Moment).objection? = some "day is out of range for month" := by
  decide +kernel

example : same ⟨2020, 1, 1, some ⟨0, 30, 0, 0, some 3600⟩⟩ ⟨2019, 12, 31, some ⟨23, 30, 0, 0, some 0⟩⟩ := by
  decide +kernel

end Moment

end OpeningHand
