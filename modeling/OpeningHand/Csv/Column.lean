import OpeningHand.Number.Shortest
import OpeningHand.Number.Whole

/-!
# Columns of a table

The cells of a column are of one type, the first that fits all of them: whole numbers, numbers with a
point, truth values, texts. Certain words stand for a blank and fit every type, but whole numbers
beside blanks become numbers with a point. So the name `7` reads as `7.0` in a column with a blank.
Whole numbers too large for 64 bits keep their digits, blanks or not.
-/

namespace OpeningHand.Csv

open Number

/-- A cell of a column. -/
inductive Cell where
  | blank
  | whole (i : Int)
  | decimal (x : Binary64)
  | truth (b : Bool)
  | text (s : String)
deriving DecidableEq, Repr

/-- The type of a column. Whole numbers have 64 bits, with a sign or without; texts, and truth values
beside blanks, are objects. -/
inductive ColumnType where
  | whole
  | unsigned
  | decimal
  | truth
  | object
deriving DecidableEq, Repr

/-- A column: its type and its cells. -/
structure Column where
  type : ColumnType
  cells : List Cell
deriving DecidableEq, Repr

/-- The words that stand for a blank. -/
def blankWords : List String :=
  ["", "#N/A", "#N/A N/A", "#NA", "-1.#IND", "-1.#QNAN", "-NaN", "-nan", "1.#IND", "1.#QNAN", "<NA>",
    "N/A", "NA", "NULL", "NaN", "None", "n/a", "nan", "null"]

/-- A blank inside a number's field. -/
def isPadding (c : Char) : Bool := c == ' ' || (9 ≤ c.toNat && c.toNat ≤ 13)

/-- A sign at the front: whether it is minus, and what follows. -/
def sign : List Char → Bool × List Char
  | '-' :: r => (true, r)
  | '+' :: r => (false, r)
  | r => (false, r)

/-- The whole number of a field: a sign and digits, with padding around them. -/
def whole? (s : String) : Option Int :=
  let (negative, r) := sign (s.toList.dropWhile isPadding)
  let ds := r.takeWhile Char.isDigit
  if ds.isEmpty || !(r.dropWhile Char.isDigit).all isPadding then none
  else some (if negative then -(Text.ofDigits ds : Int) else Text.ofDigits ds)

/-- How a field fits a type of whole numbers. -/
inductive Fit where
  | fits
  | notWhole
  | tooLarge
deriving DecidableEq, Repr

/-- How a field fits the whole numbers with a property. -/
def fit (inRange : Int → Bool) (s : String) : Fit :=
  match whole? s with
  | none => .notWhole
  | some i => if inRange i then .fits else .tooLarge

/-- Whether a whole number fits into 64 bits with a sign. -/
def fitsSigned (i : Int) : Bool := decide (-(Nat.pow 2 63) ≤ i ∧ i < Nat.pow 2 63)

/-- Whether a whole number fits into 64 bits without a sign. -/
def fitsUnsigned (i : Int) : Bool := decide (0 ≤ i ∧ i < Nat.pow 2 64)

/-- An exponent: its value, and what follows. Without digits there is none. -/
def exponent (r : List Char) : Int × List Char :=
  match r with
  | c :: t =>
    if c == 'e' || c == 'E' then
      let (negative, t) := sign t
      let ds := t.takeWhile Char.isDigit
      let n : Nat := Text.ofDigits ds
      if ds.isEmpty then (0, r)
      else (if negative then -(n : Int) else n, t.dropWhile Char.isDigit)
    else (0, r)
  | [] => (0, r)

/-- The number that a field writes in digits: a sign, digits with a point, an exponent, with padding
around them. It is rounded once; one that is too large is infinite. -/
def inDigits? (s : String) : Option Binary64 :=
  let (negative, r) := sign (s.toList.dropWhile isPadding)
  let before := r.takeWhile Char.isDigit
  let (after, r) := match r.dropWhile Char.isDigit with
    | '.' :: t => (t.takeWhile Char.isDigit, t.dropWhile Char.isDigit)
    | t => ([], t)
  if before.isEmpty && after.isEmpty then none
  else
    let (e, r) := exponent r
    if r.all isPadding then
      some (Binary64.ofDecimal negative (Text.ofDigits (before ++ after)) (e - after.length))
    else none

/-- The words for the infinities, in any case of letters. -/
def infinite? (s : String) : Option Binary64 :=
  let w := String.ofList (s.toList.map Char.toLower)
  if ["inf", "+inf", "infinity", "+infinity"].contains w then some (.infinite false)
  else if ["-inf", "-infinity"].contains w then some (.infinite true)
  else none

/-- The number with a point of a field. -/
def decimal? (s : String) : Option Binary64 := (inDigits? s).or (infinite? s)

/-- The truth value of a field, in any case of letters. -/
def truth? (s : String) : Option Bool :=
  let w := String.ofList (s.toList.map Char.toLower)
  if w = "true" then some true else if w = "false" then some false else none

/-- Whether a field is blank. -/
def isBlankField (s : String) : Bool := blankWords.contains s

/-- Reads all fields of a column that are not blank, if each can be read. -/
def readAll {α : Type} (read : String → Option α) (cell : α → Cell) (fields : List String) :
    Option (List Cell) :=
  fields.mapM fun s => if isBlankField s then some .blank else (read s).map cell

/-- A whole number as a number with a point. -/
def Cell.toDecimal : Cell → Cell
  | .whole i => .decimal (Binary64.ofRatio (decide (i < 0)) i.natAbs 1)
  | c => c

/-- Fields as texts, blank ones included. -/
def textColumn (fields : List String) : Column := ⟨.object, fields.map .text⟩

/-- Fields of which not all are whole numbers. -/
def otherColumn (fields : List String) : Column :=
  match readAll decimal? .decimal fields with
  | some cells => ⟨.decimal, cells⟩
  | none => match readAll truth? .truth fields with
    | some cells => ⟨if cells.contains .blank then .object else .truth, cells⟩
    | none => ⟨.object, fields.map fun s => if isBlankField s then .blank else .text s⟩

/-- Whole numbers as cells. -/
def wholeCells (fields : List String) : List Cell :=
  fields.map fun s => if isBlankField s then .blank else match whole? s with
    | some i => .whole i
    | none => .blank

/-- Whether a field begins with a minus sign. -/
def isNegative (s : String) : Bool := (sign (s.toList.dropWhile isPadding)).1

/-- The digits of a whole number of any size: single underscores may stand between them. -/
def anySize? (s : String) : Option Int :=
  if s.toList.all fun c => c.toNat < 128 then Number.whole? s.toList else none

/-- Whole numbers of any size; blank fields stay blank. If a field is no whole number, all fields are
texts. -/
def largeColumn (fields : List String) : Column :=
  match readAll anySize? .whole fields with
  | some cells => ⟨.object, cells⟩
  | none => textColumn fields

/-- Fields of which one is too large for a whole number with a sign: whole numbers without a sign, if
all of them are and none is blank. The first field that is no such number decides what else they are.
Negative fields are passed over at first; beside a number that needs the last bit, these and blank ones
make all fields texts. -/
def unsignedColumn (fields : List String) : Column :=
  let filled := fields.filter (!isBlankField ·)
  let natural := filled.filter (!isNegative ·)
  match (natural.map (fit fitsUnsigned)).find? (· ≠ .fits) with
  | some .tooLarge => largeColumn fields
  | some _ => otherColumn fields
  | none =>
    if natural.any fun s => fit fitsSigned s = .tooLarge then
      if filled.length < fields.length || natural.length < filled.length then textColumn fields
      else ⟨.unsigned, wholeCells fields⟩
    else largeColumn fields

/-- The least whole number of 64 bits stands for a blank while whole numbers become numbers with a
point, so those that round to it read as blanks too. -/
def blankMark : Binary64 := .ofRatio true (Nat.pow 2 63) 1

/-- A cell of a column of whole numbers with blanks. -/
def Cell.besideBlanks (c : Cell) : Cell :=
  if c.toDecimal = .decimal blankMark then .blank else c.toDecimal

/-- The column of some fields. -/
def columnOf (fields : List String) : Column :=
  let filled := fields.filter (!isBlankField ·)
  match (filled.map (fit fitsSigned)).find? (· ≠ .fits) with
  | some .tooLarge => unsignedColumn fields
  | some _ => otherColumn fields
  | none =>
    if fields.any isBlankField then ⟨.decimal, (wholeCells fields).map Cell.besideBlanks⟩
    else ⟨.whole, wholeCells fields⟩

/-- The text of a cell. -/
def Cell.shown : Cell → String
  | .blank => ""
  | .whole i => Number.text i
  | .decimal .nan => ""
  | .decimal x => shortest x
  | .truth b => if b then "True" else "False"
  | .text s => s

/-- Whether a column holds numbers. -/
def ColumnType.isNumber : ColumnType → Bool
  | .whole | .unsigned | .decimal => true
  | _ => false

/-- Columns read side by side, row by row: if all are numbers but not all of one type, whole numbers
count as numbers with a point. -/
def aligned (columns : List Column) : List Column :=
  match columns with
  | [] => []
  | c :: cs =>
    if (c :: cs).all (·.type.isNumber) && cs.any (·.type != c.type) then
      (c :: cs).map fun c => ⟨.decimal, c.cells.map Cell.toDecimal⟩
    else c :: cs

example : (columnOf ["7", "", "1.50"]).cells.map Cell.shown = ["7.0", "", "1.5"] := by decide +kernel

example : (columnOf ["7", "x"]).cells.map Cell.shown = ["7", "x"] := by decide +kernel

end OpeningHand.Csv
