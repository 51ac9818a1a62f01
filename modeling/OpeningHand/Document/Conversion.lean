import OpeningHand.Fault
import OpeningHand.Number.Whole

/-!
# Values as numbers, items and fields

How a field of a document is taken for what it should be. Each conversion either succeeds or says
whether the value was not acceptable (`badValue`) or of a kind that cannot be converted at all.
-/

namespace OpeningHand.Value

/-- The whole number that bytes write, all of which must be of ASCII. -/
def wholeOfBytes? (bytes : List UInt8) : Option Int :=
  if bytes.all (· < 0x80) then Number.whole? (bytes.map fun b => Char.ofNat b.toNat) else none

/-- The whole number of a value: truth values count as 0 and 1, a number with a point loses its
fraction, a text and bytes are read. -/
def toWhole : Value → Except Fault Int
  | .bool b => .ok (if b then 1 else 0)
  | .int i => .ok i
  | .float .nan => .error .noWholePart
  | .float x => match x.toInt? with
    | some i => .ok i
    | none => .error .tooLarge
  | .text s => match Number.whole? s.toList with
    | some i => .ok i
    | none => .error (.notWholeIn 10 (.text s))
  | .bytes l => match wholeOfBytes? l with
    | some i => .ok i
    | none => .error (.notWholeIn 10 (.bytes l))
  | _ => .error .wrongKind

/-- Whether a truth value or a number stands in a given order to a natural number. -/
def standsTo (n : Nat) (order : Ordering) : Value → Except Fault Bool
  | .bool b => .ok (compare (if b then 1 else 0) n == order)
  | .int i => .ok (compare i n == order)
  | .float x => .ok (x.compareNat? n == some order)
  | _ => .error .wrongKind

/-- Whether a value is more than a natural number. -/
def isMoreThan (v : Value) (n : Nat) : Except Fault Bool := v.standsTo n .gt

/-- Whether a value is less than a natural number. -/
def isLessThan (v : Value) (n : Nat) : Except Fault Bool := v.standsTo n .lt

@[simp]
theorem isMoreThan_int (i : Int) (n : Nat) :
    (Value.int i).isMoreThan n = .ok (decide ((n : Int) < i)) := by
  simp only [isMoreThan, standsTo]
  by_cases h : (n : Int) < i <;> simp [h, Int.compare_eq_gt]

@[simp]
theorem isLessThan_int (i : Int) (n : Nat) :
    (Value.int i).isLessThan n = .ok (decide (i < n)) := by
  simp only [isLessThan, standsTo]
  by_cases h : i < (n : Int) <;> simp [h, Int.compare_eq_lt]

/-- A value as a count; a number with a point is none. -/
def toCount : Value → Except Fault Int
  | .int i => .ok i
  | .bool b => .ok (if b then 1 else 0)
  | _ => .error .wrongKind

/-- The members of a value: the items of a list, the characters of a text, the keys of a mapping,
the numbers of bytes. -/
def toItems : Value → Except Fault (List Value)
  | .list l | .tuple l | .set l => .ok (l.map opened)
  | .bytes l => .ok (l.map fun b => .int b.toNat)
  | .text s => .ok (s.toList.map fun c => .text (String.ofList [c]))
  | .map l => .ok (l.map (·.1))
  | _ => .error .wrongKind

/-- The members of a value that may be left out: a value that counts as false has none. -/
def toItemsOrNone (v : Value) : Except Fault (List Value) := if v.truthy then v.toItems else .ok []

/-- The entries of a value whose fields are asked for. -/
def toFields : Value → Except Fault Entries
  | .map l => .ok l
  | _ => .error .noField

/-- A field that must be there. -/
def require (entries : Entries) (key : String) : Except Fault Value :=
  match entries.get? key with
  | some v => .ok v
  | none => .error (.missingKey (.text key))

/-- A field that must be there, of a value that must have fields. -/
def item : Value → String → Except Fault Value
  | .map l, key => require l key
  | _, _ => .error .wrongKind

/-- The member of a fixed list of words that a value names. -/
def choice {α : Type} (ofWord? : String → Option α) (choices : String) (v : Value) :
    Except Fault α :=
  match v with
  | .text s => match ofWord? s with
    | some a => .ok a
    | none => .error (.notAChoice v choices)
  | _ => .error (.notAChoice v choices)

end OpeningHand.Value
