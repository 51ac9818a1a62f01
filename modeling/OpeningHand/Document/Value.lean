import OpeningHand.Document.Moment
import OpeningHand.Number.Binary64

/-!
# Document values

What a JSON or YAML document can hold: the empty value, truth values, whole numbers, numbers with a
point, texts, lists, and mappings that keep the order of their keys. YAML knows pairs, sets, bytes, dates
and times besides, and lists and mappings that hold themselves.
-/

namespace OpeningHand

/-- A value read from a document. -/
inductive Value where
  | null
  | bool (b : Bool)
  | int (i : Int)
  | float (x : Number.Binary64)
  | text (s : String)
  | list (items : List Value)
  | map (entries : List (Value × Value))
  /-- A fixed list, such as a pair of a key and a value. -/
  | tuple (items : List Value)
  /-- Keys without values, in the order in which they came. -/
  | set (members : List Value)
  | bytes (bytes : List UInt8)
  | moment (m : Moment)
  /-- A list or mapping met inside itself, and what it holds there: a tree shows it one round further. -/
  | again (v : Value)
deriving Repr, Inhabited

namespace Value

/-- Equality of values is decidable, member by member. -/
def decEq : (a b : Value) → Decidable (a = b)
  | .null, .null => isTrue rfl
  | .bool a, .bool b => decidable_of_iff (a = b) (by simp)
  | .int a, .int b => decidable_of_iff (a = b) (by simp)
  | .float a, .float b => decidable_of_iff (a = b) (by simp)
  | .text a, .text b => decidable_of_iff (a = b) (by simp)
  | .list a, .list b => match decEqItems a b with
    | isTrue h => isTrue (by rw [h])
    | isFalse h => isFalse (by simpa using h)
  | .map a, .map b => match decEqEntries a b with
    | isTrue h => isTrue (by rw [h])
    | isFalse h => isFalse (by simpa using h)
  | .tuple a, .tuple b => match decEqItems a b with
    | isTrue h => isTrue (by rw [h])
    | isFalse h => isFalse (by simpa using h)
  | .set a, .set b => match decEqItems a b with
    | isTrue h => isTrue (by rw [h])
    | isFalse h => isFalse (by simpa using h)
  | .bytes a, .bytes b => decidable_of_iff (a = b) (by simp)
  | .moment a, .moment b => decidable_of_iff (a = b) (by simp)
  | .again a, .again b => match decEq a b with
    | isTrue h => isTrue (by rw [h])
    | isFalse h => isFalse (by simpa using h)
  | .null, .bool _ | .null, .int _ | .null, .float _ | .null, .text _ | .null, .list _
  | .null, .map _ | .null, .tuple _ | .null, .set _ | .null, .bytes _ | .null, .moment _
  | .null, .again _ => isFalse nofun
  | .bool _, .null | .bool _, .int _ | .bool _, .float _ | .bool _, .text _ | .bool _, .list _
  | .bool _, .map _ | .bool _, .tuple _ | .bool _, .set _ | .bool _, .bytes _ | .bool _, .moment _
  | .bool _, .again _ => isFalse nofun
  | .int _, .null | .int _, .bool _ | .int _, .float _ | .int _, .text _ | .int _, .list _
  | .int _, .map _ | .int _, .tuple _ | .int _, .set _ | .int _, .bytes _ | .int _, .moment _
  | .int _, .again _ => isFalse nofun
  | .float _, .null | .float _, .bool _ | .float _, .int _ | .float _, .text _ | .float _, .list _
  | .float _, .map _ | .float _, .tuple _ | .float _, .set _ | .float _, .bytes _
  | .float _, .moment _ | .float _, .again _ => isFalse nofun
  | .text _, .null | .text _, .bool _ | .text _, .int _ | .text _, .float _ | .text _, .list _
  | .text _, .map _ | .text _, .tuple _ | .text _, .set _ | .text _, .bytes _ | .text _, .moment _
  | .text _, .again _ => isFalse nofun
  | .list _, .null | .list _, .bool _ | .list _, .int _ | .list _, .float _ | .list _, .text _
  | .list _, .map _ | .list _, .tuple _ | .list _, .set _ | .list _, .bytes _ | .list _, .moment _
  | .list _, .again _ => isFalse nofun
  | .map _, .null | .map _, .bool _ | .map _, .int _ | .map _, .float _ | .map _, .text _
  | .map _, .list _ | .map _, .tuple _ | .map _, .set _ | .map _, .bytes _ | .map _, .moment _
  | .map _, .again _ => isFalse nofun
  | .tuple _, .null | .tuple _, .bool _ | .tuple _, .int _ | .tuple _, .float _
  | .tuple _, .text _ | .tuple _, .list _ | .tuple _, .map _ | .tuple _, .set _
  | .tuple _, .bytes _ | .tuple _, .moment _ | .tuple _, .again _ => isFalse nofun
  | .set _, .null | .set _, .bool _ | .set _, .int _ | .set _, .float _ | .set _, .text _
  | .set _, .list _ | .set _, .map _ | .set _, .tuple _ | .set _, .bytes _ | .set _, .moment _
  | .set _, .again _ => isFalse nofun
  | .bytes _, .null | .bytes _, .bool _ | .bytes _, .int _ | .bytes _, .float _
  | .bytes _, .text _ | .bytes _, .list _ | .bytes _, .map _ | .bytes _, .tuple _
  | .bytes _, .set _ | .bytes _, .moment _ | .bytes _, .again _ => isFalse nofun
  | .moment _, .null | .moment _, .bool _ | .moment _, .int _ | .moment _, .float _
  | .moment _, .text _ | .moment _, .list _ | .moment _, .map _ | .moment _, .tuple _
  | .moment _, .set _ | .moment _, .bytes _ | .moment _, .again _ => isFalse nofun
  | .again _, .null | .again _, .bool _ | .again _, .int _ | .again _, .float _
  | .again _, .text _ | .again _, .list _ | .again _, .map _ | .again _, .tuple _
  | .again _, .set _ | .again _, .bytes _ | .again _, .moment _ => isFalse nofun
where
  /-- The items of two lists, in turn. -/
  decEqItems : (a b : List Value) → Decidable (a = b)
    | [], [] => isTrue rfl
    | x :: xs, y :: ys => match decEq x y, decEqItems xs ys with
      | isTrue h, isTrue h' => isTrue (by rw [h, h'])
      | isFalse h, _ => isFalse (by simp [h])
      | _, isFalse h => isFalse (by simp [h])
    | [], _ :: _ | _ :: _, [] => isFalse nofun
  /-- The entries of two mappings, in turn. -/
  decEqEntries : (a b : List (Value × Value)) → Decidable (a = b)
    | [], [] => isTrue rfl
    | (k, v) :: xs, (k', v') :: ys => match decEq k k', decEq v v', decEqEntries xs ys with
      | isTrue h, isTrue h', isTrue h'' => isTrue (by rw [h, h', h''])
      | isFalse h, _, _ => isFalse (by simp [h])
      | _, isFalse h, _ => isFalse (by simp [h])
      | _, _, isFalse h => isFalse (by simp [h])
    | [], _ :: _ | _ :: _, [] => isFalse nofun

instance : DecidableEq Value := decEq

/-- The number that a truth value or a number stands for when keys are compared: truth values count
as 0 and 1, and a number with a point equals the whole number of its value. -/
def asNumber? : Value → Option (Int ⊕ Number.Binary64)
  | .bool b => some (.inl (if b then 1 else 0))
  | .int i => some (.inl i)
  | .float x => some (match x.exactInt? with | some i => .inl i | none => .inr x)
  | _ => none

/-- Equality in the sense of keys and members: numbers by their value whatever their kind, texts by
their characters, lists item by item, mappings and sets without regard to order. -/
def same : Value → Value → Bool
  | .null, .null => true
  | .text a, .text b => a == b
  | .list a, .list b => sameItems a b
  | .map a, .map b => a.length == b.length && sameEntries a b
  | .tuple a, .tuple b => sameItems a b
  | .set a, .set b => a.length == b.length && sameMembers a b
  | .bytes a, .bytes b => a == b
  | .moment a, .moment b => a.same b
  | .again a, .again b => same a b
  | a, b => match a.asNumber?, b.asNumber? with
    | some (.inl i), some (.inl j) => i == j
    | some (.inr x), some (.inr y) => x.same y
    | _, _ => false
where
  /-- Item by item. -/
  sameItems : List Value → List Value → Bool
    | [], [] => true
    | x :: xs, y :: ys => same x y && sameItems xs ys
    | _, _ => false
  /-- Every member of the first set is in the second. -/
  sameMembers : List Value → List Value → Bool
    | [], _ => true
    | x :: xs, ys => (ys.any fun y => same x y) && sameMembers xs ys
  /-- Every entry of the first mapping has an equal value in the second. -/
  sameEntries : List (Value × Value) → List (Value × Value) → Bool
    | [], _ => true
    | (k, v) :: xs, ys =>
      (ys.any fun e => same k e.1 && same v e.2) && sameEntries xs ys

/-- Whether a value can be a key: lists, mappings and sets cannot. -/
def isKey : Value → Bool
  | .list _ | .map _ | .set _ | .again _ => false
  | .tuple l => allKeys l
  | _ => true
where
  /-- Whether all of some values can be keys. -/
  allKeys : List Value → Bool
    | [] => true
    | x :: xs => isKey x && allKeys xs

/-- Whether a value counts as true: all but the empty value, false, zero, and what holds nothing. -/
def truthy : Value → Bool
  | .null => false
  | .bool b => b
  | .int i => i != 0
  | .float x => !x.isZero
  | .text s => s != ""
  | .list l => !l.isEmpty
  | .map l => !l.isEmpty
  | .tuple l => !l.isEmpty
  | .set l => !l.isEmpty
  | .bytes l => !l.isEmpty
  | .moment _ => true
  | .again v => truthy v

/-- The name of a value's kind. -/
def kindName : Value → String
  | .null => "NoneType"
  | .bool _ => "bool"
  | .int _ => "int"
  | .float _ => "float"
  | .text _ => "str"
  | .list _ => "list"
  | .map _ => "dict"
  | .tuple _ => "tuple"
  | .set _ => "set"
  | .bytes _ => "bytes"
  | .moment m => if m.clock.isSome then "datetime" else "date"
  | .again v => kindName v

/-- A member as a value of its own: what is met again is what it was. -/
def opened : Value → Value
  | .again v => v
  | v => v

end Value

/-- The entries of a mapping, in the order in which the keys came. -/
abbrev Entries := List (Value × Value)

namespace Entries

/-- The value under a text key. -/
def get? (entries : Entries) (key : String) : Option Value :=
  (entries.find? fun e => e.1 == .text key).map (·.2.opened)

/-- The value under a text key, or the empty value. -/
def get (entries : Entries) (key : String) : Value := (get? entries key).getD .null

/-- Whether two keys are one: equal values, and what is no number is one with itself. -/
def oneKey (a b : Value) : Bool := a == b || a.same b

/-- Adds an entry; a key that is already there keeps its place and takes the new value. -/
def insert (key value : Value) : Entries → Entries
  | [] => [(key, value)]
  | (k, v) :: r => if oneKey k key then (k, value) :: r else (k, v) :: insert key value r

/-- Entries in the order given, later ones winning over earlier ones of the same key. -/
def ofList (l : List (Value × Value)) : Entries := l.foldl (fun es e => insert e.1 e.2 es) []

end Entries

/-- A mapping with text keys. -/
def Value.record (fields : List (String × Value)) : Value :=
  .map (fields.map fun f => (.text f.1, f.2))

example : Entries.ofList [(.int 1, .null), (.text "a", .null), (.bool true, .int 7)] =
    [(.int 1, .int 7), (.text "a", .null)] := by decide +kernel

end OpeningHand
