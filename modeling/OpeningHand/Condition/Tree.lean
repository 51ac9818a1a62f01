import OpeningHand.Condition.Basic
import OpeningHand.Document.Conversion

/-!
# Conditions as documents

A leaf is a mapping of kind `card` with `cardName`, `cardCount`, `operator` and `location`; a joint
one of kind `logic` with `type`, `conditionA`, `conditionB` and, if it stood in parentheses,
`render`. When read, all but the name and the two sides have defaults.
-/

namespace OpeningHand.Condition

/-- The document of a condition. -/
def toValue : Condition → Value
  | .leaf l => .record [("kind", .text "card"), ("cardName", .text l.name),
      ("cardCount", .int l.count), ("operator", .text l.comparison.word),
      ("location", .text l.place.word)]
  | .joint j a b grouped => .record ([("kind", .text "logic"), ("type", .text j.word),
      ("conditionA", a.toValue), ("conditionB", b.toValue)] ++
      if grouped then [("render", .record [("hasParentheses", .bool true)])] else [])

/-- The leaf that the fields of a document describe. -/
def leafOfFields (fields : Entries) : Except Fault Leaf := do
  let name ← Value.require fields "cardName"
  let count ← ((fields.get? "cardCount").getD (.int 1)).toWhole
  let comparison ← Value.choice Comparison.ofWord? "Operator"
    ((fields.get? "operator").getD (.text "AT_LEAST"))
  let place ← Value.choice Place.ofWord? "Location" ((fields.get? "location").getD (.text "HAND"))
  pure ⟨name.shown, count, comparison, place⟩

/-- Whether a joint's document says that it stood in parentheses. -/
def groupedOfFields (fields : Entries) : Except Fault Bool := do
  let render := fields.get "render"
  if render.truthy then
    let fields ← render.toFields
    pure (fields.get "hasParentheses").truthy
  else pure false

/-- A fault inside a condition document, as seen from outside: faults about values and keys are
reported as a malformed condition, all others stay. -/
def wrapped (kind : String) (f : Fault) : Fault :=
  if f.isValue || f.kind == .missingKey then .malformedCondition kind f else f

/-- The condition that a document describes. The first argument bounds the depth. -/
def ofValueWithin : Nat → Value → Except Fault Condition
  | 0, v => .error (.conditionNotMapping v.kindName)
  | n + 1, .map fields =>
    let kind := Entries.get fields "kind"
    if kind = .text "card" then
      (leafOfFields fields).map .leaf |>.mapError (wrapped "card")
    else if kind = .text "logic" then
      Except.mapError (wrapped "logic") do
        let j ← Value.choice Joint.ofWord? "LogicType" (← Value.require fields "type")
        let a ← ofValueWithin n (← Value.require fields "conditionA")
        let b ← ofValueWithin n (← Value.require fields "conditionB")
        let grouped ← groupedOfFields fields
        pure (.joint j a b grouped)
    else .error (.unknownConditionKind kind)
  | _ + 1, v => .error (.conditionNotMapping v.kindName)

end OpeningHand.Condition

namespace OpeningHand.Value

/-- The depth of a value: one more than the depth of its deepest member. -/
def depth : Value → Nat
  | .list l => depthItems l + 1
  | .map l => depthEntries l + 1
  | _ => 1
where
  /-- The depth of the deepest item. -/
  depthItems : List Value → Nat
    | [] => 0
    | x :: xs => max (depth x) (depthItems xs)
  /-- The depth of the deepest value of an entry. -/
  depthEntries : List (Value × Value) → Nat
    | [] => 0
    | (_, v) :: xs => max (depth v) (depthEntries xs)

end OpeningHand.Value

namespace OpeningHand.Condition

/-- The condition that a document describes. -/
def ofValue (v : Value) : Except Fault Condition := ofValueWithin v.depth v

example : (ofValue (Condition.leaf ⟨"A", 2, .exactly, .deck⟩).toValue).toOption =
    some (.leaf ⟨"A", 2, .exactly, .deck⟩) := by decide +kernel

end OpeningHand.Condition
