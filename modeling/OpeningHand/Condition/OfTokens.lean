import OpeningHand.Condition.Basic
import OpeningHand.Condition.Token
import OpeningHand.Number.Whole

/-!
# Conditions from tokens

The grammar knows no precedence; operators group to the left.

```
condition := term ((AND | OR) term)*
term      := number? name location? | '(' condition ')'
```

A count with `+` asks for at least that many cards, with `-` for at most that many, without a sign
for exactly that many; without a count one card is enough. Without a location the hand is meant. A
joint in parentheses remembers them.

Conditions may nest to any depth, here and in all that walks over them: how many calls a machine holds open
is left out, as is how many digits of a count it reads.
-/

namespace OpeningHand.Condition

open Text

/-- The comparison that a count asks for: its last character decides. -/
def comparisonOf (amount : List Char) : Except Fault Comparison :=
  match amount.getLast? with
  | none => .error .emptyText
  | some '+' => .ok .atLeast
  | some '-' => .ok .atMost
  | some _ => .ok .exactly

/-- A count without the signs at its end. -/
def withoutSigns (amount : List Char) : List Char :=
  (amount.reverse.dropWhile fun c => c == '+' || c == '-').reverse

/-- The number that a count writes. -/
def countOf (amount : List Char) : Except Fault Int :=
  let ds := withoutSigns amount
  match Number.whole? ds with
  | some n => .ok n
  | none => .error (.notWholeIn 10 (.text (String.ofList ds)))

/-- The place that a location token names, if the next token is one. -/
def placeNext : List Token → Except Fault (Place × List Token)
  | [] => .ok (.hand, [])
  | t :: r =>
    if t.kind = .location then
      match Place.ofWord? t.value with
      | some p => .ok (p, r)
      | none => .error (.notAChoice (.text t.value) "Location")
    else .ok (.hand, t :: r)

/-- A leaf after its count, which begins at a position. -/
def leafAfter (amount : String) (position : Int) : List Token → Except Fault (Condition × List Token)
  | [] => .error (.missingName amount position)
  | t :: r =>
    if t.kind = .name then do
      let comparison ← comparisonOf amount.toList
      let count ← countOf amount.toList
      let (place, rest) ← placeNext r
      pure (.leaf ⟨t.value, count, comparison, place⟩, rest)
    else .error (.missingName amount position)

/-- Whether the next token is a given parenthesis. -/
def parenNext (word : String) : List Token → Bool
  | [] => false
  | t :: _ => t.kind = .paren && t.value == word

mutual

/-- A term and the tokens after it. The first argument bounds the depth and the number of operators
together; one more than the number of tokens is enough. -/
def term : Nat → List Token → Except Fault (Condition × List Token)
  | 0, _ => .error .endOfCondition
  | _ + 1, [] => .error .endOfCondition
  | n + 1, t :: r =>
    match t.kind with
    | .number => leafAfter t.value t.position r
    | .name => do
      let (place, rest) ← placeNext r
      pure (.leaf ⟨t.value, 1, .atLeast, place⟩, rest)
    | .paren =>
      if t.value == "(" then
        if parenNext ")" r then .error (.emptyParentheses t.position)
        else do
          let (first, rest) ← term n r
          let (c, rest) ← operators n first rest
          if parenNext ")" rest then pure (c.inParentheses, rest.drop 1)
          else .error (.unclosedParenthesis t.position)
      else .error (.strayParenthesis t.position)
    | k => .error (.misplacedToken k.word t.value t.position)

/-- The operators and terms after a condition, which they take as their left side in turn. -/
def operators : Nat → Condition → List Token → Except Fault (Condition × List Token)
  | 0, left, r => .ok (left, r)
  | _ + 1, left, [] => .ok (left, [])
  | n + 1, left, t :: r =>
    if t.kind = .operator then do
      let (right, rest) ← term n r
      match Joint.ofWord? t.value with
      | some j => operators n (.joint j left right false) rest
      | none => .error (.notAChoice (.text t.value) "LogicType")
    else .ok (left, t :: r)

end

/-- The condition that a list of tokens writes, all of them. -/
def ofTokens (tokens : List Token) : Except Fault Condition :=
  match tokens with
  | [] => .error .emptyCondition
  | _ => do
    let (first, rest) ← term (tokens.length + 1) tokens
    let (c, rest) ← operators (tokens.length + 1) first rest
    match rest with
    | [] => pure c
    | t :: _ =>
      if t.kind = .paren && t.value == ")" then .error (.strayParenthesis t.position)
      else .error (.trailingToken t.value t.position)

/-- The condition that a text writes. -/
def ofText (text : String) : Except Fault Condition := Token.ofText text >>= ofTokens

example : (ofText "2+ Dragon AND Pot IN deck").toOption = some
    (.joint .and (.leaf ⟨"Dragon", 2, .atLeast, .hand⟩) (.leaf ⟨"Pot", 1, .atLeast, .deck⟩)
      false) := by decide +kernel

end OpeningHand.Condition
