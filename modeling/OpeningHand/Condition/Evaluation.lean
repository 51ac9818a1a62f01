import OpeningHand.Card.Basic
import OpeningHand.Condition.Basic

/-!
# Judging a hand and a deck

One pass over a condition takes cards as it goes: each leaf takes the first cards that answer to its
name, and the right side of an `AND` sees only the hand cards that the left side has not taken. An
`OR` takes nothing. Since a greedy pass depends on the order of the hand, a condition with an `AND` is
tried on every order of the cards that some leaf asks for, until one succeeds; if none does, the
attempt with the most satisfied nodes is reported, the first of equals.
-/

namespace OpeningHand

/-- The first `n` of some cards; a negative `n` leaves out so many at the end. -/
def firstCards {α : Type} (n : Int) (l : List α) : List α :=
  if 0 ≤ n then l.take n.toNat else l.take (l.length - n.natAbs)

/-- What `firstCards` leaves. -/
def otherCards {α : Type} (n : Int) (l : List α) : List α :=
  if 0 ≤ n then l.drop n.toNat else l.drop (l.length - n.natAbs)

@[simp]
theorem firstCards_append_otherCards {α : Type} (n : Int) (l : List α) :
    firstCards n l ++ otherCards n l = l := by
  unfold firstCards otherCards
  split <;> simp

theorem firstCards_sublist {α : Type} (n : Int) (l : List α) : (firstCards n l).Sublist l := by
  unfold firstCards
  split <;> exact List.take_sublist _ _

theorem length_firstCards_eq_min {α : Type} {n : Int} (h0 : 0 ≤ n) (l : List α) :
    ((firstCards n l).length : Int) = min n l.length := by
  rw [firstCards, if_pos h0, List.length_take]
  omega

theorem length_firstCards {α : Type} {n : Int} {l : List α} (h0 : 0 ≤ n) (hn : n ≤ l.length) :
    ((firstCards n l).length : Int) = n := by
  rw [length_firstCards_eq_min h0, Int.min_eq_left hn]

theorem firstCards_of_length_le {α : Type} {n : Int} {l : List α} (h : (l.length : Int) ≤ n) :
    firstCards n l = l := by
  rw [firstCards, if_pos (by omega)]
  exact List.take_of_length_le (by omega)

theorem firstCards_append {α : Type} {n : Int} {a : List α} (h : (a.length : Int) = n) (b : List α) :
    firstCards n (a ++ b) = a := by
  rw [firstCards, if_pos (by omega)]
  exact List.take_left' (by omega)

/-- The outcome of one pass: whether the condition holds, the cards it took, and the nodes that hold,
each after the nodes below it. -/
structure Attempt where
  success : Bool
  used : List Card
  satisfied : List Condition
deriving DecidableEq, Repr

/-- What is known about a hand and a deck: whether the condition holds, and the nodes that hold in
the pass that is reported. -/
structure Evaluation where
  success : Bool
  satisfied : List Condition
deriving DecidableEq, Repr

/-- Whether a number of matching cards is what a leaf asks for. -/
def Comparison.holds (c : Comparison) (found : Nat) (count : Int) : Bool :=
  match c with
  | .atLeast => decide (count ≤ found)
  | .exactly => decide ((found : Int) = count)
  | .atMost => decide ((found : Int) ≤ count)

namespace Leaf

/-- The cards that answer to the leaf's name, where the leaf looks. -/
def found (l : Leaf) (hand deck : List Card) : List Card :=
  answering [l.name] (match l.place with | .hand => hand | .deck => deck)

/-- The cards that the leaf takes: none if it only sets a limit. -/
def taken (l : Leaf) (hand deck : List Card) : List Card :=
  match l.comparison with
  | .atMost => []
  | _ => firstCards l.count (l.found hand deck)

end Leaf

namespace Condition

/-- One greedy pass. -/
def check : Condition → (hand deck : List Card) → Attempt
  | .leaf l, hand, deck =>
    let success := l.comparison.holds (l.found hand deck).length l.count
    ⟨success, l.taken hand deck, if success then [.leaf l] else []⟩
  | .joint .and a b g, hand, deck =>
    let left := a.check hand deck
    let usedLeft := if left.success then left.used else []
    let right := b.check (without hand usedLeft) deck
    let success := left.success && right.success
    ⟨success, usedLeft ++ if right.success then right.used else [],
      left.satisfied ++ right.satisfied ++ if success then [.joint .and a b g] else []⟩
  | .joint .or a b g, hand, deck =>
    let left := a.check hand deck
    let right := b.check hand deck
    let success := left.success || right.success
    ⟨success, [], left.satisfied ++ right.satisfied ++ if success then [.joint .or a b g] else []⟩

end Condition

/-- Each member of a list with the others, from left to right. -/
def picks {α : Type} : List α → List (α × List α)
  | [] => []
  | x :: xs => (x, xs) :: (picks xs).map fun p => (p.1, x :: p.2)

namespace Evaluation

/-- What is known before the first pass. -/
def start : Evaluation := ⟨false, []⟩

/-- What is known after one more pass: a success, or the better of two failures. -/
def afterAttempt (best : Evaluation) (a : Attempt) : Evaluation :=
  if a.success then ⟨true, a.satisfied⟩
  else if best.satisfied.length < a.satisfied.length then ⟨false, a.satisfied⟩
  else best

/-- Tries the orders of `n` cards of a pool after the cards already placed (in reverse), the next
card being chosen from left to right, until a pass succeeds. -/
def overOrders (attempt : List Card → Attempt) :
    (n : Nat) → (placed pool : List Card) → Evaluation → Evaluation
  | 0, placed, _, best => best.afterAttempt (attempt placed.reverse)
  | n + 1, placed, pool, best =>
    (picks pool).foldl
      (fun best p => if best.success then best else overOrders attempt n (p.1 :: placed) p.2 best)
      best

end Evaluation

namespace Condition

/-- Judges a hand and a deck. -/
def evaluate (c : Condition) (hand deck : List Card) : Evaluation :=
  if c.hasAnd then
    let relevant := answering (c.leaves.map (·.name)) hand
    let rest := without hand relevant
    Evaluation.overOrders (fun order => c.check (order ++ rest) deck) relevant.length [] relevant .start
  else
    let a := c.check hand deck
    ⟨a.success, a.satisfied⟩

end Condition

/-- The members of a list, each only once, where it first stands. -/
def distinct {α : Type} [DecidableEq α] : List α → List α
  | [] => []
  | x :: xs => x :: (distinct xs).filter (· ≠ x)

theorem mem_distinct {α : Type} [DecidableEq α] {x : α} {xs : List α} : x ∈ distinct xs ↔ x ∈ xs := by
  induction xs with
  | nil => rfl
  | cons y ys ih =>
      rw [distinct, List.mem_cons, List.mem_filter, ih, List.mem_cons, decide_eq_true_iff]
      by_cases h : x = y <;> simp [h]

theorem nodup_distinct {α : Type} [DecidableEq α] (xs : List α) : (distinct xs).Nodup := by
  induction xs with
  | nil => exact List.nodup_nil
  | cons x xs ih =>
      refine List.nodup_cons.2 ⟨fun h => ?_, ih.filter _⟩
      exact of_decide_eq_true (List.mem_filter.1 h).2 rfl

/-- The names that a condition asks for: one for each leaf, equal leaves counting once. -/
def Condition.wanted (c : Condition) : List String := (distinct c.leaves).map (·.name)

/-- How useful a card is: the number of wanted names it answers to. -/
def usefulness (wanted : List String) (c : Card) : Nat := wanted.countP c.answersTo

/-- Cards from the most to the least useful; equally useful ones keep their order. -/
def byUsefulness (wanted : List String) (cards : List Card) : List Card :=
  cards.mergeSort fun a b => decide (usefulness wanted b ≤ usefulness wanted a)

theorem byUsefulness_perm (wanted : List String) (cards : List Card) :
    (byUsefulness wanted cards).Perm cards := List.mergeSort_perm cards _

/-- No card comes after a less useful one. -/
theorem pairwise_byUsefulness (wanted : List String) (cards : List Card) :
    (byUsefulness wanted cards).Pairwise fun a b => usefulness wanted b ≤ usefulness wanted a := by
  have h : (byUsefulness wanted cards).Pairwise fun a b =>
      decide (usefulness wanted b ≤ usefulness wanted a) = true := by
    refine List.pairwise_mergeSort (fun a b c hab hbc => ?_) (fun a b => ?_) cards
    · simp only [decide_eq_true_eq] at *
      omega
    · simp only [Bool.or_eq_true, decide_eq_true_eq]
      omega
  simpa using h

end OpeningHand
