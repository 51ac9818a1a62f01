import OpeningHand.Condition.Evaluation
import OpeningHand.Proofs.Card.Choosing
import Mathlib.Order.Bounds.Basic
import Mathlib.Order.MinMax

/-!
# Judging over all orders of the hand

A greedy pass depends on the order of the hand. `Condition.evaluate` tries only the orders of the
cards that some leaf asks for, stops at the first success, and makes a single pass where no joint is
an `AND`. None of this can be told from the answer: it is a success exactly when some order of the
whole hand lets a pass succeed, and a failure reports as many nodes as the best order of the whole
hand satisfies.

Two facts carry this. A pass sees the hand only through the cards that answer to its leaves
(`Condition.check_answering`), since both choosing and removing cards are filters. And the search over
orders is a fold over an explicit list of orders (`Evaluation.overOrders_eq_foldl`) that holds each
order of the pool (`Evaluation.mem_orders`).
-/

namespace OpeningHand

namespace Leaf

theorem found_answering {l : Leaf} {names : List String} (h : l.place = .hand → l.name ∈ names)
    (hand deck : List Card) : l.found (answering names hand) deck = l.found hand deck := by
  cases hp : l.place with
  | hand => simp only [found, hp]; exact answering_answering (by simpa using h hp) hand
  | deck => simp only [found, hp]

theorem found_perm (l : Leaf) {a b : List Card} (h : a.Perm b) (deck : List Card) :
    (l.found a deck).Perm (l.found b deck) := by
  cases hp : l.place with
  | hand => simp only [found, hp]; exact answering_perm h
  | deck => simp only [found, hp]; exact .refl _

end Leaf

namespace Condition

/-- **A pass sees the hand only through the cards that answer to its leaves,** those that look there. -/
theorem check_answering {names : List String} (deck : List Card) :
    ∀ {c : Condition}, (∀ l ∈ c.leaves, l.place = .hand → l.name ∈ names) → ∀ hand : List Card,
      c.check (answering names hand) deck = c.check hand deck
  | .leaf l, h, hand => by
      have hf := Leaf.found_answering (h l (by simp [leaves])) hand deck
      simp only [check, Leaf.taken, hf]
  | .joint .and a b g, h, hand => by
      have ha := check_answering deck (c := a) fun l hl => h l (by simp [leaves, hl])
      have hb := check_answering deck (c := b) fun l hl => h l (by simp [leaves, hl])
      simp only [check, ha, without_answering, hb]
  | .joint .or a b g, h, hand => by
      have ha := check_answering deck (c := a) fun l hl => h l (by simp [leaves, hl])
      have hb := check_answering deck (c := b) fun l hl => h l (by simp [leaves, hl])
      simp only [check, ha, hb]

/-- **Without an `AND` the order of the hand does not matter,** since only numbers of cards count. -/
theorem check_perm_of_hasAnd_eq_false (deck : List Card) :
    ∀ {c : Condition}, c.hasAnd = false → ∀ {a b : List Card}, a.Perm b →
      (c.check a deck).success = (c.check b deck).success ∧
        (c.check a deck).satisfied = (c.check b deck).satisfied
  | .leaf l, _, a, b, h => by
      have hf := (l.found_perm h deck).length_eq
      simp only [check, hf, and_self]
  | .joint .and _ _ _, hc, _, _, _ => by simp [hasAnd] at hc
  | .joint .or x y g, hc, a, b, h => by
      rw [hasAnd, Bool.or_eq_false_iff] at hc
      obtain ⟨hx, hx'⟩ := check_perm_of_hasAnd_eq_false deck hc.1 h
      obtain ⟨hy, hy'⟩ := check_perm_of_hasAnd_eq_false deck hc.2 h
      simp only [check, hx, hx', hy, hy', and_self]

end Condition

/-! ### The orders that are tried -/

theorem mem_picks {α : Type} {l r : List α} {x : α} :
    (x, r) ∈ picks l ↔ ∃ s t, l = s ++ x :: t ∧ r = s ++ t := by
  induction l generalizing r with
  | nil => simp [picks]
  | cons y ys ih =>
      rw [picks, List.mem_cons, List.mem_map]
      constructor
      · rintro (h | ⟨⟨z, q⟩, hq, h⟩)
        · obtain ⟨rfl, rfl⟩ := Prod.mk.inj h
          exact ⟨[], r, rfl, rfl⟩
        · obtain ⟨rfl, rfl⟩ := Prod.mk.inj h
          obtain ⟨s, t, hs, ht⟩ := ih.1 hq
          exact ⟨y :: s, t, by simp [hs], by simp [ht]⟩
      · rintro ⟨s, t, hs, rfl⟩
        cases s with
        | nil =>
            obtain ⟨rfl, rfl⟩ := List.cons.inj hs
            exact Or.inl rfl
        | cons z s =>
            obtain ⟨rfl, rfl⟩ := List.cons.inj hs
            exact Or.inr ⟨(x, s ++ t), ih.2 ⟨s, t, rfl, rfl⟩, rfl⟩

/-- A member with the others is the whole list in another order. -/
theorem perm_of_mem_picks {α : Type} {l r : List α} {x : α} (h : (x, r) ∈ picks l) :
    (x :: r).Perm l := by
  obtain ⟨s, t, rfl, rfl⟩ := mem_picks.1 h
  exact List.perm_middle.symm

namespace Evaluation

/-- The orders of `n` cards of a pool after the cards already placed (in reverse), as they are
tried. -/
def orders : (n : Nat) → (placed pool : List Card) → List (List Card)
  | 0, placed, _ => [placed.reverse]
  | n + 1, placed, pool => (picks pool).flatMap fun p => orders n (p.1 :: placed) p.2

/-- **Every order of the pool is tried, and nothing else.** -/
theorem mem_orders {n : Nat} {placed pool order : List Card} (hn : pool.length = n) :
    order ∈ orders n placed pool ↔ ∃ p : List Card, p.Perm pool ∧ order = placed.reverse ++ p := by
  induction n generalizing placed pool with
  | zero =>
      obtain rfl := List.length_eq_zero_iff.1 hn
      simp [orders]
  | succ n ih =>
      rw [orders, List.mem_flatMap]
      constructor
      · rintro ⟨⟨x, r⟩, hx, ho⟩
        have hp := perm_of_mem_picks hx
        have hlen : r.length = n := by have := hp.length_eq; simp only [List.length_cons] at this; omega
        obtain ⟨p, hpr, rfl⟩ := (ih hlen).1 ho
        exact ⟨x :: p, (hpr.cons x).trans hp, by simp⟩
      · rintro ⟨p, hp, rfl⟩
        cases p with
        | nil => have := hp.length_eq; simp only [List.length_nil] at this; omega
        | cons x p =>
            obtain ⟨s, t, rfl⟩ := List.append_of_mem (hp.subset (List.mem_cons_self ..))
            have hlen : (s ++ t).length = n := by
              simp only [List.length_append, List.length_cons] at hn ⊢
              omega
            refine ⟨(x, s ++ t), mem_picks.2 ⟨s, t, rfl, rfl⟩, (ih hlen).2 ⟨p, ?_, by simp⟩⟩
            exact (hp.trans List.perm_middle).cons_inv

theorem mem_orders_nil {pool order : List Card} :
    order ∈ orders pool.length [] pool ↔ order.Perm pool := by
  rw [mem_orders rfl]
  simp

/-- What is known after one more order: a success is kept, and nothing more is tried. -/
def afterOrder (attempt : List Card → Attempt) (best : Evaluation) (order : List Card) : Evaluation :=
  if best.success then best else best.afterAttempt (attempt order)

/-- The search over orders looks at the orders of the list in turn. -/
theorem overOrders_eq_foldl (attempt : List Card → Attempt) {n : Nat} {placed pool : List Card}
    {best : Evaluation} (hb : best.success = false) :
    overOrders attempt n placed pool best
      = (orders n placed pool).foldl (afterOrder attempt) best := by
  induction n generalizing placed pool best with
  | zero => simp [overOrders, orders, afterOrder, hb]
  | succ n ih =>
      rw [overOrders, orders, List.foldl_flatMap]
      congr 1
      funext best p
      split
      · rename_i h
        -- a success is kept whatever orders follow
        induction orders n (p.1 :: placed) p.2 with
        | nil => rfl
        | cons o os ih => rw [List.foldl_cons, afterOrder, if_pos h]; exact ih
      · rename_i h
        exact ih (by simpa using h)

theorem success_afterOrder (attempt : List Card → Attempt) (best : Evaluation) (o : List Card) :
    (afterOrder attempt best o).success = (best.success || (attempt o).success) := by
  unfold afterOrder afterAttempt
  split
  · rename_i h
    simp [h]
  · rename_i h
    have hb : best.success = false := by simpa using h
    split
    · rename_i ha
      simp [ha]
    · rename_i ha
      split <;> simp [hb, ha]

/-- After a failure the better of two failures is known. -/
theorem length_afterOrder {attempt : List Card → Attempt} {best : Evaluation} {o : List Card}
    (h : (afterOrder attempt best o).success = false) :
    (afterOrder attempt best o).satisfied.length
      = max best.satisfied.length (attempt o).satisfied.length := by
  rw [success_afterOrder, Bool.or_eq_false_iff] at h
  simp only [afterOrder, afterAttempt, h.1, h.2, Bool.false_eq_true, if_false]
  split
  · rename_i hlt
    exact (max_eq_right (le_of_lt hlt)).symm
  · rename_i hlt
    exact (max_eq_left (not_lt.1 hlt)).symm

/-- The search succeeds if something succeeded before or some order does. -/
theorem success_foldl_afterOrder (attempt : List Card → Attempt) (os : List (List Card))
    (best : Evaluation) :
    (os.foldl (afterOrder attempt) best).success
      = (best.success || os.any fun o => (attempt o).success) := by
  induction os generalizing best with
  | nil => simp
  | cons o os ih => rw [List.foldl_cons, ih, success_afterOrder, List.any_cons, Bool.or_assoc]

/-- A search that fails knows the most satisfied nodes of all failures. -/
theorem length_foldl_afterOrder {attempt : List Card → Attempt} {os : List (List Card)}
    {best : Evaluation} (h : (os.foldl (afterOrder attempt) best).success = false) :
    (os.foldl (afterOrder attempt) best).satisfied.length
      = os.foldl (fun n o => max n (attempt o).satisfied.length) best.satisfied.length := by
  induction os generalizing best with
  | nil => rfl
  | cons o os ih =>
      have ho : (afterOrder attempt best o).success = false := by
        rw [List.foldl_cons, success_foldl_afterOrder, Bool.or_eq_false_iff] at h
        exact h.1
      rw [List.foldl_cons, ih h, length_afterOrder ho, List.foldl_cons]

/-- A running maximum is the greatest of the numbers. -/
theorem isGreatest_foldl_max {α : Type} (f : α → Nat) (l : List α) (n : Nat) :
    IsGreatest {k | n = k ∨ ∃ x ∈ l, f x = k} (l.foldl (fun n x => max n (f x)) n) := by
  induction l generalizing n with
  | nil => simp [IsGreatest, upperBounds]
  | cons x xs ih =>
      obtain ⟨hmem, hub⟩ := ih (max n (f x))
      refine ⟨?_, ?_⟩
      · rcases hmem with h | ⟨y, hy, h⟩
        · rcases max_choice n (f x) with hm | hm
          · exact Or.inl (hm.symm.trans h)
          · exact Or.inr ⟨x, List.mem_cons_self .., hm.symm.trans h⟩
        · exact Or.inr ⟨y, List.mem_cons_of_mem _ hy, h⟩
      · have hle : max n (f x) ≤ _ := hub (Or.inl rfl)
        rintro k (rfl | ⟨y, hy, rfl⟩)
        · exact (le_max_left _ _).trans hle
        · rcases List.mem_cons.1 hy with rfl | hy
          · exact (le_max_right _ _).trans hle
          · exact hub (Or.inr ⟨y, hy, rfl⟩)

/-- What is known after some orders is what was known before, or what one of the passes found. -/
theorem foldl_afterOrder_cases (attempt : List Card → Attempt) (os : List (List Card))
    (best : Evaluation) : os.foldl (afterOrder attempt) best = best ∨
      ∃ o ∈ os, os.foldl (afterOrder attempt) best = ⟨(attempt o).success, (attempt o).satisfied⟩ := by
  induction os generalizing best with
  | nil => exact Or.inl rfl
  | cons o os ih =>
      have hone : afterOrder attempt best o = best ∨
          afterOrder attempt best o = ⟨(attempt o).success, (attempt o).satisfied⟩ := by
        unfold afterOrder afterAttempt
        split
        · exact Or.inl rfl
        · split
          · rename_i hsuccess
            rw [hsuccess]
            exact Or.inr rfl
          · rename_i hno
            rw [Bool.not_eq_true] at hno
            rw [hno]
            split
            · exact Or.inr rfl
            · exact Or.inl rfl
      rw [List.foldl_cons]
      rcases ih (afterOrder attempt best o) with hsame | ⟨o', ho', hpass⟩
      · rw [hsame]
        exact hone.imp_right fun h => ⟨o, List.mem_cons_self, h⟩
      · exact Or.inr ⟨o', List.mem_cons_of_mem _ ho', hpass⟩

variable (attempt : List Card → Attempt) (pool : List Card)

/-- **The search over orders succeeds exactly when some order of the pool does.** -/
theorem success_overOrders :
    (overOrders attempt pool.length [] pool .start).success = true ↔
      ∃ p : List Card, p.Perm pool ∧ (attempt p).success = true := by
  rw [overOrders_eq_foldl attempt rfl, success_foldl_afterOrder, start, Bool.false_or,
    List.any_eq_true]
  simp only [mem_orders_nil]

/-- **A search over orders that fails reports as many nodes as the best order satisfies.** -/
theorem isGreatest_overOrders
    (h : (overOrders attempt pool.length [] pool .start).success = false) :
    IsGreatest {k | ∃ p : List Card, p.Perm pool ∧ (attempt p).satisfied.length = k}
      (overOrders attempt pool.length [] pool .start).satisfied.length := by
  rw [overOrders_eq_foldl attempt rfl] at h ⊢
  rw [length_foldl_afterOrder h]
  obtain ⟨hmem, hub⟩ := isGreatest_foldl_max (fun o => (attempt o).satisfied.length)
    (orders pool.length [] pool) start.satisfied.length
  refine ⟨?_, ?_⟩
  · rcases hmem with h0 | ⟨o, ho, h0⟩
    · -- nothing is better than no node at all, so the pool as it stands satisfies none
      have hself := hub (Or.inr ⟨pool, mem_orders_nil.2 (.refl _), rfl⟩)
      refine ⟨pool, .refl _, le_antisymm hself ?_⟩
      rw [← h0]
      exact Nat.zero_le _
    · exact ⟨o, mem_orders_nil.1 ho, h0⟩
  · rintro k ⟨p, hp, rfl⟩
    exact hub (Or.inr ⟨p, mem_orders_nil.2 hp, rfl⟩)

/-- **A search over orders reports what it finds on one of them.** -/
theorem exists_overOrders : ∃ p : List Card, p.Perm pool ∧
    overOrders attempt pool.length [] pool .start = ⟨(attempt p).success, (attempt p).satisfied⟩ := by
  have hcases := foldl_afterOrder_cases attempt (orders pool.length [] pool) .start
  rw [← overOrders_eq_foldl attempt rfl] at hcases
  rcases hcases with hstart | ⟨p, hp, hpass⟩
  · -- then the best order satisfies no node, and none succeeds
    have hfails : (overOrders attempt pool.length [] pool .start).success = false := by rw [hstart]; rfl
    obtain ⟨⟨p, hp, hlength⟩, -⟩ := isGreatest_overOrders attempt pool hfails
    rw [hstart] at hlength hfails ⊢
    have hno : (attempt p).success = false := by
      by_contra hyes
      have hsuccess := (success_overOrders attempt pool).2 ⟨p, hp, Bool.eq_true_of_not_eq_false hyes⟩
      rw [hstart] at hsuccess
      cases hsuccess
    exact ⟨p, hp, by rw [hno, List.length_eq_zero_iff.1 hlength]; rfl⟩
  · exact ⟨p, mem_orders_nil.1 hp, hpass⟩

end Evaluation

/-! ### The whole judgement -/

namespace Condition

variable (c : Condition) (hand deck : List Card)

/-- The names that the leaves of a condition ask for. -/
def names : List String := c.leaves.map (·.name)

/-- Cards that answer to no leaf may follow the hand without changing a pass. -/
theorem check_append {p rest : List Card} (hp : ∀ x ∈ p, x ∈ answering c.names hand)
    (hr : answering c.names rest = []) : c.check (p ++ rest) deck = c.check p deck := by
  have hself : answering c.names p = p := answering_eq_self fun x hx => (mem_answering.1 (hp x hx)).2
  have hnames : ∀ l ∈ c.leaves, l.place = .hand → l.name ∈ c.names := fun l hl _ =>
    List.mem_map_of_mem hl
  rw [← check_answering deck hnames, answering_append, hself, hr, List.append_nil]

/-- The passes over the orders of the answering cards, the other cards coming last, are the passes
over the orders of the whole hand. -/
theorem exists_order_iff (P : Attempt → Prop) :
    (∃ p : List Card, p.Perm (answering c.names hand) ∧
        P (c.check (p ++ without hand (answering c.names hand)) deck)) ↔
      ∃ order : List Card, order.Perm hand ∧ P (c.check order deck) := by
  have hrest := answering_without_answering c.names hand
  constructor
  · rintro ⟨p, hp, h⟩
    rw [c.check_append hand deck (fun x hx => hp.subset hx) hrest] at h
    refine ⟨p ++ hand.filter fun x => !c.names.any x.answersTo,
      (hp.append_right _).trans (List.filter_append_perm _ hand), ?_⟩
    rw [c.check_append hand deck fun x hx => hp.subset hx]
    · exact h
    · refine List.filter_eq_nil_iff.2 fun x hx => ?_
      simpa using (List.mem_filter.1 hx).2
  · rintro ⟨order, ho, h⟩
    have hp : (answering c.names order).Perm (answering c.names hand) := answering_perm ho
    refine ⟨answering c.names order, hp, ?_⟩
    have hnames : ∀ l ∈ c.leaves, l.place = .hand → l.name ∈ c.names := fun l hl _ =>
      List.mem_map_of_mem hl
    rwa [c.check_append hand deck (fun x hx => hp.subset hx) hrest, check_answering deck hnames]

/-- **A judgement reports what a pass finds on some order of the hand.** -/
theorem exists_order_evaluate : ∃ order : List Card, order.Perm hand ∧
    c.evaluate hand deck = ⟨(c.check order deck).success, (c.check order deck).satisfied⟩ := by
  unfold evaluate
  split
  · exact (c.exists_order_iff hand deck fun a => _ = Evaluation.mk a.success a.satisfied).1
      (Evaluation.exists_overOrders _ _)
  · exact ⟨hand, .refl _, rfl⟩

/-- **A judgement is a success exactly when some order of the hand lets a pass succeed.** -/
theorem success_evaluate :
    (c.evaluate hand deck).success = true ↔
      ∃ order : List Card, order.Perm hand ∧ (c.check order deck).success = true := by
  unfold evaluate
  split
  · rw [Evaluation.success_overOrders]
    exact c.exists_order_iff hand deck fun a => a.success = true
  · rename_i h
    have hc : c.hasAnd = false := by simpa using h
    constructor
    · exact fun hs => ⟨hand, .refl _, hs⟩
    · rintro ⟨order, ho, hs⟩
      rwa [(check_perm_of_hasAnd_eq_false deck hc ho).1] at hs

/-- **A judgement that fails reports as many nodes as the best order of the hand satisfies.** -/
theorem isGreatest_evaluate (h : (c.evaluate hand deck).success = false) :
    IsGreatest {k | ∃ order : List Card, order.Perm hand ∧ (c.check order deck).satisfied.length = k}
      (c.evaluate hand deck).satisfied.length := by
  unfold evaluate at h ⊢
  split at h
  · rename_i hc
    rw [if_pos hc]
    have hset : {k | ∃ order : List Card, order.Perm hand ∧
          (c.check order deck).satisfied.length = k}
        = {k | ∃ p : List Card, p.Perm (answering c.names hand) ∧
          (c.check (p ++ without hand (answering c.names hand)) deck).satisfied.length = k} := by
      ext k
      exact (c.exists_order_iff hand deck fun a => a.satisfied.length = k).symm
    rw [hset]
    exact Evaluation.isGreatest_overOrders _ _ h
  · rename_i hc
    rw [if_neg hc]
    have hc : c.hasAnd = false := by simpa using hc
    refine ⟨⟨hand, .refl _, rfl⟩, ?_⟩
    rintro k ⟨order, ho, rfl⟩
    rw [(check_perm_of_hasAnd_eq_false deck hc ho).2]

/-- **The order of the hand does not matter to a judgement.** -/
theorem success_evaluate_perm {hand' : List Card} (h : hand'.Perm hand) :
    (c.evaluate hand' deck).success = (c.evaluate hand deck).success := by
  rw [Bool.eq_iff_iff, success_evaluate, success_evaluate]
  constructor
  · rintro ⟨order, ho, hs⟩
    exact ⟨order, ho.trans h, hs⟩
  · rintro ⟨order, ho, hs⟩
    exact ⟨order, ho.trans h.symm, hs⟩

/-- **The search over orders is invisible.**  A judgement is a success exactly when a pass succeeds
on some order of the whole hand; if it fails, it reports as many nodes as the best of these orders
satisfies; and neither depends on the order in which the hand is given. -/
theorem evaluate_is_best_over_orders :
    ((c.evaluate hand deck).success = true ↔
        ∃ order : List Card, order.Perm hand ∧ (c.check order deck).success = true) ∧
      ((c.evaluate hand deck).success = false →
        IsGreatest
          {k | ∃ order : List Card, order.Perm hand ∧ (c.check order deck).satisfied.length = k}
          (c.evaluate hand deck).satisfied.length) ∧
      ∀ hand' : List Card, hand'.Perm hand →
        (c.evaluate hand' deck).success = (c.evaluate hand deck).success ∧
          ((c.evaluate hand deck).success = false →
            (c.evaluate hand' deck).satisfied.length
              = (c.evaluate hand deck).satisfied.length) := by
  refine ⟨c.success_evaluate hand deck, c.isGreatest_evaluate hand deck, fun hand' h => ?_⟩
  have hs := c.success_evaluate_perm hand deck h
  refine ⟨hs, fun hf => ?_⟩
  have hbest := c.isGreatest_evaluate hand deck hf
  have hbest' := c.isGreatest_evaluate hand' deck (hs.trans hf)
  obtain ⟨o, ho, hlen⟩ := hbest.1
  obtain ⟨o', ho', hlen'⟩ := hbest'.1
  refine le_antisymm ?_ ?_
  · rw [← hlen']
    exact hbest.2 ⟨o', ho'.trans h, rfl⟩
  · rw [← hlen]
    exact hbest'.2 ⟨o, ho.trans h.symm, rfl⟩

/-- One card that answers to both names cannot serve both sides of an `AND`; whatever the order, one
leaf is satisfied and no more. -/
theorem evaluate_is_best_over_orders_one_card :
    let card : Card := ⟨⟨0, 0⟩, "X", [.text "A", .text "B"], none⟩
    let c : Condition := .joint .and (.leaf ⟨"A", 1, .atLeast, .hand⟩)
      (.leaf ⟨"B", 1, .atLeast, .hand⟩) false
    (c.evaluate [card] []).success = false ∧
      IsGreatest {k | ∃ order : List Card, order.Perm [card] ∧
        (c.check order []).satisfied.length = k} 1 := by
  intro card c
  have hf : (c.evaluate [card] []).success = false := by decide +kernel
  have hlen : (c.evaluate [card] []).satisfied.length = 1 := by decide +kernel
  have hbest := (evaluate_is_best_over_orders c [card] []).2.1 hf
  rw [hlen] at hbest
  exact ⟨hf, hbest⟩

end Condition

end OpeningHand
