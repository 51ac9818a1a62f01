import OpeningHand.Proofs.Condition.Orders

/-!
# An `OR` beside another condition

An `OR` takes no cards, so in `(x OR z) AND y` the right side sees the whole hand. Still this is not always a plain
conjunction: all parts of a condition are tried on one and the same order of the hand, and a part with an `AND`
of its own may need an order that another part cannot do with (`Condition.evaluate_and_or_torn`). It is a question of the
orders alone: the condition is met exactly if some order serves both sides (`Condition.success_evaluate_and_or`).

Not every card matters to this. The order of a hand is looked at only below an `AND`, and only by leaves that
look into the hand, so what a side makes of an order depends on the order of the cards that such leaves ask
for (`Condition.check_eq_of_orderNames`). If no card of the hand is asked for in this way on both sides, an order
for one side and an order for the other make up one for both (`exists_order_of_uncontested`), and then the
condition is a plain conjunction. It always is if one of the sides has no `AND`.
-/

namespace OpeningHand

/-! ### Two orders in one -/

/-- Two orders of a list, of which only the members with one property and those with another count, can be had in
one order, if no member has both properties. -/
theorem exists_perm_filter {α : Type} {p q : α → Bool} {l a b : List α} (ha : a.Perm l) (hb : b.Perm l)
    (hpq : ∀ x ∈ l, p x = true → q x = false) :
    ∃ order : List α, order.Perm l ∧ order.filter p = a.filter p ∧ order.filter q = b.filter q := by
  -- those with the first property lie in front, as in the one order, the others behind, as in the other
  refine ⟨a.filter p ++ b.filter fun x => !p x, ?_, ?_, ?_⟩
  · exact ((ha.filter p).append (hb.filter _)).trans (List.filter_append_perm p l)
  · have hfront : (a.filter p).filter p = a.filter p :=
      List.filter_eq_self.2 fun x hx => (List.mem_filter.1 hx).2
    have hback : (b.filter fun x => !p x).filter p = [] :=
      List.filter_eq_nil_iff.2 fun x hx => by simpa using (List.mem_filter.1 hx).2
    rw [List.filter_append, hfront, hback, List.append_nil]
  · have hfront : (a.filter p).filter q = [] := by
      refine List.filter_eq_nil_iff.2 fun x hx => ?_
      obtain ⟨hxa, hp⟩ := List.mem_filter.1 hx
      rw [hpq x (ha.subset hxa) hp]
      exact Bool.false_ne_true
    have hback : (b.filter fun x => !p x).filter q = b.filter q := by
      rw [List.filter_filter]
      refine List.filter_congr fun x hx => ?_
      cases hp : p x with
      | false => rw [Bool.not_false, Bool.and_true]
      | true => rw [hpq x (hb.subset hx) hp, Bool.false_and]
    rw [List.filter_append, hfront, hback, List.nil_append]

namespace Condition

/-! ### What an order is looked at for -/

/-- The names asked for by leaves that look into the hand. -/
def handNames (c : Condition) : List String := (c.leaves.filter (·.place = .hand)).map (·.name)

/-- The names asked for where the order of the hand is looked at: by leaves below an `AND` that look into the
hand. -/
def orderNames : Condition → List String
  | .leaf _ => []
  | .joint .and a b _ => a.handNames ++ b.handNames
  | .joint .or a b _ => a.orderNames ++ b.orderNames

theorem orderNames_of_hasAnd_eq_false : ∀ {c : Condition}, c.hasAnd = false → c.orderNames = []
  | .leaf _, _ => rfl
  | .joint .and _ _ _, h => by simp [hasAnd] at h
  | .joint .or a b _, h => by
      rw [hasAnd, Bool.or_eq_false_iff] at h
      rw [orderNames, orderNames_of_hasAnd_eq_false h.1, orderNames_of_hasAnd_eq_false h.2, List.append_nil]

theorem mem_handNames {c : Condition} {l : Leaf} (hl : l ∈ c.leaves) (hp : l.place = .hand) :
    l.name ∈ c.handNames :=
  List.mem_map_of_mem (List.mem_filter.2 ⟨hl, decide_eq_true hp⟩)

/-- What two hands have in common for some names, they have in common for fewer names. -/
theorem answering_eq_of_subset {ns ms : List String} (h : ns ⊆ ms) {a b : List Card}
    (hab : answering ms a = answering ms b) : answering ns a = answering ns b := by
  rw [← answering_answering h a, hab, answering_answering h b]

/-- **A pass makes the same of two orders of a hand** if the cards asked for below an `AND` lie in the same order. -/
theorem check_eq_of_orderNames (deck : List Card) :
    ∀ {c : Condition} {a b : List Card}, a.Perm b →
      answering c.orderNames a = answering c.orderNames b →
        (c.check a deck).success = (c.check b deck).success
  | .leaf l, a, b, h, _ => by
      have hlength := (l.found_perm h deck).length_eq
      simp only [check, hlength]
  | .joint .and x y g, a, b, _, hab => by
      have hnames : ∀ l ∈ (joint .and x y g).leaves, l.place = .hand →
          l.name ∈ (joint .and x y g).orderNames := by
        intro l hl hp
        rw [leaves, List.mem_append] at hl
        rw [orderNames, List.mem_append]
        exact hl.imp (mem_handNames · hp) (mem_handNames · hp)
      rw [← check_answering deck hnames a, hab, check_answering deck hnames b]
  | .joint .or x y g, a, b, h, hab => by
      rw [orderNames] at hab
      have hx := check_eq_of_orderNames deck h (answering_eq_of_subset (List.subset_append_left ..) hab)
      have hy := check_eq_of_orderNames deck h (answering_eq_of_subset (List.subset_append_right ..) hab)
      simp only [check, hx, hy]

/-- No card of the hand is asked for on both sides where the order of the hand is looked at. -/
def Uncontested (a b : Condition) (hand : List Card) : Prop :=
  ∀ card ∈ hand, (∃ n ∈ a.orderNames, card.answersTo n = true) → ∀ n ∈ b.orderNames, card.answersTo n = false

instance (a b : Condition) (hand : List Card) : Decidable (Uncontested a b hand) :=
  inferInstanceAs (Decidable (∀ card ∈ hand, _))

/-- An order for each of two conditions makes up one order for both. -/
theorem exists_order_of_uncontested {a b : Condition} {hand : List Card} (h : Uncontested a b hand)
    (deck : List Card) {x y : List Card} (hx : x.Perm hand) (hy : y.Perm hand) :
    ∃ order : List Card, order.Perm hand ∧
      (a.check order deck).success = (a.check x deck).success ∧
      (b.check order deck).success = (b.check y deck).success := by
  have hpq : ∀ card ∈ hand, a.orderNames.any card.answersTo = true →
      b.orderNames.any card.answersTo = false := by
    intro card hcard ha
    rw [List.any_eq_true] at ha
    rw [List.any_eq_false]
    intro n hn
    rw [h card hcard ha n hn]
    exact Bool.false_ne_true
  obtain ⟨order, horder, ha, hb⟩ := exists_perm_filter hx hy hpq
  exact ⟨order, horder, check_eq_of_orderNames deck (horder.trans hx.symm) ha,
    check_eq_of_orderNames deck (horder.trans hy.symm) hb⟩

/-! ### An `OR` on the left of an `AND` -/

variable (x z y : Condition) (g g' : Bool) (hand deck : List Card)

/-- The right side sees the whole hand. -/
theorem success_check_and_or :
    ((joint .and (.joint .or x z g) y g').check hand deck).success
      = (((joint .or x z g).check hand deck).success && (y.check hand deck).success) := by
  have hused : ((joint .or x z g).check hand deck).used = [] := rfl
  rw [check, hused, ite_self, without_nil]

theorem success_evaluate_and_or_iff_order :
    ((joint .and (.joint .or x z g) y g').evaluate hand deck).success = true ↔
      ∃ order : List Card, order.Perm hand ∧ ((joint .or x z g).check order deck).success = true ∧
        (y.check order deck).success = true := by
  simp only [success_evaluate, success_check_and_or, Bool.and_eq_true]

/-- **An `OR` beside another condition needs one order for both.**  The condition is met exactly if some order
of the hand lets a pass over the `OR` and a pass over the other side succeed, each on the whole hand. So both sides
are met by themselves, and that is enough if no card of the hand is asked for on both sides below an `AND`, in
particular if one of the sides has no `AND`. -/
theorem success_evaluate_and_or :
    (((joint .and (.joint .or x z g) y g').evaluate hand deck).success = true ↔
      ∃ order : List Card, order.Perm hand ∧ ((joint .or x z g).check order deck).success = true ∧
        (y.check order deck).success = true) ∧
    (((joint .and (.joint .or x z g) y g').evaluate hand deck).success = true →
      ((joint .or x z g).evaluate hand deck).success = true ∧ (y.evaluate hand deck).success = true) ∧
    ((joint .or x z g).hasAnd = false ∨ y.hasAnd = false ∨ Uncontested (.joint .or x z g) y hand →
      (((joint .and (.joint .or x z g) y g').evaluate hand deck).success = true ↔
        ((joint .or x z g).evaluate hand deck).success = true ∧
          (y.evaluate hand deck).success = true)) := by
  have hboth : ((joint .and (.joint .or x z g) y g').evaluate hand deck).success = true →
      ((joint .or x z g).evaluate hand deck).success = true ∧ (y.evaluate hand deck).success = true := by
    rw [success_evaluate_and_or_iff_order, success_evaluate, success_evaluate]
    rintro ⟨order, horder, hor, hy⟩
    exact ⟨⟨order, horder, hor⟩, ⟨order, horder, hy⟩⟩
  refine ⟨success_evaluate_and_or_iff_order x z y g g' hand deck, hboth, fun h => ⟨hboth, ?_⟩⟩
  have huncontested : Uncontested (.joint .or x z g) y hand := by
    rcases h with hor | hy | h
    · intro card _ hcard
      simp [orderNames_of_hasAnd_eq_false hor] at hcard
    · intro card _ _
      simp [orderNames_of_hasAnd_eq_false hy]
    · exact h
  rw [success_evaluate_and_or_iff_order, success_evaluate, success_evaluate]
  rintro ⟨⟨o, ho, hor⟩, ⟨o', ho', hy⟩⟩
  obtain ⟨order, horder, hsame, hsame'⟩ := exists_order_of_uncontested huncontested deck ho ho'
  exact ⟨order, horder, hsame.trans hor, hsame'.trans hy⟩

/-- A leaf that asks for one card of the hand. -/
def one (name : String) : Condition := .leaf ⟨name, 1, .atLeast, .hand⟩

/-- A card with tags. -/
def tagged (number : Nat) (tags : List String) : Card := ⟨⟨number, 0⟩, "X", tags.map .text, none⟩

/-- "(A AND B) OR Z" beside "C AND D": each side needs an order of its own, and they ask for different cards. -/
theorem success_evaluate_and_or_apart :
    let x := joint .and (one "A") (one "B") true
    let y := joint .and (one "C") (one "D") true
    let hand := [tagged 0 ["A", "B"], tagged 1 ["A"], tagged 2 ["C", "D"], tagged 3 ["C"]]
    Uncontested (.joint .or x (one "Z") true) y hand ∧
      ((joint .and (.joint .or x (one "Z") true) y false).evaluate hand []).success = true ∧
      ∃ order : List Card, order.Perm hand ∧
        ((joint .or x (one "Z") true).check order []).success = true ∧
        (y.check order []).success = true := by
  intro x y hand
  have h : Uncontested (.joint .or x (one "Z") true) y hand := by decide
  obtain ⟨horder, -, hconjunction⟩ := success_evaluate_and_or x (one "Z") y true false hand []
  have hmet := (hconjunction (Or.inr (Or.inr h))).2 (by decide +kernel)
  exact ⟨h, hmet, horder.1 hmet⟩

/-- **One order may not serve both sides.**  "(A AND B) OR Z" needs the card with A and C in front, "A AND C" the
card with A and B. Each is met by the hand, but not the two together, although the `OR` takes no cards. -/
theorem evaluate_and_or_torn :
    let x := joint .and (one "A") (one "B") true
    let y := joint .and (one "A") (one "C") true
    let hand := [tagged 0 ["A", "B"], tagged 1 ["A", "C"]]
    AllDifferent (hand ++ []) ∧
      ((joint .or x (one "Z") true).evaluate hand []).success = true ∧
      (y.evaluate hand []).success = true ∧
      ((joint .and (.joint .or x (one "Z") true) y false).evaluate hand []).success = false := by
  refine ⟨by decide, by decide +kernel, by decide +kernel, by decide +kernel⟩

end Condition

end OpeningHand
