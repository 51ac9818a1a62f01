import OpeningHand.Proofs.Condition.Conjunction
import OpeningHand.Proofs.Condition.SettingAside

/-!
# More alternatives and more cards

Two ways to make a condition easier to meet: to offer it another side of an `OR`, and to put more cards into the
hand and the deck. Both do what one expects of them, though not by the way a hand is judged.

The judgement of an `OR` tries the orders of the cards that either side asks for, or a single pass if neither side has
an `AND`; each side by itself is judged on the orders of its own cards. All of them are judgements over the orders of
the whole hand (`Condition.success_evaluate`), and there an `OR` is met exactly if one of its sides is
(`Condition.success_evaluate_or`).

A new card may be taken by the first leaf that it answers to, and a part of a condition that failed may succeed with it
and take cards that other parts need. But a pass that succeeds can go on as before if the new cards come last:
each leaf that matters finds the cards it found before, in front of the new ones, and takes the same
(`Condition.check_append_of_success`). So a condition that asks for nothing but "at least" stays met.
-/

namespace OpeningHand

/-- The first cards of a list that has enough of them are those of any longer list that begins with it. -/
theorem firstCards_append_of_le {α : Type} {n : Int} {a : List α} (h0 : 0 ≤ n) (h : n ≤ a.length) (b : List α) :
    firstCards n (a ++ b) = firstCards n a := by
  rw [firstCards, firstCards, if_pos h0, if_pos h0]
  exact List.take_append_of_le_length (by omega)

namespace Condition

/-! ### Another side -/

/-- **An `OR` is met exactly if one of its sides is**, whatever orders each of the three judgements tries. -/
theorem success_evaluate_or (x z : Condition) (g : Bool) (hand deck : List Card) :
    ((joint .or x z g).evaluate hand deck).success
      = ((x.evaluate hand deck).success || (z.evaluate hand deck).success) := by
  rw [Bool.eq_iff_iff, Bool.or_eq_true, success_evaluate, success_evaluate, success_evaluate]
  constructor
  · rintro ⟨order, horder, hs⟩
    simp only [check, Bool.or_eq_true] at hs
    exact hs.imp (fun hx => ⟨order, horder, hx⟩) fun hz => ⟨order, horder, hz⟩
  · -- one side succeeds on an order of its own, and the `OR` does on the same order
    rintro (⟨order, horder, hx⟩ | ⟨order, horder, hz⟩)
    · exact ⟨order, horder, by simp only [check, hx, Bool.true_or]⟩
    · exact ⟨order, horder, by simp only [check, hz, Bool.or_true]⟩

/-- "(A AND B) OR Z" beside a card that answers to A and B and one that answers to A. The hand as it lies does not meet
the left side, another order of it does, and that is enough; the first card alone meets neither side. -/
theorem success_evaluate_or_reordered :
    let x := joint .and (one "A") (one "B") true
    let hand := [tagged 0 ["A", "B"], tagged 1 ["A"]]
    (x.check hand []).success = false ∧ (x.evaluate hand []).success = true ∧
      ((one "Z").evaluate hand []).success = false ∧
      ((joint .or x (one "Z") false).evaluate hand []).success = true ∧
      ((joint .or (one "Z") x false).evaluate hand []).success = true ∧
      ((joint .or x (one "Z") false).evaluate [tagged 0 ["A", "B"]] []).success = false := by
  intro x hand
  have hx : (x.evaluate hand []).success = true := by decide +kernel
  have hz : ((one "Z").evaluate hand []).success = false := by decide +kernel
  have hx' : (x.evaluate [tagged 0 ["A", "B"]] []).success = false := by decide +kernel
  have hz' : ((one "Z").evaluate [tagged 0 ["A", "B"]] []).success = false := by decide +kernel
  refine ⟨by decide +kernel, hx, hz, ?_, ?_, ?_⟩
  · rw [success_evaluate_or, hx, Bool.true_or]
  · rw [success_evaluate_or, hx, Bool.or_true]
  · rw [success_evaluate_or, hx', hz', Bool.or_false]

/-! ### More cards -/

/-- All leaves ask for at least some number of cards, and not for a negative number. -/
def OnlyAtLeast (c : Condition) : Prop := ∀ l ∈ c.leaves, l.comparison = .atLeast ∧ 0 ≤ l.count

instance (c : Condition) : Decidable c.OnlyAtLeast := inferInstanceAs (Decidable (∀ l ∈ c.leaves, _))

theorem OnlyAtLeast.joint {j : Joint} {a b : Condition} {g : Bool} (h : (joint j a b g).OnlyAtLeast) :
    a.OnlyAtLeast ∧ b.OnlyAtLeast := List.forall_mem_append.1 h

/-- **A pass that succeeds succeeds with more cards behind the hand and more cards in the deck**, and leaves what
it left before, in front of some of the new cards. -/
theorem check_append_of_success {deck deck' : List Card} (hdeck : deck.Sublist deck') :
    ∀ {c : Condition}, c.OnlyAtLeast → ∀ {hand : List Card} (more : List Card),
      (∀ x ∈ hand, x.id ∉ deck'.map (·.id)) → (c.check hand deck).success = true →
        (c.check (hand ++ more) deck').success = true ∧ ∃ rest,
          without (hand ++ more) (c.check (hand ++ more) deck').used
            = without hand (c.check hand deck).used ++ rest
  | .leaf ⟨name, count, k, .hand⟩, hc, hand, more, _, hs => by
      obtain ⟨rfl, hcount⟩ : k = .atLeast ∧ 0 ≤ count := hc _ (List.mem_singleton_self _)
      rw [check, Comparison.holds_iff] at hs
      have hfound : Leaf.found ⟨name, count, .atLeast, .hand⟩ (hand ++ more) deck'
          = Leaf.found ⟨name, count, .atLeast, .hand⟩ hand deck ++ answering [name] more :=
        answering_append [name] hand more
      have htaken : Leaf.taken ⟨name, count, .atLeast, .hand⟩ (hand ++ more) deck'
          = Leaf.taken ⟨name, count, .atLeast, .hand⟩ hand deck := by
        rw [Leaf.taken, Leaf.taken, hfound]
        exact firstCards_append_of_le hcount hs _
      refine ⟨?_, without more (Leaf.taken ⟨name, count, .atLeast, .hand⟩ hand deck), ?_⟩
      · rw [check, Comparison.holds_iff, hfound, List.length_append]
        exact le_trans hs (by omega)
      · rw [check, check, htaken]
        exact List.filter_append ..
  | .leaf ⟨name, count, k, .deck⟩, hc, hand, more, hapart, hs => by
      obtain ⟨rfl, -⟩ : k = .atLeast ∧ 0 ≤ count := hc _ (List.mem_singleton_self _)
      rw [check, Comparison.holds_iff] at hs
      have hmore : (Leaf.found ⟨name, count, .atLeast, .deck⟩ hand deck).length
          ≤ (Leaf.found ⟨name, count, .atLeast, .deck⟩ (hand ++ more) deck').length :=
        (hdeck.filter _).length_le
      have hbefore : ∀ x ∈ hand, x.id ∉ deck.map (·.id) := fun x hx hin =>
        hapart x hx ((hdeck.map _).subset hin)
      refine ⟨?_, without more (Leaf.taken ⟨name, count, .atLeast, .deck⟩ (hand ++ more) deck'), ?_⟩
      · rw [check, Comparison.holds_iff]
        exact le_trans hs (Int.ofNat_le.2 hmore)
      · -- cards of the deck are taken, none of which was in the hand
        rw [check, check, without_taken_of_notMem hbefore rfl, without, List.filter_append, ← without,
          ← without, without_taken_of_notMem hapart rfl]
  | .joint .and a b g, hc, hand, more, hapart, hs => by
      simp only [check, Bool.and_eq_true] at hs
      obtain ⟨hsa, hsb⟩ := hs
      simp only [hsa, if_true] at hsb
      obtain ⟨hsa', rest, hrest⟩ := check_append_of_success hdeck hc.joint.1 more hapart hsa
      have hleft : ∀ x ∈ without hand (a.check hand deck).used, x.id ∉ deck'.map (·.id) := fun x hx =>
        hapart x (mem_without.1 hx).1
      obtain ⟨hsb', rest', hrest'⟩ := check_append_of_success hdeck hc.joint.2 rest hleft hsb
      refine ⟨?_, rest', ?_⟩
      · simp only [check, hsa', if_true, hrest, hsb', Bool.and_self]
      · simp only [check, hsa, hsa', if_true, hrest, hsb, hsb', without_append, hrest']
  | .joint .or a b g, hc, hand, more, hapart, hs => by
      simp only [check, Bool.or_eq_true] at hs
      refine ⟨?_, more, ?_⟩
      · rcases hs with hsa | hsb
        · have hsa' := (check_append_of_success hdeck hc.joint.1 more hapart hsa).1
          simp only [check, hsa', Bool.true_or]
        · have hsb' := (check_append_of_success hdeck hc.joint.2 more hapart hsb).1
          simp only [check, hsb', Bool.or_true]
      · simp only [check, without_nil]

/-- **A condition that only asks for "at least" stays met when cards are added** to the hand and to the deck, at any
places, if the deck then holds no card of the old hand. -/
theorem success_evaluate_of_sublist {c : Condition} (hc : c.OnlyAtLeast) {hand hand' deck deck' : List Card}
    (hhand : hand.Sublist hand') (hdeck : deck.Sublist deck')
    (hapart : ∀ x ∈ hand, x.id ∉ deck'.map (·.id)) (h : (c.evaluate hand deck).success = true) :
    (c.evaluate hand' deck').success = true := by
  rw [success_evaluate] at h ⊢
  obtain ⟨order, horder, hs⟩ := h
  obtain ⟨more, hmore⟩ := hhand.exists_perm_append
  have hperm : (order ++ more).Perm hand' := (horder.append_right more).trans hmore.symm
  have horderApart : ∀ x ∈ order, x.id ∉ deck'.map (·.id) := fun x hx => hapart x (horder.subset hx)
  exact ⟨order ++ more, hperm, (check_append_of_success hdeck hc more horderApart hs).1⟩

/-- "((A AND Z) OR B) AND (A AND B)" beside a D in the deck. The new card in front of the hand answers to A and Z: the
`AND` that failed holds now, and on the order of the hand as it is the first leaf takes it. -/
theorem success_evaluate_of_sublist_tempting :
    let either := joint .or (joint .and (one "A") (one "Z") true) (one "B") true
    let both := joint .and (one "A") (one "B") true
    let c := joint .and (joint .and either both false) (.leaf ⟨"D", 1, .atLeast, .deck⟩) false
    let hand := [tagged 0 ["A", "B"], tagged 1 ["A"]]
    let hand' := [tagged 4 ["A", "Z"], tagged 0 ["A", "B"], tagged 1 ["A"]]
    let deck := [tagged 2 ["D"]]
    let deck' := [tagged 3 ["D"], tagged 2 ["D"], tagged 5 []]
    c.OnlyAtLeast ∧ hand.Sublist hand' ∧ deck.Sublist deck' ∧ (∀ x ∈ hand, x.id ∉ deck'.map (·.id)) ∧
      (c.evaluate hand deck).success = true ∧ (c.evaluate hand' deck').success = true := by
  intro either both c hand hand' deck deck'
  have hc : c.OnlyAtLeast := by decide
  have hhand : hand.Sublist hand' := by decide
  have hdeck : deck.Sublist deck' := by decide
  have hapart : ∀ x ∈ hand, x.id ∉ deck'.map (·.id) := by decide
  have hmet : (c.evaluate hand deck).success = true := by decide +kernel
  exact ⟨hc, hhand, hdeck, hapart, hmet, success_evaluate_of_sublist hc hhand hdeck hapart hmet⟩

end Condition

end OpeningHand
