import OpeningHand.Proofs.Condition.Orders

/-!
# Which nodes a judgement reports

A condition may hold the same part in several places, and a report lists a part once for each place where it holds. So
what is listed are not conditions but marks on the places of the tree (`Marking`): the marked ones in the order in which
a pass leaves them, each after those below it. In what a judgement reports, a joint is marked exactly if its sides are
marked as it asks for (`Marking.IsConsistent`), whether the condition is met or not, because it is what one pass found
(`Condition.exists_order_evaluate`).

The root is the last to be listed if it is marked, and nothing else in the list can be mistaken for it, since the other
places hold smaller conditions. So the list alone tells whether the condition is met (`Condition.evaluate_lists_marking`).
-/

namespace OpeningHand

/-- A mark at every place of a condition. -/
inductive Marking : Condition → Type
  | leaf {l : Leaf} (marked : Bool) : Marking (.leaf l)
  | joint {j : Joint} {a b : Condition} {g : Bool} (left : Marking a) (right : Marking b) (marked : Bool) :
      Marking (.joint j a b g)

namespace Marking

/-- The mark at the root. -/
def root : {c : Condition} → Marking c → Bool
  | _, .leaf marked => marked
  | _, .joint _ _ marked => marked

/-- What stands at the marked places in post-order: on the left, on the right, and then at the root. -/
def listing : {c : Condition} → Marking c → List Condition
  | .leaf l, .leaf marked => if marked then [.leaf l] else []
  | .joint j a b g, .joint left right marked =>
    left.listing ++ right.listing ++ if marked then [.joint j a b g] else []

/-- Everywhere an `AND` is marked exactly if both of its sides are, and an `OR` exactly if at least one is. -/
def IsConsistent : {c : Condition} → Marking c → Prop
  | .leaf _, .leaf _ => True
  | .joint .and _ _ _, .joint left right marked =>
    left.IsConsistent ∧ right.IsConsistent ∧ (marked = true ↔ left.root = true ∧ right.root = true)
  | .joint .or _ _ _, .joint left right marked =>
    left.IsConsistent ∧ right.IsConsistent ∧ (marked = true ↔ left.root = true ∨ right.root = true)

variable {c n : Condition}

@[simp]
theorem root_joint {j : Joint} {a b : Condition} {g : Bool} (left : Marking a) (right : Marking b) (marked : Bool) :
    (joint left right marked : Marking (.joint j a b g)).root = marked := rfl

/-- A marked root is listed. -/
theorem mem_listing_of_root {m : Marking c} (h : m.root = true) : c ∈ m.listing := by
  cases m with
  | leaf marked =>
      obtain rfl : marked = true := h
      exact List.mem_singleton_self _
  | joint left right marked =>
      obtain rfl : marked = true := h
      exact List.mem_append_right _ (List.mem_singleton_self _)

/-- What is listed is the root, if that is marked, or a part, which is smaller by any measure by which the sides of a
joint are smaller than the joint. -/
theorem of_mem_listing (m : Marking c) (size : Condition → Nat)
    (hsize : ∀ j a b g, size a < size (.joint j a b g) ∧ size b < size (.joint j a b g)) (h : n ∈ m.listing) :
    (n = c ∧ m.root = true) ∨ size n < size c := by
  induction m with
  | leaf marked =>
      rw [listing, List.mem_ite_nil_right, List.mem_singleton] at h
      exact Or.inl h.symm
  | @joint j a b g left right marked ihleft ihright =>
      rw [listing, List.mem_append, List.mem_append, List.mem_ite_nil_right, List.mem_singleton] at h
      obtain ⟨ha, hb⟩ := hsize j a b g
      rcases h with (hn | hn) | ⟨hmarked, hn⟩
      · rcases ihleft hn with ⟨rfl, -⟩ | hlt
        · exact Or.inr ha
        · exact Or.inr (hlt.trans ha)
      · rcases ihright hn with ⟨rfl, -⟩ | hlt
        · exact Or.inr hb
        · exact Or.inr (hlt.trans hb)
      · exact Or.inl ⟨hn, hmarked⟩

end Marking

namespace Condition

variable {c n : Condition}

theorem leaves_ne_nil : ∀ c : Condition, c.leaves ≠ []
  | .leaf l => List.cons_ne_nil l []
  | .joint _ a _ _ => List.append_ne_nil_of_left_ne_nil a.leaves_ne_nil _

theorem length_leaves_joint (j : Joint) (a b : Condition) (g : Bool) :
    a.leaves.length < (joint j a b g).leaves.length ∧ b.leaves.length < (joint j a b g).leaves.length := by
  have ha := List.length_pos_of_ne_nil a.leaves_ne_nil
  have hb := List.length_pos_of_ne_nil b.leaves_ne_nil
  rw [leaves, List.length_append]
  omega

/-- Parentheses do not change the number of leaves. -/
theorem length_leaves_of_same (h : n.same c = true) : n.leaves.length = c.leaves.length := by
  rw [← leaves_bare n, eq_of_beq h, leaves_bare]

/-- **What a pass finds is a consistent marking.** A side of a joint is judged on the cards that are there for it, which
does not matter to the marks. -/
theorem exists_marking_check (c : Condition) (hand deck : List Card) : ∃ m : Marking c, m.IsConsistent ∧
    m.root = (c.check hand deck).success ∧ m.listing = (c.check hand deck).satisfied := by
  induction c generalizing hand with
  | leaf l => exact ⟨.leaf ((leaf l).check hand deck).success, trivial, rfl, rfl⟩
  | joint j a b g iha ihb =>
      obtain ⟨left, hleft, hroot, hlisting⟩ := iha hand
      cases j with
      | and =>
          obtain ⟨right, hright, hroot', hlisting'⟩ := ihb
            (without hand (if (a.check hand deck).success then (a.check hand deck).used else []))
          refine ⟨.joint left right (left.root && right.root), ⟨hleft, hright, Bool.and_eq_true_iff⟩, ?_, ?_⟩
          · rw [Marking.root_joint, hroot, hroot', check]
          · simp only [Marking.listing, check, hroot, hroot', hlisting, hlisting']
      | or =>
          obtain ⟨right, hright, hroot', hlisting'⟩ := ihb hand
          refine ⟨.joint left right (left.root || right.root), ⟨hleft, hright, Bool.or_eq_true_iff⟩, ?_, ?_⟩
          · rw [Marking.root_joint, hroot, hroot', check]
          · simp only [Marking.listing, check, hroot, hroot', hlisting, hlisting']

theorem exists_marking_evaluate (c : Condition) (hand deck : List Card) : ∃ m : Marking c, m.IsConsistent ∧
    m.root = (c.evaluate hand deck).success ∧ m.listing = (c.evaluate hand deck).satisfied := by
  obtain ⟨order, -, hpass⟩ := c.exists_order_evaluate hand deck
  rw [hpass]
  exact c.exists_marking_check order deck

/-- **A judgement reports the nodes of a consistent marking,** each after those below it, whether it is a success or
not. It is one exactly if the root is marked, that is, if a node that equals the condition up to parentheses is
reported. -/
theorem evaluate_lists_marking (c : Condition) (hand deck : List Card) :
    (∃ m : Marking c, m.IsConsistent ∧ m.root = (c.evaluate hand deck).success ∧
        m.listing = (c.evaluate hand deck).satisfied) ∧
      ((c.evaluate hand deck).success = true ↔ ∃ n ∈ (c.evaluate hand deck).satisfied, n.same c = true) := by
  obtain ⟨m, hconsistent, hroot, hlisting⟩ := c.exists_marking_evaluate hand deck
  refine ⟨⟨m, hconsistent, hroot, hlisting⟩, ?_⟩
  rw [← hroot, ← hlisting]
  constructor
  · intro h
    exact ⟨c, Marking.mem_listing_of_root h, beq_self_eq_true c.bare⟩
  · rintro ⟨n, hn, hsame⟩
    rcases m.of_mem_listing (fun n => n.leaves.length) length_leaves_joint hn with ⟨-, hmarked⟩ | hlt
    · exact hmarked
    · exact absurd (length_leaves_of_same hsame) hlt.ne

/-- "(A OR B) AND A" is met by one card that answers to A, and the leaf that stands in both places is reported
for each of them. Beside a leaf that is not met the same nodes are reported, and none of them equals the whole. -/
theorem evaluate_lists_marking_twice :
    let a : Condition := .leaf ⟨"A", 1, .atLeast, .hand⟩
    let b : Condition := .leaf ⟨"B", 1, .atLeast, .hand⟩
    let c := joint .and (joint .or a b true) a false
    let hand : List Card := [⟨⟨0, 0⟩, "A", [], none⟩]
    (∃ m : Marking c, m.IsConsistent ∧ m.root = true ∧ m.listing = [a, joint .or a b true, a, c]) ∧
      (∃ m : Marking (joint .and c b false), m.IsConsistent ∧ m.root = false ∧
        m.listing = [a, joint .or a b true, a, c]) ∧
      (c.evaluate hand []).success = true ∧ ((joint .and c b false).evaluate hand []).success = false ∧
      ∀ n ∈ [a, joint .or a b true, a, c], n.same (joint .and c b false) = false := by
  intro a b c hand
  have hmet : (c.evaluate hand []).success = true := by decide +kernel
  have hlist : (c.evaluate hand []).satisfied = [a, joint .or a b true, a, c] := by decide +kernel
  have hunmet : ((joint .and c b false).evaluate hand []).success = false := by decide +kernel
  have hlist' : ((joint .and c b false).evaluate hand []).satisfied = [a, joint .or a b true, a, c] := by
    decide +kernel
  have hmarked := (evaluate_lists_marking c hand []).1
  obtain ⟨hmarked', hroot'⟩ := evaluate_lists_marking (joint .and c b false) hand []
  rw [hmet, hlist] at hmarked
  rw [hunmet, hlist'] at hmarked' hroot'
  refine ⟨hmarked, hmarked', hmet, hunmet, fun n hn => ?_⟩
  rw [Bool.eq_false_iff]
  exact fun hsame => Bool.false_ne_true (hroot'.2 ⟨n, hn, hsame⟩)

end Condition

end OpeningHand
