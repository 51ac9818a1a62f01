import OpeningHand.Play.Usable
import OpeningHand.Proofs.Condition.Orders

/-!
# Cards with other identities

Copies of a board, and boards that differ only in which copy of a card lies where, are renamings of each
other: every card keeps its face and gets another identity, different cards different ones
(`Card.rename`). Choosing, removing, ranking and judging cards look at faces and ask only whether two cards
are the same one, so they commute with every injective renaming.
-/

namespace OpeningHand

namespace Card

/-- The card with its identity renamed. -/
def rename (σ : CardId → CardId) (c : Card) : Card := { c with id := σ c.id }

variable {σ : CardId → CardId}

@[simp]
theorem rename_name (c : Card) : (c.rename σ).name = c.name := rfl

@[simp]
theorem rename_effect (c : Card) : (c.rename σ).effect = c.effect := rfl

@[simp]
theorem isFree_rename (c : Card) : (c.rename σ).isFree = c.isFree := rfl

@[simp]
theorem answersToValue_rename (c : Card) (v : Value) :
    (c.rename σ).answersToValue v = c.answersToValue v := by
  cases v <;> rfl

theorem rename_injective (hσ : Function.Injective σ) : Function.Injective (rename σ) := by
  intro c d h
  have hid : c.id = d.id := hσ (congrArg (·.id) h)
  cases c
  cases d
  simp only [rename, Card.mk.injEq] at h
  simp_all

theorem is_rename (hσ : Function.Injective σ) (c d : Card) :
    (c.rename σ).is (d.rename σ) = c.is d := by
  rw [Bool.eq_iff_iff, is, is, beq_iff_eq, beq_iff_eq]
  exact hσ.eq_iff

theorem isIn_rename (hσ : Function.Injective σ) (c : Card) (cards : List Card) :
    (c.rename σ).isIn (cards.map (rename σ)) = c.isIn cards := by
  simp only [isIn, List.any_map, Function.comp_def, is_rename hσ]

end Card

open Card

section

variable {σ : CardId → CardId}

theorem firstCards_map {α β : Type} (f : α → β) (n : Int) (l : List α) :
    firstCards n (l.map f) = (firstCards n l).map f := by
  unfold firstCards
  split <;> simp

theorem otherCards_map {α β : Type} (f : α → β) (n : Int) (l : List α) :
    otherCards n (l.map f) = (otherCards n l).map f := by
  unfold otherCards
  split <;> simp

theorem answering_rename (names : List String) (cards : List Card) :
    answering names (cards.map (rename σ)) = (answering names cards).map (rename σ) := by
  rw [answering, List.filter_map]
  rfl

theorem map_face_rename (σ : CardId → CardId) (cards : List Card) :
    (cards.map (rename σ)).map face = cards.map face := by
  rw [List.map_map]
  rfl

/-- The names of cards do not tell their identities. -/
theorem nameList_rename (cards : List Card) : nameList (cards.map (rename σ)) = nameList cards := by
  rw [nameList, nameList, List.isEmpty_map, List.map_map]
  rfl

theorem without_rename (hσ : Function.Injective σ) (cards removed : List Card) :
    without (cards.map (rename σ)) (removed.map (rename σ))
      = (without cards removed).map (rename σ) := by
  simp [without, List.filter_map, Function.comp_def, isIn_rename hσ]

theorem AllDifferent.rename {cards : List Card} (h : AllDifferent cards) (hσ : Function.Injective σ) :
    AllDifferent (cards.map (Card.rename σ)) := by
  have hids : (cards.map (Card.rename σ)).map (·.id) = (cards.map (·.id)).map σ := by
    rw [List.map_map, List.map_map]
    rfl
  rw [AllDifferent, hids]
  exact List.Nodup.map hσ h

theorem byUsefulness_rename (wanted : List String) (cards : List Card) :
    byUsefulness wanted (cards.map (rename σ)) = (byUsefulness wanted cards).map (rename σ) := by
  rw [byUsefulness, byUsefulness, List.map_mergeSort]
  exact fun c _ d _ => rfl

/-- Cards are picked by name in the same places. -/
theorem pickNamed_rename (hσ : Function.Injective σ) (pool taken : List Card) (names : List Value) :
    pickNamed (pool.map (rename σ)) (taken.map (rename σ)) names
      = (pickNamed pool taken names).map (List.map (rename σ)) := by
  induction names generalizing taken with
  | nil => rfl
  | cons name names ih =>
      have hpick : (fun c : Card => c.answersToValue name && !c.isIn (taken.map (rename σ))) ∘ rename σ
          = fun c => c.answersToValue name && !c.isIn taken := by
        funext c
        rw [Function.comp_apply, isIn_rename hσ, answersToValue_rename]
      have hfind : (pool.map (rename σ)).find?
          (fun c => c.answersToValue name && !c.isIn (taken.map (rename σ)))
            = (pool.find? fun c => c.answersToValue name && !c.isIn taken).map (rename σ) := by
        rw [List.find?_map, hpick]
      rw [pickNamed, hfind, pickNamed]
      cases pool.find? fun c => c.answersToValue name && !c.isIn taken with
      | none => rfl
      | some c => simpa using ih (taken ++ [c])

namespace Condition

/-- A greedy pass takes the same cards. -/
theorem check_rename (hσ : Function.Injective σ) (c : Condition) (hand deck : List Card) :
    c.check (hand.map (rename σ)) (deck.map (rename σ))
      = { c.check hand deck with used := (c.check hand deck).used.map (rename σ) } := by
  induction c generalizing hand with
  | leaf l =>
      have hfound : l.found (hand.map (rename σ)) (deck.map (rename σ))
          = (l.found hand deck).map (rename σ) := by
        unfold Leaf.found
        cases l.place <;> exact answering_rename _ _
      have htaken : l.taken (hand.map (rename σ)) (deck.map (rename σ))
          = (l.taken hand deck).map (rename σ) := by
        unfold Leaf.taken
        rw [hfound]
        cases l.comparison with
        | atMost => rfl
        | atLeast | exactly => exact firstCards_map _ _ _
      simp [check, hfound, htaken]
  | joint j a b grouped iha ihb =>
      cases j with
      | and =>
          simp only [check, iha]
          cases (a.check hand deck).success with
          | true =>
              simp only [if_true, without_rename hσ, ihb]
              split <;> simp
          | false =>
              have hb := ihb hand
              simp only [Bool.false_eq_true, if_false, without_nil, hb]
              split <;> simp
      | or => simp [check, iha, ihb]

/-- An order of renamed cards is an order of the cards, renamed. -/
theorem exists_perm_of_perm_rename {order cards : List Card}
    (h : order.Perm (cards.map (rename σ))) :
    ∃ order' : List Card, order'.Perm cards ∧ order = order'.map (rename σ) := by
  induction cards generalizing order with
  | nil => exact ⟨[], List.Perm.nil, List.perm_nil.1 h⟩
  | cons c cards ih =>
      have hmem : c.rename σ ∈ order := h.mem_iff.2 (by simp)
      obtain ⟨a, b, rfl⟩ := List.append_of_mem hmem
      have hrest : (a ++ b).Perm (cards.map (rename σ)) := by
        rw [List.map_cons] at h
        exact (List.perm_middle.symm.trans h).cons_inv
      obtain ⟨order', ho, hab⟩ := ih hrest
      obtain ⟨a', b', rfl, rfl, rfl⟩ := List.append_eq_map_iff.1 hab
      exact ⟨a' ++ c :: b', List.perm_middle.trans (ho.cons c), by simp⟩

/-- **Judging does not tell cards of one face apart.** -/
theorem success_evaluate_rename (hσ : Function.Injective σ) (c : Condition) {hand hand' : List Card}
    (h : hand'.Perm (hand.map (rename σ))) (deck : List Card) :
    (c.evaluate hand' (deck.map (rename σ))).success = (c.evaluate hand deck).success := by
  rw [c.success_evaluate_perm _ _ h, Bool.eq_iff_iff, success_evaluate, success_evaluate]
  constructor
  · rintro ⟨order, horder, hs⟩
    obtain ⟨order, ho, rfl⟩ := exists_perm_of_perm_rename horder
    rw [check_rename hσ] at hs
    exact ⟨order, ho, hs⟩
  · rintro ⟨order, horder, hs⟩
    refine ⟨order.map (rename σ), horder.map _, ?_⟩
    rw [check_rename hσ]
    exact hs

end Condition

end

end OpeningHand
