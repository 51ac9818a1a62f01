import OpeningHand.Proofs.Play.Conservation

/-!
# What an operation on a board loses

The operations on a board move cards from one place to another, and three of the four keep them all: a card that is
played, and cards that are discarded or banished from the hand, come to a pile. Drawing a new hand does not.
The new hand takes the place of the old one, which is then nowhere; and if the deck runs out in the middle of the
draw, the operation fails and the cards drawn so far are nowhere either, while the old hand stays. What is lost
is exactly that (`Operation.lost`, `Operation.cards_apply`), so a draw keeps all cards only over an empty hand and
from a deck that is large enough, or if it fails on an empty deck.
-/

namespace OpeningHand

/-- An operation on a board. -/
inductive Operation where
  | drawHand (n : Int)
  | play (card : Card)
  | discard (cards : List Card)
  | banish (cards : List Card)
deriving DecidableEq, Repr

namespace Operation

/-- Carries out an operation. A card that is not in the hand is not played. -/
def apply (b : Board) : Operation → Except Fault Unit × Board
  | .drawHand n => b.drawHand n
  | .play card => (.ok (), (b.play? card).getD b)
  | .discard cards => (.ok (), b.discard cards)
  | .banish cards => (.ok (), b.banishFromHand cards)

/-- What an operation is given: a card that no other card of the board passes for, or different cards of the
hand. -/
def Fits (b : Board) : Operation → Prop
  | .drawHand _ => True
  | .play card => b.Identifies card
  | .discard cards | .banish cards => AllDifferent cards ∧ cards ⊆ b.hand

/-- The cards that an operation loses: those of the old hand, or those of a deck that is too small. -/
def lost (b : Board) : Operation → List Card
  | .drawHand n => if n ≤ b.deck.length then b.hand else b.deck
  | .play _ | .discard _ | .banish _ => []

end Operation

namespace Board

theorem size_eq_length_cards (b : Board) : b.size = b.cards.length := by
  simp only [size, cards, List.length_append]

/-- A draw that succeeds puts the new hand in the place of the old one. -/
theorem drawHand_of_le {n : Int} {b : Board} (h : n ≤ b.deck.length) :
    ∃ rest cards, b.drawHand n = (.ok (), { b with deck := rest, hand := cards }) ∧
      b.deck = rest ++ cards.reverse ∧ cards.length = n.toNat := by
  have hdraw : b.draw n = (.ok (b.deck.reverse.take n.toNat),
      { b with deck := b.deck.take (b.deck.length - n.toNat) }) := if_pos (by omega)
  obtain ⟨hdeck, hlength, -⟩ := draw_eq_ok hdraw
  exact ⟨_, _, by rw [drawHand, hdraw], hdeck, hlength⟩

/-- A draw that fails has used up the deck. -/
theorem drawHand_of_lt {n : Int} {b : Board} (h : b.deck.length < n) :
    b.drawHand n = (.error .emptyDeck, { b with deck := [] }) := by
  have hdraw : b.draw n = (.error .emptyDeck, { b with deck := [] }) := if_neg (by omega)
  rw [drawHand, hdraw]

end Board

namespace Operation

variable {b : Board} {o : Operation}

theorem perm_of_drawHand (n : Int) (b : Board) :
    ((b.drawHand n).2.cards ++ (drawHand n).lost b).Perm b.cards := by
  refine List.perm_iff_count.2 fun x => ?_
  rw [lost]
  split
  · rename_i h
    obtain ⟨rest, cards, hdrawn, hdeck, -⟩ := Board.drawHand_of_le h
    simp only [hdrawn, Board.cards, hdeck, List.count_append, List.count_reverse]
    omega
  · rename_i h
    rw [Board.drawHand_of_lt (not_le.1 h)]
    simp only [Board.cards, List.count_append, List.count_nil]
    omega

theorem perm_of_giveUp (banished : Bool) {cards : List Card} (hd : AllDifferent b.cards)
    (hcards : AllDifferent cards) (hsub : cards ⊆ b.hand) : (b.giveUp banished cards).cards.Perm b.cards := by
  have h : cards.Subperm b.hand := List.subperm_of_subset hcards.nodup hsub
  exact ((Board.Move.giveUp banished h).conserves hd).cards

/-- **What lay on the board lies there after the operation or is lost by it.** -/
theorem perm_of_apply (hd : AllDifferent b.cards) (ho : o.Fits b) :
    ((o.apply b).2.cards ++ o.lost b).Perm b.cards := by
  cases o with
  | drawHand n => exact perm_of_drawHand n b
  | play card =>
      rw [lost, List.append_nil, apply]
      cases hplay : b.play? card with
      | none => exact List.Perm.refl _
      | some after => exact (Board.play?_conserves hplay hd ho).cards
  | discard cards =>
      rw [lost, List.append_nil]
      exact perm_of_giveUp false hd ho.1 ho.2
  | banish cards =>
      rw [lost, List.append_nil]
      exact perm_of_giveUp true hd ho.1 ho.2

/-- Only a draw can fail, if the deck is too small for it. -/
theorem apply_eq_error_iff {f : Fault} :
    (o.apply b).1 = .error f ↔ f = .emptyDeck ∧ ∃ n : Int, o = .drawHand n ∧ b.deck.length < n := by
  cases o with
  | drawHand n =>
      rw [apply]
      by_cases h : n ≤ b.deck.length
      · obtain ⟨rest, cards, hdrawn, -⟩ := Board.drawHand_of_le h
        simp [hdrawn, h]
      · rw [Board.drawHand_of_lt (not_le.1 h)]
        simp [not_le.1 h, eq_comm]
  | play card => simp [apply]
  | discard cards => simp [apply]
  | banish cards => simp [apply]

/-- **What an operation loses.**  Whether it succeeds or fails, the cards that lay on the board are those that lie
there after it and those that it loses; so it keeps all cards, and their number, exactly if it loses none.
Playing, discarding and banishing lose none. A draw loses the old hand if it succeeds, and the whole deck if
the deck is too small for it, which is the only way in which an operation can fail. -/
theorem cards_apply (hd : AllDifferent b.cards) (ho : o.Fits b) :
    ((o.apply b).2.cards ++ o.lost b).Perm b.cards ∧
      ((o.apply b).2.cards.Perm b.cards ↔ o.lost b = []) ∧
      ((o.apply b).2.size = b.size ↔ o.lost b = []) ∧
      ((∀ n, o ≠ .drawHand n) → o.lost b = []) ∧
      ∀ f, (o.apply b).1 = .error f ↔
        f = .emptyDeck ∧ ∃ n : Int, o = .drawHand n ∧ b.deck.length < n := by
  have hperm := perm_of_apply hd ho
  have hlength : (o.apply b).2.size + (o.lost b).length = b.size := by
    rw [Board.size_eq_length_cards, Board.size_eq_length_cards, ← List.length_append]
    exact hperm.length_eq
  refine ⟨hperm, ⟨fun h => ?_, fun h => ?_⟩, ⟨fun h => ?_, fun h => ?_⟩, fun h => ?_,
    fun f => apply_eq_error_iff⟩
  · have hsame := h.length_eq
    rw [← Board.size_eq_length_cards, ← Board.size_eq_length_cards] at hsame
    exact List.length_eq_zero_iff.1 (by omega)
  · rwa [h, List.append_nil] at hperm
  · exact List.length_eq_zero_iff.1 (by omega)
  · rwa [h] at hlength
  · cases o with
    | drawHand n => exact absurd rfl (h n)
    | play _ | discard _ | banish _ => rfl

/-- Two cards in the hand over two in the deck. -/
def twoOverTwo : Board :=
  ⟨[Play.bystander 2 "C", Play.bystander 3 "D"], [Play.bystander 0 "A", Play.bystander 1 "B"], [], [], []⟩

/-- A discard of both cards keeps all four; a draw of one card loses the two of the old hand, and a draw of three
the two of the deck. -/
theorem cards_apply_twoOverTwo :
    ((discard twoOverTwo.hand).apply twoOverTwo).2.cards.Perm twoOverTwo.cards ∧
      (((drawHand 1).apply twoOverTwo).2.cards ++ twoOverTwo.hand).Perm twoOverTwo.cards ∧
      ((drawHand 3).apply twoOverTwo).1 = .error .emptyDeck ∧
      (((drawHand 3).apply twoOverTwo).2.cards ++ twoOverTwo.deck).Perm twoOverTwo.cards := by
  have hd : AllDifferent twoOverTwo.cards := by decide
  have hhand : (discard twoOverTwo.hand).Fits twoOverTwo := ⟨by decide, List.Subset.refl _⟩
  refine ⟨(cards_apply hd hhand).2.1.2 rfl, (cards_apply (o := drawHand 1) hd trivial).1, ?_,
    (cards_apply (o := drawHand 3) hd trivial).1⟩
  exact ((cards_apply (o := drawHand 3) hd trivial).2.2.2.2 _).2 ⟨rfl, 3, rfl, by decide⟩

/-- **A draw does not keep the cards.**  Of two cards on a board one is gone after a draw, whether it succeeds
or fails. -/
theorem size_drawHand_decreases :
    let b : Board := ⟨[Play.bystander 1 "B"], [Play.bystander 0 "A"], [], [], []⟩
    AllDifferent b.cards ∧ b.size = 2 ∧
      (b.drawHand 1).1 = .ok () ∧ (b.drawHand 1).2.size = 1 ∧
      (b.drawHand 2).1 = .error .emptyDeck ∧ (b.drawHand 2).2.size = 1 := by
  decide

end Operation

end OpeningHand
