import OpeningHand.Proofs.Play.Moves
import OpeningHand.Proofs.Play.Stock
import Mathlib.Logic.Relation
import Mathlib.Algebra.Module.Submodule.Lattice
import Mathlib.Data.List.Permutation

-- The last two hold the equations of `≤` and of `Prod.snd` by which `cbv` evaluates a play.

/-!
# No card is lost

A play that comes to its end keeps all cards: they may have changed places, but the five places together
hold the same cards as before (`Board.Conserves`). What lies on the piles stays there, and the pile of played
cards grows by the card that was played. A card that could not be played leaves the board as it was. So it is
after any number of attempts, whatever each of them aims at (`Play.conserves_playEach`).

One move keeps the cards because a card leaves one place exactly as it comes to another
(`Board.Move.conserves`); cards are given up by identity, so the cards must be all different.
-/

namespace OpeningHand

namespace Board

/-- What plays of some cards keep: all cards are still on the board, and those that had been played or given
up before are where they were. -/
structure Conserves (plays : List Card) (b b' : Board) : Prop where
  cards : b'.cards.Perm b.cards
  played : b'.played = b.played ++ plays
  graveyard : b.graveyard <+: b'.graveyard
  banished : b.banished <+: b'.banished

/-- No other card of the board passes for a card: what has its identity is the card itself. -/
def Identifies (b : Board) (card : Card) : Prop := ∀ d ∈ b.cards, d.id = card.id → d = card

instance (b : Board) (card : Card) : Decidable (b.Identifies card) :=
  inferInstanceAs (Decidable (∀ d ∈ b.cards, _))

namespace Conserves

variable {b b' b'' : Board} {plays plays' : List Card}

theorem refl (b : Board) : Conserves [] b b :=
  ⟨List.Perm.refl _, (List.append_nil _).symm, List.prefix_rfl, List.prefix_rfl⟩

theorem trans (h : Conserves plays b b') (h' : Conserves plays' b' b'') :
    Conserves (plays ++ plays') b b'' where
  cards := h'.cards.trans h.cards
  played := by rw [h'.played, h.played, List.append_assoc]
  graveyard := h.graveyard.trans h'.graveyard
  banished := h.banished.trans h'.banished

theorem allDifferent (h : Conserves plays b b') (hd : AllDifferent b.cards) : AllDifferent b'.cards :=
  hd.perm h.cards.symm

theorem identifies (h : Conserves plays b b') {card : Card} (hcard : b.Identifies card) :
    b'.Identifies card := fun d hd => hcard d (h.cards.mem_iff.1 hd)

end Conserves

theorem allDifferent_hand {b : Board} (hd : AllDifferent b.cards) : AllDifferent b.hand := by
  have hsub : b.hand.Sublist b.cards := by
    simp only [cards, List.append_assoc]
    exact (List.sublist_append_left _ _).trans (List.sublist_append_right _ _)
  exact hd.sublist hsub

/-- Cards that leave the hand for a pile are still there. -/
theorem count_without {hand cards : List Card} (hd : AllDifferent hand) (h : cards.Subperm hand)
    (x : Card) : cards.count x + (without hand cards).count x = hand.count x := by
  have hperm := hd.perm_append_without h
  rw [← List.count_append]
  exact hperm.count_eq x

/-- **A move keeps all cards**, and the piles only grow. -/
theorem Move.conserves {b b' : Board} (h : Move b b') (hd : AllDifferent b.cards) :
    Conserves [] b b' := by
  cases h with
  | @giveUp banished cards h =>
      have hcount := count_without (allDifferent_hand hd) h
      cases banished with
      | true =>
          refine ⟨List.perm_iff_count.2 fun x => ?_, (List.append_nil _).symm, List.prefix_rfl,
            List.prefix_append _ _⟩
          have hx := hcount x
          simp only [Board.cards, Board.giveUp, banishFromHand, if_true, List.count_append]
          omega
      | false =>
          refine ⟨List.perm_iff_count.2 fun x => ?_, (List.append_nil _).symm, List.prefix_append _ _,
            List.prefix_rfl⟩
          have hx := hcount x
          simp only [Board.cards, Board.giveUp, Board.discard, Bool.false_eq_true, if_false,
            List.count_append]
          omega
  | @banish rest cards h =>
      refine ⟨List.perm_iff_count.2 fun x => ?_, (List.append_nil _).symm, List.prefix_rfl,
        List.prefix_append _ _⟩
      simp only [Board.cards, h, List.count_append, List.count_reverse]
      omega
  | @reveal rest revealed kept back h hcards =>
      refine ⟨List.perm_iff_count.2 fun x => ?_, (List.append_nil _).symm, List.prefix_rfl,
        List.prefix_rfl⟩
      have hx := hcards.count_eq x
      simp only [Board.cards, h, List.count_append, List.count_reverse] at hx ⊢
      omega

/-- What one move keeps, all moves keep. -/
theorem Moves.conserves {b b' : Board} (h : b.Moves b') (hd : AllDifferent b.cards) :
    Conserves [] b b' := by
  induction h with
  | refl => exact .refl b
  | tail _ hmove ih => exact ih.trans (hmove.conserves (ih.allDifferent hd))

/-- A card that is put on the pile of played cards. -/
theorem play?_conserves {b b' : Board} {card : Card} (h : b.play? card = some b')
    (hd : AllDifferent b.cards) (hcard : b.Identifies card) : Conserves [card] b b' := by
  obtain ⟨hin, hafter⟩ := Option.ite_none_right_eq_some.1 h
  obtain rfl := Option.some.inj hafter
  have hmem : card ∈ b.hand := by
    obtain ⟨d, hd, hid⟩ := List.mem_map.1 (Card.isIn_iff.1 hin)
    have hdcards : d ∈ b.cards := by simp [cards, hd]
    exact hcard d hdcards hid ▸ hd
  refine ⟨List.perm_iff_count.2 fun x => ?_, rfl, List.prefix_rfl, List.prefix_rfl⟩
  have hx := count_without (allDifferent_hand hd) (List.singleton_subperm_iff.2 hmem) x
  simp only [cards, List.count_append]
  omega

end Board

namespace Play

/-- Tries to play cards one after another, each with an aim of its own; gives those that were played. -/
def playEach : List (Aim × Card) → Play (List Card)
  | [] => pure []
  | (aim, card) :: attempts => do
    let ok ← playFree aim card
    let cards ← playEach attempts
    pure (if ok then card :: cards else cards)

variable {aim : Aim} {card : Card} {s s' : Scene}

theorem board_of_playFree_false (h : playFree aim card s = (.ok false, s')) : s'.board = s.board := by
  rcases playFree_eq aim card s with ⟨lines, hno, -⟩ | ⟨e, after, -, -, -, hplayed⟩
  · rw [h] at hno
    rw [(Prod.mk.inj hno).2]
  · rw [h] at hplayed
    obtain ⟨_, s₁, -, hpure⟩ := bind_eq_ok.1 hplayed.symm
    cases (Prod.mk.inj hpure).1

/-- A card that is played leaves the hand, and the rest is done by moves. -/
theorem moves_of_playFree (h : playFree aim card s = (.ok true, s')) :
    ∃ after, s.board.play? card = some after ∧ after.Moves s'.board := by
  rcases playFree_eq aim card s with ⟨lines, hno, -⟩ | ⟨e, after, hplay, -, -, hplayed⟩
  · rw [h] at hno
    cases (Prod.mk.inj hno).1
  · rw [h] at hplayed
    obtain ⟨_, s₁, hresolve, hpure⟩ := bind_eq_ok.1 hplayed.symm
    obtain ⟨-, rfl⟩ := Prod.mk.inj hpure
    exact ⟨after, hplay, moves_of_resolve hresolve⟩

/-- A card that is played goes to the pile of played cards, and no card is lost. -/
theorem conserves_playFree (hd : AllDifferent s.board.cards) (hcard : s.board.Identifies card)
    (h : playFree aim card s = (.ok true, s')) : Board.Conserves [card] s.board s'.board := by
  obtain ⟨after, hplay, hmoves⟩ := moves_of_playFree h
  have hleft := Board.play?_conserves hplay hd hcard
  exact hleft.trans (hmoves.conserves (hleft.allDifferent hd))

/-- **No card is lost and none is doubled.** A card that could not be played leaves the board as it was. A
card that was played is the last of the played cards, the five places together hold the same cards as before,
and the piles only grew. So it is after any attempts, one after another. -/
theorem conserves_playEach (hd : AllDifferent s.board.cards) :
    (∀ aim card ok s', s.board.Identifies card → playFree aim card s = (.ok ok, s') →
      (ok = false → s'.board = s.board) ∧
      (ok = true → Board.Conserves [card] s.board s'.board ∧ AllDifferent s'.board.cards)) ∧
    ∀ attempts cards s', (∀ a ∈ attempts, s.board.Identifies a.2) →
      playEach attempts s = (.ok cards, s') →
      (cards = [] → s'.board = s.board) ∧
      Board.Conserves cards s.board s'.board ∧ AllDifferent s'.board.cards := by
  refine ⟨fun aim card ok s' hcard h => ⟨?_, ?_⟩, fun attempts => ?_⟩
  · rintro rfl
    exact board_of_playFree_false h
  · rintro rfl
    have hkept := conserves_playFree hd hcard h
    exact ⟨hkept, hkept.allDifferent hd⟩
  · induction attempts generalizing s with
    | nil =>
        intro cards s' _ h
        obtain ⟨hcards, rfl⟩ := Prod.mk.inj h
        obtain rfl := Except.ok.inj hcards
        exact ⟨fun _ => rfl, .refl _, hd⟩
    | cons a attempts ih =>
        intro cards s' hcards h
        obtain ⟨aim, card⟩ := a
        obtain ⟨ok, s₁, hplay, h⟩ := bind_eq_ok.1 h
        obtain ⟨rest, s₂, hrest, hpure⟩ := bind_eq_ok.1 h
        obtain ⟨hok, rfl⟩ := Prod.mk.inj hpure
        obtain rfl := Except.ok.inj hok
        have hcard := hcards _ List.mem_cons_self
        have hothers : ∀ a ∈ attempts, s.board.Identifies a.2 := fun a ha =>
          hcards a (List.mem_cons_of_mem _ ha)
        cases ok with
        | false =>
            have hsame := board_of_playFree_false hplay
            rw [← hsame] at hd hothers ⊢
            exact ih hd rest s₂ hothers hrest
        | true =>
            have hkept := conserves_playFree hd hcard hplay
            obtain ⟨-, hlater, hd'⟩ := ih (hkept.allDifferent hd) rest s₂
              (fun a ha => hkept.identifies (hothers a ha)) hrest
            exact ⟨fun hnil => absurd hnil (List.cons_ne_nil card rest), hkept.trans hlater, hd'⟩

/-- A card that is not free. -/
def bystander (number : Nat) (name : String) : Card := ⟨⟨number, 0⟩, name, [], none⟩

/-- A free card that discards a card, draws one, excavates two to keep one, and then banishes a card from
the hand. -/
def juggler : Card :=
  ⟨⟨0, 0⟩, "J", [], some ⟨1, true, some ⟨.discard, .amount 1⟩, [], some ⟨2, 1⟩,
    some ⟨.banishFromHand, .amount 1⟩⟩⟩

/-- Such a card in the hand, with a card to discard, over a deck of four. -/
def juggling : Board :=
  ⟨[bystander 2 "A", bystander 3 "B", bystander 4 "T", bystander 5 "C"], [juggler, bystander 1 "Y"],
    [], [], []⟩

/-- The card is played once; then it is no longer in the hand. -/
theorem conserves_playEach_juggling :
    ∃ s', playEach [(.ok ["T"], juggler), (.ok ["T"], juggler)] ⟨juggling, []⟩ = (.ok [juggler], s') ∧
      s'.board = ⟨[bystander 3 "B", bystander 2 "A"], [bystander 4 "T"], [bystander 5 "C"],
        [bystander 1 "Y"], [juggler]⟩ ∧
      Board.Conserves [juggler] juggling s'.board ∧ AllDifferent s'.board.cards := by
  have hd : AllDifferent juggling.cards := by decide
  have hcards : ∀ a ∈ [((.ok ["T"] : Aim), juggler), (.ok ["T"], juggler)],
      juggling.Identifies a.2 := by decide
  have hplays : ∃ s', playEach [(.ok ["T"], juggler), (.ok ["T"], juggler)] ⟨juggling, []⟩
      = (.ok [juggler], s') ∧ s'.board = ⟨[bystander 3 "B", bystander 2 "A"], [bystander 4 "T"],
        [bystander 5 "C"], [bystander 1 "Y"], [juggler]⟩ := ⟨⟨_, _⟩, by cbv, by rfl⟩
  obtain ⟨s', hs', hboard⟩ := hplays
  exact ⟨s', hs', hboard, ((conserves_playEach hd).2 _ _ s' hcards hs').2⟩

end Play

end OpeningHand
