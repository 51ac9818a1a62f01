import OpeningHand.Proofs.Play.Faults
import OpeningHand.Proofs.Play.Spending

/-!
# What an excavation keeps

An excavation reveals the top cards of the deck, as many as it is to reveal or as there are, and ranks them. The first
of the ranking go to the end of the hand and the others under the deck, so no card that goes back has a higher score
than one that is kept (`Play.excavates_best`). Since only these two places change, and only at their ends, the order of
all other cards remains.
-/

namespace OpeningHand

namespace Play

variable {rule : Excavation}

/-- **An excavation keeps the most useful of the cards that it reveals.** The top cards of the deck are revealed, as
many as asked for or as the deck holds, the top one first; the deck has its top card last. Ranked by their scores, and
in the order revealed where these are equal, so many as are to be picked go to the end of the hand and the others under
the deck. Nothing else on the board changes. -/
theorem excavates_best (hcount : 0 ≤ rule.count) (hpick : 0 ≤ rule.pick) (c : Condition) (card : Card) (b : Board)
    (log : List String) :
    ∃ rest revealed kept back log', b.deck = rest ++ revealed.reverse ∧
      (revealed.length : Int) = min rule.count b.deck.length ∧
      excavate c.aim card rule ⟨b, log⟩ =
        (.ok (), ⟨{ b with deck := back ++ rest, hand := b.hand ++ kept }, log'⟩) ∧
      (kept ++ back).Perm revealed ∧ c.Ranks revealed (kept ++ back) ∧
      (kept.length : Int) = min rule.pick revealed.length ∧ ∀ d ∈ back, ∀ e ∈ kept, c.score d ≤ c.score e := by
  obtain ⟨⟨after, log'⟩, hends⟩ := excavate_ends c.wanted card rule ⟨b, log⟩
  obtain ⟨s₁, hsame, hdig⟩ := excavate_eq_ok hends
  obtain ⟨wanted, rest, revealed, haim, hdeck, hlength, hafter⟩ := dig_eq_ok hdig
  obtain rfl := Except.ok.inj haim
  rw [hsame] at hdeck hafter
  have hranks : c.Ranks revealed (firstCards rule.pick (byUsefulness c.wanted revealed) ++
      otherCards rule.pick (byUsefulness c.wanted revealed)) := by
    rw [firstCards_append_otherCards]
    exact c.ranks_byUsefulness revealed
  refine ⟨rest, revealed, _, _, log', hdeck, ?_, hafter ▸ hends, hranks.perm, hranks, ?_, fun d hd e he => ?_⟩
  · have hsize : (0 : Int) ≤ b.deck.length := Int.natCast_nonneg _
    rw [hlength, Int.toNat_of_nonneg (le_min hcount hsize)]
  · rw [length_firstCards_eq_min hpick, (byUsefulness_perm c.wanted revealed).length_eq]
  · exact (List.pairwise_append.1 hranks.falling).2.2 e he d hd

/-- A deck of four cards under a hand of one, from the bottom to the top. -/
def digging : Board :=
  ⟨[tagged 1 "W" ["A"], tagged 2 "X" [], tagged 3 "Y" ["B"], tagged 4 "Z" ["A", "B"]], [tagged 0 "H" []], [], [], []⟩

/-- Of nine cards that are to be revealed there are four. Z answers to both leaves and is kept; Y and W answer to one
each, and Y lies above W, so it is the one that is kept with Z. -/
theorem excavates_best_of_four : (0 : Int) ≤ 9 ∧ (0 : Int) ≤ 2 ∧
    (∃ rest revealed kept back log', digging.deck = rest ++ revealed.reverse ∧ (revealed.length : Int) = min 9 4 ∧
      excavate pair.aim spender ⟨9, 2⟩ ⟨digging, []⟩ =
        (.ok (), ⟨{ digging with deck := back ++ rest, hand := digging.hand ++ kept }, log'⟩) ∧
      (kept ++ back).Perm revealed ∧ pair.Ranks revealed (kept ++ back) ∧
      (kept.length : Int) = min 2 (revealed.length : Int) ∧ ∀ d ∈ back, ∀ e ∈ kept, pair.score d ≤ pair.score e) ∧
    (excavate pair.aim spender ⟨9, 2⟩ ⟨digging, []⟩).2.board =
      { digging with
        deck := [tagged 1 "W" ["A"], tagged 2 "X" []],
        hand := [tagged 0 "H" [], tagged 4 "Z" ["A", "B"], tagged 3 "Y" ["B"]] } :=
  ⟨by decide, by decide, @excavates_best ⟨9, 2⟩ (by decide) (by decide) pair spender digging [], by cbv⟩

end Play

end OpeningHand
