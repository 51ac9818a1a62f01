import OpeningHand.Condition.Evaluation
import Mathlib.Data.Finset.Dedup
import Mathlib.Data.Finset.Card
import Mathlib.Data.List.Perm.Basic

/-!
# How useful cards are

A condition gives every card a score: the number of its leaves that the card answers to, leaves that ask for the same
counting only once (`Condition.score`). Cards are ranked by it, and cards of one score keep the order in which they
were found (`Condition.Ranks`).

What is spent is taken from the end of a ranking, so none of the cards spent has a higher score than one that is left
(`Condition.Cheapest`).
-/

namespace OpeningHand

namespace Condition

variable {c : Condition} {cards ranking pool : List Card}

/-- The score of a card: the number of different leaves that it answers to. -/
def score (c : Condition) (card : Card) : Nat := {l ∈ c.leaves.toFinset | card.answersTo l.name = true}.card

/-- Wanted names are counted by the leaves that they come from. -/
theorem usefulness_wanted (c : Condition) (card : Card) : usefulness c.wanted card = c.score card := by
  have hleaves : (distinct c.leaves).toFinset = c.leaves.toFinset := by
    ext l
    rw [List.mem_toFinset, List.mem_toFinset, mem_distinct]
  rw [usefulness, wanted, List.countP_map, List.countP_eq_length_filter, score, ← hleaves, ← List.toFinset_filter]
  exact (List.toFinset_card_of_nodup ((nodup_distinct c.leaves).filter _)).symm

/-- Cards in the order of their scores: the scores fall, and cards of one score are in the order that they had. -/
structure Ranks (c : Condition) (cards ranking : List Card) : Prop where
  falling : ranking.Pairwise fun d e => c.score e ≤ c.score d
  ties : ∀ k, ranking.filter (fun d => c.score d = k) = cards.filter fun d => c.score d = k

/-- A ranking has the same cards, because it has the same ones of each score. -/
theorem Ranks.perm (h : c.Ranks cards ranking) : ranking.Perm cards := by
  refine List.perm_iff_count.2 fun d => ?_
  have hscore := congrArg (List.count d) (h.ties (c.score d))
  rwa [List.count_filter (by simp), List.count_filter (by simp)] at hscore

/-- **Cards are ranked by their scores.** -/
theorem ranks_byUsefulness (c : Condition) (cards : List Card) : c.Ranks cards (byUsefulness c.wanted cards) where
  falling := by simpa only [usefulness_wanted] using pairwise_byUsefulness c.wanted cards
  ties k := by
    have hperm := (byUsefulness_perm c.wanted cards).filter fun d => c.score d = k
    -- cards of one score are sorted already, and sorting keeps sorted cards in their order
    have hsorted : (cards.filter fun d => c.score d = k).Pairwise fun d e =>
        decide (usefulness c.wanted e ≤ usefulness c.wanted d) = true := by
      refine List.pairwise_of_forall_mem_list fun d hd e he => ?_
      rw [usefulness_wanted, usefulness_wanted, of_decide_eq_true (List.mem_filter.1 hd).2,
        of_decide_eq_true (List.mem_filter.1 he).2]
      exact decide_eq_true le_rfl
    have hkept : (cards.filter fun d => c.score d = k).Sublist (byUsefulness c.wanted cards) := by
      refine List.sublist_mergeSort (fun a b d hab hbd => ?_) (fun a b => ?_) hsorted List.filter_sublist
      · simp only [decide_eq_true_eq] at *
        omega
      · simp only [Bool.or_eq_true, decide_eq_true_eq]
        omega
    have hsub := hkept.filter fun d => c.score d = k
    simp only [List.filter_filter, Bool.and_self] at hsub
    exact (hsub.eq_of_length hperm.length_eq.symm).symm

end Condition

/-- Cards from the least useful one on are the same cards. -/
theorem reverse_byUsefulness_perm (wanted : List String) (cards : List Card) :
    (byUsefulness wanted cards).reverse.Perm cards :=
  (List.reverse_perm _).trans (byUsefulness_perm wanted cards)

namespace Condition

variable {c : Condition} {pool : List Card}

/-- Cards that are spent from a pool: so many of its cards, none of them with a higher score than one that is left. -/
structure Cheapest (c : Condition) (pool : List Card) (n : Int) (spent : List Card) : Prop where
  size : (spent.length : Int) = n
  fromPool : spent.Subperm pool
  least : ∀ d ∈ spent, ∀ e ∈ pool, e ∉ spent → c.score d ≤ c.score e

/-- **The end of a ranking is the cheapest part of a pool.** -/
theorem cheapest_firstCards {n : Int} (h0 : 0 ≤ n) (hn : n ≤ pool.length) :
    c.Cheapest pool n (firstCards n (byUsefulness c.wanted pool).reverse) := by
  have hperm := reverse_byUsefulness_perm c.wanted pool
  have hrising : ((byUsefulness c.wanted pool).reverse).Pairwise fun d e => c.score d ≤ c.score e :=
    List.pairwise_reverse.2 (c.ranks_byUsefulness pool).falling
  have hsplit := firstCards_append_otherCards n (byUsefulness c.wanted pool).reverse
  rw [← hsplit, List.pairwise_append] at hrising
  refine ⟨length_firstCards h0 (by rwa [hperm.length_eq]),
    (firstCards_sublist n _).subperm.trans hperm.subperm, fun d hd e he hleft => hrising.2.2 d hd e ?_⟩
  have hboth : e ∈ firstCards n (byUsefulness c.wanted pool).reverse ++
      otherCards n (byUsefulness c.wanted pool).reverse := by
    rw [hsplit]
    exact hperm.mem_iff.2 he
  exact (List.mem_append.1 hboth).resolve_left hleft

end Condition

end OpeningHand
