import OpeningHand.Proofs.Report.Ledgers

/-!
# The accounts of a report

The numbers of a report fit together, whatever the simulations are. The opening hands are counted by the copies of each
name in them: over all numbers of copies that makes the hands that hold the name, weighted by these numbers its copies,
and over all names the cards of all hands.

A simulation credits the free cards of its winning lines either as left over or as used, and each name once. It has a
winning line only if it succeeds, so for each name both numbers together do not exceed the successes.
-/

namespace OpeningHand

namespace Simulation

variable {s : Simulation}

theorem success_of_mem_winners {w : Branch} (h : w ∈ s.winners) : s.success = true := by
  obtain ⟨c, hc, hw⟩ := List.mem_filterMap.1 h
  refine List.any_eq_true.2 ⟨c, hc, List.any_eq_true.2 ⟨w, List.mem_of_find?_eq_some hw, ?_⟩⟩
  exact List.find?_some hw

/-- What the free cards left over add, which depends on the winning lines alone. -/
theorem share_freeUnusedOverall (s : Simulation) (name : String) :
    s.share (.ofCards (.freeUnusedOverall name)) = if name ∈ s.freeUnused then 1 else 0 := by
  simp [share, openingShare, freeShare, ConditionRun.drawnShare, ConditionRun.freeShare, Branch.share]

theorem share_freeUsedOverall (s : Simulation) (name : String) :
    s.share (.ofCards (.freeUsedOverall name)) = if s.freeUnused = [] ∧ name ∈ s.freeUsed then 1 else 0 := by
  simp [share, openingShare, freeShare, ConditionRun.drawnShare, ConditionRun.freeShare, Branch.share]

/-- **No simulation adds to both,** not even for different names. -/
theorem share_overall (s : Simulation) :
    (∀ name, s.share (.ofCards (.freeUsedOverall name)) = 0) ∨
      ∀ name, s.share (.ofCards (.freeUnusedOverall name)) = 0 := by
  by_cases hleft : s.freeUnused = []
  · refine Or.inr fun name => ?_
    rw [share_freeUnusedOverall, hleft, if_neg List.not_mem_nil]
  · refine Or.inl fun name => ?_
    rw [share_freeUsedOverall, if_neg fun h => hleft h.1]

/-- A simulation adds at most one for a name, and only if it succeeds. -/
theorem share_overall_le (s : Simulation) (name : String) :
    s.share (.ofCards (.freeUsedOverall name)) + s.share (.ofCards (.freeUnusedOverall name)) ≤
      s.share .successful := by
  by_cases hsuccess : s.success = true
  · have hone : s.share .successful = 1 := if_pos hsuccess
    have hused : s.share (.ofCards (.freeUsedOverall name)) ≤ 1 := by
      rw [share_freeUsedOverall]
      split <;> decide
    have hunused : s.share (.ofCards (.freeUnusedOverall name)) ≤ 1 := by
      rw [share_freeUnusedOverall]
      split <;> decide
    rcases s.share_overall with hnone | hnone <;> have hzero := hnone name <;> omega
  · have hwinners : s.winners = [] :=
      List.eq_nil_iff_forall_not_mem.2 fun w hw => hsuccess (success_of_mem_winners hw)
    rw [share_freeUsedOverall, share_freeUnusedOverall, freeUsed, freeUnused, hwinners]
    simp

end Simulation

namespace Report

/-- **The accounts of a report.** There is a report on conditions that were read from texts. Whenever there is one on
some simulations, it has their number, and for each name the number of opening hands that hold it, which is no more than
that, and the number of its copies in them; over all names these are the cards of all opening hands. The free cards used
and left over, name by name, are together at most the successes, since a simulation that is added to a report credits
each name at most once, only if it succeeds, and never credits cards of both sorts. -/
theorem accounts_ofSimulations (sims : List Simulation) :
    ((∀ s ∈ sims, ∀ c ∈ s.runs, ∃ written, Condition.ofText written = .ok c.condition) →
      ∃ r, ofSimulations sims = .ok r) ∧
    (∀ r, ofSimulations sims = .ok r →
      r.iterations = sims.length ∧ r.successful = sims.countP (·.success) ∧
      (∀ name,
        r.cardNames.number name (·.seen.total) = sims.countP (fun s => name ∈ namesOf s.opening.hand) ∧
        r.cardNames.number name (·.seen.total) ≤ r.iterations ∧
        r.cardNames.number name (·.seen.copies) = (sims.map fun s => (namesOf s.opening.hand).count name).sum) ∧
      (r.cardNames.map fun e => e.2.seen.copies).sum = (sims.map fun s => s.opening.hand.length).sum ∧
      ∀ name, r.freeCards.number name (·.usedOverall) + r.freeCards.number name (·.unusedOverall) ≤ r.successful) ∧
    ∀ s r r', add s r = .ok r' →
      ((∀ name, r'.freeCards.number name (·.usedOverall) = r.freeCards.number name (·.usedOverall)) ∨
        ∀ name, r'.freeCards.number name (·.unusedOverall) = r.freeCards.number name (·.unusedOverall)) ∧
      ∀ name, r'.freeCards.number name (·.usedOverall) + r'.freeCards.number name (·.unusedOverall) ≤
        r.freeCards.number name (·.usedOverall) + r.freeCards.number name (·.unusedOverall) +
          if s.success then 1 else 0 := by
  refine ⟨exists_ofSimulations_of_ofText, fun r hr => ?_, fun s r r' hadd => ?_⟩
  · have hiterations := (Counts.ofSimulations hr).1
    obtain ⟨hwins, hnumbers⟩ := cardCount_ofSimulations hr
    have hcards := (CountsAll.ofSimulations hr).cards .name
    have htotal : ∀ name, r.cardNames.number name (·.seen.total) =
        sims.countP (fun s => name ∈ namesOf s.opening.hand) := fun name =>
      (hcards.total name).trans List.countP_map
    refine ⟨hiterations, hwins, fun name => ⟨htotal name, ?_, ?_⟩, ?_, fun name => ?_⟩
    · rw [htotal, hiterations]
      exact List.countP_le_length
    · exact (hcards.copies name).trans (congrArg List.sum List.map_map)
    · refine hcards.sum_copies.trans ?_
      rw [List.map_map]
      exact congrArg List.sum (List.map_congr_left fun s _ => List.length_map _)
    · calc r.freeCards.number name (·.usedOverall) + r.freeCards.number name (·.unusedOverall)
          = (sims.map fun s => s.share (.ofCards (.freeUsedOverall name)) +
              s.share (.ofCards (.freeUnusedOverall name))).sum := by
            rw [List.sum_map_add, ← hnumbers, ← hnumbers]
            rfl
        _ ≤ (sims.map (·.share .successful)).sum :=
            List.sum_le_sum fun s _ => s.share_overall_le name
        _ = r.successful := (Simulation.sum_share_successful sims).trans hwins.symm
  · have hsum := (add_adds hadd).2
    have hused : ∀ name, r'.freeCards.number name (·.usedOverall) =
        r.freeCards.number name (·.usedOverall) + s.share (.ofCards (.freeUsedOverall name)) :=
      fun name => hsum (.freeUsedOverall name)
    have hunused : ∀ name, r'.freeCards.number name (·.unusedOverall) =
        r.freeCards.number name (·.unusedOverall) + s.share (.ofCards (.freeUnusedOverall name)) :=
      fun name => hsum (.freeUnusedOverall name)
    constructor
    · rcases s.share_overall with hnone | hnone
      · exact Or.inl fun name => by rw [hused, hnone, Nat.add_zero]
      · exact Or.inr fun name => by rw [hunused, hnone, Nat.add_zero]
    · intro name
      have hle := s.share_overall_le name
      rw [hused, hunused]
      rw [Simulation.share] at hle
      omega

open Simulation (plain drawer targets)

/-- One opening hand wins without its two free cards, and one by the card that it plays. -/
theorem accounts_ofSimulations_two :
    ∃ s s' r start, Simulation.run (holding [drawer 0 none, drawer 1 none, plain 2 "T"]) [targets 1]
        (.ofInts 10000 none) = .ok s ∧
      Simulation.run ⟨[plain 1 "T"], [drawer 0 none], [], [], []⟩ [targets 1] (.ofInts 10000 none) = .ok s' ∧
      ofSimulations [s, s'] = .ok r ∧ r.iterations = 2 ∧ r.successful = 2 ∧
      r.cardNames.number "A" (·.seen.total) = 2 ∧ r.cardNames.number "A" (·.seen.copies) = 3 ∧
      (r.cardNames.map fun e => e.2.seen.copies).sum = 4 ∧
      r.freeCards.number "A" (·.usedOverall) + r.freeCards.number "A" (·.unusedOverall) ≤ 2 ∧
      add s (blank 2 2) = .ok start ∧ start.freeCards.number "A" (·.unusedOverall) = 1 ∧
      start.freeCards.number "A" (·.usedOverall) + start.freeCards.number "A" (·.unusedOverall) ≤ 1 := by
  have hleft : (do
      let s ← Simulation.run (holding [drawer 0 none, drawer 1 none, plain 2 "T"]) [targets 1] (.ofInts 10000 none)
      let start ← add s (blank 2 2)
      pure (namesOf s.opening.hand, s.success, start.freeCards.number "A" (·.unusedOverall)) :
        Except Fault (List String × Bool × Nat)) = .ok (["A", "A", "T"], true, 1) := by
    decide +kernel
  have hright : (Simulation.run ⟨[plain 1 "T"], [drawer 0 none], [], [], []⟩ [targets 1] (.ofInts 10000 none)).map
      (fun s => (namesOf s.opening.hand, s.success)) = .ok (["A"], true) := by
    decide +kernel
  obtain ⟨s, hs, hleft⟩ := bind_eq_ok.1 hleft
  obtain ⟨start, hstart, hleft⟩ := bind_eq_ok.1 hleft
  obtain ⟨hnames, hleft⟩ := Prod.mk.inj (Except.ok.inj hleft)
  obtain ⟨hwins, hunused⟩ := Prod.mk.inj hleft
  obtain ⟨s', hs', hright⟩ := map_eq_ok.1 hright
  obtain ⟨hnames', hwins'⟩ := Prod.mk.inj hright
  obtain ⟨hexists, hall, hadd⟩ := accounts_ofSimulations [s, s']
  have hread : ∀ t ∈ [s, s'], ∀ c ∈ t.runs, ∃ written, Condition.ofText written = .ok c.condition := by
    have hwritten : ∀ c ∈ [targets 1], ∃ written, Condition.ofText written = .ok c :=
      List.forall_mem_singleton.2 ⟨(targets 1).text, by decide +kernel⟩
    exact List.forall_mem_cons.2 ⟨fun _ => Simulation.exists_written_of_run hs hwritten,
      List.forall_mem_singleton.2 fun _ => Simulation.exists_written_of_run hs' hwritten⟩
  obtain ⟨r, hr⟩ := hexists hread
  obtain ⟨hiterations, hsuccesses, hseen, hcards, hfree⟩ := hall r hr
  have hboth : r.successful = 2 := by
    rw [hsuccesses]
    simp [hwins, hwins']
  have hlengths : s.opening.hand.length = 3 ∧ s'.opening.hand.length = 1 :=
    ⟨(List.length_map _).symm.trans (congrArg List.length hnames),
      (List.length_map _).symm.trans (congrArg List.length hnames')⟩
  refine ⟨s, s', r, start, hs, hs', hr, hiterations, hboth, ?_, ?_, ?_, hboth ▸ hfree "A", hstart, hunused, ?_⟩
  · rw [(hseen "A").1]
    simp [hnames, hnames']
  · rw [(hseen "A").2.2]
    simp [hnames, hnames']
  · rw [hcards]
    simp [hlengths]
  · refine ((hadd s (blank 2 2) start hstart).2 "A").trans ?_
    rw [hwins]
    exact Nat.le_refl 1

end Report

end OpeningHand
