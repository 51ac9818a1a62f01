import OpeningHand.Proofs.Report.Ledgers

/-!
# How often the nodes of a text are satisfied

For each condition of a simulation the satisfied nodes of all judged hands are counted by their texts
(`ConditionRun.successesOf`). This is a count of nodes: a hand in which several nodes of one text hold counts once for
each of them. It is the number of hands in which some node of the text holds only if none of the hands meets two
(`Simulation.successesOf_of_run`), as for a text that a single node of the condition has. The whole condition has such
a text, since the texts of its parts are shorter, so it is counted once for each hand that meets it.

A condition with two nodes of one text may count a single hand twice (`Simulation.successesOf_aOrA`).
-/

namespace OpeningHand

open Condition

/-! ### Nodes of a text -/

/-- What is listed are nodes, each of them at most as often as the condition has it. -/
theorem Marking.listing_subperm {c : Condition} (m : Marking c) : m.listing.Subperm c.nodes := by
  induction m with
  | leaf marked =>
      cases marked with
      | true => exact List.Subperm.refl _
      | false => exact List.nil_subperm
  | @joint j a b g left right marked ihleft ihright =>
      have hroot : (if marked then [Condition.joint j a b g] else []).Subperm [.joint j a b g] := by
        cases marked with
        | true => exact List.Subperm.refl _
        | false => exact List.nil_subperm
      exact ((ihleft.append ihright).append hroot).trans List.perm_append_comm.subperm

namespace Condition

/-- How many nodes of a condition have a text. -/
def nodesOf (c : Condition) (t : String) : Nat := (c.nodes.map text).count t

theorem length_text_of_mem_nodes {c n : Condition} (h : n ∈ c.nodes) : n.text.length ≤ c.text.length := by
  induction c with
  | leaf l => exact (congrArg (fun n : Condition => n.text.length) (List.mem_singleton.1 h)).le
  | joint j a b g iha ihb =>
      obtain ⟨ha, hb⟩ := length_text_joint j a b g
      rw [nodes, List.mem_cons, List.mem_append] at h
      rcases h with rfl | h | h
      · exact Nat.le_refl _
      · exact (iha h).trans ha.le
      · exact (ihb h).trans hb.le

/-- No part of a condition has its text. -/
theorem nodesOf_text (c : Condition) : c.nodesOf c.text = 1 := by
  cases c with
  | leaf l => exact List.count_singleton_self
  | joint j a b g =>
      obtain ⟨ha, hb⟩ := length_text_joint j a b g
      have hparts : (joint j a b g).text ∉ (a.nodes ++ b.nodes).map text := by
        intro h
        obtain ⟨n, hn, htext⟩ := List.mem_map.1 h
        rw [← htext] at ha hb
        rcases List.mem_append.1 hn with hn | hn
        · exact absurd (length_text_of_mem_nodes hn) (Nat.not_le.2 ha)
        · exact absurd (length_text_of_mem_nodes hn) (Nat.not_le.2 hb)
      rw [nodesOf, nodes, List.map_cons, List.count_cons_self, List.count_eq_zero_of_not_mem hparts]

end Condition

namespace Branch

/-- How many satisfied nodes of a judged hand have a text. -/
def timesMet (b : Branch) (t : String) : Nat := (b.evaluation.satisfied.map text).count t

/-- Whether some satisfied node of a judged hand has a text. -/
def meets (b : Branch) (t : String) : Bool := b.evaluation.satisfied.any fun n => n.text == t

theorem meets_iff {b : Branch} {t : String} : b.meets t = true ↔ b.timesMet t ≠ 0 := by
  simp only [meets, timesMet, List.any_eq_true, beq_iff_eq, ne_eq, List.count_eq_zero, not_not, List.mem_map]

variable {c : Condition} {b : Branch}

theorem timesMet_le (h : b.evaluation = c.evaluate b.board.hand b.board.deck) (t : String) :
    b.timesMet t ≤ c.nodesOf t := by
  obtain ⟨m, -, -, hlisting⟩ := c.exists_marking_evaluate b.board.hand b.board.deck
  rw [timesMet, h, ← hlisting]
  simp only [nodesOf, List.count_eq_countP, List.countP_map]
  exact m.listing_subperm.countP_le _

/-- The text of the condition is satisfied in the hands that meet it. -/
theorem meets_text (h : b.evaluation = c.evaluate b.board.hand b.board.deck) : b.meets c.text = b.success := by
  rw [Bool.eq_iff_iff, meets, success, h, List.any_eq_true]
  constructor
  · rintro ⟨n, hn, htext⟩
    rcases of_mem_satisfied_evaluate hn with ⟨-, hsuccess⟩ | hlt
    · exact hsuccess
    · exact absurd (congrArg String.length (beq_iff_eq.1 htext)) hlt.ne
  · intro hsuccess
    obtain ⟨m, -, hroot, hlisting⟩ := c.exists_marking_evaluate b.board.hand b.board.deck
    rw [← hlisting]
    exact ⟨c, Marking.mem_listing_of_root (hroot.trans hsuccess), beq_self_eq_true _⟩

end Branch

/-! ### The counts of a simulation -/

/-- How often nodes of a text are satisfied, zero if there are none. -/
def ConditionRun.successesOf (r : ConditionRun) (t : String) : Nat := Ledger.number r.successes t id

theorem ConditionRun.successesOf_eq (r : ConditionRun) (t : String) :
    r.successesOf t = (r.branches.map (·.timesMet t)).sum := by
  refine (number_occurrences _ t).trans ?_
  rw [List.map_flatMap, List.count_flatMap]
  rfl

namespace Simulation

/-- **What a simulation counts for the texts of a condition.** For each text it is the sum, over the judged hands, of
the satisfied nodes that have it, and hence at least the number of hands with such a node, and at most so many times
that number as the condition has nodes of the text. It is the number of these hands if and only if none of them
satisfies two such nodes. So it is for a text that only one node has, and then it does not exceed the number of hands
judged; and the whole condition is counted once for each hand that meets it. -/
theorem successesOf_of_run {opening : Board} {cs : List Condition} {caps : Caps} {s : Simulation}
    (h : run opening cs caps = .ok s) {i : Nat} {c : Condition} (hi : cs[i]? = some c) :
    ∃ r, s.runs[i]? = some r ∧ r.condition = c ∧
      (∀ t, r.successesOf t = (r.branches.map (·.timesMet t)).sum ∧
        r.branches.countP (·.meets t) ≤ r.successesOf t ∧
        r.successesOf t ≤ c.nodesOf t * r.branches.countP (·.meets t) ∧
        (r.successesOf t = r.branches.countP (·.meets t) ↔ ∀ b ∈ r.branches, b.timesMet t ≤ 1) ∧
        (c.nodesOf t ≤ 1 →
          r.successesOf t = r.branches.countP (·.meets t) ∧ r.successesOf t ≤ r.branches.length)) ∧
      r.successesOf c.text = r.branches.countP (·.success) := by
  have hconds := conditions_of_run h
  rw [← hconds, List.getElem?_map, Option.map_eq_some_iff] at hi
  obtain ⟨r, hr, rfl⟩ := hi
  obtain ⟨found, hfound, hbranches⟩ := exists_search_of_run h (List.mem_of_getElem? hr)
  have hjudged : ∀ b ∈ r.branches, b.evaluation = r.condition.evaluate b.board.hand b.board.deck := by
    rw [hbranches]
    exact evaluation_of_search hfound
  have honce : ∀ t, r.successesOf t = r.branches.countP (·.meets t) ↔ ∀ b ∈ r.branches, b.timesMet t ≤ 1 := by
    intro t
    rw [r.successesOf_eq]
    exact sum_eq_countP_iff (fun _ => Branch.meets_iff) r.branches
  have hsingle : ∀ t, r.condition.nodesOf t ≤ 1 → r.successesOf t = r.branches.countP (·.meets t) := fun t ht =>
    (honce t).2 fun b hb => (Branch.timesMet_le (hjudged b hb) t).trans ht
  refine ⟨r, hr, rfl, fun t => ⟨r.successesOf_eq t, ?_, ?_, honce t, fun ht => ⟨hsingle t ht, ?_⟩⟩, ?_⟩
  · rw [r.successesOf_eq]
    exact countP_le_sum (fun _ => Branch.meets_iff) r.branches
  · rw [r.successesOf_eq]
    exact sum_le_mul_countP (fun _ => Branch.meets_iff) fun b hb => Branch.timesMet_le (hjudged b hb) t
  · rw [hsingle t ht]
    exact List.countP_le_length
  · rw [hsingle _ r.condition.nodesOf_text.le]
    exact List.countP_congr fun b hb => by rw [Branch.meets_text (hjudged b hb)]

open Report (aAndB aOrA holding)

/-- Of two judged hands both hold what the left side asks for, and one meets the condition. -/
theorem successesOf_of_run_drawing :
    ∃ s r, run { drawing with deck := [plain 2 "B"] } [aAndB] (.ofInts 10000 none) = .ok s ∧
      s.runs[0]? = some r ∧ r.branches.length = 2 ∧ r.successesOf "1+ A IN HAND" = 2 ∧
      r.branches.countP (·.meets "1+ A IN HAND") = 2 ∧ r.successesOf aAndB.text = 1 := by
  have hrun : (run { drawing with deck := [plain 2 "B"] } [aAndB] (.ofInts 10000 none)).map (fun s =>
      s.runs[0]?.map fun r => (r.branches.length, r.branches.countP (·.meets "1+ A IN HAND"),
        r.branches.countP (·.success))) = .ok (some (2, 2, 1)) := by
    decide +kernel
  obtain ⟨s, hs, hruns⟩ := map_eq_ok.1 hrun
  obtain ⟨r, hr, -, hall, hwhole⟩ := successesOf_of_run (i := 0) hs rfl
  obtain ⟨r', hr', hcounts⟩ := Option.map_eq_some_iff.1 hruns
  obtain rfl := Option.some.inj (hr.symm.trans hr')
  obtain ⟨hlength, hcounts⟩ := Prod.mk.inj hcounts
  obtain ⟨htwo, hone⟩ := Prod.mk.inj hcounts
  have hleft := ((hall "1+ A IN HAND").2.2.2.2 (by decide +kernel)).1
  exact ⟨s, r, hs, hr, hlength, hleft.trans htwo, htwo, hwhole.trans hone⟩

/-- **A single hand may count twice** for the text that both sides of a joint have. -/
theorem successesOf_aOrA : ∃ s r, run (holding [plain 0 "A"]) [aOrA] (.ofInts 10000 none) = .ok s ∧
    s.runs[0]? = some r ∧ r.successesOf "1+ A IN HAND" = 2 ∧
    r.branches.countP (·.meets "1+ A IN HAND") = 1 ∧ r.branches.length = 1 := by
  have hrun : (run (holding [plain 0 "A"]) [aOrA] (.ofInts 10000 none)).map (fun s => s.runs[0]?.map fun r =>
      (r.successesOf "1+ A IN HAND", r.branches.countP (·.meets "1+ A IN HAND"), r.branches.length)) =
      .ok (some (2, 1, 1)) := by
    decide +kernel
  obtain ⟨s, hs, hruns⟩ := map_eq_ok.1 hrun
  obtain ⟨r, hr, hcounts⟩ := Option.map_eq_some_iff.1 hruns
  obtain ⟨htwo, hcounts⟩ := Prod.mk.inj hcounts
  obtain ⟨hone, hlength⟩ := Prod.mk.inj hcounts
  exact ⟨s, r, hs, hr, htwo, hone, hlength⟩

end Simulation

end OpeningHand
