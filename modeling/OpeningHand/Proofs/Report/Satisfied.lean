import OpeningHand.Report.Basic
import OpeningHand.Proofs.Condition.Marking
import OpeningHand.Proofs.Search.Truncation

/-!
# Which texts a simulation satisfies

A report knows a node by its text only, and it leaves out the text of a condition that was not met. For what a
search judged this changes nothing: a node whose text is that of the whole condition is the condition itself,
because parts have shorter texts (`Condition.of_mem_satisfied_evaluate`), and it holds only in a hand that meets
it. So the texts that a report counts for a condition are those of the nodes that hold in some judged hand
(`Simulation.mem_satisfiedTexts`).
-/

namespace OpeningHand

/-! ### Nodes that hold -/

namespace Condition

variable {c n : Condition} {hand deck : List Card}

theorem length_text_joint (j : Joint) (a b : Condition) (g : Bool) :
    a.text.length < (Condition.joint j a b g).text.length ∧
      b.text.length < (Condition.joint j a b g).text.length := by
  have hspace : (" " : String).length = 1 := rfl
  cases g <;> simp only [text, Bool.false_eq_true, if_true, if_false, String.length_append, hspace] <;> omega

/-- **A node that holds in the reported pass** is the condition itself, if that is met, or has a shorter text. -/
theorem of_mem_satisfied_evaluate (h : n ∈ (c.evaluate hand deck).satisfied) :
    (n = c ∧ (c.evaluate hand deck).success = true) ∨ n.text.length < c.text.length := by
  obtain ⟨m, -, hroot, hlisting⟩ := exists_marking_evaluate c hand deck
  rw [← hlisting] at h
  rw [← hroot]
  exact m.of_mem_listing (fun n : Condition => n.text.length) length_text_joint h

end Condition

/-- **Every hand that a search judged was judged by its condition.** -/
theorem evaluation_of_search {c : Condition} {caps : Caps} {opening : Board} {found : Found}
    (h : search c caps opening = .ok found) :
    ∀ b ∈ found.branches, b.evaluation = c.evaluate b.board.hand b.board.deck := by
  have hkept : KeptBySearch c (fun _ _ => True) fun f =>
      ∀ b ∈ f.branches, b.evaluation = c.evaluate b.board.hand b.board.deck :=
    { step := fun _ _ => trivial
      warning := fun _ _ => List.forall_mem_nil _
      failed := fun _ => List.forall_mem_nil _
      judged := fun _ _ => List.forall_mem_singleton.2 rfl
      andThen := fun hf hg _ => List.forall_mem_append.2 ⟨hf, hg⟩ }
  exact hkept.search trivial trivial h

/-! ### Satisfied texts -/

/-- Whether some node of a text holds in some judged hand. -/
def ConditionRun.meets (r : ConditionRun) (t : String) : Bool :=
  r.branches.any fun b => b.evaluation.satisfied.any fun n => n.text == t

/-- **A report counts the texts of the nodes that hold in some judged hand.** -/
theorem Simulation.mem_satisfiedTexts {caps : Caps} {opening : Board} {cs : List Condition} {s : Simulation}
    (h : run opening cs caps = .ok s) {r : ConditionRun} (hr : r ∈ s.runs) {t : String} :
    t ∈ Report.satisfiedTexts r ↔ r.meets t = true := by
  obtain ⟨found, hfound, hbranches⟩ := exists_search_of_run h hr
  have hjudged : ∀ b ∈ r.branches, b.evaluation = r.condition.evaluate b.board.hand b.board.deck := by
    rw [hbranches]
    exact evaluation_of_search hfound
  have hmeets : t ∈ (r.branches.flatMap (·.evaluation.satisfied)).map Condition.text ↔ r.meets t = true := by
    simp only [ConditionRun.meets, List.any_eq_true, beq_iff_eq, List.mem_map, List.mem_flatMap]
    constructor
    · rintro ⟨n, ⟨b, hb, hn⟩, htext⟩
      exact ⟨b, hb, n, hn, htext⟩
    · rintro ⟨b, hb, n, hn, htext⟩
      exact ⟨n, ⟨b, hb, hn⟩, htext⟩
  unfold Report.satisfiedTexts
  split
  · exact hmeets
  · rename_i hno
    rw [List.mem_filter, hmeets, and_iff_left_iff_imp, decide_eq_true_iff]
    rintro hmet rfl
    -- the text of the condition itself is satisfied only in a hand that meets it
    simp only [ConditionRun.meets, List.any_eq_true, beq_iff_eq] at hmet
    obtain ⟨b, hb, n, hn, htext⟩ := hmet
    rw [hjudged b hb] at hn
    rcases Condition.of_mem_satisfied_evaluate hn with ⟨-, hsuccess⟩ | hlt
    · refine hno (List.any_eq_true.2 ⟨b, hb, ?_⟩)
      rw [Branch.success, hjudged b hb]
      exact hsuccess
    · exact absurd (congrArg String.length htext) hlt.ne

end OpeningHand
