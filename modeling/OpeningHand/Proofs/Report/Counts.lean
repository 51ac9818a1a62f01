import OpeningHand.Proofs.Condition.RoundTrip
import OpeningHand.Proofs.Number.Quotient
import OpeningHand.Proofs.Report.Satisfied
import OpeningHand.Proofs.Report.Tally
import Mathlib.Algebra.Order.BigOperators.Group.List
import Mathlib.Algebra.Order.Group.Nat

/-!
# What a report counts for its conditions

A report has an entry for each text of a condition, and in it for each path of texts below. The number there is the
sum, over all simulations, of the nodes at the end of the path that are met in some judged hand, in all conditions
of the text (`Report.successes_ofSimulations`).

That is the number of simulations that meet such a node only if no simulation meets two of them, as it is when the
conditions of a simulation have different texts and so have the two sides of each joint. Then no number exceeds
the number of simulations, and no rate of the condition table exceeds one. Otherwise a single simulation may count
twice (`Report.countsTwice_aOrA`).
-/

namespace OpeningHand

open Condition

/-! ### Steps that may stop with a fault -/

section

variable {α β : Type} {f : β → α → Except Fault β} {I : List α → β → Prop} {xs : List α} {b b' : β}

/-- What each step keeps, all of them keep. -/
theorem foldlM_invariant (hstep : ∀ {l x b b'}, I l b → f b x = .ok b' → I (l ++ [x]) b') {before : List α}
    (hb : I before b) (h : xs.foldlM f b = .ok b') : I (before ++ xs) b' := by
  induction xs generalizing before b with
  | nil =>
      obtain rfl := Except.ok.inj h
      rwa [List.append_nil]
  | cons x xs ih =>
      rw [List.foldlM_cons, bind_eq_ok] at h
      obtain ⟨next, hnext, hrest⟩ := h
      rw [List.append_cons]
      exact ih (hstep hb hnext) hrest

/-- A property that each step keeps, whatever came before. -/
theorem foldlM_keeps {P : β → Prop} (hstep : ∀ {x b b'}, P b → f b x = .ok b' → P b') (hb : P b)
    (h : xs.foldlM f b = .ok b') : P b' :=
  @foldlM_invariant α β f (fun _ => P) xs b b' hstep [] hb h

/-- If what the steps keep is enough for the next one, all of them go through. -/
theorem exists_foldlM (hstep : ∀ {l x b b'}, I l b → f b x = .ok b' → I (l ++ [x]) b')
    (hnext : ∀ l x b, l ++ [x] <+: xs → I l b → ∃ b', f b x = .ok b') (hb : I [] b) :
    ∃ b', xs.foldlM f b = .ok b' := by
  suffices h : ∀ rest before b, before ++ rest = xs → I before b → ∃ b', rest.foldlM f b = .ok b' from
    h xs [] b rfl hb
  intro rest
  induction rest with
  | nil => exact fun _ b _ _ => ⟨b, rfl⟩
  | cons x rest ih =>
      intro before b hxs hbefore
      rw [List.append_cons] at hxs
      obtain ⟨next, hone⟩ := hnext before x b ⟨rest, hxs⟩ hbefore
      obtain ⟨b', hrest⟩ := ih (before ++ [x]) next hxs (hstep hbefore hone)
      exact ⟨b', by rw [List.foldlM_cons, hone]; exact hrest⟩

/-- A fault comes from one of the steps. -/
theorem exists_of_foldlM_eq_error {e : Fault} (h : xs.foldlM f b = .error e) : ∃ x ∈ xs, ∃ b, f b x = .error e := by
  induction xs generalizing b with
  | nil => cases h
  | cons x xs ih =>
      rw [List.foldlM_cons, bind_eq_error] at h
      rcases h with hx | ⟨next, -, hrest⟩
      · exact ⟨x, List.mem_cons_self, b, hx⟩
      · obtain ⟨y, hy, hstep⟩ := ih hrest
        exact ⟨y, List.mem_cons_of_mem _ hy, hstep⟩

end

/-! ### The conditions of a report -/

namespace Report

/-- What the condition table of a report depends on. -/
def judgedPart (r : Report) : Nat × Ledger String ConditionStat := (r.iterations, r.conditions)

theorem judgedPart_foldl {α : Type} {f : Report → α → Report} (h : ∀ r x, (f r x).judgedPart = r.judgedPart)
    (l : List α) (r : Report) : (l.foldl f r).judgedPart = r.judgedPart := by
  induction l generalizing r with
  | nil => rfl
  | cons x xs ih => rw [List.foldl_cons, ih, h]

theorem judgedPart_addFreeOfCondition (c : ConditionRun) (r : Report) :
    (addFreeOfCondition c r).judgedPart = r.judgedPart := by
  unfold addFreeOfCondition
  split <;> rfl

theorem judgedPart_addFreeOverall (s : Simulation) (r : Report) :
    (addFreeOverall s r).judgedPart = r.judgedPart := by
  unfold addFreeOverall
  dsimp only
  split <;> rfl

/-- The first steps for a simulation leave the conditions alone. -/
theorem exists_add_eq (s : Simulation) (r : Report) : ∃ r', r'.judgedPart = r.judgedPart ∧
    add s r = s.runs.foldlM (fun r c => addCondition c r) r' := by
  have hrun : ∀ r c, (addFreeOfCondition c (addDrawn c r)).judgedPart = r.judgedPart := fun r c =>
    judgedPart_addFreeOfCondition c (addDrawn c r)
  have hpiles : ∀ r w, (addPiles w r).judgedPart = r.judgedPart := fun _ _ => rfl
  refine ⟨_, ?_, rfl⟩
  rw [judgedPart_foldl hpiles, judgedPart_addFreeOverall, judgedPart_foldl hrun]
  rfl

/-- A condition is credited in the entry of its text. -/
theorem addCondition_eq_ok {c : ConditionRun} {r r' : Report} : addCondition c r = .ok r' ↔
    ∃ stat, ((r.conditions.find? c.condition.text).getD (.zeroFor c.condition)).credit (satisfiedTexts c)
      c.condition = .ok stat ∧
      r' = { r with conditions := r.conditions.adjust c.condition.text stat fun _ => stat } := by
  unfold addCondition
  simp only [bind_eq_ok]
  constructor
  · rintro ⟨stat, hstat, h⟩
    exact ⟨stat, hstat, (Except.ok.inj h).symm⟩
  · rintro ⟨stat, hstat, rfl⟩
    exact ⟨stat, hstat, rfl⟩

/-- What a report keeps, run by run. -/
structure KeptByRuns (I : List ConditionRun → Report → Prop) : Prop where
  congr : ∀ {runs r r'}, I runs r → r'.judgedPart = r.judgedPart → I runs r'
  step : ∀ {runs c r r'}, I runs r → addCondition c r = .ok r' → I (runs ++ [c]) r'

namespace KeptByRuns

variable {I : List ConditionRun → Report → Prop} {before : List ConditionRun} {sims : List Simulation}
  {s : Simulation} {r r' : Report}

/-- **One simulation more.** -/
theorem add (h : KeptByRuns I) (hr : I before r) (hok : Report.add s r = .ok r') : I (before ++ s.runs) r' := by
  obtain ⟨start, hsame, heq⟩ := exists_add_eq s r
  have hstart : I (before ++ []) start := by
    rw [List.append_nil]
    exact h.congr hr hsame
  refine foldlM_invariant (I := fun l r => I (before ++ l) r) (fun hr hok => ?_) hstart (heq ▸ hok)
  rw [← List.append_assoc]
  exact h.step hr hok

/-- A simulation can be added, if each of its runs can be. -/
theorem exists_add (h : KeptByRuns I) (hr : I before r)
    (hnext : ∀ l c r, l ++ [c] <+: before ++ s.runs → I l r → ∃ r', addCondition c r = .ok r') :
    ∃ r', Report.add s r = .ok r' := by
  obtain ⟨start, hsame, heq⟩ := exists_add_eq s r
  have hstart : I (before ++ []) start := by
    rw [List.append_nil]
    exact h.congr hr hsame
  rw [heq]
  refine exists_foldlM (I := fun l r => I (before ++ l) r) (fun hr hok => ?_) (fun l c r hl hr => ?_) hstart
  · rw [← List.append_assoc]
    exact h.step hr hok
  · refine hnext (before ++ l) c r ?_ hr
    rw [List.append_assoc]
    exact (List.prefix_append_right_inj before).2 hl

/-- **What a report keeps, it keeps of all runs.** -/
theorem ofSimulations (h : KeptByRuns I) (hblank : I [] (blank sims.length (sims.countP (·.success))))
    (hok : Report.ofSimulations sims = .ok r) : I (sims.flatMap (·.runs)) r := by
  have hstart : I ([].flatMap Simulation.runs) (blank sims.length (sims.countP (·.success))) := hblank
  refine foldlM_invariant (I := fun l r => I (l.flatMap (·.runs)) r) (fun hr hok => ?_) hstart hok
  rw [List.flatMap_append, List.flatMap_singleton]
  exact h.add hr hok

/-- There is a report, if each run can be added. -/
theorem exists_ofSimulations (h : KeptByRuns I) (hblank : I [] (blank sims.length (sims.countP (·.success))))
    (hnext : ∀ l c r, l ++ [c] <+: sims.flatMap (·.runs) → I l r → ∃ r', addCondition c r = .ok r') :
    ∃ r, Report.ofSimulations sims = .ok r := by
  refine exists_foldlM (I := fun l r => I (l.flatMap (·.runs)) r) (fun hr hok => ?_)
    (fun l s r hl hr => h.exists_add hr fun before c r hbefore => hnext before c r ?_) hblank
  · rw [List.flatMap_append, List.flatMap_singleton]
    exact h.add hr hok
  · obtain ⟨rest, rfl⟩ := hl
    rw [List.flatMap_append, List.flatMap_append, List.flatMap_singleton]
    exact hbefore.trans (List.prefix_append _ _)

end KeptByRuns

/-- The report holds the counts of some runs, as one of so many simulations. -/
def Counts (n : Nat) (runs : List ConditionRun) (r : Report) : Prop :=
  r.iterations = n ∧ Tallies runs r.conditions

namespace Counts

variable {n : Nat} {sims : List Simulation} {r : Report}

theorem kept (n : Nat) : KeptByRuns (Counts n) where
  congr h hsame := by
    obtain ⟨hn, hc⟩ := Prod.mk.inj hsame
    exact ⟨hn.trans h.1, hc.symm ▸ h.2⟩
  step h hok := by
    obtain ⟨stat, hstat, rfl⟩ := addCondition_eq_ok.1 hok
    exact ⟨h.1, h.2.append hstat⟩

/-- **What a report counts.** -/
theorem ofSimulations (h : Report.ofSimulations sims = .ok r) :
    Counts sims.length (sims.flatMap (·.runs)) r :=
  (kept sims.length).ofSimulations ⟨rfl, .nil⟩ h

/-- There is a report, if texts tell the nodes of all conditions apart. -/
theorem exists_ofSimulations (htell : TextsTell (sims.flatMap (·.runs))) :
    ∃ r, Report.ofSimulations sims = .ok r := by
  refine (kept sims.length).exists_ofSimulations ⟨rfl, .nil⟩ fun l c r hl h => ?_
  obtain ⟨stat, hstat⟩ := h.2.exists_credit (htell.mono hl.subset)
  exact ⟨_, addCondition_eq_ok.2 ⟨stat, hstat, rfl⟩⟩

end Counts

/-- The entry of a condition, or of the nodes at the end of a path below it. -/
def entryAt? (r : Report) (t : String) (path : List String) : Option ConditionStat :=
  (r.conditions.find? t).bind (·.at? path)

end Report

/-! ### What a simulation counts -/

namespace Condition

/-- Whether no joint has two sides of the same text. -/
def sidesDiffer : Condition → Bool
  | .leaf _ => true
  | .joint _ a b _ => a.sidesDiffer && b.sidesDiffer && a.text != b.text

theorem nodesAt_le_one {c : Condition} (h : c.sidesDiffer = true) (path : List String) : c.nodesAt path ≤ 1 := by
  induction c generalizing path with
  | leaf l => cases path <;> simp [nodesAt]
  | joint j a b g iha ihb =>
      simp only [sidesDiffer, Bool.and_eq_true, bne_iff_ne] at h
      obtain ⟨⟨ha, hb⟩, hne⟩ := h
      cases path with
      | nil => exact (nodesAt_nil _).le
      | cons t path =>
          have ha := iha ha path
          have hb := ihb hb path
          rw [nodesAt]
          by_cases hta : a.text = t
          · rw [if_pos hta, if_neg fun htb => hne (hta.trans htb.symm)]
            exact ha
          · rw [if_neg hta, Nat.zero_add]
            split
            · exact hb
            · exact Nat.zero_le _

/-- All nodes of a condition that a text can write are such conditions. -/
theorem IsWritable.of_mem_nodes {c n : Condition} (h : c.IsWritable) (hn : n ∈ c.nodes) : n.IsWritable := by
  induction c with
  | leaf l =>
      obtain rfl := List.mem_singleton.1 hn
      exact h
  | joint j a b g iha ihb =>
      have hgroup := h.grouped
      simp only [rightGrouped, Bool.and_eq_true] at hgroup
      rw [nodes, List.mem_cons, List.mem_append] at hn
      rcases hn with rfl | hn | hn
      · exact h
      · exact iha ⟨fun l hl => h.counts l (List.mem_append_left _ hl),
          fun l hl => h.names l (List.mem_append_left _ hl), hgroup.1.1⟩ hn
      · exact ihb ⟨fun l hl => h.counts l (List.mem_append_right _ hl),
          fun l hl => h.names l (List.mem_append_right _ hl), hgroup.1.2⟩ hn

end Condition

/-- Texts tell the nodes of conditions apart that a text can write. -/
theorem textsTell_of_isWritable {runs : List ConditionRun} (h : ∀ c ∈ runs, c.condition.IsWritable) :
    TextsTell runs := by
  rintro m ⟨c, hc, hm⟩ n ⟨d, hd, hn⟩ htext
  exact ((h c hc).of_mem_nodes hm).eq_of_text_eq ((h d hd).of_mem_nodes hn) htext

namespace Simulation

/-- How many nodes at the end of a path below the conditions of a text hold in some hand judged for their
condition. -/
def timesMet (s : Simulation) (t : String) (path : List String) : Nat :=
  (s.runs.map fun r =>
    if r.condition.text = t ∧ r.meets (path.getLastD t) = true then r.condition.nodesAt path else 0).sum

/-- Whether some node at the end of a path below a condition of a text holds in some hand judged for that
condition. -/
def meetsAt (s : Simulation) (t : String) (path : List String) : Bool :=
  s.runs.any fun r =>
    r.condition.text == t && r.condition.nodesAt path != 0 && r.meets (path.getLastD t)

/-- The conditions of a simulation have different texts, and so have the sides of each joint in them. -/
structure TextsDiffer (s : Simulation) : Prop where
  conditions : (s.runs.map (·.condition.text)).Nodup
  sides : ∀ r ∈ s.runs, r.condition.sidesDiffer = true

variable {s : Simulation} {t : String} {path : List String}

theorem meetsAt_iff : s.meetsAt t path = true ↔ s.timesMet t path ≠ 0 := by
  simp only [meetsAt, timesMet, List.any_eq_true, Bool.and_eq_true, beq_iff_eq, bne_iff_ne, ne_eq,
    List.sum_eq_zero_iff, List.forall_mem_map, ite_eq_right_iff, not_forall]
  constructor
  · rintro ⟨r, hr, ⟨htext, hnodes⟩, hmeets⟩
    exact ⟨r, hr, ⟨htext, hmeets⟩, hnodes⟩
  · rintro ⟨r, hr, ⟨htext, hmeets⟩, hnodes⟩
    exact ⟨r, hr, ⟨htext, hnodes⟩, hmeets⟩

/-- **If no texts are equal, no node is counted twice.** -/
theorem TextsDiffer.timesMet_le_one (h : s.TextsDiffer) (t : String) (path : List String) :
    s.timesMet t path ≤ 1 := by
  have hcount : s.timesMet t path ≤ (s.runs.map (·.condition.text)).count t := by
    have hsides := h.sides
    unfold timesMet
    generalize s.runs = runs at hsides ⊢
    induction runs with
    | nil => exact Nat.le_refl 0
    | cons r rs ih =>
        have hrest := ih fun r' hr' => hsides r' (List.mem_cons_of_mem _ hr')
        have hone := nodesAt_le_one (hsides r List.mem_cons_self) path
        rw [List.map_cons, List.sum_cons, List.map_cons, List.count_cons]
        by_cases ht : r.condition.text = t
        · rw [if_pos (beq_iff_eq.2 ht)]
          split <;> omega
        · rw [if_neg fun hmet => ht hmet.1]
          omega
  exact hcount.trans (List.nodup_iff_count_le_one.1 h.conditions t)

theorem conditions_of_runFrom {caps : Caps} {opening : Board} {i : Nat} {cs : List Condition}
    {runs : List ConditionRun} {log : List String} (h : runFrom caps opening i cs = .ok (runs, log)) :
    runs.map (·.condition) = cs := by
  induction cs generalizing i runs log with
  | nil =>
      obtain ⟨rfl, rfl⟩ := Prod.mk.inj (Except.ok.inj h)
      rfl
  | cons c cs ih =>
      obtain ⟨found, runs', log', -, hrest, rfl, rfl⟩ := runFrom_cons h
      exact congrArg (c :: ·) (ih hrest)

theorem conditions_of_run {caps : Caps} {opening : Board} {cs : List Condition}
    (h : run opening cs caps = .ok s) : s.runs.map (·.condition) = cs := by
  obtain ⟨⟨runs, log⟩, hruns, h⟩ := bind_eq_ok.1 h
  obtain rfl := Except.ok.inj h
  exact conditions_of_runFrom hruns

/-- The conditions of a simulation that was run were read from texts, if the ones given were. -/
theorem exists_written_of_run {caps : Caps} {opening : Board} {cs : List Condition} (h : run opening cs caps = .ok s)
    (hcs : ∀ c ∈ cs, ∃ written, ofText written = .ok c) {r : ConditionRun} (hr : r ∈ s.runs) :
    ∃ written, ofText written = .ok r.condition :=
  hcs r.condition (conditions_of_run h ▸ List.mem_map_of_mem hr)

theorem TextsDiffer.of_run {caps : Caps} {opening : Board} {cs : List Condition}
    (h : run opening cs caps = .ok s) (hcs : (cs.map Condition.text).Nodup)
    (hsides : ∀ c ∈ cs, c.sidesDiffer = true) : s.TextsDiffer where
  conditions := by
    rw [← conditions_of_run h, List.map_map] at hcs
    exact hcs
  sides r hr := hsides r.condition (conditions_of_run h ▸ List.mem_map_of_mem hr)

/-- What is counted for a simulation that was run. -/
theorem countOf_runs {caps : Caps} {opening : Board} {cs : List Condition} (h : run opening cs caps = .ok s)
    (t : String) (path : List String) : countOf s.runs t path = s.timesMet t path := by
  unfold countOf timesMet
  congr 1
  refine List.map_congr_left fun r hr => ?_
  by_cases htext : r.condition.text = t
  · subst htext
    simp only [if_true, true_and, credits, mem_satisfiedTexts h hr]
  · rw [if_neg htext, if_neg fun hmet => htext hmet.1]

end Simulation

/-! ### The counts of a report -/

section

variable {α : Type} {f : α → Nat} {p : α → Bool}

theorem countP_le_sum (hp : ∀ x, p x = true ↔ f x ≠ 0) (l : List α) : l.countP p ≤ (l.map f).sum := by
  induction l with
  | nil => exact Nat.le_refl 0
  | cons x xs ih =>
      rw [List.map_cons, List.sum_cons, List.countP_cons]
      by_cases hx : p x = true
      · have hne := (hp x).1 hx
        rw [if_pos hx]
        omega
      · rw [if_neg hx]
        omega

/-- Numbers add up to the number of those that are not zero exactly if none is more than one. -/
theorem sum_eq_countP_iff (hp : ∀ x, p x = true ↔ f x ≠ 0) (l : List α) :
    (l.map f).sum = l.countP p ↔ ∀ x ∈ l, f x ≤ 1 := by
  induction l with
  | nil => simp
  | cons x xs ih =>
      have hle := countP_le_sum hp xs
      rw [List.map_cons, List.sum_cons, List.countP_cons, List.forall_mem_cons, ← ih]
      by_cases hx : p x = true
      · have hne := (hp x).1 hx
        rw [if_pos hx]
        omega
      · have hzero : f x = 0 := not_not.1 fun hne => hx ((hp x).2 hne)
        rw [if_neg hx, hzero]
        omega

theorem sum_le_mul_countP (hp : ∀ x, p x = true ↔ f x ≠ 0) {l : List α} {n : Nat} (h : ∀ x ∈ l, f x ≤ n) :
    (l.map f).sum ≤ n * l.countP p := by
  induction l with
  | nil => exact Nat.zero_le _
  | cons x xs ih =>
      obtain ⟨hx, hrest⟩ := List.forall_mem_cons.1 h
      have hsum := ih hrest
      rw [List.map_cons, List.sum_cons, List.countP_cons, Nat.mul_add]
      by_cases hpx : p x = true
      · rw [if_pos hpx]
        omega
      · have hzero : f x = 0 := not_not.1 fun hne => hpx ((hp x).2 hne)
        rw [hzero]
        omega

end

namespace Report

variable {sims : List Simulation}

theorem countOf_flatMap (hrun : ∀ s ∈ sims, ∃ opening cs caps, Simulation.run opening cs caps = .ok s)
    (t : String) (path : List String) :
    countOf (sims.flatMap (·.runs)) t path = (sims.map (·.timesMet t path)).sum := by
  induction sims with
  | nil => rfl
  | cons s sims ih =>
      obtain ⟨opening, cs, caps, hs⟩ := hrun s List.mem_cons_self
      have hrest := ih fun s' hs' => hrun s' (List.mem_cons_of_mem _ hs')
      rw [List.map_cons, List.sum_cons, ← hrest, ← Simulation.countOf_runs hs]
      simp [countOf]

variable {n : Nat} {runs : List ConditionRun} {r : Report}

/-- The entries of a report are those of its conditions, with the counts of their texts. -/
theorem Counts.successes_eq (h : Counts n runs r) {t : String} {path : List String}
    {stat : ConditionStat} (hstat : r.entryAt? t path = some stat) : stat.successes = countOf runs t path := by
  obtain ⟨top, htop, hpath⟩ := Option.bind_eq_some_iff.1 hstat
  obtain ⟨c, -, -, rfl⟩ := h.2.entry t top htop
  exact (ConditionStat.successes_at? hpath).2

/-- Every node has an entry, if texts tell the nodes of all conditions apart. -/
theorem Counts.exists_entryAt? (h : Counts n runs r) (htell : TextsTell runs) {c : ConditionRun}
    (hc : c ∈ runs) {path : List String} (hnodes : c.condition.nodesAt path ≠ 0) :
    ∃ stat, r.entryAt? c.condition.text path = some stat := by
  obtain ⟨top, htop⟩ := h.2.found c hc
  obtain ⟨d, hd, htext, rfl⟩ := h.2.entry _ top htop
  rw [← htell.condition_eq hd hc htext] at hnodes
  obtain ⟨stat, hstat⟩ := ConditionStat.exists_at? (htell.injOn hd) hnodes
  exact ⟨stat, by rw [entryAt?, htop]; exact hstat⟩

/-- **There is a report on conditions that were read from texts.** -/
theorem exists_ofSimulations_of_ofText
    (hread : ∀ s ∈ sims, ∀ c ∈ s.runs, ∃ written, ofText written = .ok c.condition) :
    ∃ r, ofSimulations sims = .ok r := by
  refine Counts.exists_ofSimulations (textsTell_of_isWritable fun c hc => ?_)
  obtain ⟨s, hs, hc⟩ := List.mem_flatMap.1 hc
  obtain ⟨written, hwritten⟩ := hread s hs c hc
  exact isWritable_of_ofText hwritten

/-- **Each row of the condition table is about an entry.** -/
theorem Counts.exists_of_mem_conditionTable (h : Counts n runs r) {row : ConditionRow}
    (hrow : row ∈ r.conditionTable) : ∃ t path stat, r.entryAt? t path = some stat ∧
      row = ⟨path.getLastD t, path.length, stat.successes, r.rate stat.successes⟩ := by
  obtain ⟨⟨t, top⟩, htop, hrow⟩ := List.mem_flatMap.1 hrow
  have hfind : r.conditions.find? t = some top := Ledger.find?_of_mem h.2.keys htop
  obtain ⟨c, -, -, rfl⟩ := h.2.entry t top hfind
  obtain ⟨path, stat, hstat, rfl⟩ := ConditionStat.of_mem_conditionRows hrow
  refine ⟨t, path, stat, ?_, by rw [Nat.zero_add]⟩
  rw [entryAt?, hfind]
  exact hstat

/-- **What the entries of conditions count.** If texts tell the nodes of all conditions apart, there is a report, and
it has an entry for every node. Whenever there is one, each entry holds the number of nodes at its place that are met,
simulation by simulation. It is the number of simulations that meet such a node if and only if none of them meets
two. The rows of the condition table are about these entries. If neither two conditions of a simulation nor two sides
of a joint have the same text, every number is one of simulations, and no rate exceeds one. -/
theorem successes_ofSimulations
    (hrun : ∀ s ∈ sims, ∃ opening cs caps, Simulation.run opening cs caps = .ok s) :
    (TextsTell (sims.flatMap (·.runs)) →
      ∃ r, ofSimulations sims = .ok r ∧ ∀ c ∈ sims.flatMap (·.runs), ∀ path,
        c.condition.nodesAt path ≠ 0 → ∃ stat, r.entryAt? c.condition.text path = some stat) ∧
    ∀ r, ofSimulations sims = .ok r → r.iterations = sims.length ∧
      (∀ t path stat, r.entryAt? t path = some stat →
        stat.successes = (sims.map (·.timesMet t path)).sum ∧
        (stat.successes = sims.countP (·.meetsAt t path) ↔ ∀ s ∈ sims, s.timesMet t path ≤ 1)) ∧
      (∀ row ∈ r.conditionTable, ∃ t path stat, r.entryAt? t path = some stat ∧
        row = ⟨path.getLastD t, path.length, stat.successes, r.rate stat.successes⟩) ∧
      ((∀ s ∈ sims, s.TextsDiffer) →
        (∀ t path stat, r.entryAt? t path = some stat →
          stat.successes = sims.countP (·.meetsAt t path) ∧ stat.successes ≤ r.iterations) ∧
        ∀ row ∈ r.conditionTable, (row.rate.compareNat? 1).any (·.isLE) = true) := by
  refine ⟨fun htell => ?_, fun r hr => ?_⟩
  · obtain ⟨r, hr⟩ := Counts.exists_ofSimulations htell
    exact ⟨r, hr, fun c hc path hnodes => (Counts.ofSimulations hr).exists_entryAt? htell hc hnodes⟩
  · have hcounts := Counts.ofSimulations hr
    have hsum : ∀ t path stat, r.entryAt? t path = some stat →
        stat.successes = (sims.map (·.timesMet t path)).sum := fun t path stat hstat =>
      (hcounts.successes_eq hstat).trans (countOf_flatMap hrun t path)
    have hone : ∀ t path stat, r.entryAt? t path = some stat →
        (stat.successes = sims.countP (·.meetsAt t path) ↔ ∀ s ∈ sims, s.timesMet t path ≤ 1) :=
      fun t path stat hstat => by
        rw [hsum t path stat hstat]
        exact sum_eq_countP_iff (fun _ => Simulation.meetsAt_iff) sims
    have hdiffer : (∀ s ∈ sims, s.TextsDiffer) → ∀ t path stat, r.entryAt? t path = some stat →
        stat.successes = sims.countP (·.meetsAt t path) ∧ stat.successes ≤ r.iterations := by
      intro htexts t path stat hstat
      have heq := (hone t path stat hstat).2 fun s hs => (htexts s hs).timesMet_le_one t path
      refine ⟨heq, ?_⟩
      rw [heq, hcounts.1]
      exact List.countP_le_length
    refine ⟨hcounts.1, fun t path stat hstat => ⟨hsum t path stat hstat, hone t path stat hstat⟩,
      fun row => hcounts.exists_of_mem_conditionTable, fun htexts => ⟨hdiffer htexts, fun row hrow => ?_⟩⟩
    obtain ⟨t, path, stat, hstat, rfl⟩ := hcounts.exists_of_mem_conditionTable hrow
    have hle := (hdiffer htexts t path stat hstat).2
    exact Number.Binary64.compareNat?_quotient (by omega) (by omega)

open Simulation (plain targets)

/-- A condition with two sides. -/
def aAndB : Condition :=
  .joint .and (.leaf ⟨"A", 1, .atLeast, .hand⟩) (.leaf ⟨"B", 1, .atLeast, .hand⟩) false

/-- A condition whose sides have the same text. -/
def aOrA : Condition :=
  .joint .or (.leaf ⟨"A", 1, .atLeast, .hand⟩) (.leaf ⟨"A", 1, .atLeast, .hand⟩) false

/-- An opening board with some cards in the hand and an empty deck. -/
def holding (hand : List Card) : Board := ⟨[], hand, [], [], []⟩

/-- One opening hand meets the whole condition, and both hold what its left side asks for. -/
theorem successes_ofSimulations_two :
    ∃ s s' r, Simulation.run (holding [plain 0 "A", plain 1 "B"]) [aAndB] (.ofInts 10000 none) = .ok s ∧
      Simulation.run (holding [plain 0 "A"]) [aAndB] (.ofInts 10000 none) = .ok s' ∧
      ofSimulations [s, s'] = .ok r ∧ r.iterations = 2 ∧
      (∃ stat, r.entryAt? aAndB.text [] = some stat ∧ stat.successes = 1) ∧
      (∃ stat, r.entryAt? aAndB.text ["1+ A IN HAND"] = some stat ∧ stat.successes = 2) ∧
      ∀ row ∈ r.conditionTable, (row.rate.compareNat? 1).any (·.isLE) = true := by
  have hrun : (Simulation.run (holding [plain 0 "A", plain 1 "B"]) [aAndB] (.ofInts 10000 none)).map
      (fun s => (s.meetsAt aAndB.text [], s.meetsAt aAndB.text ["1+ A IN HAND"])) = .ok (true, true) := by
    decide +kernel
  have hrun' : (Simulation.run (holding [plain 0 "A"]) [aAndB] (.ofInts 10000 none)).map
      (fun s => (s.meetsAt aAndB.text [], s.meetsAt aAndB.text ["1+ A IN HAND"])) = .ok (false, true) := by
    decide +kernel
  obtain ⟨s, hs, hmeets⟩ := map_eq_ok.1 hrun
  obtain ⟨s', hs', hmeets'⟩ := map_eq_ok.1 hrun'
  obtain ⟨hwhole, hleft⟩ := Prod.mk.inj hmeets
  obtain ⟨hwhole', hleft'⟩ := Prod.mk.inj hmeets'
  obtain ⟨c, hc, hcond⟩ := List.map_eq_singleton_iff.1 (Simulation.conditions_of_run hs)
  obtain ⟨c', hc', hcond'⟩ := List.map_eq_singleton_iff.1 (Simulation.conditions_of_run hs')
  have hruns : [s, s'].flatMap (·.runs) = [c, c'] := by simp [hc, hc']
  have hdiffer : ∀ {b s}, Simulation.run b [aAndB] (.ofInts 10000 none) = .ok s → s.TextsDiffer :=
    fun h => .of_run h (List.nodup_singleton _) (by decide +kernel)
  have hran : ∀ s'' ∈ [s, s'], ∃ opening cs caps, Simulation.run opening cs caps = .ok s'' :=
    List.forall_mem_cons.2 ⟨⟨_, _, _, hs⟩, List.forall_mem_singleton.2 ⟨_, _, _, hs'⟩⟩
  obtain ⟨hexists, hall⟩ := successes_ofSimulations hran
  have hwritable : ∀ d ∈ [c, c'], d.condition.IsWritable := by
    rw [List.forall_mem_cons, List.forall_mem_singleton, hcond, hcond']
    decide +kernel
  rw [hruns] at hexists
  obtain ⟨r, hr, hentries⟩ := hexists (textsTell_of_isWritable hwritable)
  obtain ⟨hiterations, -, -, hplain⟩ := hall r hr
  obtain ⟨hcount, hrates⟩ := hplain
    (List.forall_mem_cons.2 ⟨hdiffer hs, List.forall_mem_singleton.2 (hdiffer hs')⟩)
  have hentry : ∀ path, aAndB.nodesAt path ≠ 0 → ∃ stat, r.entryAt? aAndB.text path = some stat :=
    hcond ▸ hentries c List.mem_cons_self
  obtain ⟨whole, hw⟩ := hentry [] (by decide +kernel)
  obtain ⟨left, hl⟩ := hentry ["1+ A IN HAND"] (by decide +kernel)
  refine ⟨s, s', r, hs, hs', hr, hiterations, ⟨whole, hw, ?_⟩, ⟨left, hl, ?_⟩, hrates⟩
  · rw [(hcount _ _ _ hw).1]
    simp [hwhole, hwhole']
  · rw [(hcount _ _ _ hl).1]
    simp [hleft, hleft']

/-- A single simulation meets the nodes at the end of a path and counts them twice, so that some rate is above
one. -/
def CountsTwice (opening : Board) (cs : List Condition) (t : String) (path : List String) : Prop :=
  ∃ s r stat, Simulation.run opening cs (.ofInts 10000 none) = .ok s ∧ s.meetsAt t path = true ∧
    ofSimulations [s] = .ok r ∧ r.iterations = 1 ∧ r.entryAt? t path = some stat ∧ stat.successes = 2 ∧
    ∃ row ∈ r.conditionTable, row.rate.compareNat? 1 = some .gt

theorem countsTwice {opening : Board} {cs : List Condition} {t : String} {path : List String}
    (h : (do
      let s ← Simulation.run opening cs (.ofInts 10000 none)
      let r ← ofSimulations [s]
      pure (s.meetsAt t path, r.iterations, (r.entryAt? t path).map ConditionStat.successes,
        r.conditionTable.any fun row => row.rate.compareNat? 1 = some Ordering.gt) :
        Except Fault (Bool × Nat × Option Nat × Bool)) = .ok (true, 1, some 2, true)) :
    CountsTwice opening cs t path := by
  obtain ⟨s, hs, h⟩ := bind_eq_ok.1 h
  obtain ⟨r, hr, h⟩ := bind_eq_ok.1 h
  obtain ⟨hmeets, h⟩ := Prod.mk.inj (Except.ok.inj h)
  obtain ⟨hone, h⟩ := Prod.mk.inj h
  obtain ⟨hentry, hrow⟩ := Prod.mk.inj h
  obtain ⟨stat, hstat, htwo⟩ := Option.map_eq_some_iff.1 hentry
  obtain ⟨row, hrow, hrate⟩ := List.any_eq_true.1 hrow
  exact ⟨s, r, stat, hs, hmeets, hr, hone, hstat, htwo, row, hrow, of_decide_eq_true hrate⟩

/-- **A count may exceed the number of simulations.** A joint whose sides have the same text counts a single opening
hand twice for them, and so does a condition that is listed twice. -/
theorem countsTwice_aOrA : CountsTwice (holding [plain 0 "A"]) [aOrA] aOrA.text ["1+ A IN HAND"] ∧
    CountsTwice (holding [plain 0 "T"]) [targets 1, targets 1] (targets 1).text [] :=
  ⟨countsTwice (by decide +kernel), countsTwice (by decide +kernel)⟩

end Report

end OpeningHand
