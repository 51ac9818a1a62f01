import OpeningHand.Condition.Tree
import OpeningHand.Proofs.Report.Counts

/-!
# When there is a report

A report makes one entry for a text, from the first condition that has it, and credits all conditions of the text in
this entry, along their own trees. That needs an entry for each of their nodes, and so the question whether there is a
report comes down to pairs of conditions: of those that share a text, the first must have an entry at the end of each
path of texts that the other has a node at (`Condition.Covers`). Nothing else can stop a report, but for tags that
cannot be keys (`Report.exists_ofTrials_iff`).

A condition covers itself unless texts mislead in it, and conditions that can be written as texts are told by them. But
a text does not show how the right sides of a document are grouped, so a condition that was read from a document may
share its text with one of another shape. Then it depends on the shapes whether there is a report
(`Report.ofSimulations_unlike`).
-/

namespace OpeningHand

open Condition

/-! ### Entries that have room for a condition -/

namespace Condition

/-- An entry that was made for one condition has an entry for each node of another. -/
def Covers (d c : Condition) : Prop :=
  ∀ path, c.nodesAt path ≠ 0 → ((ConditionStat.zeroFor d).at? path).isSome = true

/-- The side of a joint that the entry of a text is made for. -/
def sideAt? (a b : Condition) (t : String) : Option Condition :=
  if b.text = t then some b else if a.text = t then some a else none

theorem find?_sideEntries_eq (a b : Condition) (f : String → List String → Nat) (t : String) :
    Ledger.find? (a.sideEntries b f) t = (a.sideAt? b t).map fun c => c.entry (f t) := by
  unfold sideEntries sideAt? Ledger.find?
  by_cases hb : b.text = t
  · subst hb
    by_cases hab : a.text = b.text <;> simp [hab]
  · by_cases ha : a.text = t
    · subst ha
      simp [hb, Ne.symm hb]
    · by_cases hab : a.text = b.text <;> simp [hab, ha, hb]

theorem covers_leaf (d : Condition) (l : Leaf) : d.Covers (.leaf l) := by
  intro path hnodes
  cases path with
  | nil => rfl
  | cons t path => exact absurd rfl hnodes

theorem not_leaf_covers_joint (l : Leaf) (j : Joint) (a b : Condition) (grouped : Bool) :
    ¬ (Condition.leaf l).Covers (.joint j a b grouped) := by
  intro h
  have hside : (Condition.joint j a b grouped).nodesAt [a.text] ≠ 0 :=
    nodesAt_joint_ne_zero.2 (Or.inl ⟨rfl, by rw [nodesAt_nil]; exact one_ne_zero⟩)
  cases h [a.text] hside

theorem isSome_at?_joint (j : Joint) (a b : Condition) (grouped : Bool) (t : String) (path : List String) :
    ((ConditionStat.zeroFor (.joint j a b grouped)).at? (t :: path)).isSome = true ↔
      ∃ side ∈ a.sideAt? b t, ((ConditionStat.zeroFor side).at? path).isSome = true := by
  simp only [zeroFor_eq]
  rw [ConditionStat.at?_joint, find?_sideEntries_eq]
  cases a.sideAt? b t with
  | none => simp
  | some side => simp

/-- A joint is covered by a joint each side of which is. -/
theorem joint_covers_joint {j j' : Joint} {a b a' b' : Condition} {grouped grouped' : Bool} :
    (Condition.joint j' a' b' grouped').Covers (.joint j a b grouped) ↔
      (∃ side ∈ a'.sideAt? b' a.text, side.Covers a) ∧ ∃ side ∈ a'.sideAt? b' b.text, side.Covers b := by
  have hside : ∀ c : Condition, (∀ path, c.nodesAt path ≠ 0 →
      ((ConditionStat.zeroFor (.joint j' a' b' grouped')).at? (c.text :: path)).isSome = true) ↔
        ∃ side ∈ a'.sideAt? b' c.text, side.Covers c := by
    intro c
    simp only [isSome_at?_joint]
    constructor
    · intro h
      obtain ⟨side, hside, -⟩ := h [] (by rw [nodesAt_nil]; exact one_ne_zero)
      refine ⟨side, hside, fun path hnodes => ?_⟩
      obtain ⟨side', hside', hsome⟩ := h path hnodes
      rwa [Option.mem_unique hside hside']
    · rintro ⟨side, hside, h⟩ path hnodes
      exact ⟨side, hside, h path hnodes⟩
  rw [← hside a, ← hside b]
  constructor
  · intro h
    exact ⟨fun path hnodes => h _ (nodesAt_joint_ne_zero.2 (Or.inl ⟨rfl, hnodes⟩)),
      fun path hnodes => h _ (nodesAt_joint_ne_zero.2 (Or.inr ⟨rfl, hnodes⟩))⟩
  · rintro ⟨ha, hb⟩ path hnodes
    cases path with
    | nil => rfl
    | cons t path =>
        rcases nodesAt_joint_ne_zero.1 hnodes with ⟨rfl, hside⟩ | ⟨rfl, hside⟩
        · exact ha path hside
        · exact hb path hside

end Condition

namespace ConditionStat

variable {texts : List String}

/-- **Crediting goes through exactly if the entry was made for a condition that covers the one that is credited.** -/
theorem exists_credit_iff {c d : Condition} {f : List String → Nat} :
    (∃ stat, credit texts c (d.entry f) = .ok stat) ↔ d.Covers c := by
  induction c generalizing d f with
  | leaf l =>
      refine ⟨fun _ => covers_leaf d l, fun _ => ?_⟩
      cases d <;> exact ⟨_, rfl⟩
  | joint j a b grouped iha ihb =>
      cases d with
      | leaf l =>
          refine ⟨?_, fun h => absurd h (not_leaf_covers_joint l j a b grouped)⟩
          rintro ⟨stat, hstat⟩
          cases hstat
      | joint j' a' b' grouped' =>
          rw [joint_covers_joint, entry_joint]
          simp only [credit_joint_eq_ok, sideFor_eq_ok]
          constructor
          · rintro ⟨stat, before, left, hbefore, hleft, before', right, hbefore', hright, -⟩
            rw [replace_credit eq_of_credit (sideFor_eq_ok.2 hbefore) hleft, find?_sideEntries_eq] at hbefore'
            rw [find?_sideEntries_eq] at hbefore
            obtain ⟨side, hside, rfl⟩ := Option.map_eq_some_iff.1 hbefore
            obtain ⟨side', hside', rfl⟩ := Option.map_eq_some_iff.1 hbefore'
            exact ⟨⟨side, hside, iha.1 ⟨left, hleft⟩⟩, side', hside', ihb.1 ⟨right, hright⟩⟩
          · rintro ⟨⟨side, hside, hcovers⟩, side', hside', hcovers'⟩
            have hbefore : Ledger.find? (a'.sideEntries b' fun t path => f (t :: path)) a.text
                = some (side.entry fun path => f (a.text :: path)) := by
              rw [find?_sideEntries_eq, hside, Option.map_some]
            obtain ⟨left, hleft⟩ := (iha (f := fun path => f (a.text :: path))).2 hcovers
            -- the left side is credited, and the right one finds its entry with other counts
            obtain ⟨right, hright⟩ := (ihb (f := fun path =>
              f (b.text :: path) + if a.text = b.text then a.credits texts path else 0)).2 hcovers'
            refine ⟨_, _, left, hbefore, hleft, _, right, ?_, hright, rfl⟩
            rw [replace_credit eq_of_credit (sideFor_eq_ok.2 hbefore) hleft, find?_sideEntries_eq, hside',
              Option.map_some]

end ConditionStat

/-- Crediting can only fail for an entry that is missing. -/
theorem ConditionStat.credit_eq_error {texts : List String} {c : Condition} {stat : ConditionStat} {f : Fault}
    (h : credit texts c stat = .error f) : ∃ t, f = .missingKey (.text t) := by
  have hside : ∀ {t sides f}, sideFor t sides = .error f → ∃ t, f = .missingKey (.text t) := by
    intro t sides f h
    unfold sideFor at h
    split at h
    · cases h
    · exact ⟨t, (Except.error.inj h).symm⟩
  induction c generalizing stat f with
  | leaf l =>
      cases stat
      cases h
  | joint j a b grouped iha ihb =>
      obtain ⟨n, sides⟩ := stat
      cases sides with
      | none => exact ⟨_, (Except.error.inj h).symm⟩
      | some sides =>
          simp only [credit, bind_eq_error] at h
          rcases h with h | ⟨before, -, h | ⟨left, -, h | ⟨before', -, h | ⟨right, -, h⟩⟩⟩⟩
          · exact hside h
          · exact iha h
          · exact hside h
          · exact ihb h
          · cases h

/-! ### The first condition of each text -/

/-- The first run for a condition of a text. -/
def firstOf (runs : List ConditionRun) (t : String) : Option ConditionRun := runs.find? fun c => c.condition.text == t

/-- The first condition of its text covers the condition of a run. -/
def Fits (runs : List ConditionRun) (c : ConditionRun) : Prop :=
  ∀ d ∈ firstOf runs c.condition.text, d.condition.Covers c.condition

section

variable {runs more : List ConditionRun} {c : ConditionRun} {t : String}

theorem firstOf_append_of_mem (hc : c ∈ runs) (more : List ConditionRun) :
    firstOf (runs ++ more) c.condition.text = firstOf runs c.condition.text := by
  have hsome : (firstOf runs c.condition.text).isSome := List.find?_isSome.2 ⟨c, hc, beq_self_eq_true _⟩
  obtain ⟨d, hd⟩ := Option.isSome_iff_exists.1 hsome
  rw [firstOf, List.find?_append, ← firstOf, hd, Option.some_or]

theorem firstOf_append_singleton : firstOf (runs ++ [c]) t =
    (firstOf runs t).or (if c.condition.text = t then some c else none) := by
  rw [firstOf, List.find?_append, ← firstOf]
  by_cases h : c.condition.text = t <;> simp [h]

theorem Fits.append (h : Fits runs c) (hc : c ∈ runs) : Fits (runs ++ more) c := by
  rwa [Fits, firstOf_append_of_mem hc]

theorem Fits.of_append (h : Fits (runs ++ more) c) (hc : c ∈ runs) : Fits runs c := by
  rwa [Fits, firstOf_append_of_mem hc] at h

end

namespace Report

/-- Each entry was made for the first condition of its text, and covers the others. -/
structure Shaped (runs : List ConditionRun) (r : Report) : Prop where
  entry : ∀ t, ∃ f, r.conditions.find? t = (firstOf runs t).map fun c => c.condition.entry f
  fits : ∀ c ∈ runs, Fits runs c

namespace Shaped

variable {runs : List ConditionRun} {c : ConditionRun} {r r' : Report}

/-- The entry to be credited was made for the first condition of the text, the new one included. -/
theorem exists_entry (h : Shaped runs r) (c : ConditionRun) :
    ∃ d f, firstOf (runs ++ [c]) c.condition.text = some d ∧
      (r.conditions.find? c.condition.text).getD (.zeroFor c.condition) = d.condition.entry f := by
  obtain ⟨f, hf⟩ := h.entry c.condition.text
  rw [firstOf_append_singleton, if_pos rfl, hf]
  cases firstOf runs c.condition.text with
  | none => exact ⟨c, _, rfl, zeroFor_eq _⟩
  | some d => exact ⟨d, f, rfl, rfl⟩

/-- **A run can be added exactly if the first condition of its text covers its own.** -/
theorem exists_addCondition_iff (h : Shaped runs r) : (∃ r', addCondition c r = .ok r') ↔ Fits (runs ++ [c]) c := by
  obtain ⟨d, f, hd, hentry⟩ := h.exists_entry c
  have hcredit : (∃ stat, (d.condition.entry f).credit (satisfiedTexts c) c.condition = .ok stat) ↔
      d.condition.Covers c.condition := ConditionStat.exists_credit_iff
  rw [Fits, hd]
  simp only [Option.mem_some_iff, forall_eq', ← hcredit, addCondition_eq_ok, hentry]
  constructor
  · rintro ⟨r', stat, hstat, -⟩
    exact ⟨stat, hstat⟩
  · rintro ⟨stat, hstat⟩
    exact ⟨_, stat, hstat, rfl⟩

theorem addCondition (h : Shaped runs r) (hok : Report.addCondition c r = .ok r') : Shaped (runs ++ [c]) r' := by
  have hfits := h.exists_addCondition_iff.1 ⟨r', hok⟩
  obtain ⟨d, f, hd, hentry⟩ := h.exists_entry c
  obtain ⟨stat, hstat, rfl⟩ := addCondition_eq_ok.1 hok
  rw [hentry] at hstat
  refine ⟨fun t => ?_, fun c' hc' => ?_⟩
  · simp only [Ledger.find?_adjust]
    split
    · rename_i ht
      rw [ht, hd, ConditionStat.eq_of_credit hstat]
      exact ⟨_, rfl⟩
    · rename_i ht
      rw [firstOf_append_singleton, if_neg (Ne.symm ht), Option.or_none]
      exact h.entry t
  · rcases List.mem_append.1 hc' with hc' | hc'
    · exact (h.fits c' hc').append hc'
    · obtain rfl := List.mem_singleton.1 hc'
      exact hfits

theorem kept : KeptByRuns Shaped where
  congr h hsame := by
    obtain ⟨-, hc⟩ := Prod.mk.inj hsame
    exact ⟨hc.symm ▸ h.entry, h.fits⟩
  step := addCondition

theorem blank (n successes : Nat) : Shaped [] (blank n successes) := ⟨fun _ => ⟨fun _ => 0, rfl⟩, by simp⟩

end Shaped

variable {sims : List Simulation}

/-- **There is a report exactly if every condition is covered by the first one of its text.** -/
theorem exists_ofSimulations_iff : (∃ r, ofSimulations sims = .ok r) ↔
    ∀ c ∈ sims.flatMap (·.runs), Fits (sims.flatMap (·.runs)) c := by
  constructor
  · rintro ⟨r, hr⟩
    exact (Shaped.kept.ofSimulations (Shaped.blank _ _) hr).fits
  · intro h
    refine Shaped.kept.exists_ofSimulations (Shaped.blank _ _) fun l c r hl hr => hr.exists_addCondition_iff.2 ?_
    have hc : c ∈ l ++ [c] := List.mem_append_right _ (List.mem_singleton_self c)
    have hfits := h c (hl.subset hc)
    obtain ⟨rest, hrest⟩ := hl
    rw [← hrest] at hfits
    exact hfits.of_append hc

theorem ofSimulations_eq_error {f : Fault} (h : ofSimulations sims = .error f) : ∃ t, f = .missingKey (.text t) := by
  obtain ⟨s, -, r, hs⟩ := exists_of_foldlM_eq_error h
  obtain ⟨r', -, hadd⟩ := exists_add_eq s r
  obtain ⟨c, -, r, hc⟩ := exists_of_foldlM_eq_error (hadd ▸ hs)
  rcases bind_eq_error.1 hc with hcredit | ⟨stat, -, hstat⟩
  · exact ConditionStat.credit_eq_error hcredit
  · cases hstat

/-- Trials are summed up like any simulations, if their tags can be counted. -/
theorem ofTrials_eq_ok {r : Report} : ofTrials sims = .ok r ↔
    (tagsOf (sims.flatMap countedCards)).all (·.isKey) = true ∧ ofSimulations sims = .ok r := by
  unfold ofTrials
  split
  · rename_i hkeys
    exact ⟨fun h => ⟨hkeys, h⟩, fun h => h.2⟩
  · rename_i hkeys
    exact iff_of_false (by simp) fun h => hkeys h.1

/-- **When there is a report.** There is one exactly if all tags to be counted can be keys, and of the conditions that
share a text the first covers the others: an entry that was made for it has an entry for each node of theirs. Otherwise
the report stops with a tag that is no key or an entry that is missing, and with nothing else. Conditions that were read
from texts, and all others that can be written as texts, always cover each other. -/
theorem exists_ofTrials_iff (sims : List Simulation) :
    ((∃ r, ofTrials sims = .ok r) ↔ (tagsOf (sims.flatMap countedCards)).all (·.isKey) = true ∧
      ∀ c ∈ sims.flatMap (·.runs), ∀ d ∈ firstOf (sims.flatMap (·.runs)) c.condition.text,
        d.condition.Covers c.condition) ∧
    (∀ f, ofTrials sims = .error f → f = .wrongKind ∨ ∃ t, f = .missingKey (.text t)) ∧
    ((∀ c ∈ sims.flatMap (·.runs), (∃ written, ofText written = .ok c.condition) ∨ c.condition.IsWritable) →
      ∀ c ∈ sims.flatMap (·.runs), ∀ d ∈ firstOf (sims.flatMap (·.runs)) c.condition.text,
        d.condition.Covers c.condition) := by
  refine ⟨?_, fun f hf => ?_, fun h => ?_⟩
  · simp only [ofTrials_eq_ok, exists_and_left]
    exact and_congr_right fun _ => exists_ofSimulations_iff
  · unfold ofTrials at hf
    split at hf
    · exact Or.inr (ofSimulations_eq_error hf)
    · exact Or.inl (Except.error.inj hf).symm
  · refine exists_ofSimulations_iff.1 (Counts.exists_ofSimulations (textsTell_of_isWritable fun c hc => ?_))
    rcases h c hc with ⟨written, hwritten⟩ | hwritable
    · exact isWritable_of_ofText hwritten
    · exact hwritable

/-- A document of a joint. -/
def jointDocument (a b : Value) : Value :=
  .record [("kind", .text "logic"), ("type", .text "AND"), ("conditionA", a), ("conditionB", b)]

/-- A document of a leaf with its defaults. -/
def leafDocument (name : String) : Value := .record [("kind", .text "card"), ("cardName", .text name)]

/-- **A report may stop at conditions that were all read without fault.** The text groups the names to the left, the
document groups them to the right, and both have the same text. The entry is made for the first, and the second finds
no A on its left. -/
theorem ofSimulations_unlike :
    ∃ parsed tree s, ofText "1+ A AND 1+ B AND 1+ C" = .ok parsed ∧
      ofValue (jointDocument (leafDocument "A") (jointDocument (leafDocument "B") (leafDocument "C"))) = .ok tree ∧
      Simulation.run (holding [Simulation.plain 0 "A"]) [parsed, tree] (.ofInts 10000 none) = .ok s ∧
      parsed.text = tree.text ∧ ofSimulations [s] = .error (.missingKey (.text "1+ A IN HAND")) ∧
      ofTrials [s] = .error (.missingKey (.text "1+ A IN HAND")) := by
  have hrun : (do
      let parsed ← ofText "1+ A AND 1+ B AND 1+ C"
      let tree ← ofValue (jointDocument (leafDocument "A") (jointDocument (leafDocument "B") (leafDocument "C")))
      let s ← Simulation.run (holding [Simulation.plain 0 "A"]) [parsed, tree] (.ofInts 10000 none)
      pure (decide (parsed.text = tree.text), (ofSimulations [s]).map (·.iterations),
        (ofTrials [s]).map (·.iterations)) :
      Except Fault (Bool × Except Fault Nat × Except Fault Nat)) =
        .ok (true, .error (.missingKey (.text "1+ A IN HAND")), .error (.missingKey (.text "1+ A IN HAND"))) := by
    decide +kernel
  obtain ⟨parsed, hparsed, hrun⟩ := bind_eq_ok.1 hrun
  obtain ⟨tree, htree, hrun⟩ := bind_eq_ok.1 hrun
  obtain ⟨s, hs, hrun⟩ := bind_eq_ok.1 hrun
  obtain ⟨htext, hrun⟩ := Prod.mk.inj (Except.ok.inj hrun)
  obtain ⟨hreport, htrials⟩ := Prod.mk.inj hrun
  exact ⟨parsed, tree, s, hparsed, htree, hs, of_decide_eq_true htext, map_eq_error.1 hreport,
    map_eq_error.1 htrials⟩

end Report

end OpeningHand
