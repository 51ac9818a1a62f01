import OpeningHand.Report.Table
import Mathlib.Algebra.BigOperators.Group.List.Basic
import Mathlib.Algebra.GroupWithZero.Nat
import Mathlib.Data.List.Find
import Mathlib.Data.Set.Function

/-!
# The entries of conditions

The entry of a condition has an entry for each of its sides, and so on, found by their texts. So an entry lies at
the end of a path of texts, and several nodes may lie there: sides of the same text share one entry, and so do
conditions of the same text. Crediting passes each node in turn, and an entry shared by two nodes is credited for
both. An entry is therefore its condition with a number for each path (`Condition.entry`); crediting a condition
adds the nodes at the end of the path if their text is satisfied (`ConditionStat.eq_of_credit`), and after some runs
each entry holds the sum of what the runs for conditions of its text add (`Tallies`).

An entry is made for the first condition of its text. If texts tell nodes apart, it has all that any other
condition of this text takes, and crediting cannot fail (`Tallies.exists_credit`).
-/

namespace OpeningHand

/-! ### Paths -/

/-- The number of nodes at the end of a path: each text leads from a joint to its sides of this text. -/
def Condition.nodesAt : Condition → List String → Nat
  | _, [] => 1
  | .leaf _, _ :: _ => 0
  | .joint _ a b _, t :: path =>
    (if a.text = t then a.nodesAt path else 0) + if b.text = t then b.nodesAt path else 0

@[simp]
theorem Condition.nodesAt_nil (c : Condition) : c.nodesAt [] = 1 := by
  cases c <;> rfl

theorem Condition.nodesAt_joint_ne_zero {j : Joint} {a b : Condition} {g : Bool} {t : String}
    {path : List String} : (Condition.joint j a b g).nodesAt (t :: path) ≠ 0 ↔
      (a.text = t ∧ a.nodesAt path ≠ 0) ∨ b.text = t ∧ b.nodesAt path ≠ 0 := by
  rw [nodesAt, ne_eq, Nat.add_eq_zero_iff, ite_eq_right_iff, ite_eq_right_iff]
  tauto

/-- The entry at the end of a path. -/
def ConditionStat.at? : ConditionStat → List String → Option ConditionStat
  | stat, [] => some stat
  | stat, t :: path => (stat.sides.bind fun sides => Ledger.find? sides t).bind (·.at? path)

namespace Condition

/-- A condition and all its parts. -/
def nodes : Condition → List Condition
  | .leaf l => [.leaf l]
  | .joint j a b g => .joint j a b g :: (a.nodes ++ b.nodes)

theorem mem_nodes_self (c : Condition) : c ∈ c.nodes := by
  cases c <;> exact List.mem_cons_self

/-- If texts tell the nodes of a joint apart, they tell the nodes of each side apart, and the sides. -/
theorem injOn_joint {j : Joint} {a b : Condition} {g : Bool}
    (h : Set.InjOn text {n | n ∈ (Condition.joint j a b g).nodes}) :
    Set.InjOn text {n | n ∈ a.nodes} ∧ Set.InjOn text {n | n ∈ b.nodes} ∧ (a.text = b.text → a = b) := by
  have ha : ∀ n ∈ a.nodes, n ∈ (Condition.joint j a b g).nodes := fun n hn =>
    List.mem_cons_of_mem _ (List.mem_append_left _ hn)
  have hb : ∀ n ∈ b.nodes, n ∈ (Condition.joint j a b g).nodes := fun n hn =>
    List.mem_cons_of_mem _ (List.mem_append_right _ hn)
  exact ⟨h.mono ha, h.mono hb, fun hab => h (ha a a.mem_nodes_self) (hb b b.mem_nodes_self) hab⟩

/-- What crediting some satisfied texts adds to the entry at the end of a path: one for each node there. All of
them have the same text, the last one of the path. -/
def credits (texts : List String) (c : Condition) (path : List String) : Nat :=
  if path.getLastD c.text ∈ texts then c.nodesAt path else 0

theorem credits_joint (texts : List String) (j : Joint) (a b : Condition) (g : Bool) (t : String)
    (path : List String) : (Condition.joint j a b g).credits texts (t :: path) =
      (if a.text = t then a.credits texts path else 0) + if b.text = t then b.credits texts path else 0 := by
  have hside : ∀ c : Condition, (if c.text = t then c.credits texts path else 0)
      = if path.getLastD t ∈ texts then (if c.text = t then c.nodesAt path else 0) else 0 := by
    intro c
    unfold credits
    split
    · rename_i h
      rw [h]
    · rw [ite_self]
  rw [hside, hside, credits, List.getLastD_cons, nodesAt]
  split <;> rfl

/-- The entry of a condition with a count for each path. Sides of the same text share one entry. -/
def entry : Condition → (List String → Nat) → ConditionStat
  | .leaf _, f => .mk (f []) none
  | .joint _ a b _, f =>
    .mk (f []) (some (if a.text = b.text then [(a.text, b.entry fun path => f (a.text :: path))]
      else [(a.text, a.entry fun path => f (a.text :: path)),
        (b.text, b.entry fun path => f (b.text :: path))]))

theorem zeroFor_eq (c : Condition) : ConditionStat.zeroFor c = c.entry fun _ => 0 := by
  induction c with
  | leaf l => rfl
  | joint j a b g iha ihb => simp only [ConditionStat.zeroFor, entry, iha, ihb]

/-- The entries of the sides of a joint, with a count for each side and path. -/
def sideEntries (a b : Condition) (f : String → List String → Nat) : List (String × ConditionStat) :=
  if a.text = b.text then [(a.text, b.entry (f a.text))]
  else [(a.text, a.entry (f a.text)), (b.text, b.entry (f b.text))]

theorem entry_joint (j : Joint) (a b : Condition) (g : Bool) (f : List String → Nat) :
    (Condition.joint j a b g).entry f = .mk (f []) (some (a.sideEntries b fun t path => f (t :: path))) :=
  rfl

end Condition

open Condition

namespace ConditionStat

variable {texts : List String}

/-- One more if the text of the condition is among some. -/
theorem if_contains (c : Condition) (n : Nat) :
    (if texts.contains c.text then n + 1 else n) = n + c.credits texts [] := by
  simp only [List.contains_iff_mem, credits, List.getLastD_nil, nodesAt_nil]
  split <;> rfl

theorem sideFor_eq_ok {t : String} {sides : List (String × ConditionStat)} {stat : ConditionStat} :
    sideFor t sides = .ok stat ↔ Ledger.find? sides t = some stat := by
  unfold sideFor
  cases Ledger.find? sides t <;> simp

/-- A side that is found is the entry of one of the two sides, and replacing it changes its counts only. -/
theorem of_find?_sideEntries {a b : Condition} {f : String → List String → Nat} {t : String}
    {stat : ConditionStat} (h : Ledger.find? (a.sideEntries b f) t = some stat) :
    ∃ c, (c = a ∨ c = b) ∧ c.text = t ∧ stat = c.entry (f t) ∧
      ∀ g, replace t (c.entry g) (a.sideEntries b f) = a.sideEntries b (Function.update f t g) := by
  unfold sideEntries at h ⊢
  split at h
  · rename_i hab
    by_cases ht : a.text = t
    · simp only [Ledger.find?, ht, decide_true, List.find?_cons_of_pos, Option.map_some,
        Option.some.injEq] at h
      refine ⟨b, Or.inr rfl, hab.symm.trans ht, h.symm, fun g => ?_⟩
      rw [if_pos hab, if_pos hab, replace, if_pos ht, ht, Function.update_self]
    · simp [Ledger.find?, ht] at h
  · rename_i hab
    by_cases ht : a.text = t
    · simp only [Ledger.find?, ht, decide_true, List.find?_cons_of_pos, Option.map_some,
        Option.some.injEq] at h
      refine ⟨a, Or.inl rfl, ht, h.symm, fun g => ?_⟩
      have hb : b.text ≠ t := fun hb => hab (ht.trans hb.symm)
      rw [if_neg hab, if_neg hab, replace, if_pos ht, ht, Function.update_self,
        Function.update_of_ne hb]
    · by_cases hb : b.text = t
      · simp only [Ledger.find?, ht, hb, decide_false, decide_true, Bool.false_eq_true,
          not_false_eq_true, List.find?_cons_of_neg, List.find?_cons_of_pos, Option.map_some,
          Option.some.injEq] at h
        refine ⟨b, Or.inr rfl, hb, h.symm, fun g => ?_⟩
        rw [if_neg hab, if_neg hab, replace, if_neg ht, replace, if_pos hb, hb,
          Function.update_self, Function.update_of_ne ht]
      · simp [Ledger.find?, ht, hb] at h

/-- The sides of a joint are found, if they are the same as far as their texts are. -/
theorem find?_sideEntries {a b : Condition} (hsame : a.text = b.text → a = b)
    (f : String → List String → Nat) :
    Ledger.find? (a.sideEntries b f) a.text = some (a.entry (f a.text)) ∧
      Ledger.find? (a.sideEntries b f) b.text = some (b.entry (f b.text)) := by
  unfold sideEntries
  by_cases hab : a.text = b.text
  · obtain rfl := hsame hab
    simp [Ledger.find?]
  · rw [if_neg hab]
    simp [Ledger.find?, hab]

/-- A joint is credited by crediting its left side, and then its right side in what that comes to. -/
theorem credit_joint_eq_ok {j : Joint} {a b : Condition} {g : Bool} {n : Nat}
    {sides : List (String × ConditionStat)} {stat : ConditionStat} :
    credit texts (.joint j a b g) (.mk n (some sides)) = .ok stat ↔
      ∃ before left, sideFor a.text sides = .ok before ∧ credit texts a before = .ok left ∧
        ∃ before' right, sideFor b.text (replace a.text left sides) = .ok before' ∧
          credit texts b before' = .ok right ∧
          stat = .mk (if texts.contains (Condition.joint j a b g).text then n + 1 else n)
            (some (replace b.text right (replace a.text left sides))) := by
  rw [credit]
  simp only [bind_eq_ok]
  constructor
  · rintro ⟨before, hbefore, left, hleft, before', hbefore', right, hright, hstat⟩
    exact ⟨before, left, hbefore, hleft, before', right, hbefore', hright, (Except.ok.inj hstat).symm⟩
  · rintro ⟨before, left, hbefore, hleft, before', right, hbefore', hright, rfl⟩
    exact ⟨before, hbefore, left, hleft, before', hbefore', right, hright, rfl⟩

/-- One side is credited, where crediting is known to add its credits. -/
theorem replace_credit {a b c : Condition} {f : String → List String → Nat} {before after : ConditionStat}
    (ih : ∀ {d : Condition} {f stat}, credit texts c (d.entry f) = .ok stat →
      stat = d.entry fun path => f path + c.credits texts path)
    (hbefore : sideFor c.text (a.sideEntries b f) = .ok before) (hafter : credit texts c before = .ok after) :
    replace c.text after (a.sideEntries b f) = a.sideEntries b fun t path =>
      f t path + if c.text = t then c.credits texts path else 0 := by
  obtain ⟨d, -, -, rfl, hreplace⟩ := of_find?_sideEntries (sideFor_eq_ok.1 hbefore)
  rw [ih hafter, hreplace]
  congr 1
  funext t path
  by_cases ht : c.text = t
  · subst ht
    rw [Function.update_self, if_pos rfl]
  · rw [Function.update_of_ne (Ne.symm ht), if_neg ht, Nat.add_zero]

/-- **Crediting adds the credits**, also to an entry made for another condition, if it has all that it takes. -/
theorem eq_of_credit {c : Condition} : ∀ {d : Condition} {f : List String → Nat} {stat : ConditionStat},
    credit texts c (d.entry f) = .ok stat → stat = d.entry fun path => f path + c.credits texts path := by
  induction c with
  | leaf l =>
      intro d f stat h
      have hnone : ∀ (t : String) path, (Condition.leaf l).credits texts (t :: path) = 0 :=
        fun _ _ => ite_self 0
      cases d with
      | leaf l' =>
          obtain rfl := Except.ok.inj h
          rw [entry, ← if_contains]
          rfl
      | joint j a b g =>
          rw [entry_joint] at h
          obtain rfl := Except.ok.inj h
          rw [entry_joint, ← if_contains]
          simp only [hnone, Nat.add_zero]
          rfl
  | joint j a b g iha ihb =>
      intro d f stat h
      cases d with
      | leaf l => cases h
      | joint j' a' b' g' =>
          rw [entry_joint, credit_joint_eq_ok] at h
          obtain ⟨before, left, hbefore, hleft, before', right, hbefore', hright, rfl⟩ := h
          rw [replace_credit iha hbefore hleft] at hbefore' ⊢
          rw [replace_credit ihb hbefore' hright, entry_joint, if_contains]
          simp only [credits_joint, Nat.add_assoc]

/-- An entry made for a condition can be credited for it, if texts tell its nodes apart. -/
theorem exists_credit {c : Condition} (hc : Set.InjOn text {n | n ∈ c.nodes}) (f : List String → Nat) :
    ∃ stat, credit texts c (c.entry f) = .ok stat := by
  induction c generalizing f with
  | leaf l => exact ⟨_, rfl⟩
  | joint j a b g iha ihb =>
      obtain ⟨ha, hb, hsame⟩ := injOn_joint hc
      have hfound := find?_sideEntries hsame
      have hleft := sideFor_eq_ok.2 (hfound fun t path => f (t :: path)).1
      obtain ⟨left, hl⟩ := iha ha fun path => f (a.text :: path)
      have hright := sideFor_eq_ok.2 (hfound fun t path =>
        f (t :: path) + if a.text = t then a.credits texts path else 0).2
      rw [← replace_credit eq_of_credit hleft hl] at hright
      obtain ⟨right, hr⟩ := ihb hb fun path =>
        f (b.text :: path) + if a.text = b.text then a.credits texts path else 0
      exact ⟨_, credit_joint_eq_ok.2 ⟨_, left, hleft, hl, _, right, hright, hr, rfl⟩⟩

theorem at?_joint (j : Joint) (a b : Condition) (g : Bool) (f : List String → Nat) (t : String)
    (path : List String) : ((Condition.joint j a b g).entry f).at? (t :: path)
      = (Ledger.find? (a.sideEntries b fun t path => f (t :: path)) t).bind (·.at? path) := rfl

/-- The entry at the end of a path lies where nodes do, and has the count of the path. -/
theorem successes_at? {c : Condition} {f : List String → Nat} {path : List String} {stat : ConditionStat}
    (h : (c.entry f).at? path = some stat) : c.nodesAt path ≠ 0 ∧ stat.successes = f path := by
  induction path generalizing c f with
  | nil =>
      obtain rfl := Option.some.inj h
      rw [nodesAt_nil]
      exact ⟨Nat.one_ne_zero, by cases c <;> rfl⟩
  | cons t path ih =>
      cases c with
      | leaf l => cases h
      | joint j a b g =>
          rw [at?_joint] at h
          obtain ⟨side, hside, hstat⟩ := Option.bind_eq_some_iff.1 h
          obtain ⟨c, hc, htext, rfl, -⟩ := of_find?_sideEntries hside
          obtain ⟨hnodes, hcount⟩ := ih hstat
          refine ⟨nodesAt_joint_ne_zero.2 ?_, hcount⟩
          rcases hc with rfl | rfl
          · exact Or.inl ⟨htext, hnodes⟩
          · exact Or.inr ⟨htext, hnodes⟩

/-- Wherever nodes lie there is an entry, if texts tell nodes apart. -/
theorem exists_at? {c : Condition} (hc : Set.InjOn text {n | n ∈ c.nodes}) {f : List String → Nat}
    {path : List String} (h : c.nodesAt path ≠ 0) : ∃ stat, (c.entry f).at? path = some stat := by
  induction path generalizing c f with
  | nil => exact ⟨_, rfl⟩
  | cons t path ih =>
      cases c with
      | leaf l => exact absurd rfl h
      | joint j a b g =>
          obtain ⟨ha, hb, hsame⟩ := injOn_joint hc
          obtain ⟨hleft, hright⟩ := find?_sideEntries hsame fun t path => f (t :: path)
          rcases nodesAt_joint_ne_zero.1 h with ⟨rfl, hnodes⟩ | ⟨rfl, hnodes⟩
          · rw [at?_joint, hleft]
            exact ih ha hnodes
          · rw [at?_joint, hright]
            exact ih hb hnodes

/-! ### Rows -/

theorem mem_sideRows {r : Report} {depth : Nat} {row : ConditionRow} {sides : List (String × ConditionStat)} :
    row ∈ Report.conditionRows.sideRows r depth sides ↔
      ∃ e ∈ sides, row ∈ r.conditionRows depth e.1 e.2 := by
  induction sides with
  | nil => simp [Report.conditionRows.sideRows]
  | cons e rest ih => simp [Report.conditionRows.sideRows, ih]

theorem of_mem_sideEntries {a b : Condition} {f : String → List String → Nat} {e : String × ConditionStat}
    (h : e ∈ a.sideEntries b f) : Ledger.find? (a.sideEntries b f) e.1 = some e.2 ∧
      ∃ c, (c = a ∨ c = b) ∧ e = (c.text, c.entry (f c.text)) := by
  unfold sideEntries at h ⊢
  split at h
  · rename_i hab
    obtain rfl := List.mem_singleton.1 h
    refine ⟨by simp [hab, Ledger.find?], b, Or.inr rfl, by rw [hab]⟩
  · rename_i hab
    rcases List.mem_pair.1 h with rfl | rfl
    · exact ⟨by simp [hab, Ledger.find?], a, Or.inl rfl, rfl⟩
    · exact ⟨by simp [hab, Ledger.find?], b, Or.inr rfl, rfl⟩

/-- **Each row of an entry is about the entry at the end of a path**, with its last text and its length. -/
theorem of_mem_conditionRows {r : Report} {c : Condition} {depth : Nat} {t : String} {f : List String → Nat}
    {row : ConditionRow} (h : row ∈ r.conditionRows depth t (c.entry f)) :
    ∃ path stat, (c.entry f).at? path = some stat ∧
      row = ⟨path.getLastD t, depth + path.length, stat.successes, r.rate stat.successes⟩ := by
  induction c generalizing depth t f with
  | leaf l => exact ⟨[], _, rfl, List.mem_singleton.1 h⟩
  | joint j a b g iha ihb =>
      rw [entry_joint, Report.conditionRows, List.mem_cons] at h
      rcases h with rfl | h
      · exact ⟨[], _, rfl, rfl⟩
      · obtain ⟨e, he, hrow⟩ := mem_sideRows.1 h
        obtain ⟨hfind, c, hc, rfl⟩ := of_mem_sideEntries he
        obtain ⟨path, stat, hstat, rfl⟩ : ∃ path stat,
            (c.entry fun path => f (c.text :: path)).at? path = some stat ∧
            row = ⟨path.getLastD c.text, depth + 1 + path.length, stat.successes, r.rate stat.successes⟩ := by
          rcases hc with rfl | rfl
          · exact iha hrow
          · exact ihb hrow
        refine ⟨c.text :: path, stat, ?_, ?_⟩
        · rw [at?_joint, hfind]
          exact hstat
        · rw [List.getLastD_cons, List.length_cons, Nat.add_assoc, Nat.add_comm 1]

end ConditionStat

/-! ### The entries of all conditions -/

/-- What a ledger holds for a key is found, if no key comes twice. -/
theorem Ledger.find?_of_mem {α β : Type} [DecidableEq α] {l : Ledger α β} (h : (l.map Prod.fst).Nodup)
    {e : α × β} (he : e ∈ l) : l.find? e.1 = some e.2 := by
  induction l with
  | nil => cases he
  | cons d l ih =>
      obtain ⟨hnew, hrest⟩ := List.nodup_cons.1 h
      rcases List.mem_cons.1 he with rfl | he
      · simp [find?]
      · have hne : d.1 ≠ e.1 := fun heq => hnew (heq ▸ List.mem_map_of_mem he)
        rw [find?, List.find?_cons_of_neg (by simpa using hne)]
        exact ih hrest he

/-- Texts tell the nodes of all conditions of some runs apart. -/
def TextsTell (runs : List ConditionRun) : Prop := Set.InjOn text {n | ∃ r ∈ runs, n ∈ r.condition.nodes}

namespace TextsTell

variable {runs runs' : List ConditionRun} {r r' : ConditionRun}

theorem mono (h : TextsTell runs) (hsubset : runs' ⊆ runs) : TextsTell runs' := by
  rintro m ⟨r, hr, hm⟩ n ⟨r', hr', hn⟩ htext
  exact h ⟨r, hsubset hr, hm⟩ ⟨r', hsubset hr', hn⟩ htext

theorem injOn (h : TextsTell runs) (hr : r ∈ runs) : Set.InjOn text {n | n ∈ r.condition.nodes} := by
  intro m hm n hn htext
  exact h ⟨r, hr, hm⟩ ⟨r, hr, hn⟩ htext

/-- Conditions of the same text are the same. -/
theorem condition_eq (h : TextsTell runs) (hr : r ∈ runs) (hr' : r' ∈ runs)
    (htext : r.condition.text = r'.condition.text) : r.condition = r'.condition :=
  h ⟨r, hr, r.condition.mem_nodes_self⟩ ⟨r', hr', r'.condition.mem_nodes_self⟩ htext

end TextsTell

/-- What the runs for conditions of a text count at the end of a path. -/
def countOf (runs : List ConditionRun) (t : String) (path : List String) : Nat :=
  (runs.map fun r =>
    if r.condition.text = t then r.condition.credits (Report.satisfiedTexts r) path else 0).sum

theorem countOf_append_singleton (runs : List ConditionRun) (r : ConditionRun) (t : String)
    (path : List String) : countOf (runs ++ [r]) t path = countOf runs t path +
      if r.condition.text = t then r.condition.credits (Report.satisfiedTexts r) path else 0 := by
  simp [countOf]

/-- What the entries hold after some runs. Each was made for the first condition of its text. -/
structure Tallies (runs : List ConditionRun) (l : Ledger String ConditionStat) : Prop where
  /-- No text has two entries. -/
  keys : (l.map Prod.fst).Nodup
  /-- Every condition has an entry. -/
  found : ∀ r ∈ runs, ∃ stat, l.find? r.condition.text = some stat
  /-- Every entry holds the counts of its text. -/
  entry : ∀ t stat, l.find? t = some stat →
    ∃ r ∈ runs, r.condition.text = t ∧ stat = r.condition.entry (countOf runs t)

namespace Tallies

variable {runs : List ConditionRun} {r : ConditionRun} {l : Ledger String ConditionStat}

theorem nil : Tallies [] [] := ⟨List.nodup_nil, by simp, by simp [Ledger.find?]⟩

/-- The entry to be credited for a condition: that of an earlier condition of its text, or a new one. -/
theorem exists_entry (h : Tallies runs l) (r : ConditionRun) :
    ∃ r' ∈ runs ++ [r], r'.condition.text = r.condition.text ∧
      (l.find? r.condition.text).getD (.zeroFor r.condition)
        = r'.condition.entry (countOf runs r.condition.text) := by
  cases hl : l.find? r.condition.text with
  | some stat =>
      obtain ⟨r', hr', htext, rfl⟩ := h.entry _ _ hl
      exact ⟨r', List.mem_append_left _ hr', htext, rfl⟩
  | none =>
      have hnone : countOf runs r.condition.text = fun _ => 0 := by
        funext path
        refine List.sum_eq_zero fun n hn => ?_
        obtain ⟨r', hr', rfl⟩ := List.mem_map.1 hn
        obtain ⟨stat, hstat⟩ := h.found r' hr'
        refine if_neg fun htext => ?_
        rw [htext, hl] at hstat
        cases hstat
      exact ⟨r, List.mem_append_right _ (List.mem_singleton_self r), rfl, by
        rw [hnone]
        exact zeroFor_eq _⟩

/-- **One run more.** -/
theorem append (h : Tallies runs l) {stat : ConditionStat}
    (hstat : ((l.find? r.condition.text).getD (.zeroFor r.condition)).credit (Report.satisfiedTexts r)
      r.condition = .ok stat) : Tallies (runs ++ [r]) (l.adjust r.condition.text stat fun _ => stat) where
  keys := Ledger.nodup_keys_adjust h.keys _ _ _
  found r' hr' := by
    rw [Ledger.find?_adjust]
    split
    · exact ⟨stat, rfl⟩
    · rename_i hne
      rcases List.mem_append.1 hr' with hr' | hr'
      · exact h.found r' hr'
      · exact absurd (congrArg (·.condition.text) (List.mem_singleton.1 hr')) hne
  entry t stat' hl := by
    rw [Ledger.find?_adjust] at hl
    split at hl
    · rename_i ht
      obtain rfl := Option.some.inj hl
      obtain ⟨r', hr', htext, hentry⟩ := h.exists_entry r
      rw [hentry] at hstat
      refine ⟨r', hr', htext.trans ht.symm, ?_⟩
      rw [ConditionStat.eq_of_credit hstat, ht]
      congr 1
      funext path
      rw [countOf_append_singleton, if_pos rfl]
    · rename_i hne
      obtain ⟨r', hr', htext, rfl⟩ := h.entry t stat' hl
      refine ⟨r', List.mem_append_left _ hr', htext, ?_⟩
      congr 1
      funext path
      rw [countOf_append_singleton, if_neg (Ne.symm hne), Nat.add_zero]

/-- A condition can be credited if texts tell nodes apart. -/
theorem exists_credit (h : Tallies runs l) (htell : TextsTell (runs ++ [r])) :
    ∃ stat, ((l.find? r.condition.text).getD (.zeroFor r.condition)).credit (Report.satisfiedTexts r)
      r.condition = .ok stat := by
  obtain ⟨r', hr', htext, hentry⟩ := h.exists_entry r
  have hr : r ∈ runs ++ [r] := List.mem_append_right _ (List.mem_singleton_self r)
  rw [hentry, htell.condition_eq hr' hr htext]
  exact ConditionStat.exists_credit (htell.injOn hr) _

end Tallies

end OpeningHand
