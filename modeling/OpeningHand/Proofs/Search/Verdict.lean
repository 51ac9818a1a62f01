import OpeningHand.Proofs.Search.Completeness
import Mathlib.Logic.Relation
import Mathlib.Tactic.Push
import Mathlib.Algebra.Module.Submodule.Lattice
import Mathlib.Data.List.Permutation

-- The last two hold the equations of `≤` and of `Prod.snd` by which `cbv` evaluates a play.

/-!
# What the result of a simulation says

The log of a simulation has a section for each condition, behind the heading that opens it
(`Simulation.logOf`). A condition whose section holds no warning of a cap is met exactly if some line of
first copies leads to a hand that meets it.

That a search plays first copies only is a real restriction. A toll or a named cost takes the least useful
cards that fit, and of equally useful ones those that lie last in the hand; which copy of a free card was
played decides which cards lie where. So two copies of one card may lead to different hands, and a result
speaks of all lines only if no card looks at the order of the hand or no free card has a second copy
(`Simulation.conditionResult_eq_false_iff`).
-/

namespace OpeningHand

open Relation

namespace Simulation

/-! ### The sections of a log -/

/-- The lines behind each heading, up to the next one. -/
def sections : List String → List (List String)
  | [] => []
  | line :: lines =>
    if isHeading line then lines.takeWhile (fun l => !isHeading l) :: sections lines
    else sections lines

/-- What a simulation logs for the condition at a place. -/
def logOf (s : Simulation) (i : Nat) : List String := (sections s.log)[i]?.getD []

theorem sections_append {lines : List String} (h : ∀ l ∈ lines, isHeading l = false)
    (rest : List String) : sections (lines ++ rest) = sections rest := by
  induction lines with
  | nil => rfl
  | cons line lines ih =>
      rw [List.cons_append, sections, h line List.mem_cons_self]
      exact ih fun l hl => h l (List.mem_cons_of_mem line hl)

/-- A heading, the lines behind it, and what is empty or goes on with a heading. -/
theorem sections_heading (i : Nat) (c : Condition) {lines rest : List String}
    (h : ∀ l ∈ lines, isHeading l = false)
    (hrest : rest.takeWhile (fun l => !isHeading l) = []) :
    sections (heading i c :: lines ++ rest) = lines :: sections rest := by
  rw [List.cons_append, sections, isHeading_heading, if_pos rfl, sections_append h,
    List.takeWhile_append_of_pos (fun l hl => by rw [h l hl]; rfl), hrest, List.append_nil]

theorem runFrom_cons {caps : Caps} {opening : Board} {i : Nat} {c : Condition} {cs : List Condition}
    {runs : List ConditionRun} {log : List String}
    (h : runFrom caps opening i (c :: cs) = .ok (runs, log)) :
    ∃ found runs' log', search c caps opening = .ok found ∧
      runFrom caps opening (i + 1) cs = .ok (runs', log') ∧
      runs = ⟨c, found.branches⟩ :: runs' ∧ log = heading i c :: found.log ++ log' := by
  rw [runFrom, bind_eq_ok] at h
  obtain ⟨found, hfound, h⟩ := h
  obtain ⟨⟨runs', log'⟩, hrest, h⟩ := bind_eq_ok.1 h
  obtain ⟨rfl, rfl⟩ := Prod.mk.inj (Except.ok.inj h)
  exact ⟨found, runs', log', hfound, hrest, rfl, rfl⟩

theorem takeWhile_runFrom {caps : Caps} {opening : Board} {i : Nat} {cs : List Condition}
    {runs : List ConditionRun} {log : List String} (h : runFrom caps opening i cs = .ok (runs, log)) :
    log.takeWhile (fun l => !isHeading l) = [] := by
  cases cs with
  | nil =>
      obtain ⟨-, rfl⟩ := Prod.mk.inj (Except.ok.inj h)
      rfl
  | cons c cs =>
      obtain ⟨found, runs', log', -, -, -, rfl⟩ := runFrom_cons h
      rw [List.cons_append, List.takeWhile_cons_of_neg (by simp [isHeading_heading])]

/-- Each condition has its own run and its own section of the log, and both come from its search. -/
theorem runFrom_getElem? {caps : Caps} {opening : Board} {i : Nat} {cs : List Condition}
    {runs : List ConditionRun} {log : List String} (h : runFrom caps opening i cs = .ok (runs, log))
    {k : Nat} {c : Condition} (hk : cs[k]? = some c) :
    ∃ found, search c caps opening = .ok found ∧ runs[k]? = some ⟨c, found.branches⟩ ∧
      (sections log)[k]? = some found.log := by
  induction cs generalizing i runs log k with
  | nil => cases hk
  | cons d cs ih =>
      obtain ⟨found, runs', log', hfound, hrest, rfl, rfl⟩ := runFrom_cons h
      rw [sections_heading i d (sound_search hfound).log (takeWhile_runFrom hrest)]
      cases k with
      | zero =>
          obtain rfl := Option.some.inj hk
          exact ⟨found, hfound, rfl, rfl⟩
      | succ k => exact ih hrest hk

theorem run_getElem? {caps : Caps} {opening : Board} {cs : List Condition} {s : Simulation}
    (h : run opening cs caps = .ok s) {i : Nat} {c : Condition} (hi : cs[i]? = some c) :
    ∃ found, search c caps opening.copy = .ok found ∧ s.conditionResult i = found.success ∧
      s.logOf i = found.log := by
  obtain ⟨⟨runs, log⟩, hruns, h⟩ := bind_eq_ok.1 h
  obtain rfl := Except.ok.inj h
  obtain ⟨found, hfound, hrun, hlog⟩ := runFrom_getElem? hruns hi
  refine ⟨found, hfound, ?_, ?_⟩
  · rw [conditionResult, hrun, (sound_search hfound).success]
    rfl
  · rw [logOf, hlog]
    rfl

/-- A simulation of one condition comes to what its search does. -/
theorem exists_run {caps : Caps} {opening : Board} {c : Condition} {success : Bool} {log : List String}
    (h : (search c caps opening.copy).map (fun f => (f.success, f.log)) = .ok (success, log)) :
    ∃ s, run opening [c] caps = .ok s ∧ s.conditionResult 0 = success ∧ s.logOf 0 = log := by
  obtain ⟨found, hfound, hfields⟩ := map_eq_ok.1 h
  obtain ⟨rfl, rfl⟩ := Prod.mk.inj hfields
  have hrun : run opening [c] caps = .ok ⟨opening.copy, [⟨c, found.branches⟩],
      heading 0 c :: found.log ++ []⟩ := by
    simp [run, runFrom, hfound, bind, Except.bind, pure, Except.pure]
  obtain ⟨found', hfound', hresult, hlog⟩ := run_getElem? (i := 0) hrun rfl
  obtain rfl := Except.ok.inj (hfound.symm.trans hfound')
  exact ⟨_, hrun, hresult, hlog⟩

/-! ### The result -/

/-- **A condition for which no cap is reached is met exactly if a line of first copies meets it.** -/
theorem conditionResult_iff_canMeet {caps : Caps} {opening : Board} {cs : List Condition}
    {s : Simulation} (hd : AllDifferent opening.inSight) (h : run opening cs caps = .ok s) {i : Nat}
    {c : Condition} (hi : cs[i]? = some c) (hcaps : caps.Unreached (s.logOf i)) :
    s.conditionResult i = true ↔ CanMeet c opening := by
  obtain ⟨found, hfound, hresult, hlog⟩ := run_getElem? h hi
  rw [hlog] at hcaps
  rw [hresult, success_search hfound (Board.allDifferent_copy hd) hcaps]
  exact canMeet_alike opening.shifted_injective opening.copy_alike

/-- **What a result without a warning rules out.** A condition is not met exactly if no line of first
copies meets it. So it rules out the lines of any copies, in any order, exactly if these meet the condition
only where a line of first copies does. That is so if no card looks at the order of the hand, and if no two
free cards share a name. -/
theorem conditionResult_eq_false_iff {caps : Caps} {opening : Board} {cs : List Condition}
    {s : Simulation} {i : Nat} {c : Condition} (hd : AllDifferent opening.cards)
    (hcopies : AlikeCopies opening.cards) (h : run opening cs caps = .ok s) (hi : cs[i]? = some c)
    (hcaps : caps.Unreached (s.logOf i)) :
    (s.conditionResult i = false ↔ ∀ b, ReachesFirst c opening b → ¬ b.meets c) ∧
      ((s.conditionResult i = false → ∀ b, Reaches c opening b → ¬ b.meets c) ↔
        ((∃ b, Reaches c opening b ∧ b.meets c) → ∃ b, ReachesFirst c opening b ∧ b.meets c)) ∧
      ((∀ x ∈ opening.cards, x.isOrderless = true) ∨
          (∀ x ∈ opening.cards, ∀ y ∈ opening.cards, x.isFree = true → y.isFree = true →
            x.name = y.name → x = y) →
        s.conditionResult i = false → ∀ b, Reaches c opening b → ¬ b.meets c) := by
  have hsub : ∀ x ∈ opening.inSight, x ∈ opening.cards := fun x hx =>
    opening.inSight_subperm.subset hx
  have hdifferent : AllDifferent opening.inSight := by
    obtain ⟨l, hl, hlist⟩ := opening.inSight_subperm
    exact (hd.sublist hlist).perm hl
  have hresult := conditionResult_iff_canMeet hdifferent h hi hcaps
  have hfalse : s.conditionResult i = false ↔ ¬ CanMeet c opening := by
    rw [← hresult, Bool.not_eq_true]
  refine ⟨?_, ?_, ?_⟩
  · rw [hfalse, CanMeet]
    push Not
    rfl
  · rw [hfalse]
    constructor
    · rintro hlines ⟨b, hline, hmeets⟩
      by_contra hno
      exact hlines hno b hline hmeets
    · intro hlines hno b hline hmeets
      exact hno (hlines ⟨b, hline, hmeets⟩)
  · intro hchoice hresult b hline hmeets
    refine hfalse.1 hresult (hline.canMeet hmeets hdifferent ?_ ?_)
    · exact fun x hx y hy => hcopies x (hsub x hx) y (hsub y hy)
    · rcases hchoice with horder | hnames
      · exact Or.inl fun x hx => horder x (hsub x hx)
      · exact Or.inr fun x hx y hy => hnames x (hsub x hx) y (hsub y hy)

/-- A card without tags that is not free. -/
def plain (number : Nat) (name : String) : Card := ⟨⟨number, 0⟩, name, [], none⟩

/-- A free card that draws a card, and then may have to discard some. -/
def drawer (number : Nat) (toll : Option Aftermath) : Card :=
  ⟨⟨number, 0⟩, "A", [], some ⟨1, false, none, [], none, toll⟩⟩

/-- A condition that asks for a number of targets. -/
def targets (count : Nat) : Condition := .leaf ⟨"T", count, .atLeast, .hand⟩

/-- Two copies of a card that draws, over a deck of one card. -/
def drawing : Board := ⟨[plain 2 "X"], [drawer 0 none, drawer 1 none], [], [], []⟩

theorem conditionResult_eq_false_iff_drawing :
    ∃ s, run drawing [targets 1] (.ofInts 10000 none) = .ok s ∧ s.conditionResult 0 = false ∧
      ∀ b, Reaches (targets 1) drawing b → ¬ b.meets (targets 1) := by
  have hsearch : (search (targets 1) (.ofInts 10000 none) drawing.copy).map
      (fun f => (f.success, f.log)) = .ok (false, ["[BRANCH d=0] hand: A, A -> FAIL",
        "[FREE] play A", "[FREE] A drew X", "[BRANCH d=1] hand: A, X -> FAIL"]) := by
    decide +kernel
  obtain ⟨s, hs, hresult, hlog⟩ := exists_run hsearch
  have hcaps : (Caps.ofInts 10000 none).Unreached (s.logOf 0) := by
    rw [hlog]
    decide +kernel
  exact ⟨s, hs, hresult,
    (conditionResult_eq_false_iff (by decide) (by decide) hs rfl hcaps).2.2
      (Or.inl (by decide)) hresult⟩

/-- A free card that draws a card and discards one. -/
def churner (number : Nat) : Card := drawer number (some ⟨.discard, .amount 1⟩)

/-- Two copies of such a card, each with another card before it. -/
def churning : Board :=
  ⟨[plain 4 "T", plain 5 "T"], [plain 0 "Y", churner 1, plain 2 "X", churner 3], [], [], []⟩

/-- **Two copies may lead to different hands.** The first copy discards the second, and no play is left;
but the second copy discards the card between them, and the first one can still be played. -/
theorem exists_line_of_conditionResult_false :
    AllDifferent churning.cards ∧ AlikeCopies churning.cards ∧
      ∃ s b, run churning [targets 2] (.ofInts 10000 none) = .ok s ∧
        (Caps.ofInts 10000 none).Unreached (s.logOf 0) ∧ s.conditionResult 0 = false ∧
        Reaches (targets 2) churning b ∧ b.meets (targets 2) := by
  have hsearch : (search (targets 2) (.ofInts 10000 none) churning.copy).map
      (fun f => (f.success, f.log)) = .ok (false, ["[BRANCH d=0] hand: Y, A, X, A -> FAIL",
        "[FREE] play A", "[FREE] A drew T", "[FREE] A condition: discarded A",
        "[BRANCH d=1] hand: Y, X, T -> FAIL"]) := by
    cbv
  obtain ⟨s, hs, hresult, hlog⟩ := exists_run hsearch
  have hcaps : (Caps.ofInts 10000 none).Unreached (s.logOf 0) := by
    rw [hlog]
    decide +kernel
  -- the second copy discards X and the first copy then discards Y
  have hsecond : Plays (targets 2) (churner 3) churning
      ⟨[plain 4 "T"], [plain 0 "Y", churner 1, plain 5 "T"], [], [plain 2 "X"], [churner 3]⟩ :=
    ⟨by decide, [], ["[FREE] play A", "[FREE] A drew T", "[FREE] A condition: discarded X"], by cbv⟩
  have hfirst : Plays (targets 2) (churner 1)
      ⟨[plain 4 "T"], [plain 0 "Y", churner 1, plain 5 "T"], [], [plain 2 "X"], [churner 3]⟩
      ⟨[], [plain 5 "T", plain 4 "T"], [], [plain 2 "X", plain 0 "Y"], [churner 3, churner 1]⟩ :=
    ⟨by decide, [], ["[FREE] play A", "[FREE] A drew T", "[FREE] A condition: discarded Y"], by cbv⟩
  exact ⟨by decide, by decide, s, _, hs, hcaps, hresult,
    (ReflTransGen.single ⟨_, hsecond⟩).tail ⟨_, hfirst⟩, by decide +kernel⟩

end Simulation

end OpeningHand
