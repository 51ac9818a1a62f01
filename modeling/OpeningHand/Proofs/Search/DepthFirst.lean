import OpeningHand.Proofs.Search.Legality
import Mathlib.Data.List.Chain

/-!
# The order in which a search judges hands

A search goes depth first: after a hand that fails come the hands below it, and only then those after other plays
on the same board (`DepthFirst`). So depths rise by one play at a time, while they may fall by any number of plays.

A level of a search ends in three ways: some hand meets the condition, a cap is reached, or no candidate is left.
Whichever it is, and on whatever level, no hand is judged after one that meets the condition
(`pairwise_search`). What a run records for a condition has this shape under any caps
(`Simulation.isDepthFirst_of_run`).
-/

namespace OpeningHand

/-- Hands below a board in the order in which a search comes to them: the hand after a play on a copy of the
board, then the hands below it, then those after other plays on the same board. No line is longer than the cap on
the plays allows. -/
inductive DepthFirst (c : Condition) (caps : Caps) : (depth : Nat) → Board → List Branch → Prop
  | nil {depth : Nat} {b : Board} : DepthFirst c caps depth b []
  | play {depth : Nat} {b : Board} {name : String} {card : Card} {scene : Scene} {lower later : List Branch}
      (tries : Tries c b name card scene) (within : caps.isTooDeep depth = .ok false)
      (hlower : DepthFirst c caps (depth + 1) scene.board lower) (hlater : DepthFirst c caps depth b later) :
      DepthFirst c caps depth b (judge c depth scene.board :: (lower ++ later))

namespace DepthFirst

variable {c : Condition} {caps : Caps} {depth : Nat} {b : Board} {l l' : List Branch}

/-- The hand after one play and those below it. -/
theorem single {name : String} {card : Card} {scene : Scene} (tries : Tries c b name card scene)
    (within : caps.isTooDeep depth = .ok false) (hlower : DepthFirst c caps (depth + 1) scene.board l) :
    DepthFirst c caps depth b (judge c depth scene.board :: l) := by
  have h := play tries within hlower .nil
  rwa [List.append_nil] at h

theorem le_depth (h : DepthFirst c caps depth b l) : ∀ x ∈ l, depth ≤ x.depth := by
  induction h with
  | nil => exact List.forall_mem_nil _
  | play _ _ _ _ ihlower ihlater =>
      refine List.forall_mem_cons.2 ⟨le_rfl, List.forall_mem_append.2 ⟨fun x hx => ?_, ihlater⟩⟩
      exact Nat.le_of_succ_le (ihlower x hx)

theorem isTooDeep (h : DepthFirst c caps depth b l) : ∀ x ∈ l, caps.isTooDeep x.depth = .ok false := by
  induction h with
  | nil => exact List.forall_mem_nil _
  | play _ within _ _ ihlower ihlater =>
      exact List.forall_mem_cons.2 ⟨within, List.forall_mem_append.2 ⟨ihlower, ihlater⟩⟩

theorem depth_head (h : DepthFirst c caps depth b l) : ∀ x ∈ l.head?, x.depth = depth := by
  cases h with
  | nil => simp
  | play => simp [judge]

/-- **Depths rise by one play at a time.** -/
theorem isChain (h : DepthFirst c caps depth b l) : l.IsChain fun x y => y.depth ≤ x.depth + 1 := by
  induction h with
  | nil => exact .nil
  | @play depth b name card scene lower later _ _ hlower hlater ihlower ihlater =>
      have hfirst : (judge c depth scene.board :: lower).IsChain fun x y => y.depth ≤ x.depth + 1 :=
        List.isChain_cons.2 ⟨fun y hy => (hlower.depth_head y hy).le, ihlower⟩
      -- whatever hand of this play is the last one, the next play leads to no deeper hand
      refine hfirst.append ihlater fun x hx y hy => ?_
      rw [hlater.depth_head y hy]
      rcases List.mem_cons.1 (List.mem_of_getLast? hx) with rfl | hx
      · exact Nat.le_succ depth
      · exact (Nat.le_of_succ_le (hlower.le_depth x hx)).trans (Nat.le_succ _)

end DepthFirst

/-! ### The parts of a search -/

section

variable {c : Condition} {caps : Caps}

theorem depthFirst_tryEach {depth recorded : Nat} {used : List Card} {b : Board}
    {deeper : Nat → List Card → Board → Except Fault Found} (hdepth : caps.isTooDeep depth = .ok false)
    (hdeeper : ∀ {n used b found}, deeper n used b = .ok found →
      DepthFirst c caps (depth + 1) b found.branches) {cards : List Card} {found : Found}
    (h : tryEach c caps depth used b deeper recorded cards = .ok found) :
    DepthFirst c caps depth b found.branches := by
  induction cards generalizing recorded found with
  | nil =>
      obtain rfl := Except.ok.inj h
      exact .nil
  | cons card cards ih =>
      rcases tryEach_cases h with rfl | ⟨scene, rest, -, hrest, rfl⟩ | ⟨played, scene, htries, hcase⟩
      · exact .nil
      · show DepthFirst c caps depth b rest.branches
        exact ih hrest
      · rcases hcase with ⟨-, rfl⟩ | ⟨-, below, hbelow, ⟨-, rfl⟩ | ⟨-, rest, hrest, rfl⟩⟩
        · exact .single htries hdepth .nil
        · exact .single htries hdepth (hdeeper hbelow)
        · exact .play htries hdepth (hdeeper hbelow) (ih hrest)

theorem depthFirst_explore {ahead depth recorded : Nat} {used : List Card} {b : Board} {found : Found}
    (h : explore c caps ahead depth recorded used b = .ok found) :
    DepthFirst c caps depth b found.branches := by
  induction ahead generalizing depth recorded used b found with
  | zero =>
      unfold explore at h
      split at h
      · cases h
      · obtain rfl := Except.ok.inj h
        exact .nil
      · obtain rfl := Except.ok.inj h
        exact .nil
  | succ ahead ih =>
      unfold explore at h
      split at h
      · cases h
      · obtain rfl := Except.ok.inj h
        exact .nil
      · rename_i hdepth
        exact depthFirst_tryEach hdepth ih h

/-- **A search judges the opening hand and then goes depth first.** -/
theorem depthFirst_search {opening : Board} {found : Found} (h : search c caps opening = .ok found) :
    ∃ below, found.branches = judge c 0 opening.copy :: below ∧ DepthFirst c caps 1 opening below := by
  unfold search at h
  dsimp only at h
  split at h
  · obtain rfl := Except.ok.inj h
    exact ⟨[], rfl, .nil⟩
  · obtain ⟨below, hbelow, rfl⟩ := map_eq_ok.1 h
    exact ⟨below.branches, rfl, depthFirst_explore hbelow⟩

/-- **No hand is judged after one that meets the condition.** -/
theorem pairwise_search {opening : Board} {found : Found} (h : search c caps opening = .ok found) :
    found.branches.Pairwise fun x _ => x.success = false := by
  -- a part that failed judged no hand that meets the condition
  have hkept : KeptBySearch c (fun _ _ => True) fun f =>
      f.Sound ∧ f.branches.Pairwise fun x _ => x.success = false :=
    { step := fun _ _ => trivial
      warning := fun what cap => ⟨.warning what cap, .nil⟩
      failed := fun hlog => ⟨.failed hlog, .nil⟩
      judged := fun _ hlog => ⟨.found _ hlog, List.pairwise_singleton _ _⟩
      andThen := fun {f g} hf hg hno => by
        refine ⟨hf.1.andThen hg.1 hno, List.pairwise_append.2 ⟨hf.2, hg.2, fun x hx _ _ => ?_⟩⟩
        have hnone := hf.1.success.symm.trans hno
        exact Bool.eq_false_iff.2 (List.any_eq_false.1 hnone x hx) }
  exact (hkept.search trivial trivial h).2

end

/-! ### Runs -/

/-- What is recorded for a condition: hands judged depth first from an opening board, under a cap on the plays,
up to the first one that meets the condition. -/
structure ConditionRun.IsDepthFirst (caps : Caps) (opening : Board) (r : ConditionRun) : Prop where
  /-- The opening hand comes first, and the others follow in the order of a search. -/
  order : ∃ below, r.branches = judge r.condition 0 opening.copy :: below ∧
    DepthFirst r.condition caps 1 opening below
  /-- The first hand has no play behind it. -/
  first : r.branches.head?.map (·.depth) = some 0
  /-- All others do. -/
  later : ∀ x ∈ r.branches.tail, 1 ≤ x.depth
  /-- Each hand has at most one play more behind it than the one before. -/
  rises : r.branches.IsChain fun x y => y.depth ≤ x.depth + 1
  /-- A cap on the plays that is a number holds for all hands. -/
  within : ∀ most : Int, caps.depth = .int most → ∀ x ∈ r.branches, (x.depth : Int) ≤ max 0 most
  /-- Only the last hand may meet the condition. -/
  failed : ∀ x ∈ r.branches.dropLast, x.success = false
  /-- The condition is met exactly if the last hand meets it. -/
  success : r.success = true ↔ ∃ x ∈ r.branches.getLast?, x.success = true

theorem Caps.isTooDeep_int (branches : Value) (most : Int) (depth : Nat) :
    (Caps.mk branches (.int most)).isTooDeep depth = .ok (decide (most < depth)) :=
  isTooDeep_ofInts 0 (some most) depth

/-- What holds of all members that have others after them, holds of all but the last one. -/
theorem forall_mem_dropLast {α : Type} {p : α → Prop} {l : List α} (h : l.Pairwise fun x _ => p x) :
    ∀ x ∈ l.dropLast, p x := by
  rcases List.eq_nil_or_concat' l with rfl | ⟨front, last, rfl⟩
  · simp
  · rw [List.dropLast_concat]
    exact fun x hx => (List.pairwise_append.1 h).2.2 x hx last (List.mem_singleton_self last)

/-- If all hands but the last one fail, some hand meets the condition exactly if the last one does. -/
theorem any_success_iff_getLast? {l : List Branch} (h : ∀ x ∈ l.dropLast, x.success = false) :
    l.any (·.success) = true ↔ ∃ x ∈ l.getLast?, x.success = true := by
  rcases List.eq_nil_or_concat' l with rfl | ⟨front, last, rfl⟩
  · simp
  · rw [List.dropLast_concat] at h
    have hfront : front.any (·.success) = false := List.any_eq_false.2 fun x hx => by simp [h x hx]
    simp [hfront]

namespace Simulation

theorem isDepthFirst_of_search {c : Condition} {caps : Caps} {opening : Board} {found : Found}
    (h : search c caps opening = .ok found) :
    ConditionRun.IsDepthFirst caps opening ⟨c, found.branches⟩ := by
  obtain ⟨below, hbranches, hbelow⟩ := depthFirst_search h
  have hfailed := forall_mem_dropLast (pairwise_search h)
  refine ⟨⟨below, hbranches, hbelow⟩, ?_, ?_, ?_, ?_, hfailed, any_success_iff_getLast? hfailed⟩
  · rw [hbranches]
    rfl
  · rw [hbranches]
    exact hbelow.le_depth
  · rw [hbranches]
    exact List.isChain_cons.2 ⟨fun y hy => (hbelow.depth_head y hy).le, hbelow.isChain⟩
  · intro most hmost x hx
    rw [hbranches] at hx
    rcases List.mem_cons.1 hx with rfl | hx
    · exact le_max_left 0 most
    · have hdeep := hbelow.isTooDeep x hx
      obtain ⟨branches, limit⟩ := caps
      obtain rfl : limit = .int most := hmost
      rw [Caps.isTooDeep_int] at hdeep
      exact le_max_of_le_right (not_lt.1 (of_decide_eq_false (Except.ok.inj hdeep)))

/-- **Every search has the shape of a depth-first search.**  For each condition of a run, under whatever caps, the
opening hand is judged first. Every later hand has a play behind it, at most one more than the hand before it, and
no more than the cap on the plays allows: it comes after one more play on a copy of an earlier hand's board, behind
all hands below its elder siblings. All hands but the last one fail, and the condition is met exactly if the last one
meets it. -/
theorem isDepthFirst_of_run {caps : Caps} {opening : Board} {cs : List Condition} {s : Simulation}
    (h : run opening cs caps = .ok s) {i : Nat} {c : Condition} (hi : cs[i]? = some c) :
    ∃ r, s.runs[i]? = some r ∧ r.condition = c ∧ r.IsDepthFirst caps s.opening ∧
      s.conditionResult i = r.success := by
  obtain ⟨⟨runs, log⟩, hruns, h⟩ := bind_eq_ok.1 h
  obtain rfl := Except.ok.inj h
  obtain ⟨found, hfound, hrun, -⟩ := runFrom_getElem? hruns hi
  refine ⟨⟨c, found.branches⟩, hrun, rfl, isDepthFirst_of_search hfound, ?_⟩
  rw [conditionResult, hrun]

/-- Under a cap of two plays: the search for a target goes down both plays and back to the other first play, and
the search for a card that is drawn at once ends after one play. -/
theorem isDepthFirst_of_run_restraining :
    ∃ s r r', run restraining [targets 1, .leaf ⟨"X", 1, .atLeast, .hand⟩] (.ofInts 10000 (some 2)) = .ok s ∧
      s.runs[0]? = some r ∧ r.branches.map (·.depth) = [0, 1, 2, 1] ∧ s.conditionResult 0 = false ∧
      r.IsDepthFirst (.ofInts 10000 (some 2)) s.opening ∧
      s.runs[1]? = some r' ∧ r'.branches.map (·.depth) = [0, 1] ∧ s.conditionResult 1 = true ∧
      r'.IsDepthFirst (.ofInts 10000 (some 2)) s.opening := by
  have hrun : (run restraining [targets 1, .leaf ⟨"X", 1, .atLeast, .hand⟩] (.ofInts 10000 (some 2))).map
      (fun s => (s.runs.map fun r => r.branches.map (·.depth), s.conditionResult 0, s.conditionResult 1))
        = .ok ([[0, 1, 2, 1], [0, 1]], false, true) := by
    decide +kernel
  obtain ⟨s, hs, hshown⟩ := map_eq_ok.1 hrun
  simp only [Prod.mk.injEq] at hshown
  obtain ⟨hdepths, hfalse, htrue⟩ := hshown
  obtain ⟨r, hr, -, hshape, -⟩ := isDepthFirst_of_run (i := 0) hs rfl
  obtain ⟨r', hr', -, hshape', -⟩ := isDepthFirst_of_run (i := 1) hs rfl
  have hdepth : ∀ (i : Nat) (r : ConditionRun), s.runs[i]? = some r →
      [[0, 1, 2, 1], [0, 1]][i]? = some (r.branches.map (·.depth)) := by
    intro i r hr
    rw [← hdepths, List.getElem?_map, hr]
    rfl
  exact ⟨s, r, r', hs, hr, (Option.some.inj (hdepth 0 r hr)).symm, hfalse, hshape, hr',
    (Option.some.inj (hdepth 1 r' hr')).symm, htrue, hshape'⟩

end Simulation

end OpeningHand
