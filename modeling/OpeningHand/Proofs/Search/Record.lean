import OpeningHand.Proofs.Search.Legality

/-!
# The searches of a simulation do not see each other

The searches for several conditions can be told to write into one record: it has an entry of judged hands for each
condition and a log for all of them, and the cap on the judged hands is compared with what the record holds. Such
a record is passed from search to search, through all their levels.

What a search makes of the record does not depend on what the others have written: it only adds to its own entry
and to the log, and it adds just what it finds by itself (`Record.search_eq`). So a simulation that keeps one record
comes to the runs that each condition comes to alone (`Record.run_eq`, `Simulation.runs_apart`).
-/

namespace OpeningHand

/-- The hands judged for each condition, by the place of the condition, and one log. -/
structure Record where
  hands : Nat → List Branch
  log : List String

namespace Record

/-- Nothing has been written yet. -/
def blank : Record := ⟨fun _ => [], []⟩

/-- Writes down what a part of the search for a condition found. -/
def add (i : Nat) (r : Record) (f : Found) : Record :=
  ⟨Function.update r.hands i (r.hands i ++ f.branches), r.log ++ f.log⟩

/-- Goes on with the record if a part of a search ended without success. -/
def ifFailed (x : Except Fault (Bool × Record)) (others : Record → Except Fault (Bool × Record)) :
    Except Fault (Bool × Record) :=
  match x with
  | .error f => .error f
  | .ok (true, r) => .ok (true, r)
  | .ok (false, r) => others r

/-- Tries candidates in turn, `deeper` being the search from a board after a play. -/
def tryEach (i : Nat) (c : Condition) (caps : Caps) (depth : Nat) (used : List Card) (board : Board)
    (deeper : (used : List Card) → Board → Record → Except Fault (Bool × Record)) :
    List Card → Record → Except Fault (Bool × Record)
  | [], r => .ok (false, r)
  | card :: cards, r =>
    match caps.allowsMore (r.hands i).length with
    | .error f => .error f
    | .ok false => .ok (false, r.add i (.line (Caps.line "branch" caps.branches)))
    | .ok true =>
      match Play.playNamed c.aim card.name ⟨board.copy, []⟩ with
      | (.error f, _) => .error f
      | (.ok none, scene) => tryEach i c caps depth used board deeper cards (r.add i ⟨false, [], scene.log⟩)
      | (.ok (some played), scene) =>
        let here := (judge c depth scene.board).found scene.log
        if here.success then .ok (true, r.add i here)
        else
          ifFailed (deeper (used ++ [played]) scene.board (r.add i here)) fun r =>
            tryEach i c caps depth used board deeper cards r

/-- Searches from a board, at the depth of the next play. -/
def explore (i : Nat) (c : Condition) (caps : Caps) :
    (ahead depth : Nat) → (used : List Card) → Board → Record → Except Fault (Bool × Record)
  | ahead, depth, used, board, r =>
    match caps.isTooDeep depth with
    | .error f => .error f
    | .ok true => .ok (false, r.add i (.line (Caps.line "depth" caps.depth)))
    | .ok false =>
      match ahead with
      | 0 => .ok (false, r)
      | ahead + 1 =>
        tryEach i c caps depth used board (explore i c caps ahead (depth + 1)) (board.candidates used) r

/-- The whole search for a condition. -/
def search (i : Nat) (c : Condition) (caps : Caps) (opening : Board) (r : Record) :
    Except Fault (Bool × Record) :=
  let here := (judge c 0 opening.copy).found []
  if here.success then .ok (true, r.add i here)
  else explore i c caps opening.freeAhead 1 [] opening (r.add i here)

/-- Runs the searches for conditions one after another, the first of which has a given number. -/
def run (caps : Caps) (opening : Board) : (first : Nat) → List Condition → Record → Except Fault Record
  | _, [], r => .ok r
  | i, c :: cs, r => do
    let (_, r) ← search i c caps opening (r.add i (.line (Simulation.heading i c)))
    run caps opening (i + 1) cs r

/-! ### What a search writes -/

section

variable {i j : Nat} {c : Condition} {caps : Caps}

@[simp]
theorem hands_add_self (i : Nat) (r : Record) (f : Found) :
    (r.add i f).hands i = r.hands i ++ f.branches := Function.update_self ..

theorem hands_add_of_ne (h : j ≠ i) (r : Record) (f : Found) : (r.add i f).hands j = r.hands j :=
  Function.update_of_ne h ..

theorem add_andThen (i : Nat) (r : Record) (f g : Found) : r.add i (f.andThen g) = (r.add i f).add i g := by
  simp only [add, Found.andThen, Function.update_self, Function.update_idem, List.append_assoc]

theorem add_nothing (i : Nat) (r : Record) : r.add i .nothing = r := by
  simp only [add, Found.nothing, List.append_nil, Function.update_eq_self]

/-- The outcome of a part of a search and the record after it. -/
def after (i : Nat) (r : Record) (f : Found) : Bool × Record := (f.success, r.add i f)

theorem after_andThen (i : Nat) (r : Record) (f : Found) (x : Except Fault Found) :
    (x.map f.andThen).map (r.after i) = x.map ((r.add i f).after i) := by
  cases x with
  | error e => rfl
  | ok g =>
      show Except.ok _ = Except.ok _
      rw [after, after, add_andThen]
      rfl

theorem tryEach_eq {depth : Nat} {used : List Card} {b : Board}
    {deeper : List Card → Board → Record → Except Fault (Bool × Record)}
    {deeper' : Nat → List Card → Board → Except Fault Found}
    (hdeeper : ∀ used b r, deeper used b r = (deeper' (r.hands i).length used b).map (r.after i))
    (cards : List Card) (r : Record) :
    tryEach i c caps depth used b deeper cards r
      = (OpeningHand.tryEach c caps depth used b deeper' (r.hands i).length cards).map (r.after i) := by
  induction cards generalizing r with
  | nil =>
      show Except.ok (false, r) = Except.ok (r.after i .nothing)
      rw [after, add_nothing]
      rfl
  | cons card cards ih =>
      rw [tryEach, OpeningHand.tryEach]
      rcases caps.allowsMore (r.hands i).length with f | _ | _
      · rfl
      · rfl
      · dsimp only
        generalize Play.playNamed c.aim card.name ⟨b.copy, []⟩ = p
        obtain ⟨f | _ | played, scene⟩ := p
        · rfl
        · dsimp only
          rw [after_andThen, ih, hands_add_self, List.append_nil]
        · dsimp only
          split
          · rename_i hsuccess
            show Except.ok _ = Except.ok (_, _)
            rw [hsuccess]
          · -- the hand after the play is one more in the entry when the search goes on below it
            have hmore : ((r.add i ((judge c depth scene.board).found scene.log)).hands i).length
                = (r.hands i).length + 1 := by
              rw [hands_add_self, List.length_append]
              rfl
            rw [hdeeper, hmore]
            rcases deeper' ((r.hands i).length + 1) (used ++ [played]) scene.board with f | below
            · rfl
            · cases hbelow : below.success with
              | true =>
                  dsimp only
                  rw [hbelow, if_pos rfl]
                  show ifFailed (.ok (below.success, _)) _ = Except.ok (below.success, _)
                  rw [hbelow, add_andThen]
                  rfl
              | false =>
                  dsimp only
                  rw [hbelow, if_neg Bool.false_ne_true, after_andThen, add_andThen]
                  show ifFailed (.ok (below.success, _)) _ = _
                  rw [hbelow]
                  show tryEach i c caps depth used b deeper cards _ = _
                  rw [ih, hands_add_self, List.length_append, hmore]

theorem explore_eq (ahead depth : Nat) (used : List Card) (b : Board) (r : Record) :
    explore i c caps ahead depth used b r
      = (OpeningHand.explore c caps ahead depth (r.hands i).length used b).map (r.after i) := by
  induction ahead generalizing depth used b r with
  | zero =>
      rw [explore, OpeningHand.explore]
      rcases caps.isTooDeep depth with f | _ | _
      · rfl
      · show Except.ok (false, r) = Except.ok (r.after i .nothing)
        rw [after, add_nothing]
        rfl
      · rfl
  | succ ahead ih =>
      rw [explore, OpeningHand.explore]
      rcases caps.isTooDeep depth with f | _ | _
      · rfl
      · exact tryEach_eq (fun used b r => ih (depth + 1) used b r) _ r
      · rfl

/-- **A search only adds to the record what it finds by itself**, to its own entry and to the log, if its entry is
empty at first. -/
theorem search_eq (opening : Board) {r : Record} (h : r.hands i = []) :
    search i c caps opening r = (OpeningHand.search c caps opening).map (r.after i) := by
  unfold search OpeningHand.search
  dsimp only
  split
  · rename_i hsuccess
    show Except.ok _ = Except.ok (_, _)
    rw [hsuccess]
  · rw [explore_eq, after_andThen, hands_add_self, h]
    rfl

end

end Record

namespace Simulation

/-- The hands judged for the condition with a given number, the first run having another number. -/
def handsFrom (i : Nat) (runs : List ConditionRun) (j : Nat) : List Branch :=
  if j < i then [] else ((runs[j - i]?).map (·.branches)).getD []

theorem handsFrom_nil (i j : Nat) : handsFrom i [] j = [] := by
  simp [handsFrom]

theorem handsFrom_cons (i : Nat) (r : ConditionRun) (runs : List ConditionRun) (j : Nat) :
    handsFrom i (r :: runs) j = if j = i then r.branches else handsFrom (i + 1) runs j := by
  unfold handsFrom
  rcases Nat.lt_trichotomy j i with hlt | rfl | hgt
  · rw [if_pos hlt, if_neg hlt.ne, if_pos (Nat.lt_succ_of_lt hlt)]
  · simp
  · have hplace : j - i = (j - (i + 1)) + 1 := by omega
    rw [if_neg hgt.le.not_gt, if_neg hgt.ne', if_neg (Nat.not_lt.2 hgt), hplace, List.getElem?_cons_succ]

end Simulation

namespace Record

/-- The record after some runs, which came to their hands and their log by themselves. -/
def withRuns (i : Nat) (r : Record) (p : List ConditionRun × List String) : Record :=
  ⟨fun j => r.hands j ++ Simulation.handsFrom i p.1 j, r.log ++ p.2⟩

theorem withRuns_nil (i : Nat) (r : Record) : r.withRuns i ([], []) = r := by
  simp only [withRuns, Simulation.handsFrom_nil, List.append_nil]

theorem withRuns_cons (i : Nat) (c : Condition) (r : Record) (f : Found) (runs : List ConditionRun)
    (log : List String) :
    ((r.add i (.line (Simulation.heading i c))).add i f).withRuns (i + 1) (runs, log)
      = r.withRuns i (⟨c, f.branches⟩ :: runs, Simulation.heading i c :: f.log ++ log) := by
  simp only [withRuns, mk.injEq]
  constructor
  · funext j
    rw [Simulation.handsFrom_cons]
    split
    · rename_i hj
      obtain rfl := hj
      have hnone : Simulation.handsFrom (j + 1) runs j = [] := if_pos (Nat.lt_succ_self j)
      rw [hands_add_self, hands_add_self, hnone, List.append_nil]
      exact congrArg (· ++ f.branches) (List.append_nil _)
    · rename_i hj
      rw [hands_add_of_ne hj, hands_add_of_ne hj]
  · simp [add, Found.line]

/-- **A simulation that keeps one record comes to the runs of the conditions**, if their entries are empty. -/
theorem run_eq (caps : Caps) (opening : Board) {i : Nat} (cs : List Condition) {r : Record}
    (h : ∀ j, i ≤ j → r.hands j = []) :
    run caps opening i cs r = (Simulation.runFrom caps opening i cs).map (r.withRuns i) := by
  induction cs generalizing i r with
  | nil => exact congrArg Except.ok (withRuns_nil i r).symm
  | cons c cs ih =>
      have hempty : (r.add i (.line (Simulation.heading i c))).hands i = [] := by
        rw [hands_add_self, h i le_rfl]
        rfl
      rw [run, Simulation.runFrom, search_eq opening hempty]
      rcases OpeningHand.search c caps opening with f | found
      · rfl
      · have hlater : ∀ j, i + 1 ≤ j →
            ((r.add i (.line (Simulation.heading i c))).add i found).hands j = [] := by
          intro j hj
          have hne : j ≠ i := by omega
          rw [hands_add_of_ne hne, hands_add_of_ne hne, h j (by omega)]
        show run caps opening (i + 1) cs _ = _
        rw [ih hlater]
        rcases Simulation.runFrom caps opening (i + 1) cs with f | ⟨runs, log⟩
        · rfl
        · exact congrArg Except.ok (withRuns_cons i c r found runs log)

end Record

namespace Simulation

/-- What a simulation has written down. -/
def record (s : Simulation) : Record := ⟨handsFrom 0 s.runs, s.log⟩

theorem length_runFrom {caps : Caps} {opening : Board} {i : Nat} {cs : List Condition}
    {runs : List ConditionRun} {log : List String} (h : runFrom caps opening i cs = .ok (runs, log)) :
    runs.length = cs.length := by
  induction cs generalizing i runs log with
  | nil =>
      obtain ⟨rfl, -⟩ := Prod.mk.inj (Except.ok.inj h)
      rfl
  | cons c cs ih =>
      obtain ⟨found, runs', log', -, hrest, rfl, -⟩ := runFrom_cons h
      rw [List.length_cons, List.length_cons, ih hrest]

/-- A simulation of one condition is its search. -/
theorem run_singleton (opening : Board) (c : Condition) (caps : Caps) :
    run opening [c] caps = (search c caps opening.copy).map fun f =>
      ⟨opening.copy, [⟨c, f.branches⟩], heading 0 c :: f.log⟩ := by
  rw [run, runFrom]
  rcases search c caps opening.copy with f | found
  · rfl
  · show Except.ok _ = Except.ok _
    rw [List.append_nil]

/-- **The conditions of a simulation do not see each other.** What is recorded for a condition, hand by hand, and
what is logged for it are what a simulation of this condition alone records and logs. And the same comes out when
all searches write into one record. -/
theorem runs_apart {caps : Caps} {opening : Board} {cs : List Condition} {s : Simulation}
    (h : run opening cs caps = .ok s) :
    s.runs.length = cs.length ∧
      (∀ i c, cs[i]? = some c → ∃ t r, run opening [c] caps = .ok t ∧ t.opening = s.opening ∧
        t.runs = [r] ∧ s.runs[i]? = some r ∧ t.conditionResult 0 = s.conditionResult i ∧
        t.logOf 0 = s.logOf i) ∧
      Record.run caps opening.copy 0 cs .blank = .ok s.record := by
  obtain ⟨⟨runs, log⟩, hruns, h⟩ := bind_eq_ok.1 h
  obtain rfl := Except.ok.inj h
  refine ⟨length_runFrom hruns, fun i c hi => ?_, ?_⟩
  · obtain ⟨found, hfound, hrun, hlog⟩ := runFrom_getElem? hruns hi
    have hsingle := run_singleton opening c caps
    rw [hfound] at hsingle
    obtain ⟨found', hfound', -, halone⟩ := run_getElem? (i := 0) hsingle rfl
    obtain rfl := Except.ok.inj (hfound.symm.trans hfound')
    refine ⟨_, _, hsingle, rfl, rfl, hrun, ?_, ?_⟩
    · rw [conditionResult, conditionResult, hrun]
      rfl
    · rw [halone, logOf, hlog]
      rfl
  · rw [Record.run_eq caps opening.copy cs fun _ _ => rfl, hruns]
    rfl

/-- The first search spends its whole cap of three hands, and the second one has as many for itself. -/
theorem runs_apart_restraining :
    ∃ s, run restraining [targets 1, .leaf ⟨"X", 1, .atLeast, .hand⟩] (.ofInts 3 none) = .ok s ∧
      s.runs.map (fun r => r.branches.map (·.depth)) = [[0, 1, 2], [0, 1]] ∧
      (∃ t r, run restraining [.leaf ⟨"X", 1, .atLeast, .hand⟩] (.ofInts 3 none) = .ok t ∧
        t.opening = s.opening ∧ t.runs = [r] ∧ s.runs[1]? = some r ∧
        t.conditionResult 0 = s.conditionResult 1 ∧ t.logOf 0 = s.logOf 1) ∧
      Record.run (.ofInts 3 none) restraining.copy 0
        [targets 1, .leaf ⟨"X", 1, .atLeast, .hand⟩] .blank = .ok s.record := by
  have hrun : (run restraining [targets 1, .leaf ⟨"X", 1, .atLeast, .hand⟩] (.ofInts 3 none)).map
      (fun s => s.runs.map fun r => r.branches.map (·.depth)) = .ok [[0, 1, 2], [0, 1]] := by
    decide +kernel
  obtain ⟨s, hs, hdepths⟩ := map_eq_ok.1 hrun
  obtain ⟨-, halone, hrecord⟩ := runs_apart hs
  exact ⟨s, hs, hdepths, halone 1 _ rfl, hrecord⟩

end Simulation

end OpeningHand
