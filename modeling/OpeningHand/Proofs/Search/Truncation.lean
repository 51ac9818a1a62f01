import OpeningHand.Proofs.Search.Legality

/-!
# A smaller cap only cuts a search short

The cap on the judged hands is one counter that all levels of a search share. Wherever it is reached, the search
judges nothing more, at this level or above, and everything up to there went as it would have gone with more
room. So with a smaller cap a search judges the first hands of those that it judges with a larger one, as many
as the cap allows and the opening hand in any case (`Simulation.runs_of_cap_le`).

The two searches run side by side, part by part (`CutShort`): either a part comes out the same under both caps,
or it has used up its room under the smaller one, without success, and judged the front of what it judges
otherwise. A part that has used up its room leaves none to the parts after it.
-/

namespace OpeningHand

/-- How many more hands a cap allows after some. -/
def Caps.room (cap : Int) (recorded : Nat) : Nat := (cap - recorded).toNat

/-- What follows a hand that fails: the search below it, and if that fails too, the others, which know what
was found below. -/
def Found.beyond (here : Found) (below : Except Fault Found) (others : Found → Except Fault Found) :
    Except Fault Found :=
  match below with
  | .error f => .error f
  | .ok below =>
    if below.success then .ok (here.andThen below)
    else (others below).map (here.andThen below).andThen

/-- The hands judged below come first. -/
theorem Found.branches_of_beyond {here found : Found} {below : Except Fault Found}
    {others : Found → Except Fault Found} (h : here.beyond below others = .ok found) :
    ∃ b, below = .ok b ∧ ∃ after, found.branches = here.branches ++ b.branches ++ after := by
  unfold Found.beyond at h
  split at h
  · cases h
  · rename_i b
    refine ⟨b, rfl, ?_⟩
    split at h
    · obtain rfl := Except.ok.inj h
      exact ⟨[], (List.append_nil _).symm⟩
    · obtain ⟨rest, -, rfl⟩ := map_eq_ok.1 h
      exact ⟨rest.branches, rfl⟩

/-- How a part of a search compares with the same part under a larger cap, if the smaller one leaves room for
some hands. -/
inductive CutShort (room : Nat) : Except Fault Found → Except Fault Found → Prop
  /-- Both stop with the same fault. -/
  | fault (f : Fault) : CutShort room (.error f) (.error f)
  /-- The room is enough. -/
  | whole {a b : Found} (success : a.success = b.success) (branches : a.branches = b.branches)
      (fits : a.branches.length ≤ room) : CutShort room (.ok a) (.ok b)
  /-- The room is used up. What goes on beyond it may stop with a fault. -/
  | cut {a : Found} {y : Except Fault Found} (failed : a.success = false)
      (full : a.branches.length = room) (front : ∀ b, y = .ok b → a.branches <+: b.branches) :
      CutShort room (.ok a) y

namespace CutShort

variable {room : Nat} {x y : Except Fault Found} {a b : Found}

/-- The same hands before both. -/
theorem andThen {f g : Found} (h : CutShort room x y) (hfg : f.branches = g.branches) :
    CutShort (f.branches.length + room) (x.map f.andThen) (y.map g.andThen) := by
  cases h with
  | fault e => exact .fault e
  | whole success branches fits =>
      refine .whole success ?_ ?_
      · show f.branches ++ _ = g.branches ++ _
        rw [hfg, branches]
      · rw [Found.andThen, List.length_append]
        omega
  | cut failed full front =>
      refine .cut failed ?_ fun b hb => ?_
      · rw [Found.andThen, List.length_append, full]
      · obtain ⟨b, rfl, rfl⟩ := map_eq_ok.1 hb
        show f.branches ++ _ <+: g.branches ++ _
        rw [hfg]
        exact (List.prefix_append_right_inj _).2 (front b rfl)

/-- Under the smaller cap the first hands are judged, as far as the room goes. -/
theorem exists_take (h : CutShort room x (.ok b)) :
    ∃ a, x = .ok a ∧ a.branches = b.branches.take room := by
  cases h with
  | whole _ branches fits =>
      rw [branches] at fits
      exact ⟨_, rfl, by rw [branches, List.take_of_length_le fits]⟩
  | cut _ full front => exact ⟨_, rfl, by rw [← full, ← List.prefix_iff_eq_take.1 (front b rfl)]⟩

theorem length_le (h : CutShort room (.ok a) y) : a.branches.length ≤ room := by
  cases h with
  | whole _ _ fits => exact fits
  | cut _ full _ => exact full.le

/-- Unless the room was used up without success, more room changes nothing. -/
theorem exists_same (h : CutShort room (.ok a) y)
    (hroom : ¬ (a.success = false ∧ a.branches.length = room)) :
    ∃ b, y = .ok b ∧ b.branches = a.branches := by
  cases h with
  | whole _ branches _ => exact ⟨_, rfl, branches.symm⟩
  | cut failed full _ => exact absurd ⟨failed, full⟩ hroom

/-- **A hand that fails, the search below it, and the others.** If the search below used up the room, none is
left for the others, whatever they would come to. -/
theorem beyond {here : Found} {recorded : Nat} {k : Int} {others others' : Nat → Except Fault Found}
    (hone : here.branches.length = 1) (hroom : recorded < k)
    (hbelow : CutShort (Caps.room k (recorded + 1)) x y)
    (hothers : ∀ n, CutShort (Caps.room k n) (others n) (others' n))
    (hfull : ∀ n : Nat, k ≤ n → ∃ log, others n = .ok ⟨false, [], log⟩) :
    CutShort (Caps.room k recorded) (here.beyond x fun below => others (recorded + 1 + below.branches.length))
      (here.beyond y fun below => others' (recorded + 1 + below.branches.length)) := by
  have hhere : Caps.room k recorded = here.branches.length + Caps.room k (recorded + 1) := by
    unfold Caps.room
    omega
  rw [hhere]
  cases hbelow with
  | fault f => exact .fault f
  | @whole below below' success branches fits =>
      unfold Found.beyond
      dsimp only
      rw [← success]
      split
      · exact (CutShort.whole success branches fits).andThen rfl
      · have hboth : (here.andThen below).branches = (here.andThen below').branches := by
          rw [Found.andThen, Found.andThen, branches]
        have hrest := (hothers (recorded + 1 + below.branches.length)).andThen hboth
        have hleft : (here.andThen below).branches.length
            + Caps.room k (recorded + 1 + below.branches.length)
              = here.branches.length + Caps.room k (recorded + 1) := by
          rw [Found.andThen, List.length_append]
          unfold Caps.room at fits ⊢
          omega
        rw [hleft] at hrest
        rwa [← branches]
  | @cut below _ failed full front =>
      obtain ⟨log, hlog⟩ := hfull (recorded + 1 + below.branches.length) (by
        unfold Caps.room at full
        omega)
      have hx : here.beyond (.ok below) (fun below => others (recorded + 1 + below.branches.length))
          = .ok ((here.andThen below).andThen ⟨false, [], log⟩) := by
        unfold Found.beyond
        dsimp only
        rw [failed, if_neg Bool.false_ne_true, hlog]
        rfl
      rw [hx]
      refine .cut rfl ?_ fun b hb => ?_
      · simp only [Found.andThen, List.append_nil, List.length_append, full]
      · obtain ⟨below', rfl, after, hafter⟩ := Found.branches_of_beyond hb
        have hfront : here.branches ++ below.branches <+: here.branches ++ below'.branches :=
          (List.prefix_append_right_inj _).2 (front below' rfl)
        rw [hafter]
        simpa [Found.andThen] using hfront.trans (List.prefix_append _ after)

end CutShort

/-! ### The two searches side by side -/

section

variable {c : Condition} {k k' : Int} {limit : Value}

theorem Caps.allowsMore_int (cap : Int) (limit : Value) (recorded : Nat) :
    (Caps.mk (.int cap) limit).allowsMore recorded = .ok (decide ((recorded : Int) < cap)) :=
  Value.isMoreThan_int cap recorded

/-- Without any room left, no hand is judged. -/
theorem tryEach_of_full {depth recorded : Nat} {used : List Card} {b : Board}
    {deeper : Nat → List Card → Board → Except Fault Found} (h : k ≤ recorded) (cards : List Card) :
    ∃ log, tryEach c ⟨.int k, limit⟩ depth used b deeper recorded cards = .ok ⟨false, [], log⟩ := by
  cases cards with
  | nil => exact ⟨[], rfl⟩
  | cons card cards =>
      rw [tryEach, Caps.allowsMore_int, decide_eq_false (not_lt.2 h)]
      exact ⟨_, rfl⟩

/-- The candidates of a board: what is judged below each of them takes its part of the room. -/
theorem cutShort_tryEach (hk : k ≤ k') {depth : Nat} {used : List Card} {b : Board}
    {deeper deeper' : Nat → List Card → Board → Except Fault Found}
    (hdeeper : ∀ n used b, CutShort (Caps.room k n) (deeper n used b) (deeper' n used b))
    (cards : List Card) (recorded : Nat) :
    CutShort (Caps.room k recorded)
      (tryEach c ⟨.int k, limit⟩ depth used b deeper recorded cards)
      (tryEach c ⟨.int k', limit⟩ depth used b deeper' recorded cards) := by
  induction cards generalizing recorded with
  | nil => exact .whole rfl rfl (Nat.zero_le _)
  | cons card cards ih =>
      by_cases hfull : k ≤ recorded
      · obtain ⟨log, hlog⟩ : ∃ log, tryEach c ⟨.int k, limit⟩ depth used b deeper recorded (card :: cards)
            = .ok ⟨false, [], log⟩ := tryEach_of_full hfull _
        have hnone : 0 = Caps.room k recorded := by
          rw [Caps.room]
          omega
        rw [hlog]
        exact .cut rfl hnone fun b _ => List.nil_prefix
      · have hmore : (recorded : Int) < k := not_le.1 hfull
        rw [tryEach, tryEach, Caps.allowsMore_int, Caps.allowsMore_int, decide_eq_true hmore,
          decide_eq_true (hmore.trans_le hk)]
        dsimp only
        generalize Play.playNamed c.aim card.name ⟨b.copy, []⟩ = p
        obtain ⟨f | (_ | played), scene⟩ := p
        · exact .fault f
        · have hothers := (ih recorded).andThen (f := ⟨false, [], scene.log⟩) (g := ⟨false, [], scene.log⟩) rfl
          rwa [List.length_nil, Nat.zero_add] at hothers
        · dsimp only
          split
          · -- the hand after the play meets the condition, and nothing is left to do
            have hone : 1 ≤ Caps.room k recorded := by
              rw [Caps.room]
              omega
            exact .whole rfl rfl hone
          · exact CutShort.beyond rfl hmore (hdeeper (recorded + 1) (used ++ [played]) scene.board) ih
              fun n hn => tryEach_of_full hn cards

theorem cutShort_explore (hk : k ≤ k') (ahead depth recorded : Nat) (used : List Card) (b : Board) :
    CutShort (Caps.room k recorded)
      (explore c ⟨.int k, limit⟩ ahead depth recorded used b)
      (explore c ⟨.int k', limit⟩ ahead depth recorded used b) := by
  -- the cap on the plays is the same for both
  have hdeep : (Caps.mk (.int k) limit).isTooDeep depth = (Caps.mk (.int k') limit).isTooDeep depth := rfl
  induction ahead generalizing depth recorded used b with
  | zero =>
      rw [explore, explore, hdeep]
      split
      · exact .fault _
      · exact .whole rfl rfl (Nat.zero_le _)
      · exact .whole rfl rfl (Nat.zero_le _)
  | succ ahead ih =>
      rw [explore, explore, hdeep]
      split
      · exact .fault _
      · exact .whole rfl rfl (Nat.zero_le _)
      · exact cutShort_tryEach hk (fun n used b => ih (depth + 1) n used b rfl) _ recorded

/-- **The whole search for a condition.** The opening hand is judged whatever the cap is. -/
theorem cutShort_search (c : Condition) (limit : Value) (hk : k ≤ k') (opening : Board) :
    CutShort (max 1 k).toNat (search c ⟨.int k, limit⟩ opening) (search c ⟨.int k', limit⟩ opening) := by
  have hroom : (max 1 k).toNat = 1 + Caps.room k 1 := by
    unfold Caps.room
    omega
  rw [hroom]
  unfold search
  dsimp only
  split
  · exact .whole rfl rfl (Nat.le_add_right 1 _)
  · have hbelow : CutShort (Caps.room k 1) (explore c ⟨.int k, limit⟩ opening.freeAhead 1 1 [] opening)
        (explore c ⟨.int k', limit⟩ opening.freeAhead 1 1 [] opening) := cutShort_explore hk _ _ _ _ _
    exact hbelow.andThen (f := (judge c 0 opening.copy).found []) rfl

end

/-! ### Simulations -/

/-- The run as if only its first hands had been judged. -/
def ConditionRun.cutTo (n : Nat) (r : ConditionRun) : ConditionRun := ⟨r.condition, r.branches.take n⟩

theorem ConditionRun.success_of_cutTo {n : Nat} {r : ConditionRun} (h : (r.cutTo n).success = true) :
    r.success = true := by
  obtain ⟨branch, hbranch, hmeets⟩ := List.any_eq_true.1 h
  exact List.any_eq_true.2 ⟨branch, List.mem_of_mem_take hbranch, hmeets⟩

namespace Simulation

variable {k k' : Int} {limit : Value} {opening : Board}

theorem runFrom_of_cap_le (hk : k ≤ k') {cs : List Condition} {i : Nat} {runs : List ConditionRun}
    {log : List String} (h : runFrom ⟨.int k', limit⟩ opening i cs = .ok (runs, log)) :
    ∃ log', runFrom ⟨.int k, limit⟩ opening i cs
      = .ok (runs.map (·.cutTo (max 1 k).toNat), log') := by
  induction cs generalizing i runs log with
  | nil =>
      obtain ⟨rfl, rfl⟩ := Prod.mk.inj (Except.ok.inj h)
      exact ⟨[], rfl⟩
  | cons c cs ih =>
      obtain ⟨found', runs', log', hfound', hrest, rfl, rfl⟩ := runFrom_cons h
      have hcut := cutShort_search c limit hk opening
      rw [hfound'] at hcut
      obtain ⟨found, hfound, hbranches⟩ := hcut.exists_take
      obtain ⟨log, hlog⟩ := ih hrest
      refine ⟨heading i c :: found.log ++ log, ?_⟩
      rw [runFrom, hfound, hlog, List.map_cons, ConditionRun.cutTo, ← hbranches]
      rfl

/-- A fault that is met only under the larger cap is met beyond the room of the smaller one. -/
theorem exists_full_of_runFrom (hk : k ≤ k') {cs : List Condition} {i : Nat} {runs : List ConditionRun}
    {log : List String} {f : Fault} (h : runFrom ⟨.int k, limit⟩ opening i cs = .ok (runs, log))
    (hf : runFrom ⟨.int k', limit⟩ opening i cs = .error f) :
    ∃ r ∈ runs, r.success = false ∧ r.branches.length = (max 1 k).toNat := by
  induction cs generalizing i runs log with
  | nil => cases hf
  | cons c cs ih =>
      obtain ⟨found, runs', log', hfound, hrest, rfl, rfl⟩ := runFrom_cons h
      have hcut := cutShort_search c limit hk opening
      rw [hfound] at hcut
      by_cases hfull : found.success = false ∧ found.branches.length = (max 1 k).toNat
      · refine ⟨_, List.mem_cons_self, ?_, hfull.2⟩
        rw [ConditionRun.success, ← (sound_search hfound).success]
        exact hfull.1
      · obtain ⟨found', hfound', -⟩ := hcut.exists_same hfull
        rw [runFrom, bind_eq_error, hfound'] at hf
        obtain hf | ⟨_, -, hf⟩ := hf
        · cases hf
        · obtain hf | ⟨_, -, hf⟩ := bind_eq_error.1 hf
          · obtain ⟨r, hr, hno, hlength⟩ := ih hrest hf
            exact ⟨r, List.mem_cons_of_mem _ hr, hno, hlength⟩
          · cases hf

theorem run_of_cap_le (hk : k ≤ k') {cs : List Condition} {s' : Simulation}
    (h : run opening cs ⟨.int k', limit⟩ = .ok s') :
    ∃ s, run opening cs ⟨.int k, limit⟩ = .ok s ∧ s.opening = s'.opening ∧
      s.runs = s'.runs.map (·.cutTo (max 1 k).toNat) := by
  obtain ⟨⟨runs, log⟩, hruns, h⟩ := bind_eq_ok.1 h
  obtain rfl := Except.ok.inj h
  obtain ⟨log', hlog'⟩ := runFrom_of_cap_le hk hruns
  refine ⟨⟨opening.copy, runs.map (·.cutTo (max 1 k).toNat), log'⟩, ?_, rfl, rfl⟩
  rw [run, hlog']
  rfl

/-- What is recorded for a condition is what its search judged. -/
theorem exists_search_of_run {caps : Caps} {cs : List Condition} {s : Simulation}
    (h : run opening cs caps = .ok s) {r : ConditionRun} (hr : r ∈ s.runs) :
    ∃ found, search r.condition caps opening.copy = .ok found ∧ r.branches = found.branches := by
  obtain ⟨⟨runs, log⟩, hruns, h⟩ := bind_eq_ok.1 h
  obtain rfl := Except.ok.inj h
  exact exists_search_of_runFrom hruns hr

theorem length_branches_of_run {cs : List Condition} {s : Simulation}
    (h : run opening cs ⟨.int k, limit⟩ = .ok s) {r : ConditionRun} (hr : r ∈ s.runs) :
    (r.branches.length : Int) ≤ max 1 k := by
  obtain ⟨found, hfound, hbranches⟩ := exists_search_of_run h hr
  have hcut := cutShort_search r.condition limit (le_refl k) opening.copy
  rw [hfound] at hcut
  have hlength := hcut.length_le
  rw [hbranches]
  omega

theorem run_of_success (hk : k ≤ k') {cs : List Condition} {s : Simulation}
    (h : run opening cs ⟨.int k, limit⟩ = .ok s) {r : ConditionRun} (hr : r ∈ s.runs)
    (hsuccess : r.success = true) :
    ∃ s', run opening [r.condition] ⟨.int k', limit⟩ = .ok s' ∧ s'.runs = [r] := by
  obtain ⟨found, hfound, hbranches⟩ := exists_search_of_run h hr
  have hcut := cutShort_search r.condition limit hk opening.copy
  rw [hfound] at hcut
  have hmet : found.success = true := by
    rw [(sound_search hfound).success, ← hbranches]
    exact hsuccess
  obtain ⟨found', hfound', hsame⟩ := hcut.exists_same fun hno => by
    rw [hmet] at hno
    cases hno.1
  refine ⟨⟨opening.copy, [⟨r.condition, found'.branches⟩], heading 0 r.condition :: found'.log ++ []⟩,
    ?_, ?_⟩
  · rw [run, runFrom, hfound']
    rfl
  · rw [hsame, ← hbranches]

/-- A fault that is met only under the larger cap lies beyond the room of the smaller one. -/
theorem exists_full_of_run (hk : k ≤ k') {cs : List Condition} {s : Simulation} {f : Fault}
    (h : run opening cs ⟨.int k, limit⟩ = .ok s) (hf : run opening cs ⟨.int k', limit⟩ = .error f) :
    ∃ r ∈ s.runs, r.success = false ∧ (r.branches.length : Int) = max 1 k := by
  obtain ⟨⟨runs, log⟩, hruns, h⟩ := bind_eq_ok.1 h
  obtain rfl := Except.ok.inj h
  rcases bind_eq_error.1 hf with hf | ⟨_, -, hf⟩
  · obtain ⟨r, hr, hno, hlength⟩ := exists_full_of_runFrom hk hruns hf
    exact ⟨r, hr, hno, by omega⟩
  · cases hf

/-- **A smaller cap only cuts the search short.** If the run under the larger cap ends, so does the one under the
smaller cap, and for each condition it judges the first hands of the same list, as many as its cap says and
at least the opening hand. No run judges more than that for a condition. A condition that is met under the smaller
cap is met under the larger one, by the same hands; and a fault that comes up only under the larger cap lies beyond
the last hand that the smaller one allows for some condition. -/
theorem runs_of_cap_le (hk : k ≤ k') (limit : Value) (opening : Board) (cs : List Condition) :
    (∀ s', run opening cs ⟨.int k', limit⟩ = .ok s' →
      ∃ s, run opening cs ⟨.int k, limit⟩ = .ok s ∧ s.opening = s'.opening ∧
        s.runs = s'.runs.map (·.cutTo (max 1 k).toNat) ∧
        ∀ i, s.conditionResult i = true → s'.conditionResult i = true) ∧
    ∀ s, run opening cs ⟨.int k, limit⟩ = .ok s →
      (∀ r ∈ s.runs, (r.branches.length : Int) ≤ max 1 k) ∧
      (∀ r ∈ s.runs, r.success = true →
        ∃ s', run opening [r.condition] ⟨.int k', limit⟩ = .ok s' ∧ s'.runs = [r]) ∧
      ∀ f, run opening cs ⟨.int k', limit⟩ = .error f →
        ∃ r ∈ s.runs, r.success = false ∧ (r.branches.length : Int) = max 1 k := by
  refine ⟨fun s' h => ?_, fun s h => ⟨fun r => length_branches_of_run h, fun r => run_of_success hk h,
    fun f => exists_full_of_run hk h⟩⟩
  obtain ⟨s, hs, hopening, hruns⟩ := run_of_cap_le hk h
  refine ⟨s, hs, hopening, hruns, fun i hi => ?_⟩
  rw [conditionResult, hruns, List.getElem?_map] at hi
  rw [conditionResult]
  cases hrun : s'.runs[i]? with
  | none =>
      rw [hrun] at hi
      cases hi
  | some r =>
      rw [hrun] at hi
      exact ConditionRun.success_of_cutTo hi

/-- A free card that draws more cards than the deck holds, since its cost is counted as a negative one. -/
def overdrawing : Board :=
  ⟨[plain 1 "X", plain 2 "X"],
    [⟨⟨0, 0⟩, "A", [], some ⟨5, false, some ⟨.banishFromDeck, .amount (-3)⟩, [], none, none⟩⟩], [], [], []⟩

/-- With room for two hands the search for a target ends after the first play, and the one for a card that this
play draws is not cut short. With room for one hand the play that would fail is not made. -/
theorem runs_of_cap_le_restraining :
    (∃ s s', run restraining [targets 1, .leaf ⟨"X", 1, .atLeast, .hand⟩] ⟨.int 10000, .null⟩ = .ok s' ∧
      s'.runs.map (fun r => r.branches.map (·.depth)) = [[0, 1, 2, 1], [0, 1]] ∧
      run restraining [targets 1, .leaf ⟨"X", 1, .atLeast, .hand⟩] ⟨.int 2, .null⟩ = .ok s ∧
      s.runs = s'.runs.map (·.cutTo 2) ∧ s.conditionResult 1 = true ∧ s'.conditionResult 1 = true) ∧
    ∃ s, run overdrawing [targets 1] ⟨.int 1, .null⟩ = .ok s ∧
      run overdrawing [targets 1] ⟨.int 2, .null⟩ = .error .emptyDeck ∧
      ∃ r ∈ s.runs, r.success = false ∧ (r.branches.length : Int) = 1 := by
  refine ⟨?_, ?_⟩
  · have hlarge : (run restraining [targets 1, .leaf ⟨"X", 1, .atLeast, .hand⟩] ⟨.int 10000, .null⟩).map
        (fun s => s.runs.map fun r => r.branches.map (·.depth)) = .ok [[0, 1, 2, 1], [0, 1]] := by
      decide +kernel
    obtain ⟨s', hs', hdepths⟩ := map_eq_ok.1 hlarge
    obtain ⟨s, hs, -, hruns, hresult⟩ := (runs_of_cap_le (k := 2) (by decide) _ _ _).1 s' hs'
    have hsmall : (run restraining [targets 1, .leaf ⟨"X", 1, .atLeast, .hand⟩] ⟨.int 2, .null⟩).map
        (·.conditionResult 1) = .ok true := by
      decide +kernel
    obtain ⟨t, ht, hmet⟩ := map_eq_ok.1 hsmall
    obtain rfl := Except.ok.inj (hs.symm.trans ht)
    exact ⟨s, s', hs', hdepths, hs, hruns, hmet, hresult 1 hmet⟩
  · have hsmall : (run overdrawing [targets 1] ⟨.int 1, .null⟩).map (fun s => s.runs.length) = .ok 1 := by
      decide +kernel
    have hlarge : run overdrawing [targets 1] ⟨.int 2, .null⟩ = .error .emptyDeck := by cbv
    obtain ⟨s, hs, -⟩ := map_eq_ok.1 hsmall
    exact ⟨s, hs, hlarge,
      ((runs_of_cap_le (k := 1) (by decide) _ _ _).2 s hs).2.2 .emptyDeck hlarge⟩

end Simulation

end OpeningHand
