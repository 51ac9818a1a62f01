import OpeningHand.Proofs.Play.Faults
import OpeningHand.Proofs.Search.DepthFirst
import OpeningHand.Proofs.Search.Record
import OpeningHand.Proofs.Search.Termination
import OpeningHand.Proofs.Search.Truncation

/-!
# A smaller cap on the plays only prunes a search

Under a larger cap on the plays a search goes further down between two hands that come one after the other under a
smaller one. If nothing that it finds there meets the condition, the two searches judge the same hands where both
come, in the same order (`PrunedTo`, `prunedTo_search`). So a condition that fails under the larger cap fails under
the smaller one, and what is judged under the smaller cap is what is judged under the larger one, as far as the hands
have no more plays behind them than it allows. This holds as long as the cap on the hands is not reached: the search
that goes further down uses up more of it.

Going further down may also lead to a play that runs out of cards, which no other search comes to. Nothing else stops
a search (`search_error`), and it takes a card whose draws do not count in full (`Board.MayRunOut`). With such a card a
condition may be met under the smaller cap while the search under the larger one stops
(`Simulation.emptyDeck_of_larger_depth`).
-/

namespace OpeningHand

/-- How a part of a search compares with the same part under a larger cap on the plays, if hands with at most so many
plays behind them are judged under the smaller one: if it fails under the larger one, and the cap `k` on the hands is
not reached, it fails under the smaller one, by the same hands as far as they are judged there. -/
def PrunedTo (k : Int) (most : Nat) (x y : Except Fault Found) : Prop :=
  ∀ g, y = .ok g → g.success = false → Caps.line "branch" (.int k) ∉ g.log →
    ∃ f, x = .ok f ∧ f.success = false ∧ f.branches = g.branches.filter (·.depth ≤ most)

section

variable {c : Condition} {k : Int} {most : Nat}

theorem PrunedTo.nothing : PrunedTo k most (.ok .nothing) (.ok .nothing) := by
  rintro g hg - -
  obtain rfl := Except.ok.inj hg
  exact ⟨.nothing, rfl, rfl, rfl⟩

theorem PrunedTo.andThen {x y : Except Fault Found} (h : PrunedTo k most x y) {before before' : Found}
    (hbefore : before.branches = before'.branches.filter (·.depth ≤ most)) :
    PrunedTo k most (x.map before.andThen) (y.map before'.andThen) := by
  intro g hg hfailed hroom
  obtain ⟨rest, hrest, rfl⟩ := map_eq_ok.1 hg
  obtain ⟨f, hf, hno, hbranches⟩ := h rest hrest hfailed fun hl => hroom (List.mem_append_right _ hl)
  refine ⟨before.andThen f, map_eq_ok.2 ⟨f, hf, rfl⟩, hno, ?_⟩
  show before.branches ++ f.branches = (before'.branches ++ rest.branches).filter _
  rw [List.filter_append, hbefore, hbranches]

/-- **A hand that fails, the search below it, and the others.** With the larger cap more hands may be judged below, and
the others come to know of as many hands or more. -/
theorem PrunedTo.beyond {x y : Except Fault Found} (hbelow : PrunedTo k most x y) {here : Found}
    (hhere : here.branches = here.branches.filter (·.depth ≤ most))
    {others others' : Nat → Except Fault Found}
    (hothers : ∀ {n n' : Nat}, n ≤ n' → PrunedTo k most (others n) (others' n')) {recorded recorded' : Nat}
    (hrecorded : recorded ≤ recorded') :
    PrunedTo k most (here.beyond x fun below => others (recorded + below.branches.length))
      (here.beyond y fun below => others' (recorded' + below.branches.length)) := by
  intro g hg hfailed hroom
  rcases y with f | below'
  · cases hg
  · unfold Found.beyond at hg
    dsimp only at hg
    split at hg
    · rename_i hsuccess
      obtain rfl := Except.ok.inj hg
      rw [Found.andThen, hsuccess] at hfailed
      cases hfailed
    · rename_i hno
      obtain ⟨rest, hrest, rfl⟩ := map_eq_ok.1 hg
      obtain ⟨below, rfl, hbelowno, hbranches⟩ := hbelow below' rfl (Bool.eq_false_iff.2 hno) fun hl =>
        hroom (List.mem_append_left _ (List.mem_append_right _ hl))
      have hboth : (here.andThen below).branches = (here.andThen below').branches.filter (·.depth ≤ most) := by
        show here.branches ++ below.branches = (here.branches ++ below'.branches).filter _
        rw [List.filter_append, ← hhere, hbranches]
      have hlength : below.branches.length ≤ below'.branches.length := by
        rw [hbranches]
        exact List.length_filter_le _ _
      have hrestpruned := (hothers (Nat.add_le_add hrecorded hlength)).andThen hboth
      obtain ⟨f, hf, hfno, hfbranches⟩ := hrestpruned _ hg hfailed hroom
      refine ⟨f, ?_, hfno, hfbranches⟩
      unfold Found.beyond
      dsimp only
      rw [hbelowno, if_neg Bool.false_ne_true]
      exact hf

/-- The candidates of a board. As many hands have been judged under the larger cap, or more. -/
theorem prunedTo_tryEach {limit limit' : Value} {depth : Nat} (hdepth : depth ≤ most) {used : List Card}
    {b : Board} {deeper deeper' : Nat → List Card → Board → Except Fault Found}
    (hdeeper : ∀ {n n' : Nat} (used : List Card) (b : Board), n ≤ n' →
      PrunedTo k most (deeper n used b) (deeper' n' used b))
    (cards : List Card) {recorded recorded' : Nat} (hrecorded : recorded ≤ recorded') :
    PrunedTo k most (tryEach c ⟨.int k, limit⟩ depth used b deeper recorded cards)
      (tryEach c ⟨.int k, limit'⟩ depth used b deeper' recorded' cards) := by
  induction cards generalizing recorded recorded' with
  | nil => exact .nothing
  | cons card cards ih =>
      rw [tryEach, tryEach, Caps.allowsMore_int, Caps.allowsMore_int]
      by_cases hroom : (recorded' : Int) < k
      · have hroom' : (recorded : Int) < k := by omega
        rw [decide_eq_true hroom, decide_eq_true hroom']
        dsimp only
        generalize Play.playNamed c.aim card.name ⟨b.copy, []⟩ = p
        obtain ⟨f | (_ | played), scene⟩ := p
        · rintro g ⟨⟩
        · exact (ih hrecorded).andThen rfl
        · dsimp only
          split
          · rename_i hmeets
            intro g hg hfailed
            obtain rfl := Except.ok.inj hg
            rw [hmeets] at hfailed
            cases hfailed
          · have hhere : ((judge c depth scene.board).found scene.log).branches
                = ((judge c depth scene.board).found scene.log).branches.filter (·.depth ≤ most) := by
              show [_] = [_].filter _
              rw [List.filter_singleton, judge, decide_eq_true hdepth]
              rfl
            have hmore := Nat.succ_le_succ hrecorded
            exact (hdeeper (used ++ [played]) scene.board hmore).beyond hhere ih hmore
      · -- the cap on the hands is reached under the larger cap on the plays
        intro g hg _ hwarning
        rw [decide_eq_false hroom] at hg
        obtain rfl := Except.ok.inj hg
        exact absurd (List.mem_singleton_self _) hwarning

/-- Where the smaller cap on the plays is reached, all hands that the larger one leads to have more plays behind
them. -/
theorem prunedTo_explore_of_isTooDeep {caps caps' : Caps} {depth : Nat} (h : caps.isTooDeep depth = .ok true)
    (hdepth : most < depth) (ahead recorded recorded' : Nat) (used : List Card) (b : Board) :
    PrunedTo k most (explore c caps ahead depth recorded used b) (explore c caps' ahead depth recorded' used b) := by
  intro g hg _ _
  refine ⟨.line (Caps.line "depth" caps.depth), ?_, rfl, ?_⟩
  · unfold explore
    rw [h]
  · refine (List.filter_eq_nil_iff.2 fun x hx => ?_).symm
    have hdeep := (depthFirst_explore hg).le_depth x hx
    simpa using hdepth.trans_le hdeep

theorem prunedTo_explore {d : Int} {d' : Option Int} (hd : ∀ e ∈ d', d ≤ e) (ahead : Nat) {depth : Nat}
    (hdepth : 1 ≤ depth) (used : List Card) (b : Board) {recorded recorded' : Nat}
    (hrecorded : recorded ≤ recorded') :
    PrunedTo k (max 0 d).toNat (explore c (.ofInts k (some d)) ahead depth recorded used b)
      (explore c (.ofInts k d') ahead depth recorded' used b) := by
  have hwithin : ∀ {depth : Nat}, (depth : Int) ≤ d →
      (Caps.ofInts k (some d)).isTooDeep depth = .ok false ∧ (Caps.ofInts k d').isTooDeep depth = .ok false := by
    intro depth hin
    refine ⟨by simpa using hin, ?_⟩
    rw [Caps.isTooDeep_ofInts]
    cases d' with
    | none => rfl
    | some e => simpa using hin.trans (hd e rfl)
  have hbeyond : ∀ {depth : Nat}, 1 ≤ depth → ¬ (depth : Int) ≤ d →
      (Caps.ofInts k (some d)).isTooDeep depth = .ok true ∧ (max 0 d).toNat < depth := by
    intro depth h1 hout
    exact ⟨by simpa using hout, by omega⟩
  induction ahead generalizing depth used b recorded recorded' with
  | zero =>
      by_cases hin : (depth : Int) ≤ d
      · obtain ⟨hsmall, hlarge⟩ := hwithin hin
        rw [explore, explore, hsmall, hlarge]
        exact .nothing
      · obtain ⟨hdeep, hmost⟩ := hbeyond hdepth hin
        exact prunedTo_explore_of_isTooDeep hdeep hmost 0 recorded recorded' used b
  | succ ahead ih =>
      by_cases hin : (depth : Int) ≤ d
      · obtain ⟨hsmall, hlarge⟩ := hwithin hin
        have hmost : depth ≤ (max 0 d).toNat := by omega
        rw [explore, explore, hsmall, hlarge]
        exact prunedTo_tryEach hmost (fun used b => ih (Nat.le_succ_of_le hdepth) used b) _ hrecorded
      · obtain ⟨hdeep, hmost⟩ := hbeyond hdepth hin
        exact prunedTo_explore_of_isTooDeep hdeep hmost (ahead + 1) recorded recorded' used b

/-- **The whole search for a condition.** -/
theorem prunedTo_search (c : Condition) {d : Int} {d' : Option Int} (hd : ∀ e ∈ d', d ≤ e) (opening : Board) :
    PrunedTo k (max 0 d).toNat (search c (.ofInts k (some d)) opening) (search c (.ofInts k d') opening) := by
  unfold search
  dsimp only
  split
  · rename_i hmeets
    intro g hg hfailed
    obtain rfl := Except.ok.inj hg
    rw [hmeets] at hfailed
    cases hfailed
  · have hhere : ((judge c 0 opening.copy).found []).branches
        = ((judge c 0 opening.copy).found []).branches.filter (·.depth ≤ (max 0 d).toNat) := rfl
    exact (prunedTo_explore hd opening.freeAhead le_rfl [] opening le_rfl).andThen hhere

end

/-! ### What stops a search -/

/-- Some card that can still be played or drawn has draws that do not count in full. -/
def Board.MayRunOut (b : Board) : Prop := ∃ card ∈ b.stock, ¬ card.CoversDraws

instance (b : Board) : Decidable b.MayRunOut := inferInstanceAs (Decidable (∃ card ∈ b.stock, _))

theorem Board.MayRunOut.of_copy {b : Board} (h : b.copy.MayRunOut) : b.MayRunOut := by
  obtain ⟨card, hcard, hdraws⟩ := h
  have hstock : b.copy.stock = b.stock.map (Card.rename b.shifted) := by
    rw [Board.copy_eq]
    exact List.map_append.symm
  rw [hstock] at hcard
  obtain ⟨d, hd, rfl⟩ := List.mem_map.1 hcard
  exact ⟨d, hd, hdraws⟩

/-- Plays bring no such card. -/
theorem Board.LeadsTo.mayRunOut {b b' : Board} (h : b.LeadsTo b') (h' : b'.MayRunOut) : b.MayRunOut := by
  obtain ⟨c, name, played, scene, htries, rfl⟩ := h
  obtain ⟨card, hcard, hdraws⟩ := h'
  have hstock := htries.plays.2.1.stock.subset hcard
  refine .of_copy ⟨card, ?_, hdraws⟩
  rcases List.mem_append.1 hstock with hhand | hdeck
  · exact List.mem_append_left _ ((without_sublist _ _).subset hhand)
  · exact List.mem_append_right _ hdeck

section

variable {c : Condition} {k : Int} {limit : Option Int} {f : Fault}

theorem tryEach_error {depth recorded : Nat} {used : List Card} {b : Board}
    {deeper : Nat → List Card → Board → Except Fault Found}
    (hdeeper : ∀ {n used b'}, b.LeadsTo b' → deeper n used b' = .error f → f = .emptyDeck ∧ b'.MayRunOut)
    {cards : List Card} (h : tryEach c (.ofInts k limit) depth used b deeper recorded cards = .error f) :
    f = .emptyDeck ∧ b.MayRunOut := by
  induction cards generalizing recorded with
  | nil => cases h
  | cons card cards ih =>
      unfold tryEach at h
      rw [Caps.allowsMore_ofInts] at h
      split at h
      · rename_i hmore
        cases hmore
      · cases h
      · split at h
        · rename_i f' scene hplay
          obtain rfl := Except.error.inj h
          obtain ⟨hf, card, hcard, hdraws⟩ := Play.playNamed_error hplay
          exact ⟨hf, .of_copy ⟨card, List.mem_append_left _ hcard, hdraws⟩⟩
        · exact ih (map_eq_error.1 h)
        · rename_i played scene hplay
          have hleads : b.LeadsTo scene.board := Tries.leadsTo hplay
          dsimp only at h
          split at h
          · cases h
          · split at h
            · rename_i hbelow
              obtain rfl := Except.error.inj h
              obtain ⟨hf, hdraws⟩ := hdeeper hleads hbelow
              exact ⟨hf, hleads.mayRunOut hdraws⟩
            · split at h
              · cases h
              · exact ih (map_eq_error.1 h)

theorem explore_error {ahead depth recorded : Nat} {used : List Card} {b : Board}
    (h : explore c (.ofInts k limit) ahead depth recorded used b = .error f) :
    f = .emptyDeck ∧ b.MayRunOut := by
  induction ahead generalizing depth recorded used b with
  | zero =>
      rw [explore, Caps.isTooDeep_ofInts] at h
      split at h
      · rename_i hdeep
        cases hdeep
      · cases h
      · cases h
  | succ ahead ih =>
      rw [explore, Caps.isTooDeep_ofInts] at h
      split at h
      · rename_i hdeep
        cases hdeep
      · cases h
      · exact tryEach_error (fun _ hbelow => ih hbelow) h

/-- **Only a card whose draws do not count in full can stop a search**, for want of cards. -/
theorem search_error {opening : Board} (h : search c (.ofInts k limit) opening = .error f) :
    f = .emptyDeck ∧ opening.MayRunOut := by
  unfold search at h
  dsimp only at h
  split at h
  · cases h
  · exact explore_error (map_eq_error.1 h)

end

/-! ### Runs -/

/-- The run as if only hands with at most so many plays behind them had been judged. -/
def ConditionRun.upTo (most : Nat) (r : ConditionRun) : ConditionRun :=
  ⟨r.condition, r.branches.filter (·.depth ≤ most)⟩

namespace Simulation

theorem exists_search_of_run_singleton {caps : Caps} {opening : Board} {c : Condition} {s : Simulation}
    (h : run opening [c] caps = .ok s) : ∃ found, search c caps opening.copy = .ok found ∧
      s = ⟨opening.copy, [⟨c, found.branches⟩], heading 0 c :: found.log⟩ ∧
      s.conditionResult 0 = found.success := by
  obtain ⟨found, hfound, hresult, -⟩ := run_getElem? (i := 0) h rfl
  rw [run_singleton, hfound] at h
  exact ⟨found, hfound, (Except.ok.inj h).symm, hresult⟩

/-- **A smaller cap on the plays only prunes the search.** Take two runs for one condition under two caps on the plays,
or none for the larger one, where the cap on the hands is not reached. If the condition is met under the smaller cap,
it is met under the larger one. If it fails under the larger one, it fails under the smaller one, and there just those
of the same hands are judged, in the same order, that have no more plays behind them than the smaller cap says. A run
under any caps comes to its end, unless some card in the opening hand and deck has draws that do not count in full, and
then it can only run out of cards. -/
theorem runs_of_depth_le (k : Int) {d : Int} {d' : Option Int} (hd : ∀ e ∈ d', d ≤ e) (opening : Board)
    (c : Condition) :
    (∀ s', run opening [c] (.ofInts k d') = .ok s' → Caps.line "branch" (.int k) ∉ s'.log →
      (s'.conditionResult 0 = false → ∃ s, run opening [c] (.ofInts k (some d)) = .ok s ∧
        s.opening = s'.opening ∧ s.conditionResult 0 = false ∧
        s.runs = s'.runs.map (·.upTo (max 0 d).toNat)) ∧
      ∀ s, run opening [c] (.ofInts k (some d)) = .ok s → s.conditionResult 0 = true →
        s'.conditionResult 0 = true) ∧
    ∀ limit f, run opening [c] (.ofInts k limit) = .error f → f = .emptyDeck ∧ opening.MayRunOut := by
  have hfails : ∀ s', run opening [c] (.ofInts k d') = .ok s' → Caps.line "branch" (.int k) ∉ s'.log →
      s'.conditionResult 0 = false → ∃ s, run opening [c] (.ofInts k (some d)) = .ok s ∧
        s.opening = s'.opening ∧ s.conditionResult 0 = false ∧
        s.runs = s'.runs.map (·.upTo (max 0 d).toNat) := by
    intro s' hs' hroom hfailed
    obtain ⟨g, hg, rfl, hresult⟩ := exists_search_of_run_singleton hs'
    obtain ⟨f, hf, hno, hbranches⟩ := prunedTo_search c hd opening.copy g hg (hresult.symm.trans hfailed)
      fun hl => hroom (List.mem_cons_of_mem _ hl)
    have hs := run_singleton opening c (.ofInts k (some d))
    rw [hf] at hs
    obtain ⟨f', hf', -, hresult'⟩ := exists_search_of_run_singleton hs
    obtain rfl := Except.ok.inj (hf.symm.trans hf')
    refine ⟨_, hs, rfl, hresult'.trans hno, ?_⟩
    show [ConditionRun.mk c f.branches] = [ConditionRun.mk c _]
    rw [hbranches]
  refine ⟨fun s' hs' hroom => ⟨hfails s' hs' hroom, fun s hs hmet => ?_⟩, fun limit f hf => ?_⟩
  · by_contra hno
    obtain ⟨t, ht, -, hfailed, -⟩ := hfails s' hs' hroom (Bool.eq_false_iff.2 hno)
    obtain rfl := Except.ok.inj (hs.symm.trans ht)
    rw [hmet] at hfailed
    cases hfailed
  · rw [run_singleton] at hf
    obtain ⟨hf, hdraws⟩ := search_error (map_eq_error.1 hf)
    exact ⟨hf, hdraws.of_copy⟩

/-- A card that wants to be the first draw and one that forbids further draws: with a cap of one play the hand after
both is left out. -/
theorem runs_of_depth_le_restraining :
    ∃ s s', run restraining [targets 1] (.ofInts 10000 none) = .ok s' ∧
      s'.runs.map (fun r => r.branches.map (·.depth)) = [[0, 1, 2, 1]] ∧
      run restraining [targets 1] (.ofInts 10000 (some 1)) = .ok s ∧ s.conditionResult 0 = false ∧
      s.runs = s'.runs.map (·.upTo 1) ∧ s.runs.map (fun r => r.branches.map (·.depth)) = [[0, 1, 1]] := by
  have hlarge : (run restraining [targets 1] (.ofInts 10000 none)).map (fun s =>
      (s.runs.map fun r => r.branches.map (·.depth),
        s.runs.map fun r => (r.upTo 1).branches.map (·.depth),
        s.conditionResult 0, decide (Caps.line "branch" (.int 10000) ∉ s.log)))
        = .ok ([[0, 1, 2, 1]], [[0, 1, 1]], false, true) := by
    decide +kernel
  obtain ⟨s', hs', hshown⟩ := map_eq_ok.1 hlarge
  simp only [Prod.mk.injEq] at hshown
  obtain ⟨hdepths, hpruned, hfailed, hroom⟩ := hshown
  have hnone : ∀ e ∈ (none : Option Int), (1 : Int) ≤ e := fun e he => by cases he
  obtain ⟨s, hs, -, hno, hruns⟩ :=
    ((runs_of_depth_le 10000 hnone restraining (targets 1)).1 s' hs' (of_decide_eq_true hroom)).1 hfailed
  refine ⟨s, s', hs', hdepths, hs, hno, hruns, ?_⟩
  rw [hruns, List.map_map]
  exact hpruned

/-- A free card that draws two cards, under a cost that is counted as a negative one or under none. -/
def doubler (number : Nat) (name : String) (cost : Option Cost) : Card :=
  ⟨⟨number, 0⟩, name, [], some ⟨2, false, cost, [], none, none⟩⟩

/-- A card that draws one card and a card that draws two, over a target and a card that draws two but needs one. -/
def overreaching : Board :=
  ⟨[plain 3 "T", doubler 2 "O" (some ⟨.banishFromDeck, .amount (-1)⟩)], [drawer 0 none, doubler 1 "B" none],
    [], [], []⟩

/-- **A larger cap on the plays may lead to a play that runs out of cards.** With one play the second card draws the
target. With two plays, the first card has drawn the card with the negative cost by then, which is usable over a deck
of one card, and draws two. -/
theorem emptyDeck_of_larger_depth :
    AllDifferent overreaching.cards ∧
      (∃ s, run overreaching [targets 1] (.ofInts 10000 (some 1)) = .ok s ∧
        Caps.line "branch" (.int 10000) ∉ s.log ∧ s.conditionResult 0 = true) ∧
      run overreaching [targets 1] (.ofInts 10000 (some 2)) = .error .emptyDeck ∧
      run overreaching [targets 1] (.ofInts 10000 none) = .error .emptyDeck := by
  have hsmall : (run overreaching [targets 1] (.ofInts 10000 (some 1))).map (fun s =>
      (decide (Caps.line "branch" (.int 10000) ∉ s.log), s.conditionResult 0)) = .ok (true, true) := by
    decide +kernel
  obtain ⟨s, hs, hshown⟩ := map_eq_ok.1 hsmall
  simp only [Prod.mk.injEq] at hshown
  exact ⟨by decide, ⟨s, hs, of_decide_eq_true hshown.1, hshown.2⟩, by cbv, by cbv⟩

end Simulation

end OpeningHand
