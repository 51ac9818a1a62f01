import OpeningHand.Proofs.Trial.Dealing
import Mathlib.Data.List.Permutation

/-!
# Longer runs and workers

The seeds of a run of trials come from one generator that the number of trials does not touch, so a longer run has the
seeds of a shorter one and more after them (`Twister.draws_take`). A trial reads nothing but the template, the
conditions, its own seed and settings that say neither how many trials there are nor how many workers.

With more than one worker the trials are the tasks of a pool: the workers take them in order, are done with them in any
order, and the results are read in order again (`Pool.Step`, `Pool.collected`). At every step of every schedule a task
that is done holds what its trial finds by itself (`Pool.Fits`), so a pool comes to what one trial after the other
finds, and each can be brought there (`Pool.collects_iff`).

Together: a run with fewer trials is the beginning of the run, however many workers each of them has
(`Settings.finds_fewer`).
-/

namespace OpeningHand

open Relation

/-! ### Seeds -/

namespace Twister

/-- **More draws only go on.** -/
theorem draws_take (k : Nat) {n m : Nat} (h : n ≤ m) (t : Twister) : (draws k m t).take n = draws k n t := by
  induction n generalizing m t with
  | zero => exact List.take_zero
  | succ n ih =>
      obtain ⟨m, rfl⟩ := Nat.exists_eq_add_one_of_ne_zero (Nat.ne_zero_of_lt h)
      rw [draws, draws, List.take_succ_cons, ih (Nat.le_of_succ_le_succ h)]

theorem length_draws (k n : Nat) (t : Twister) : (draws k n t).length = n := by
  induction n generalizing t with
  | zero => rfl
  | succ n ih => rw [draws, List.length_cons, ih]

end Twister

/-! ### Pools of workers -/

/-- A task of a pool: it waits for a worker, some worker is at it, or it is done. -/
inductive Task (ι α : Type) where
  | waiting (job : ι)
  | running (job : ι)
  | done (result : Except Fault α)

namespace Task

variable {ι α : Type}

/-- Whether a worker is at the task. -/
def isRunning : Task ι α → Bool
  | running _ => true
  | _ => false

/-- How many steps of a pool the task still takes. -/
def stepsLeft : Task ι α → Nat
  | waiting _ => 2
  | running _ => 1
  | done _ => 0

end Task

namespace Pool

variable {ι α : Type} {work : ι → Except Fault α} {workers : Int} {jobs : List ι} {tasks tasks' : List (Task ι α)}

/-- One step of so many workers: one that is free takes the first task that waits, or one of them finishes its task. -/
inductive Step (work : ι → Except Fault α) (workers : Int) : List (Task ι α) → List (Task ι α) → Prop
  | start {before after : List (Task ι α)} {job : ι} (hfree : (before ++ after).countP (·.isRunning) < workers)
      (hfirst : ∀ job', .waiting job' ∉ before) :
      Step work workers (before ++ .waiting job :: after) (before ++ .running job :: after)
  | finish {before after : List (Task ι α)} {job : ι} :
      Step work workers (before ++ .running job :: after) (before ++ .done (work job) :: after)

/-- A pool that has begun on some jobs. -/
def Reaches (work : ι → Except Fault α) (workers : Int) (jobs : List ι) (tasks : List (Task ι α)) : Prop :=
  ReflTransGen (Step work workers) (jobs.map .waiting) tasks

/-- The results in the order of the tasks, or the first fault among them; nothing as long as the next one to be read is
not there. -/
def collected : List (Task ι α) → Option (Except Fault (List α))
  | [] => some (.ok [])
  | .done (.ok a) :: tasks => (collected tasks).map fun r => r.map (a :: ·)
  | .done (.error f) :: _ => some (.error f)
  | _ => none

/-- A task fits its job: what it holds when it is done is the result of the job. -/
inductive Fits (work : ι → Except Fault α) : ι → Task ι α → Prop
  | waiting (job : ι) : Fits work job (.waiting job)
  | running (job : ι) : Fits work job (.running job)
  | done (job : ι) : Fits work job (.done (work job))

theorem forall₂_waiting (work : ι → Except Fault α) (jobs : List ι) :
    List.Forall₂ (Fits work) jobs (jobs.map .waiting) :=
  List.forall₂_map_right_iff.2 (List.forall₂_same.2 fun job _ => .waiting job)

/-- One task changes and fits as it did, and so do the others. -/
theorem forall₂_change {before after : List (Task ι α)} {task task' : Task ι α}
    (htask : ∀ job, Fits work job task → Fits work job task')
    (h : List.Forall₂ (Fits work) jobs (before ++ task :: after)) :
    List.Forall₂ (Fits work) jobs (before ++ task' :: after) := by
  induction before generalizing jobs with
  | nil =>
      cases h with
      | cons hfirst hrest => exact .cons (htask _ hfirst) hrest
  | cons _ before ih =>
      cases h with
      | cons hfirst hrest => exact .cons hfirst (ih hrest)

theorem Step.fits (hstep : Step work workers tasks tasks') (h : List.Forall₂ (Fits work) jobs tasks) :
    List.Forall₂ (Fits work) jobs tasks' := by
  cases hstep with
  | start => exact forall₂_change (fun _ hfits => by cases hfits; exact .running _) h
  | finish => exact forall₂_change (fun _ hfits => by cases hfits; exact .done _) h

/-- **Whatever the schedule, the tasks fit the jobs.** -/
theorem Reaches.fits (h : Reaches work workers jobs tasks) : List.Forall₂ (Fits work) jobs tasks := by
  induction h with
  | refl => exact forall₂_waiting work jobs
  | tail _ hstep ih => exact hstep.fits ih

/-- What is collected is what one job after the other gives. -/
theorem eq_of_collected (hfits : List.Forall₂ (Fits work) jobs tasks) {r : Except Fault (List α)}
    (h : collected tasks = some r) : r = jobs.mapM work := by
  induction hfits generalizing r with
  | nil => exact (Option.some.inj h).symm
  | @cons job task jobs tasks hfirst hrest ih =>
      rw [List.mapM_cons]
      cases hfirst with
      | waiting | running => cases h
      | done =>
          cases hwork : work job with
          | error f =>
              rw [hwork] at h
              exact (Option.some.inj h).symm
          | ok a =>
              rw [hwork] at h
              obtain ⟨r', hr', rfl⟩ := Option.map_eq_some_iff.1 h
              rw [← ih hr']
              cases r' <;> rfl

/-! Until all is collected a step is possible, and each step brings the end nearer. -/

theorem Step.sum_stepsLeft_lt (h : Step work workers tasks tasks') :
    (tasks'.map (·.stepsLeft)).sum < (tasks.map (·.stepsLeft)).sum := by
  cases h <;> simp [Task.stepsLeft]

/-- Where no worker is at work and something is missing, some task waits. -/
theorem exists_waiting (hidle : ∀ task ∈ tasks, task.isRunning = false) (h : collected tasks = none) :
    ∃ before job after, tasks = before ++ .waiting job :: after ∧ ∀ job', .waiting job' ∉ before := by
  induction tasks with
  | nil => cases h
  | cons task tasks ih =>
      cases task with
      | waiting job => exact ⟨[], job, tasks, rfl, fun _ => List.not_mem_nil⟩
      | running job => cases hidle _ (.head _)
      | done result =>
          cases result with
          | error f => cases h
          | ok a =>
              obtain ⟨before, job, after, rfl, hfirst⟩ :=
                ih (fun task htask => hidle task (.tail _ htask)) (Option.map_eq_none_iff.1 h)
              refine ⟨.done (.ok a) :: before, job, after, rfl, fun job' hjob' => ?_⟩
              cases hjob' with
              | tail _ hjob' => exact hfirst job' hjob'

theorem exists_step (work : ι → Except Fault α) (hworkers : 0 < workers) (h : collected tasks = none) :
    ∃ tasks', Step work workers tasks tasks' := by
  by_cases hidle : ∀ task ∈ tasks, task.isRunning = false
  · obtain ⟨before, job, after, rfl, hfirst⟩ := exists_waiting hidle h
    have hnone : (before ++ after).countP (·.isRunning) = 0 := by
      refine List.countP_eq_zero.2 fun task htask => ?_
      rw [hidle task (((List.sublist_cons_self _ after).append_left before).subset htask)]
      exact Bool.false_ne_true
    exact ⟨_, .start (by rwa [hnone]) hfirst⟩
  · push Not at hidle
    obtain ⟨task, htask, hrunning⟩ := hidle
    obtain ⟨before, after, rfl⟩ := List.append_of_mem htask
    cases task with
    | running job => exact ⟨_, .finish⟩
    | waiting | done => cases hrunning rfl

/-- However far a pool with workers has got, it can be brought to an end. -/
theorem exists_collected (work : ι → Except Fault α) (hworkers : 0 < workers) (tasks : List (Task ι α)) :
    ∃ tasks' r, ReflTransGen (Step work workers) tasks tasks' ∧ collected tasks' = some r := by
  induction hleft : (tasks.map (·.stepsLeft)).sum using Nat.strong_induction_on generalizing tasks with
  | h left ih =>
      cases hcollected : collected tasks with
      | some r => exact ⟨tasks, r, .refl, hcollected⟩
      | none =>
          obtain ⟨next, hstep⟩ := exists_step work hworkers hcollected
          obtain ⟨tasks', r, hsteps, hr⟩ := ih _ (hleft ▸ hstep.sum_stepsLeft_lt) next rfl
          exact ⟨tasks', r, .head hstep hsteps, hr⟩

/-- **A pool comes to what one job after the other gives, and to nothing else.** -/
theorem collects_iff (hworkers : 0 < workers) {r : Except Fault (List α)} :
    (∃ tasks, Reaches work workers jobs tasks ∧ collected tasks = some r) ↔ r = jobs.mapM work := by
  constructor
  · rintro ⟨tasks, hreaches, hcollected⟩
    exact eq_of_collected hreaches.fits hcollected
  · rintro rfl
    obtain ⟨tasks, r, hsteps, hcollected⟩ := exists_collected work hworkers (jobs.map .waiting)
    obtain rfl := eq_of_collected (Reaches.fits hsteps) hcollected
    exact ⟨tasks, hsteps, hcollected⟩

end Pool

/-! ### Runs of trials -/

namespace Settings

variable {input : DeckFile} {settings : Settings} {sims : List Simulation} {seed n m workers workers' : Int}

theorem checkWorkers_of_int (hworkers : settings .workers = .int workers) : settings.checkWorkers = .ok () := by
  rw [checkWorkers, hworkers, Value.isMoreThan_int]
  rfl

/-- What a run with a number of workers comes to. -/
theorem runTrials_eq_ok (hworkers : settings .workers = .int workers) : runTrials input settings = .ok sims ↔
    ∃ drafts cards seeds, Given.toDrafts input.conditions = .ok drafts ∧ settings.template input.deck = .ok cards ∧
      trialSeeds settings = .ok seeds ∧
      (seeds.mapM fun (s : Nat) => runTrial cards input.deck.faces.length drafts s settings) = .ok sims := by
  rw [runTrials, bind_eq_ok]
  constructor
  · rintro ⟨drafts, hdrafts, h⟩
    obtain ⟨cards, seeds, hcards, hseeds, -, hsims⟩ := runTrialsWith_eq_ok.1 h
    exact ⟨drafts, cards, seeds, hdrafts, hcards, hseeds, hsims⟩
  · rintro ⟨drafts, cards, seeds, hdrafts, hcards, hseeds, hsims⟩
    exact ⟨drafts, hdrafts,
      runTrialsWith_eq_ok.2 ⟨cards, seeds, hcards, hseeds, checkWorkers_of_int hworkers, hsims⟩⟩

/-- What a run may find. One worker does the trials one after the other; more of them are a pool with the trials as
its tasks. -/
inductive Finds (settings : Settings) (input : DeckFile) : List Simulation → Prop
  | alone {workers : Int} {sims : List Simulation} (hworkers : settings .workers = .int workers) (hone : workers ≤ 1)
      (h : runTrials input settings = .ok sims) : Finds settings input sims
  | together {workers : Int} {drafts : List Draft} {cards : List Card} {seeds : List Nat}
      {tasks : List (Task Nat Simulation)} {sims : List Simulation} (hworkers : settings .workers = .int workers)
      (hmore : 1 < workers) (hdrafts : Given.toDrafts input.conditions = .ok drafts)
      (hcards : settings.template input.deck = .ok cards) (hseeds : trialSeeds settings = .ok seeds)
      (hreaches : Pool.Reaches (fun (s : Nat) => runTrial cards input.deck.faces.length drafts s settings) workers
        seeds tasks)
      (hcollected : Pool.collected tasks = some (.ok sims)) : Finds settings input sims

/-- The number of workers does not change what is found. -/
theorem finds_iff (hworkers : settings .workers = .int workers) :
    settings.Finds input sims ↔ runTrials input settings = .ok sims := by
  constructor
  · intro h
    cases h with
    | alone _ _ h => exact h
    | together _ _ hdrafts hcards hseeds hreaches hcollected =>
        exact (runTrials_eq_ok hworkers).2
          ⟨_, _, _, hdrafts, hcards, hseeds, (Pool.eq_of_collected hreaches.fits hcollected).symm⟩
  · intro h
    rcases le_or_gt workers 1 with hone | hmore
    · exact .alone hworkers hone h
    · obtain ⟨drafts, cards, seeds, hdrafts, hcards, hseeds, hsims⟩ := (runTrials_eq_ok hworkers).1 h
      obtain ⟨tasks, hreaches, hcollected⟩ := (Pool.collects_iff (one_pos.trans hmore)).2 hsims.symm
      exact .together hworkers hmore hdrafts hcards hseeds hreaches hcollected

/-! ### Longer and shorter runs -/

/-- The settings with a seed, a number of trials and a number of workers. -/
def running (settings : Settings) (seed n workers : Int) : Settings :=
  ((settings.set .seed (.int seed)).set .iterations (.int n)).set .workers (.int workers)

theorem template_running (deck : DeckList) : (settings.running seed n workers).template deck = settings.template deck :=
  rfl

theorem trialSeeds_running :
    trialSeeds (settings.running seed n workers) = .ok (Twister.draws 63 n.toNat (.ofSeed seed)) := rfl

/-- A trial reads none of the three. -/
theorem runTrial_running (template : List Card) (listed : Nat) (drafts : List Draft) (s : Int) :
    runTrial template listed drafts s (settings.running seed n workers) = runTrial template listed drafts s settings :=
  rfl

/-- What a run comes to, said without the number of workers; the number of trials is that of the seeds. -/
theorem runTrials_running_eq_ok : runTrials input (settings.running seed n workers) = .ok sims ↔
    ∃ drafts cards, Given.toDrafts input.conditions = .ok drafts ∧ settings.template input.deck = .ok cards ∧
      ((Twister.draws 63 n.toNat (.ofSeed seed)).mapM fun (s : Nat) =>
        runTrial cards input.deck.faces.length drafts s settings) = .ok sims := by
  rw [runTrials_eq_ok rfl, trialSeeds_running]
  simp only [template_running, runTrial_running, Except.ok.injEq]
  constructor
  · rintro ⟨drafts, cards, _, hdrafts, hcards, rfl, hsims⟩
    exact ⟨drafts, cards, hdrafts, hcards, hsims⟩
  · rintro ⟨drafts, cards, hdrafts, hcards, hsims⟩
    exact ⟨drafts, cards, _, hdrafts, hcards, rfl, hsims⟩

/-- **A run with fewer trials is the beginning of the run.** However many workers found the simulations of some number
of trials, with fewer trials and any number of workers the first of them are found again, in the same order, and
nothing else can be found. -/
theorem finds_fewer (hle : n ≤ m) (h : (settings.running seed m workers).Finds input sims) :
    runTrials input (settings.running seed m workers) = .ok sims ∧ sims.length = m.toNat ∧
      runTrials input (settings.running seed n workers') = .ok (sims.take n.toNat) ∧
      ∀ found, (settings.running seed n workers').Finds input found ↔ found = sims.take n.toNat := by
  have hruns := (finds_iff rfl).1 h
  obtain ⟨drafts, cards, hdrafts, hcards, hsims⟩ := runTrials_running_eq_ok.1 hruns
  have hlength : sims.length = m.toNat := (length_of_mapM hsims).trans (Twister.length_draws ..)
  have hfewer : runTrials input (settings.running seed n workers') = .ok (sims.take n.toNat) := by
    refine runTrials_running_eq_ok.2 ⟨drafts, cards, hdrafts, hcards, ?_⟩
    rw [← Twister.draws_take 63 (Int.toNat_le_toNat hle)]
    exact mapM_take hsims n.toNat
  refine ⟨hruns, hlength, hfewer, fun found => (finds_iff rfl).trans ?_⟩
  rw [hfewer, Except.ok.injEq, eq_comm]

/-- A deck file that asks for one of two cards. -/
def pairFile : DeckFile := ⟨[("A", ⟨1, [], none⟩), ("B", ⟨1, [], none⟩)], [.document (.text "1+ A")], .null⟩

/-- What it asks for. -/
def pairDrafts : List Draft := [.ofCondition (.leaf ⟨"A", 1, .atLeast, .hand⟩)]

/-- Its two cards. -/
def pairCards : List Card := [⟨⟨0, 0⟩, "A", [], none⟩, ⟨⟨1, 0⟩, "B", [], none⟩]

/-- One card is dealt from a deck of two. -/
def oneOfTwo : Settings := (default.set .deckSize (.int 2)).set .handSize (.int 1)

/-- What a trial with the two cards finds behind the heading of its log: the hand, the deck, whether it is a
success, and the lines. It is one if the card that is asked for is dealt. -/
def pairOutcomes : List (List String × List String × Bool × List String) :=
  [(["A"], ["B"], true, ["Hand (1): A", "Deck: 1 cards", "----------------------------------------",
      "[SIM] condition 0: 1+ A IN HAND", "[BRANCH d=0] hand: A -> PASS"]),
    (["B"], ["A"], false, ["Hand (1): B", "Deck: 1 cards", "----------------------------------------",
      "[SIM] condition 0: 1+ A IN HAND", "[BRANCH d=0] hand: B -> FAIL"])]

/-- A trial from a seed has dealt one of the two cards. -/
def IsPairTrial (seed : Int) (s : Simulation) : Prop :=
  ∃ lines, s.log = ("--- TRIAL seed=" ++ Number.text seed ++ " ---") :: lines ∧
    (s.opening.hand.map (·.name), s.opening.deck.map (·.name), s.success, lines) ∈ pairOutcomes

theorem exists_runTrial_pair (seed : Int) :
    ∃ s, runTrial pairCards 2 pairDrafts seed oneOfTwo = .ok s ∧ IsPairTrial seed s := by
  obtain ⟨shuffled, hperm, hdeal⟩ := exists_shuffled pairCards (.ofSeed seed)
  have hfound : ∃ outcome ∈ pairOutcomes,
      (Simulation.runDrafts (deal pairCards (.ofSeed seed) 1) pairDrafts oneOfTwo.caps).map (fun s =>
        (s.opening.hand.map (·.name), s.opening.deck.map (·.name), s.success,
          (deal pairCards (.ofSeed seed) 1).describe ++ s.log)) = .ok outcome := by
    rw [hdeal]
    -- the last card of the deck is its top
    rcases List.perm_pair.1 hperm with rfl | rfl
    · exact ⟨_, .tail _ (.head _), by decide +kernel⟩
    · exact ⟨_, .head _, by decide +kernel⟩
  obtain ⟨outcome, houtcome, hfound⟩ := hfound
  obtain ⟨s, hs, rfl⟩ := map_eq_ok.1 hfound
  refine ⟨_, bind_eq_ok.2 ⟨1, rfl, bind_eq_ok.2 ⟨(), rfl, bind_eq_ok.2 ⟨s, hs, bind_eq_ok.2 ⟨(), rfl, rfl⟩⟩⟩⟩, ?_⟩
  exact ⟨_, rfl, houtcome⟩

/-- Three trials with four workers, and the first two of them with one. The seeds decide whether the card that is dealt
is the one that is asked for. -/
theorem finds_fewer_two : (2 : Int) ≤ 3 ∧ ∃ sims, (oneOfTwo.running 7 3 4).Finds pairFile sims ∧
    List.Forall₂ (fun (seed : Nat) s => IsPairTrial seed s) (Twister.draws 63 3 (.ofSeed 7)) sims ∧
    sims.length = 3 ∧ runTrials pairFile (oneOfTwo.running 7 2 1) = .ok (sims.take 2) ∧
    ∀ found, (oneOfTwo.running 7 2 1).Finds pairFile found ↔ found = sims.take 2 := by
  have hdrafts : Given.toDrafts pairFile.conditions = .ok pairDrafts := by decide +kernel
  have hsize : oneOfTwo .deckSize = .int 2 := rfl
  have hname : oneOfTwo .fillerName = .text fillerCardName := rfl
  have htags : oneOfTwo .fillerTags = .list (["Empty", "Blank", "Non Engine"].map .text) := rfl
  have hcards : oneOfTwo.template pairFile.deck = .ok pairCards :=
    template_eq_ok hsize hname (tagsOfFiller_of_texts htags) pairFile.deck
  choose sim hsim hpair using exists_runTrial_pair
  have hfinds : (oneOfTwo.running 7 3 4).Finds pairFile _ := (finds_iff rfl).2 <| runTrials_running_eq_ok.2
    ⟨_, _, hdrafts, hcards, mapM_eq_ok (g := fun seed : Nat => sim seed) fun seed _ => hsim seed⟩
  have hle : (2 : Int) ≤ 3 := by decide
  refine ⟨hle, _, hfinds, ?_, (finds_fewer hle hfinds).2⟩
  exact List.forall₂_map_right_iff.2 (List.forall₂_same.2 fun seed _ => hpair seed)

end Settings

end OpeningHand
