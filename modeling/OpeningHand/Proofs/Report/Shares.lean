import OpeningHand.Proofs.Report.Counts

/-!
# Reports add up

Every number of a report is a sum over the simulations: each of them adds a share that depends on nothing but itself
(`Report.count_ofSimulations`). The ledgers make an entry for a key when it first comes, so a number is looked up with
zero in place of a missing entry (`Ledger.number`). Then an update adds to the numbers of its own key and leaves those
of all other keys alone, and so does each of the steps in which a simulation is summed up (`Report.Adds`). The entries
of conditions hold the sums of their texts already (`Report.Counts`); here a missing entry also stands for zero,
because where no entry is, no condition has a node.

So the report of simulations taken together is the sum of the reports on each part of them, and their order does not
matter (`Report.count_append`).
-/

namespace OpeningHand

/-! ### Numbers in ledgers -/

namespace Ledger

variable {α β γ : Type} [DecidableEq α] (m : β → Nat) (start : β)

/-- A number of the value of a key, zero if the key is missing. -/
def number (l : Ledger α β) (key : α) (m : β → Nat) : Nat := ((l.find? key).map m).getD 0

/-- **An update adds to the number of its key**, if it adds to that of a value and new values start from zero. -/
theorem number_adjust (f : β → β) {w : Nat} (hstart : m start = 0) (hf : ∀ b, m (f b) = m b + w)
    (l : Ledger α β) (key other : α) :
    (l.adjust key start f).number other m = l.number other m + if key = other then w else 0 := by
  unfold number
  rw [find?_adjust]
  by_cases h : key = other
  · subst h
    cases l.find? key <;> simp [hf, hstart]
  · rw [if_neg (Ne.symm h), if_neg h, Nat.add_zero]

/-- Updates for a list of entries add up. -/
theorem number_foldl_adjust (k : γ → α) (f : γ → β → β) {w : γ → Nat} (hstart : m start = 0)
    (hf : ∀ e b, m (f e b) = m b + w e) (es : List γ) (l : Ledger α β) (other : α) :
    (es.foldl (fun l e => l.adjust (k e) start (f e)) l).number other m =
      l.number other m + (es.map fun e => if k e = other then w e else 0).sum := by
  induction es generalizing l with
  | nil => rfl
  | cons e es ih =>
      rw [List.foldl_cons, ih, number_adjust m start (f e) hstart (hf e), List.map_cons, List.sum_cons, Nat.add_assoc]

/-- The same update for each key of a list. -/
theorem number_foldl_adjust_const (f : β → β) {n : Nat} (hstart : m start = 0) (hf : ∀ b, m (f b) = m b + n)
    (keys : List α) (l : Ledger α β) (other : α) :
    (keys.foldl (fun l k => l.adjust k start f) l).number other m =
      l.number other m + keys.count other * n := by
  refine (number_foldl_adjust m start id (fun _ => f) hstart (fun _ => hf) keys l other).trans ?_
  congr 1
  induction keys with
  | nil => simp
  | cons k keys ih =>
      rw [List.map_cons, List.sum_cons, ih, List.count_cons, Nat.add_mul, Nat.add_comm]
      by_cases hk : k = other <;> simp [hk]

/-- An update for each different key, which may depend on how often the key occurs. -/
theorem number_foldl_occurrences (f : Nat → β → β) {w : Nat → Nat} (hstart : m start = 0)
    (hf : ∀ n b, m (f n b) = m b + w n) (keys : List α) (l : Ledger α β) (other : α) :
    ((occurrences keys).foldl (fun l e => l.adjust e.1 start (f e.2)) l).number other m =
      l.number other m + if other ∈ keys then w (keys.count other) else 0 := by
  rw [number_foldl_adjust m start Prod.fst (fun e => f e.2) hstart (fun e b => hf e.2 b), occurrences, List.map_map]
  congr 1
  have hsum : ∀ {ks : List α}, ks.Nodup → (ks.map fun k => if k = other then w (keys.count k) else 0).sum
      = if other ∈ ks then w (keys.count other) else 0 := by
    intro ks hks
    induction ks with
    | nil => rfl
    | cons k ks ih =>
        obtain ⟨hk, hrest⟩ := List.nodup_cons.1 hks
        rw [List.map_cons, List.sum_cons, ih hrest]
        by_cases heq : k = other
        · subst heq
          simp [hk]
        · simp [heq, Ne.symm heq]
  refine (hsum (nodup_distinct keys)).trans ?_
  simp only [mem_distinct]

/-- The number of a key that is credited. -/
theorem number_credit (key other : α) (l : Ledger α Nat) :
    (l.credit key).number other id = l.number other id + if key = other then 1 else 0 :=
  number_adjust id 0 (· + 1) rfl (fun _ => rfl) l key other

end Ledger

/-! ### What a simulation adds -/

/-- A place where a report counts cards. -/
inductive CardCount where
  /-- Opening hands with so many copies of a name. -/
  | nameSeen (name : String) (copies : Nat)
  /-- Opening hands with so many cards of a tag. -/
  | tagSeen (tag : Value) (copies : Nat)
  | nameDrawn (name : String)
  | tagDrawn (tag : Value)
  /-- Winning lines that banish so many copies of a name. -/
  | nameBanished (name : String) (copies : Nat)
  | tagBanished (tag : Value) (copies : Nat)
  /-- Winning lines that discard so many copies of a name. -/
  | nameDiscarded (name : String) (copies : Nat)
  | tagDiscarded (tag : Value) (copies : Nat)
  /-- Copies of a free card that winning lines of conditions used. -/
  | freeUsedByCondition (name : String)
  | freeUnusedByCondition (name : String)
  /-- Simulations whose winning lines used a free card and left none. -/
  | freeUsedOverall (name : String)
  | freeUnusedOverall (name : String)

/-- A place where a report counts. -/
inductive Count where
  | iterations
  | successful
  | ofCards (place : CardCount)
  /-- The nodes at the end of a path of texts below the conditions of a text. -/
  | ofCondition (text : String) (path : List String)

namespace Report

/-- The number at a place for cards, zero if there is no entry. -/
def cardCount (r : Report) : CardCount → Nat
  | .nameSeen name copies => r.cardNames.number name (·.seen.number copies id)
  | .tagSeen tag copies => r.cardTags.number tag (·.seen.number copies id)
  | .nameDrawn name => r.cardNames.number name (·.drawn)
  | .tagDrawn tag => r.cardTags.number tag (·.drawn)
  | .nameBanished name copies => r.banishedNames.number name (·.number copies id)
  | .tagBanished tag copies => r.banishedTags.number tag (·.number copies id)
  | .nameDiscarded name copies => r.discardedNames.number name (·.number copies id)
  | .tagDiscarded tag copies => r.discardedTags.number tag (·.number copies id)
  | .freeUsedByCondition name => r.freeCards.number name (·.usedByCondition)
  | .freeUnusedByCondition name => r.freeCards.number name (·.unusedByCondition)
  | .freeUsedOverall name => r.freeCards.number name (·.usedOverall)
  | .freeUnusedOverall name => r.freeCards.number name (·.unusedOverall)

/-- The number at a place, zero if there is no entry. -/
def count (r : Report) : Count → Nat
  | .iterations => r.iterations
  | .successful => r.successful
  | .ofCards place => r.cardCount place
  | .ofCondition text path => ((r.entryAt? text path).map ConditionStat.successes).getD 0

end Report

/-- One if a key occurs so often, and at all. -/
def occursSo {α : Type} [DecidableEq α] (keys : List α) (key : α) (copies : Nat) : Nat :=
  if key ∈ keys ∧ keys.count key = copies then 1 else 0

namespace ConditionRun

/-- What the cards drawn between the hands judged for a condition add. -/
def drawnShare (c : ConditionRun) : CardCount → Nat
  | .nameDrawn name => (namesOf (drawnCards c.branches)).count name
  | .tagDrawn tag => (tagsOf (drawnCards c.branches)).count tag
  | _ => 0

/-- What the free cards of the winning line of a condition add, if there is one. -/
def freeShare (c : ConditionRun) : CardCount → Nat
  | .freeUsedByCondition name => (c.winner?.map fun w => (namesOf w.board.freePlayed).count name).getD 0
  | .freeUnusedByCondition name => (c.winner?.map fun w => (namesOf w.board.freeInHand).count name).getD 0
  | _ => 0

end ConditionRun

/-- What a change of free cards adds that is made for each key of a list. -/
def FreeStat.share (change : FreeStat) (keys : List String) : CardCount → Nat
  | .freeUsedByCondition name => keys.count name * change.usedByCondition
  | .freeUnusedByCondition name => keys.count name * change.unusedByCondition
  | .freeUsedOverall name => keys.count name * change.usedOverall
  | .freeUnusedOverall name => keys.count name * change.unusedOverall
  | _ => 0

/-- What the piles of a winning line add. -/
def Branch.share (w : Branch) : CardCount → Nat
  | .nameBanished name copies => occursSo (namesOf w.board.banished) name copies
  | .tagBanished tag copies => occursSo (tagsOf w.board.banished) tag copies
  | .nameDiscarded name copies => occursSo (namesOf w.board.graveyard) name copies
  | .tagDiscarded tag copies => occursSo (tagsOf w.board.graveyard) tag copies
  | _ => 0

namespace Simulation

/-- The free cards that some winning line left in the hand. -/
def freeUnused (s : Simulation) : List String := s.winners.flatMap fun w => namesOf w.board.freeInHand

/-- The free cards that some winning line played. -/
def freeUsed (s : Simulation) : List String := s.winners.flatMap fun w => namesOf w.board.freePlayed

/-- What the opening hand adds. -/
def openingShare (s : Simulation) : CardCount → Nat
  | .nameSeen name copies => occursSo (namesOf s.opening.hand) name copies
  | .tagSeen tag copies => occursSo (tagsOf s.opening.hand) tag copies
  | _ => 0

/-- What the free cards of all winning lines add together: those that are left, and only if none is, those that are
used. -/
def freeShare (s : Simulation) : CardCount → Nat
  | .freeUnusedOverall name => if name ∈ s.freeUnused then 1 else 0
  | .freeUsedOverall name => if s.freeUnused = [] ∧ name ∈ s.freeUsed then 1 else 0
  | _ => 0

/-- What a simulation adds to a count. -/
def share (s : Simulation) : Count → Nat
  | .iterations => 1
  | .successful => if s.success then 1 else 0
  | .ofCards place => s.openingShare place +
      (s.runs.map fun c => c.drawnShare place + c.freeShare place).sum + s.freeShare place +
      (s.winners.map (·.share place)).sum
  | .ofCondition text path => countOf s.runs text path

/-- The simulations that succeed add one each. -/
theorem sum_share_successful (sims : List Simulation) :
    (sims.map (·.share .successful)).sum = sims.countP (·.success) := by
  have hone : ∀ s : Simulation, s.success = true ↔ s.share .successful ≠ 0 := by simp [share]
  refine (sum_eq_countP_iff hone sims).2 fun s _ => ?_
  rw [share]
  split <;> decide

end Simulation

namespace Report

section

variable {α : Type} [DecidableEq α] (keys : List α) (key : α)

theorem seen_countSeen (l : Ledger α CardStat) (copies : Nat) :
    (countSeen keys l).number key (·.seen.number copies id) =
      l.number key (·.seen.number copies id) + occursSo keys key copies := by
  refine (Ledger.number_foldl_occurrences (·.seen.number copies id) .zero
    (fun n s => { s with seen := s.seen.credit n }) rfl (fun n s => Ledger.number_credit n copies s.seen) keys l key).trans ?_
  rw [occursSo, ite_and]

theorem drawn_countSeen (l : Ledger α CardStat) :
    (countSeen keys l).number key (·.drawn) = l.number key (·.drawn) := by
  refine (Ledger.number_foldl_occurrences (·.drawn) .zero
    (fun n s => { s with seen := s.seen.credit n }) (w := fun _ => 0) rfl (fun _ _ => rfl) keys l key).trans ?_
  rw [ite_self, Nat.add_zero]

theorem seen_countDrawn (l : Ledger α CardStat) (copies : Nat) :
    (countDrawn keys l).number key (·.seen.number copies id) = l.number key (·.seen.number copies id) := by
  refine (Ledger.number_foldl_adjust_const (·.seen.number copies id) .zero
    (fun s => { s with drawn := s.drawn + 1 }) (n := 0) rfl (fun _ => rfl) keys l key).trans ?_
  rw [Nat.mul_zero, Nat.add_zero]

theorem drawn_countDrawn (l : Ledger α CardStat) :
    (countDrawn keys l).number key (·.drawn) = l.number key (·.drawn) + keys.count key := by
  refine (Ledger.number_foldl_adjust_const (·.drawn) .zero
    (fun s => { s with drawn := s.drawn + 1 }) rfl (fun _ => rfl) keys l key).trans ?_
  rw [Nat.mul_one]

theorem number_countPile (l : Ledger α (Ledger Nat Nat)) (copies : Nat) :
    (countPile keys l).number key (·.number copies id) =
      l.number key (·.number copies id) + occursSo keys key copies := by
  refine (Ledger.number_foldl_occurrences (fun s : Ledger Nat Nat => s.number copies id) []
    (fun n s => s.credit n) rfl (fun n s => Ledger.number_credit n copies s) keys l key).trans ?_
  rw [occursSo, ite_and]

end

/-- A change of free cards adds the same to a number of each of their entries. -/
theorem number_countFree (m : FreeStat → Nat) (f : FreeStat → FreeStat) {n : Nat} (hzero : m .zero = 0)
    (hf : ∀ s, m (f s) = m s + n) (keys : List String) (l : Ledger String FreeStat) (key : String) :
    (countFree keys f l).number key m = l.number key m + keys.count key * n :=
  Ledger.number_foldl_adjust_const m .zero f hzero hf keys l key

/-! ### What each step adds -/

/-- A step adds to the numbers of cards what does not depend on the report, and leaves the wins alone. -/
structure Adds (f : Report → Report) (share : CardCount → Nat) : Prop where
  successful : ∀ r, (f r).successful = r.successful
  cardCount : ∀ r place, (f r).cardCount place = r.cardCount place + share place

namespace Adds

theorem congr {f : Report → Report} {v w : CardCount → Nat} (hf : Adds f v) (h : ∀ place, v place = w place) :
    Adds f w := by
  rwa [← funext h]

theorem comp {f g : Report → Report} {v w : CardCount → Nat} (hg : Adds g w) (hf : Adds f v) :
    Adds (fun r => g (f r)) fun place => v place + w place where
  successful r := (hg.successful _).trans (hf.successful r)
  cardCount r place := by rw [hg.cardCount, hf.cardCount, Nat.add_assoc]

/-- Steps for the members of a list add the sum of what each of them adds. -/
theorem foldl {α : Type} {f : Report → α → Report} {w : α → CardCount → Nat}
    (h : ∀ x, Adds (fun r => f r x) (w x)) (xs : List α) :
    Adds (fun r => xs.foldl f r) fun place => (xs.map (w · place)).sum := by
  induction xs with
  | nil => exact ⟨fun _ => rfl, fun _ _ => rfl⟩
  | cons x xs ih => exact (ih.comp (h x)).congr fun _ => List.sum_cons.symm

theorem opening (s : Simulation) : Adds (addOpening s) s.openingShare where
  successful _ := rfl
  cardCount r place := by
    cases place with
    | nameSeen name copies => exact seen_countSeen _ name _ copies
    | tagSeen tag copies => exact seen_countSeen _ tag _ copies
    | nameDrawn name => exact drawn_countSeen _ name _
    | tagDrawn tag => exact drawn_countSeen _ tag _
    | _ => rfl

theorem drawn (c : ConditionRun) : Adds (addDrawn c) c.drawnShare where
  successful _ := rfl
  cardCount r place := by
    cases place with
    | nameSeen name copies => exact seen_countDrawn _ name _ copies
    | tagSeen tag copies => exact seen_countDrawn _ tag _ copies
    | nameDrawn name => exact drawn_countDrawn _ name _
    | tagDrawn tag => exact drawn_countDrawn _ tag _
    | _ => rfl

/-- A change of free cards adds to each of their numbers for every key of a list. -/
theorem countFree {f : FreeStat → FreeStat} {d : FreeStat}
    (hf : ∀ s, f s = ⟨s.usedByCondition + d.usedByCondition, s.unusedByCondition + d.unusedByCondition,
      s.usedOverall + d.usedOverall, s.unusedOverall + d.unusedOverall⟩) (keys : List String) :
    Adds (fun r => { r with freeCards := Report.countFree keys f r.freeCards }) (d.share keys) where
  successful _ := rfl
  cardCount r place := by
    cases place with
    | freeUsedByCondition name =>
        exact number_countFree (·.usedByCondition) f rfl (fun s => by rw [hf]) keys r.freeCards name
    | freeUnusedByCondition name =>
        exact number_countFree (·.unusedByCondition) f rfl (fun s => by rw [hf]) keys r.freeCards name
    | freeUsedOverall name =>
        exact number_countFree (·.usedOverall) f rfl (fun s => by rw [hf]) keys r.freeCards name
    | freeUnusedOverall name =>
        exact number_countFree (·.unusedOverall) f rfl (fun s => by rw [hf]) keys r.freeCards name
    | _ => rfl

theorem freeOfCondition (c : ConditionRun) : Adds (addFreeOfCondition c) c.freeShare := by
  unfold addFreeOfCondition
  cases hw : c.winner? with
  | none => exact ⟨fun _ => rfl, fun r place => by cases place <;> simp [ConditionRun.freeShare, hw]⟩
  | some w =>
      have hused := countFree (f := fun s => { s with usedByCondition := s.usedByCondition + 1 })
        (d := ⟨1, 0, 0, 0⟩) (fun _ => rfl) (namesOf w.board.freePlayed)
      have hunused := countFree (f := fun s => { s with unusedByCondition := s.unusedByCondition + 1 })
        (d := ⟨0, 1, 0, 0⟩) (fun _ => rfl) (namesOf w.board.freeInHand)
      refine (hunused.comp hused).congr fun place => ?_
      cases place <;> simp [ConditionRun.freeShare, FreeStat.share, hw]

theorem freeOverall (s : Simulation) : Adds (addFreeOverall s) s.freeShare := by
  have hcount : ∀ (l : List String) name, (distinct l).count name = if name ∈ l then 1 else 0 := fun l name => by
    rw [(nodup_distinct l).count]
    simp only [mem_distinct]
  unfold addFreeOverall
  by_cases hleft : s.freeUnused = []
  · have hused := countFree (f := fun s => { s with usedOverall := s.usedOverall + 1 })
      (d := ⟨0, 0, 1, 0⟩) (fun _ => rfl) (distinct s.freeUsed)
    have hempty : (distinct s.freeUnused).isEmpty = true := by rw [hleft]; rfl
    rw [Simulation.freeUnused] at hempty
    simp only [hempty, if_true]
    refine hused.congr fun place => ?_
    cases place <;> simp [Simulation.freeShare, FreeStat.share, hcount, hleft]
  · have hunused := countFree (f := fun s => { s with unusedOverall := s.unusedOverall + 1 })
      (d := ⟨0, 0, 0, 1⟩) (fun _ => rfl) (distinct s.freeUnused)
    have hsome : (distinct s.freeUnused).isEmpty = false := by
      cases hl : s.freeUnused with
      | nil => exact absurd hl hleft
      | cons name names => rfl
    rw [Simulation.freeUnused] at hsome
    simp only [hsome, Bool.false_eq_true, if_false]
    refine hunused.congr fun place => ?_
    cases place <;> simp [Simulation.freeShare, FreeStat.share, hcount, hleft]

theorem piles (w : Branch) : Adds (addPiles w) w.share where
  successful _ := rfl
  cardCount r place := by
    cases place with
    | nameBanished name copies => exact number_countPile _ name _ copies
    | tagBanished tag copies => exact number_countPile _ tag _ copies
    | nameDiscarded name copies => exact number_countPile _ name _ copies
    | tagDiscarded tag copies => exact number_countPile _ tag _ copies
    | _ => rfl

/-- The first steps for a simulation. -/
theorem simulation (s : Simulation) : Adds
    (fun r => s.winners.foldl (fun r w => addPiles w r)
      (addFreeOverall s (s.runs.foldl (fun r c => addFreeOfCondition c (addDrawn c r)) (addOpening s r))))
    fun place => s.share (.ofCards place) :=
  (foldl piles s.winners).comp <| (freeOverall s).comp <|
    (foldl (fun c => (freeOfCondition c).comp (drawn c)) s.runs).comp (opening s)

end Adds

/-! ### The counts of a report -/

/-- Crediting conditions leaves the numbers of cards and the wins alone. -/
theorem addCondition_keeps {c : ConditionRun} {r r' : Report} (h : addCondition c r = .ok r') :
    r'.successful = r.successful ∧ r'.cardCount = r.cardCount := by
  obtain ⟨stat, -, rfl⟩ := addCondition_eq_ok.1 h
  exact ⟨rfl, funext fun place => by cases place <;> rfl⟩

/-- **One simulation more** adds its share to the numbers of cards. -/
theorem add_adds {s : Simulation} {r r' : Report} (h : add s r = .ok r') : r'.successful = r.successful ∧
    ∀ place, r'.cardCount place = r.cardCount place + s.share (.ofCards place) := by
  have hcards := Adds.simulation s
  exact foldlM_keeps
    (P := fun r' => r'.successful = r.successful ∧
      ∀ place, r'.cardCount place = r.cardCount place + s.share (.ofCards place))
    (fun hbefore hok => by
      obtain ⟨hwins, hsame⟩ := addCondition_keeps hok
      exact ⟨hwins.trans hbefore.1, fun place => hsame ▸ hbefore.2 place⟩)
    ⟨hcards.successful r, hcards.cardCount r⟩ h

/-- The entries of conditions hold the sums of their texts. Where there is none, no condition has a node. -/
theorem Counts.count_ofCondition {n : Nat} {runs : List ConditionRun} {r : Report} (h : Counts n runs r)
    (htell : TextsTell runs) (t : String) (path : List String) :
    r.count (.ofCondition t path) = countOf runs t path := by
  rw [count]
  cases hstat : r.entryAt? t path with
  | some stat => exact h.successes_eq hstat
  | none =>
      refine (List.sum_eq_zero fun k hk => ?_).symm
      obtain ⟨c, hc, rfl⟩ := List.mem_map.1 hk
      rw [ite_eq_right_iff]
      rintro rfl
      by_contra hne
      have hnodes : c.condition.nodesAt path ≠ 0 := fun hzero => hne (by rw [Condition.credits, hzero, ite_self])
      obtain ⟨stat, hsome⟩ := h.exists_entryAt? htell hc hnodes
      rw [hstat] at hsome
      cases hsome

variable {sims : List Simulation} {r : Report}

/-- The wins of a report, and its numbers of cards as sums of shares. -/
theorem cardCount_ofSimulations (h : ofSimulations sims = .ok r) : r.successful = sims.countP (·.success) ∧
    ∀ place, r.cardCount place = (sims.map (·.share (.ofCards place))).sum := by
  let I := fun (l : List Simulation) (r' : Report) => r'.successful = sims.countP (·.success) ∧
    ∀ place, r'.cardCount place = (l.map (·.share (.ofCards place))).sum
  have hblank : I [] (blank sims.length (sims.countP (·.success))) :=
    ⟨rfl, fun place => by cases place <;> rfl⟩
  refine foldlM_invariant (I := I) (fun hbefore hok => ?_) hblank h
  obtain ⟨hwins, hcards⟩ := add_adds hok
  refine ⟨hwins.trans hbefore.1, fun place => ?_⟩
  rw [hcards, hbefore.2, List.map_append, List.sum_append, List.map_singleton, List.sum_singleton]

/-- **Every number of a report is the sum of the shares of its simulations.** -/
theorem count_ofSimulations (h : ofSimulations sims = .ok r) (htell : TextsTell (sims.flatMap (·.runs)))
    (q : Count) : r.count q = (sims.map (·.share q)).sum := by
  have hcounts := Counts.ofSimulations h
  obtain ⟨hwins, hcards⟩ := cardCount_ofSimulations h
  cases q with
  | iterations =>
      rw [count, hcounts.1]
      simp [Simulation.share]
  | successful => exact hwins.trans (Simulation.sum_share_successful sims).symm
  | ofCards place => exact hcards place
  | ofCondition t path =>
      rw [hcounts.count_ofCondition htell, countOf, List.map_flatMap, List.flatMap_def, List.sum_flatten,
        List.map_map]
      rfl

/-- **Reports add up.** There is a report on simulations whose conditions were read from texts, and if they are taken
together with others, every number is the sum of those of the two reports, a missing entry counting as zero. So the
numbers do not depend on the order of the simulations. -/
theorem count_append {xs ys : List Simulation}
    (hread : ∀ s ∈ xs ++ ys, ∀ c ∈ s.runs, ∃ written, Condition.ofText written = .ok c.condition) :
    ∃ left right whole, ofSimulations xs = .ok left ∧ ofSimulations ys = .ok right ∧
      ofSimulations (xs ++ ys) = .ok whole ∧ (∀ q, whole.count q = left.count q + right.count q) ∧
      ∀ zs, zs.Perm (xs ++ ys) → ∃ r, ofSimulations zs = .ok r ∧ ∀ q, r.count q = whole.count q := by
  have hreport : ∀ {sims : List Simulation}, sims ⊆ xs ++ ys →
      ∃ r, ofSimulations sims = .ok r ∧ ∀ q, r.count q = (sims.map (·.share q)).sum := by
    intro sims hsims
    have hread' : ∀ s ∈ sims, ∀ c ∈ s.runs, ∃ written, Condition.ofText written = .ok c.condition :=
      fun s hs => hread s (hsims hs)
    obtain ⟨r, hr⟩ := exists_ofSimulations_of_ofText hread'
    refine ⟨r, hr, count_ofSimulations hr (textsTell_of_isWritable fun c hc => ?_)⟩
    obtain ⟨s, hs, hc⟩ := List.mem_flatMap.1 hc
    obtain ⟨written, hwritten⟩ := hread' s hs c hc
    exact Condition.isWritable_of_ofText hwritten
  obtain ⟨left, hleft, hxs⟩ := hreport (List.subset_append_left xs ys)
  obtain ⟨right, hright, hys⟩ := hreport (List.subset_append_right xs ys)
  obtain ⟨whole, hwhole, hall⟩ := hreport (List.Subset.refl (xs ++ ys))
  refine ⟨left, right, whole, hleft, hright, hwhole, fun q => ?_, fun zs hperm => ?_⟩
  · rw [hall, hxs, hys, List.map_append, List.sum_append]
  · obtain ⟨r, hr, hzs⟩ := hreport hperm.subset
    refine ⟨r, hr, fun q => ?_⟩
    rw [hzs, hall]
    exact (hperm.map _).sum_eq

open Simulation (plain)

/-- A free card that has another card of the hand discarded and draws two, and then a card of the deck is banished. -/
def trader (number : Nat) : Card :=
  ⟨⟨number, 0⟩, "S", [], some ⟨2, false, some ⟨.discard, .amount 1⟩, [], none, some ⟨.banishFromDeck, .amount 1⟩⟩⟩

/-- A board on which the card draws what is missing. -/
def trading : Board := ⟨[plain 4 "X", plain 3 "B", plain 2 "A"], [trader 0, plain 1 "Y"], [], [], []⟩

/-- Some places where a report on that board counts. -/
def tradedPlaces : List Count :=
  [.iterations, .successful, .ofCards (.nameSeen "Y" 1), .ofCards (.nameDrawn "B"), .ofCards (.nameDiscarded "Y" 1),
    .ofCards (.nameBanished "X" 1), .ofCards (.freeUsedOverall "S"), .ofCondition aAndB.text [],
    .ofCondition aAndB.text ["1+ A IN HAND"]]

/-- Two opening hands hold one card. One of them comes to both of those that are asked for, by a play for which
that card is discarded and another one banished, and the other holds what is asked for on the left. -/
theorem count_append_two :
    ∃ s s' left right whole,
      Simulation.run trading [aAndB] (.ofInts 10000 none) = .ok s ∧
      Simulation.run (holding [plain 0 "A", plain 1 "Y"]) [aAndB] (.ofInts 10000 none) = .ok s' ∧
      ofSimulations [s] = .ok left ∧ ofSimulations [s'] = .ok right ∧ ofSimulations [s, s'] = .ok whole ∧
      tradedPlaces.map left.count = [1, 1, 1, 1, 1, 1, 1, 1, 1] ∧
      tradedPlaces.map right.count = [1, 0, 1, 0, 0, 0, 0, 0, 1] ∧
      tradedPlaces.map whole.count = [2, 1, 2, 1, 1, 1, 1, 1, 2] ∧
      ∃ r, ofSimulations [s', s] = .ok r ∧ ∀ q, r.count q = whole.count q := by
  have hone : (do
      let s ← Simulation.run trading [aAndB] (.ofInts 10000 none)
      let r ← ofSimulations [s]
      pure (tradedPlaces.map r.count) : Except Fault (List Nat)) = .ok [1, 1, 1, 1, 1, 1, 1, 1, 1] := by
    decide +kernel
  have htwo : (do
      let s ← Simulation.run (holding [plain 0 "A", plain 1 "Y"]) [aAndB] (.ofInts 10000 none)
      let r ← ofSimulations [s]
      pure (tradedPlaces.map r.count) : Except Fault (List Nat)) = .ok [1, 0, 1, 0, 0, 0, 0, 0, 1] := by
    decide +kernel
  obtain ⟨s, hs, h⟩ := bind_eq_ok.1 hone
  obtain ⟨left, hleft, h⟩ := bind_eq_ok.1 h
  obtain ⟨s', hs', h'⟩ := bind_eq_ok.1 htwo
  obtain ⟨right, hright, h'⟩ := bind_eq_ok.1 h'
  have hcounts : tradedPlaces.map left.count = _ := Except.ok.inj h
  have hcounts' : tradedPlaces.map right.count = _ := Except.ok.inj h'
  have hread : ∀ t ∈ [s] ++ [s'], ∀ c ∈ t.runs, ∃ written, Condition.ofText written = .ok c.condition := by
    have hwritten : Condition.ofText aAndB.text = .ok aAndB := by decide +kernel
    have hof : ∀ {b t}, Simulation.run b [aAndB] (.ofInts 10000 none) = .ok t →
        ∀ c ∈ t.runs, ∃ written, Condition.ofText written = .ok c.condition := by
      intro b t ht c hc
      have hmem : c.condition ∈ t.runs.map (·.condition) := List.mem_map_of_mem hc
      rw [Simulation.conditions_of_run ht] at hmem
      exact ⟨_, List.mem_singleton.1 hmem ▸ hwritten⟩
    exact List.forall_mem_cons.2 ⟨hof hs, List.forall_mem_singleton.2 (hof hs')⟩
  obtain ⟨left', right', whole, hleft', hright', hboth, hsum, hperm⟩ := count_append hread
  obtain rfl := Except.ok.inj (hleft.symm.trans hleft')
  obtain rfl := Except.ok.inj (hright.symm.trans hright')
  have hwhole : tradedPlaces.map whole.count =
      List.zipWith (· + ·) (tradedPlaces.map left.count) (tradedPlaces.map right.count) := by
    rw [List.zipWith_map, List.zipWith_self]
    exact List.map_congr_left fun q _ => hsum q
  rw [hcounts, hcounts'] at hwhole
  exact ⟨s, s', left, right, whole, hs, hs', hleft, hright, hboth, hcounts, hcounts', hwhole,
    hperm [s', s] (List.Perm.swap s s' [])⟩

end Report

end OpeningHand
