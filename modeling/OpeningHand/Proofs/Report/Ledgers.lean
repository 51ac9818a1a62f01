import OpeningHand.Proofs.Report.Shares
import Mathlib.Algebra.BigOperators.Group.Finset.Basic

/-!
# The ledgers of cards

A report counts cards in the same ledgers twice, for their names and for their tags (`KeyKind`): one for the cards seen
and drawn, and one for each of the piles. No step for one ledger looks at another, so each is described on its own, by
the lists of keys that went into it. The cards seen and drawn come from the opening hands and from the cards drawn later
(`CountsCards`), those of a pile from the winning lines (`CountsPiles`). No key has two entries, and a key has one
exactly if it is in one of these lists.

The first ledger has the totals that its entries are made for. The numbers of hands, over all numbers of copies, add up
to the hands that hold the key, and weighted by these numbers to the copies in all hands; over all keys, to the cards
(`CountsCards.sum_copies`).
-/

namespace OpeningHand

/-! ### Totals of ledgers -/

namespace Ledger

variable {α β γ : Type} [DecidableEq α]

/-- The sum of all counts, each taken as often as its key says: of hands with so many copies, the copies. -/
def copies (l : Ledger Nat Nat) : Nat := l.foldr (fun e n => e.1 * e.2 + n) 0

theorem copies_credit (n : Nat) (l : Ledger Nat Nat) : (l.credit n).copies = l.copies + n := by
  induction l with
  | nil => simp [credit, adjust, copies]
  | cons e r ih =>
      obtain ⟨k, v⟩ := e
      simp only [credit, copies, adjust, List.foldr_cons] at ih ⊢
      split
      · rename_i hk
        subst hk
        rw [List.foldr_cons, Nat.mul_succ, Nat.add_right_comm]
      · rw [List.foldr_cons, ih, Nat.add_assoc]

theorem find?_eq_none_iff (l : Ledger α β) (key : α) : l.find? key = none ↔ key ∉ l.map Prod.fst := by
  rw [find?, Option.map_eq_none_iff, List.find?_eq_none]
  constructor
  · intro h hkey
    obtain ⟨e, he, rfl⟩ := List.mem_map.1 hkey
    exact h e he (decide_eq_true rfl)
  · intro h e he hkey
    exact h (of_decide_eq_true hkey ▸ List.mem_map_of_mem he)

theorem number_of_notMem {l : Ledger α β} {key : α} (h : key ∉ l.map Prod.fst) (m : β → Nat) : l.number key m = 0 := by
  rw [number, (find?_eq_none_iff l key).2 h]
  rfl

theorem mem_keys_foldl_adjust (k : γ → α) (start : β) (f : γ → β → β) (es : List γ) (l : Ledger α β) (key : α) :
    key ∈ (es.foldl (fun l e => l.adjust (k e) start (f e)) l).map Prod.fst ↔
      key ∈ l.map Prod.fst ∨ key ∈ es.map k := by
  induction es generalizing l with
  | nil => simp
  | cons e es ih => rw [List.foldl_cons, ih, mem_keys_adjust, or_assoc, ← List.mem_cons, List.map_cons]

theorem nodup_keys_foldl_adjust (k : γ → α) (start : β) (f : γ → β → β) (es : List γ) {l : Ledger α β}
    (h : (l.map Prod.fst).Nodup) :
    ((es.foldl (fun l e => l.adjust (k e) start (f e)) l).map Prod.fst).Nodup := by
  induction es generalizing l with
  | nil => exact h
  | cons e es ih => exact ih (nodup_keys_adjust h _ _ _)

/-- A number of all values is that of all keys, if no key comes twice. -/
theorem sum_values {l : Ledger α β} (h : (l.map Prod.fst).Nodup) (m : β → Nat) :
    (l.map fun e => m e.2).sum = ((l.map Prod.fst).map fun key => l.number key m).sum := by
  rw [List.map_map]
  congr 1
  refine List.map_congr_left fun e he => ?_
  simp [number, find?_of_mem h he]

end Ledger

open Report

theorem map_fst_occurrences {α : Type} [DecidableEq α] (keys : List α) :
    (occurrences keys).map Prod.fst = distinct keys := by
  rw [occurrences, List.map_map]
  exact List.map_id _

/-- A key that does not occur has no entry, which stands for zero. -/
theorem number_occurrences {α : Type} [DecidableEq α] (keys : List α) (key : α) :
    Ledger.number (occurrences keys) key id = keys.count key := by
  by_cases hkey : key ∈ keys
  · have hentry : (key, keys.count key) ∈ occurrences keys := List.mem_map_of_mem (mem_distinct.2 hkey)
    have hnodup : ((occurrences keys).map Prod.fst).Nodup := map_fst_occurrences keys ▸ nodup_distinct keys
    rw [Ledger.number, Ledger.find?_of_mem hnodup hentry]
    rfl
  · rw [List.count_eq_zero_of_not_mem hkey]
    refine Ledger.number_of_notMem ?_ id
    rwa [map_fst_occurrences, mem_distinct]

/-- The members of a list, counted for different keys that have them all. -/
theorem sum_count_of_subset {α : Type} [DecidableEq α] {keys l : List α} (hkeys : keys.Nodup) (h : l ⊆ keys) :
    (keys.map l.count).sum = l.length := by
  rw [← List.sum_toFinset _ hkeys]
  have hcard := Multiset.sum_count_eq_card (s := keys.toFinset) (m := (l : Multiset α)) fun a ha =>
    List.mem_toFinset.2 (h (Multiset.mem_coe.1 ha))
  simpa only [Multiset.coe_count, Multiset.coe_card] using hcard

/-! ### What went into a ledger -/

section

variable {α : Type} [DecidableEq α]

/-- The ledger counts some hands and some cards drawn later, all given by their keys. -/
structure CountsCards (hands : List (List α)) (drawn : List α) (l : Ledger α CardStat) : Prop where
  /-- No key has two entries. -/
  nodup : (l.map Prod.fst).Nodup
  /-- Each key that came has one. -/
  mem : ∀ key, key ∈ l.map Prod.fst ↔ (∃ hand ∈ hands, key ∈ hand) ∨ key ∈ drawn
  /-- The hands of a key, however many copies they hold. -/
  total : ∀ key, l.number key (·.seen.total) = hands.countP (key ∈ ·)
  copies : ∀ key, l.number key (·.seen.copies) = (hands.map (·.count key)).sum
  draws : ∀ key, l.number key (·.drawn) = drawn.count key

/-- The ledger counts some piles, given by their keys. -/
structure CountsPiles (piles : List (List α)) (l : Ledger α (Ledger Nat Nat)) : Prop where
  nodup : (l.map Prod.fst).Nodup
  mem : ∀ key, key ∈ l.map Prod.fst ↔ ∃ pile ∈ piles, key ∈ pile
  /-- The piles of a key, however many copies they hold. -/
  total : ∀ key, l.number key (·.total) = piles.countP (key ∈ ·)

namespace CountsCards

variable {hands : List (List α)} {drawn : List α} {l : Ledger α CardStat}

theorem nil : CountsCards (α := α) [] [] [] :=
  ⟨List.nodup_nil, by simp, fun _ => rfl, fun _ => rfl, fun _ => rfl⟩

/-- **One hand more.** -/
theorem seen (h : CountsCards hands drawn l) (keys : List α) :
    CountsCards (hands ++ [keys]) drawn (countSeen keys l) where
  nodup := Ledger.nodup_keys_foldl_adjust _ _ _ _ h.nodup
  mem key := by
    rw [countSeen, Ledger.mem_keys_foldl_adjust, h.mem, map_fst_occurrences, mem_distinct, or_right_comm]
    simp [or_and_right, exists_or]
  total key := by
    refine (Ledger.number_foldl_occurrences (·.seen.total) .zero (fun n s => { s with seen := s.seen.credit n })
      (w := fun _ => 1) rfl (fun n s => Ledger.total_credit n s.seen) keys l key).trans ?_
    rw [h.total, List.countP_append, List.countP_singleton]
    simp only [decide_eq_true_eq]
  copies key := by
    refine (Ledger.number_foldl_occurrences (·.seen.copies) .zero (fun n s => { s with seen := s.seen.credit n })
      (w := id) rfl (fun n s => Ledger.copies_credit n s.seen) keys l key).trans ?_
    rw [h.copies, List.map_append, List.sum_append, List.map_singleton, List.sum_singleton]
    split
    · rfl
    · rename_i hkey
      rw [List.count_eq_zero_of_not_mem hkey]
  draws key := (drawn_countSeen keys key l).trans (h.draws key)

/-- **More cards drawn.** -/
theorem draw (h : CountsCards hands drawn l) (keys : List α) :
    CountsCards hands (drawn ++ keys) (countDrawn keys l) where
  nodup := Ledger.nodup_keys_foldl_adjust _ _ _ _ h.nodup
  mem key := by
    rw [countDrawn, Ledger.mem_keys_foldl_adjust, h.mem, List.map_id', or_assoc, List.mem_append]
  total key := by
    refine (Ledger.number_foldl_adjust_const (·.seen.total) .zero (fun s => { s with drawn := s.drawn + 1 })
      (n := 0) rfl (fun _ => rfl) keys l key).trans ?_
    rw [h.total, Nat.mul_zero, Nat.add_zero]
  copies key := by
    refine (Ledger.number_foldl_adjust_const (·.seen.copies) .zero (fun s => { s with drawn := s.drawn + 1 })
      (n := 0) rfl (fun _ => rfl) keys l key).trans ?_
    rw [h.copies, Nat.mul_zero, Nat.add_zero]
  draws key := by rw [drawn_countDrawn, h.draws, List.count_append]

/-- A key has an entry exactly if one of its numbers is not zero. -/
theorem mem_iff_number (h : CountsCards hands drawn l) (key : α) :
    key ∈ l.map Prod.fst ↔ l.number key (·.seen.total) ≠ 0 ∨ l.number key (·.drawn) ≠ 0 := by
  rw [h.mem, h.total, h.draws, ← Nat.pos_iff_ne_zero, List.countP_pos_iff, ← Nat.pos_iff_ne_zero, List.count_pos_iff]
  simp only [decide_eq_true_eq]

/-- **The copies of all keys are the cards of all hands.** -/
theorem sum_copies (h : CountsCards hands drawn l) :
    (l.map fun e => e.2.seen.copies).sum = (hands.map List.length).sum := by
  rw [Ledger.sum_values h.nodup fun s : CardStat => s.seen.copies]
  simp only [h.copies]
  have hall : ∀ hand ∈ hands, hand ⊆ l.map Prod.fst := fun hand hhand key hkey =>
    (h.mem key).2 (Or.inl ⟨hand, hhand, hkey⟩)
  have hnodup := h.nodup
  generalize l.map Prod.fst = keys at hall hnodup
  clear h
  induction hands with
  | nil => simp
  | cons hand hands ih =>
      obtain ⟨hhand, hrest⟩ := List.forall_mem_cons.1 hall
      simp only [List.map_cons, List.sum_cons]
      rw [List.sum_map_add, sum_count_of_subset hnodup hhand, ih hrest]

end CountsCards

namespace CountsPiles

variable {piles : List (List α)} {l : Ledger α (Ledger Nat Nat)}

theorem nil : CountsPiles (α := α) [] [] := ⟨List.nodup_nil, by simp, fun _ => rfl⟩

/-- **One pile more.** -/
theorem append (h : CountsPiles piles l) (keys : List α) : CountsPiles (piles ++ [keys]) (countPile keys l) where
  nodup := Ledger.nodup_keys_foldl_adjust _ _ _ _ h.nodup
  mem key := by
    rw [countPile, Ledger.mem_keys_foldl_adjust, h.mem, map_fst_occurrences, mem_distinct]
    simp [or_and_right, exists_or]
  total key := by
    refine (Ledger.number_foldl_occurrences Ledger.total [] Ledger.credit
      (w := fun _ => 1) rfl Ledger.total_credit keys l key).trans ?_
    rw [h.total, List.countP_append, List.countP_singleton]
    simp only [decide_eq_true_eq]

/-- A key has an entry exactly if its number is not zero. -/
theorem mem_iff_number (h : CountsPiles piles l) (key : α) :
    key ∈ l.map Prod.fst ↔ l.number key (·.total) ≠ 0 := by
  rw [h.mem, h.total, ← Nat.pos_iff_ne_zero, List.countP_pos_iff]
  simp only [decide_eq_true_eq]

end CountsPiles

end

/-! ### The ledgers of a report -/

namespace KeyKind

/-- Names are texts, tags may be any values. -/
def Key : KeyKind → Type
  | .name => String
  | .tag => Value

instance : (k : KeyKind) → DecidableEq k.Key
  | .name => inferInstanceAs (DecidableEq String)
  | .tag => inferInstanceAs (DecidableEq Value)

/-- The keys of cards. -/
def keysOf : (k : KeyKind) → List Card → List k.Key
  | .name => namesOf
  | .tag => tagsOf

/-- A key as it stands in the card table. -/
def shown : (k : KeyKind) → k.Key → Value
  | .name => Value.text
  | .tag => id

theorem shown_injective (k : KeyKind) : Function.Injective k.shown := by
  cases k with
  | name => exact fun _ _ h => Value.text.inj h
  | tag => exact Function.injective_id

end KeyKind

/-- The piles that a report counts. -/
inductive PileKind where
  | banished
  | discarded

/-- The cards of a pile. -/
def PileKind.cards : PileKind → Board → List Card
  | .banished => Board.banished
  | .discarded => Board.graveyard

namespace Simulation

/-- The keys of the opening hand. -/
def keysSeen (k : KeyKind) (s : Simulation) : List k.Key := k.keysOf s.opening.hand

/-- The keys of the cards drawn between the hands judged for each condition. -/
def keysDrawn (k : KeyKind) (s : Simulation) : List k.Key := s.runs.flatMap fun c => k.keysOf (drawnCards c.branches)

/-- The keys of a pile, winning line by winning line. -/
def keysPiled (k : KeyKind) (p : PileKind) (s : Simulation) : List (List k.Key) :=
  s.winners.map fun w => k.keysOf (p.cards w.board)

end Simulation

namespace Report

/-- The cards seen and drawn. -/
def cards (r : Report) : (k : KeyKind) → Ledger k.Key CardStat
  | .name => r.cardNames
  | .tag => r.cardTags

/-- The cards of a pile. -/
def piled (r : Report) : (k : KeyKind) → PileKind → Ledger k.Key (Ledger Nat Nat)
  | .name, .banished => r.banishedNames
  | .name, .discarded => r.discardedNames
  | .tag, .banished => r.banishedTags
  | .tag, .discarded => r.discardedTags

/-- What the ledgers of a report hold after some simulations. -/
structure CountsAll (sims : List Simulation) (r : Report) : Prop where
  cards : ∀ k, CountsCards (sims.map (·.keysSeen k)) (sims.flatMap (·.keysDrawn k)) (r.cards k)
  piled : ∀ k p, CountsPiles (sims.flatMap (·.keysPiled k p)) (r.piled k p)

/-- The ledgers that count cards. -/
def ledgers (r : Report) : ((k : KeyKind) → Ledger k.Key CardStat) ×
    ((k : KeyKind) → PileKind → Ledger k.Key (Ledger Nat Nat)) := (r.cards, r.piled)

theorem ledgers_addFreeOfCondition (c : ConditionRun) (r : Report) :
    (addFreeOfCondition c r).ledgers = r.ledgers := by
  unfold addFreeOfCondition
  split <;> rfl

theorem ledgers_addFreeOverall (s : Simulation) (r : Report) : (addFreeOverall s r).ledgers = r.ledgers := by
  unfold addFreeOverall
  dsimp only
  split <;> rfl

theorem ledgers_addCondition {c : ConditionRun} {r r' : Report} (h : addCondition c r = .ok r') :
    r'.ledgers = r.ledgers := by
  obtain ⟨stat, -, rfl⟩ := addCondition_eq_ok.1 h
  rfl

/-- The cards drawn for some conditions go into one ledger and leave the piles alone. -/
theorem counts_addRuns {k : KeyKind} {hands : List (List k.Key)} {drawn : List k.Key} (runs : List ConditionRun)
    {r : Report} (h : CountsCards hands drawn (r.cards k)) :
    CountsCards hands (drawn ++ runs.flatMap fun c => k.keysOf (drawnCards c.branches))
        ((runs.foldl (fun r c => addFreeOfCondition c (addDrawn c r)) r).cards k) ∧
      (runs.foldl (fun r c => addFreeOfCondition c (addDrawn c r)) r).piled k = r.piled k := by
  induction runs generalizing drawn r with
  | nil => exact ⟨by rwa [List.flatMap_nil, List.append_nil], rfl⟩
  | cons c runs ih =>
      obtain ⟨hcards, hpiled⟩ := Prod.mk.inj (ledgers_addFreeOfCondition c (addDrawn c r))
      have hdrawn : (addDrawn c r).cards k = countDrawn (k.keysOf (drawnCards c.branches)) (r.cards k) := by
        cases k <;> rfl
      have hpiles : (addDrawn c r).piled k = r.piled k := by
        cases k <;> rfl
      have hnext := h.draw (k.keysOf (drawnCards c.branches))
      rw [← hdrawn, ← hcards] at hnext
      obtain ⟨hrest, hsame⟩ := ih hnext
      rw [List.append_assoc] at hrest
      exact ⟨hrest, hsame.trans ((congrFun hpiled k).trans hpiles)⟩

/-- The winning lines go into the piles and leave the cards seen and drawn alone. -/
theorem counts_addPiles {k : KeyKind} {p : PileKind} {piles : List (List k.Key)} (winners : List Branch) {r : Report}
    (h : CountsPiles piles (r.piled k p)) :
    CountsPiles (piles ++ winners.map fun w => k.keysOf (p.cards w.board))
        ((winners.foldl (fun r w => addPiles w r) r).piled k p) ∧
      (winners.foldl (fun r w => addPiles w r) r).cards k = r.cards k := by
  induction winners generalizing piles r with
  | nil => exact ⟨by rwa [List.map_nil, List.append_nil], rfl⟩
  | cons w winners ih =>
      have hpiled : (addPiles w r).piled k p = countPile (k.keysOf (p.cards w.board)) (r.piled k p) := by
        cases k <;> cases p <;> rfl
      have hcards : (addPiles w r).cards k = r.cards k := by
        cases k <;> rfl
      have hnext := h.append (k.keysOf (p.cards w.board))
      rw [← hpiled] at hnext
      obtain ⟨hrest, hsame⟩ := ih hnext
      rw [List.append_assoc] at hrest
      exact ⟨hrest, hsame.trans hcards⟩

namespace CountsAll

variable {sims : List Simulation} {s : Simulation} {r r' : Report}

/-- **One simulation more.** -/
theorem append (h : CountsAll sims r) (hok : Report.add s r = .ok r') : CountsAll (sims ++ [s]) r' := by
  have hopening : ∀ k, (addOpening s r).cards k = countSeen (s.keysSeen k) (r.cards k) := by
    intro k
    cases k <;> rfl
  have hopeningPiled : ∀ k, (addOpening s r).piled k = r.piled k := by
    intro k
    cases k <;> rfl
  have hruns := fun k => counts_addRuns s.runs (hopening k ▸ (h.cards k).seen (s.keysSeen k))
  generalize hafter : s.runs.foldl (fun r c => addFreeOfCondition c (addDrawn c r)) (addOpening s r) = after at hruns
  obtain ⟨hfreeCards, hfreePiled⟩ := Prod.mk.inj (ledgers_addFreeOverall s after)
  have hpiles := fun k p => counts_addPiles (r := addFreeOverall s after) s.winners
    ((congrFun (congrFun hfreePiled k) p).trans (congrFun (hruns k).2 p) ▸ hopeningPiled k ▸ h.piled k p)
  generalize hlast : s.winners.foldl (fun r w => addPiles w r) (addFreeOverall s after) = last at hpiles
  -- the conditions are credited last, and that changes none of these ledgers
  have hconditions : s.runs.foldlM (fun r c => addCondition c r) last = .ok r' := by
    rw [← hlast, ← hafter]
    exact hok
  have hend : r'.ledgers = last.ledgers :=
    foldlM_keeps (P := fun r' => r'.ledgers = last.ledgers)
      (fun hbefore hstep => (ledgers_addCondition hstep).trans hbefore) rfl hconditions
  obtain ⟨hcards, hpiled⟩ := Prod.mk.inj hend
  refine ⟨fun k => ?_, fun k p => ?_⟩
  · rw [List.map_append, List.flatMap_append, List.flatMap_singleton, congrFun hcards k, (hpiles k .banished).2,
      congrFun hfreeCards k]
    exact (hruns k).1
  · rw [List.flatMap_append, List.flatMap_singleton, congrFun hpiled k]
    exact (hpiles k p).1

/-- **What the ledgers of a report count.** -/
theorem ofSimulations (h : Report.ofSimulations sims = .ok r) : CountsAll sims r := by
  have hblank : CountsAll [] (blank sims.length (sims.countP (·.success))) :=
    ⟨fun k => by cases k <;> exact .nil, fun k p => by cases k <;> cases p <;> exact .nil⟩
  exact foldlM_invariant (fun hbefore hok => hbefore.append hok) hblank h

end CountsAll

end Report

end OpeningHand
