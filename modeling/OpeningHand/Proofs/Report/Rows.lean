import OpeningHand.Proofs.Report.Draws
import Mathlib.Algebra.BigOperators.Group.Finset.Piecewise

/-!
# The rows of the card table

The card table has a row for each entry of the ledger of cards seen and drawn, and looks up what lies on the piles for
that key. So a name or a tag has exactly one row if it was seen or drawn, and none otherwise.

The sums over a pile's column are therefore the totals of its ledger without the entries that have no row
(`Report.withoutRow`). There are none exactly if all keys on the pile were seen or drawn
(`Report.rows_of_ofSimulations`). For names that means that they were in some judged hand. But a card may go from the
deck to a pile at once, and then the table does not show it (`Report.rows_of_ofSimulations_spare`).
-/

namespace OpeningHand

/-! ### Sums over keys -/

/-- The values of some keys, together with those of the entries of other keys, are all values. -/
theorem Ledger.sum_numbers_add {α β : Type} [DecidableEq α] {l : Ledger α β} {keys : List α}
    (hl : (l.map Prod.fst).Nodup) (hkeys : keys.Nodup) (m : β → Nat) :
    (keys.map fun key => l.number key m).sum + ((l.filter fun e => e.1 ∉ keys).map fun e => m e.2).sum =
      (l.map fun e => m e.2).sum := by
  have hother : ((l.filter fun e => e.1 ∉ keys).map fun e => m e.2) =
      ((l.map Prod.fst).filter (· ∉ keys)).map fun key => l.number key m := by
    rw [List.filter_map, List.map_map]
    refine List.map_congr_left fun e he => ?_
    simp [number, find?_of_mem hl (List.mem_of_mem_filter he)]
  rw [hother, sum_values hl, ← List.sum_toFinset _ hkeys, ← List.sum_toFinset _ (hl.filter _),
    ← List.sum_toFinset _ hl]
  -- a key without an entry stands for zero
  have hzero : ∑ key ∈ keys.toFinset \ (l.map Prod.fst).toFinset, l.number key m = 0 :=
    Finset.sum_eq_zero fun key hkey => number_of_notMem (by simpa using (Finset.mem_sdiff.1 hkey).2) m
  have hsplit : ((l.map Prod.fst).filter (· ∉ keys)).toFinset = (l.map Prod.fst).toFinset \ keys.toFinset := by
    ext key
    simp
  rw [hsplit, ← Finset.sum_inter_add_sum_sdiff keys.toFinset (l.map Prod.fst).toFinset, hzero, Nat.add_zero,
    Finset.inter_comm, Finset.sum_inter_add_sum_sdiff]

/-! ### What was seen and drawn -/

namespace Simulation

/-- The keys of all cards seen and drawn. -/
def keysMet (k : KeyKind) (s : Simulation) : List k.Key := s.keysSeen k ++ s.keysDrawn k

/-- The cards of the opening hand and of the hands judged. -/
def cardsInHand (s : Simulation) : List Card :=
  s.opening.hand ++ s.runs.flatMap fun c => c.branches.flatMap (·.board.hand)

variable {opening : Board} {cs : List Condition} {caps : Caps} {s : Simulation}

/-- **The names seen and drawn are those of the cards in some hand.** -/
theorem mem_keysMet_name_iff (h : run opening cs caps = .ok s) (name : String) :
    name ∈ s.keysMet .name ↔ name ∈ namesOf s.cardsInHand := by
  have hmet : name ∉ s.keysMet .name ↔ name ∉ namesOf s.opening.hand ∧ ∀ c ∈ s.runs, gained name c.branches = 0 := by
    simp only [← count_drawnCards, List.count_eq_zero]
    show name ∉ namesOf s.opening.hand ++ s.runs.flatMap (fun c => namesOf (drawnCards c.branches)) ↔ _
    rw [List.mem_append, not_or, List.mem_flatMap]
    simp only [not_exists, not_and]
  have hhands : name ∉ namesOf s.cardsInHand ↔
      name ∉ namesOf s.opening.hand ∧ ∀ c ∈ s.runs, ∀ x ∈ c.branches, x.copies name = 0 := by
    simp only [cardsInHand, namesOf, List.map_append, List.map_flatMap, List.mem_append, List.mem_flatMap, not_or,
      not_exists, not_and, Branch.copies, List.count_eq_zero]
  rw [← not_iff_not, hmet, hhands]
  refine and_congr_right fun hopening => forall₂_congr fun c hc => ?_
  obtain ⟨below, hfirst, -⟩ := depthFirst_of_run h hc
  rw [copies_eq_zero_iff, hfirst, iff_and_self]
  rintro - x ⟨⟩
  exact (copies_judge_copy c.condition 0 s.opening name).trans (List.count_eq_zero_of_not_mem hopening)

end Simulation

/-! ### The table -/

/-- The column of a pile. -/
def CardRow.piled (row : CardRow) : PileKind → Nat
  | .banished => row.banished
  | .discarded => row.discarded

namespace Report

/-- The rows of one kind. -/
def rowsOf (r : Report) (k : KeyKind) : List CardRow := r.cardTable.filter (·.kind = k)

/-- The entries of a pile that have no row. -/
def withoutRow (r : Report) (k : KeyKind) (p : PileKind) : Ledger k.Key (Ledger Nat Nat) :=
  (r.piled k p).filter fun e => e.1 ∉ (r.cards k).map Prod.fst

theorem pileTotal_eq {α : Type} [DecidableEq α] (l : Ledger α (Ledger Nat Nat)) (key : α) :
    pileTotal l key = l.number key (·.total) := by
  unfold pileTotal Ledger.number
  cases l.find? key <;> rfl

/-- There is a row for each entry. -/
theorem rowsOf_perm (r : Report) (k : KeyKind) : (r.rowsOf k).Perm
    ((r.cards k).map (r.cardRow k k.shown (r.piled k .banished) (r.piled k .discarded))) := by
  have hsame : ∀ {α : Type} [DecidableEq α] (k : KeyKind) (asValue : α → Value)
      (banished discarded : Ledger α (Ledger Nat Nat)) (l : Ledger α CardStat),
      ((bySeen (l.map (r.cardRow k asValue banished discarded))).filter (·.kind = k)).Perm
        (l.map (r.cardRow k asValue banished discarded)) := by
    intro α _ k asValue banished discarded l
    refine ((List.mergeSort_perm _ _).filter _).trans (List.Perm.of_eq (List.filter_eq_self.2 ?_))
    exact List.forall_mem_map.2 fun e _ => decide_eq_true rfl
  have hother : ∀ {α : Type} [DecidableEq α] (k k' : KeyKind) (asValue : α → Value)
      (banished discarded : Ledger α (Ledger Nat Nat)) (l : Ledger α CardStat), k ≠ k' →
      (bySeen (l.map (r.cardRow k asValue banished discarded))).filter (·.kind = k') = [] := by
    intro α _ k k' asValue banished discarded l hne
    refine List.filter_eq_nil_iff.2 fun row hrow => ?_
    obtain ⟨e, -, rfl⟩ := List.mem_map.1 ((List.mergeSort_perm _ _).mem_iff.1 hrow)
    exact fun hkind => hne (of_decide_eq_true hkind)
  unfold rowsOf cardTable
  rw [List.filter_append]
  cases k with
  | name =>
      rw [hother .tag .name _ _ _ _ (by decide), List.append_nil]
      exact hsame .name _ _ _ _
  | tag =>
      rw [hother .name .tag _ _ _ _ (by decide), List.nil_append]
      exact hsame .tag _ _ _ _

theorem countP_rowsOf (r : Report) (k : KeyKind) (key : k.Key) :
    (r.rowsOf k).countP (fun row => row.key = k.shown key) = ((r.cards k).map Prod.fst).count key := by
  rw [(r.rowsOf_perm k).countP_eq, List.countP_map, List.count_eq_countP, List.countP_map]
  refine List.countP_congr fun e _ => ?_
  simp [cardRow, k.shown_injective.eq_iff]

theorem sum_rowsOf (r : Report) (k : KeyKind) (p : PileKind) : ((r.rowsOf k).map (·.piled p)).sum =
    (((r.cards k).map Prod.fst).map fun key => (r.piled k p).number key (·.total)).sum := by
  rw [((r.rowsOf_perm k).map _).sum_eq, List.map_map, List.map_map]
  refine congrArg List.sum (List.map_congr_left fun e _ => ?_)
  cases p <;> exact pileTotal_eq _ _

variable {sims : List Simulation} {r : Report}

theorem CountsAll.mem_cards_iff (h : CountsAll sims r) (k : KeyKind) (key : k.Key) :
    key ∈ (r.cards k).map Prod.fst ↔ key ∈ sims.flatMap (·.keysMet k) := by
  rw [(h.cards k).mem, List.mem_flatMap, List.mem_flatMap]
  simp only [List.mem_map, exists_exists_and_eq_and, Simulation.keysMet, List.mem_append, and_or_left, exists_or]

/-- The column of a pile and the entries without a row make up the pile's ledger. -/
theorem CountsAll.sum_rowsOf_add (h : CountsAll sims r) (k : KeyKind) (p : PileKind) :
    ((r.rowsOf k).map (·.piled p)).sum + ((r.withoutRow k p).map fun e => e.2.total).sum =
      ((r.piled k p).map fun e => e.2.total).sum := by
  rw [r.sum_rowsOf]
  exact Ledger.sum_numbers_add (h.piled k p).nodup (h.cards k).nodup (Ledger.total ·)

/-- **Nothing is lost exactly if all keys on the pile were seen or drawn.** -/
theorem CountsAll.sum_rowsOf_eq_iff (h : CountsAll sims r) (k : KeyKind) (p : PileKind) :
    ((r.rowsOf k).map (·.piled p)).sum = ((r.piled k p).map fun e => e.2.total).sum ↔
      ∀ pile ∈ sims.flatMap (·.keysPiled k p), ∀ key ∈ pile, key ∈ sims.flatMap (·.keysMet k) := by
  have hpiled := h.piled k p
  rw [← h.sum_rowsOf_add, left_eq_add, List.sum_eq_zero_iff, List.forall_mem_map]
  constructor
  · intro hzero pile hpile key hkey
    obtain ⟨e, he, rfl⟩ := List.mem_map.1 ((hpiled.mem key).2 ⟨pile, hpile, hkey⟩)
    rw [← h.mem_cards_iff]
    by_contra hnone
    have hnumber := (hpiled.mem_iff_number e.1).1 (List.mem_map_of_mem he)
    rw [Ledger.number, Ledger.find?_of_mem hpiled.nodup he] at hnumber
    exact hnumber (hzero e (List.mem_filter.2 ⟨he, decide_eq_true hnone⟩))
  · intro hall e he
    obtain ⟨he, hnone⟩ := List.mem_filter.1 he
    obtain ⟨pile, hpile, hkey⟩ := (hpiled.mem e.1).1 (List.mem_map_of_mem he)
    exact absurd ((h.mem_cards_iff k e.1).2 (hall pile hpile e.1 hkey)) (of_decide_eq_true hnone)

/-- **What the card table shows.** Of the names, and of the tags, it has exactly one row for each that was seen in an
opening hand or drawn, which are those with a count that is not zero, and none for the others. The sum of a pile's column
and the counts of the pile that have no row is the total of the pile's statistics. So the column shows all of them if and
only if every key on that pile, in any winning line, was seen or drawn somewhere. For simulations that were run, the
names seen and drawn are those of the cards in some hand. -/
theorem rows_of_ofSimulations (h : ofSimulations sims = .ok r) :
    (∀ k key,
      (key ∈ sims.flatMap (·.keysMet k) ↔
        (r.cards k).number key (·.seen.total) ≠ 0 ∨ (r.cards k).number key (·.drawn) ≠ 0) ∧
      (r.rowsOf k).countP (fun row => row.key = k.shown key) =
        if key ∈ sims.flatMap (·.keysMet k) then 1 else 0) ∧
    (∀ k p,
      (∀ key, (∃ pile ∈ sims.flatMap (·.keysPiled k p), key ∈ pile) ↔ (r.piled k p).number key (·.total) ≠ 0) ∧
      ((r.rowsOf k).map (·.piled p)).sum + ((r.withoutRow k p).map fun e => e.2.total).sum =
        ((r.piled k p).map fun e => e.2.total).sum ∧
      (((r.rowsOf k).map (·.piled p)).sum = ((r.piled k p).map fun e => e.2.total).sum ↔
        ∀ pile ∈ sims.flatMap (·.keysPiled k p), ∀ key ∈ pile, key ∈ sims.flatMap (·.keysMet k))) ∧
    ∀ s ∈ sims, (∃ opening cs caps, Simulation.run opening cs caps = .ok s) →
      ∀ name : String, name ∈ s.keysMet .name ↔ name ∈ namesOf s.cardsInHand := by
  have hcounts := CountsAll.ofSimulations h
  refine ⟨fun k key => ⟨?_, ?_⟩, fun k p => ⟨fun key => ?_, hcounts.sum_rowsOf_add k p,
    hcounts.sum_rowsOf_eq_iff k p⟩, ?_⟩
  · rw [← hcounts.mem_cards_iff]
    exact (hcounts.cards k).mem_iff_number key
  · rw [r.countP_rowsOf, (hcounts.cards k).nodup.count]
    simp only [hcounts.mem_cards_iff]
  · rw [← (hcounts.piled k p).mem]
    exact (hcounts.piled k p).mem_iff_number key
  · rintro s - ⟨opening, cs, caps, hs⟩ name
    exact Simulation.mem_keysMet_name_iff hs name

open Simulation (plain targets)

/-- A free card that banishes a card of the deck before it draws. -/
def burner (number : Nat) : Card :=
  ⟨⟨number, 0⟩, "A", [], some ⟨1, true, some ⟨.banishFromDeck, .amount 1⟩, [], none, none⟩⟩

/-- A card with a tag. -/
def spare (number : Nat) : Card := ⟨⟨number, 0⟩, "X", [.text "Spare"], none⟩

/-- A card is banished from the deck, of which there is another copy in the opening hand: its name has a row, and the
column shows it. -/
theorem rows_of_ofSimulations_seen :
    ∃ s r, Simulation.run ⟨[plain 1 "T", spare 2], [burner 0, spare 3], [], [], []⟩ [targets 1] (.ofInts 10000 none)
        = .ok s ∧
      ofSimulations [s] = .ok r ∧ r.banishedNames.number "X" (·.total) = 1 ∧
      (r.rowsOf .name).countP (fun row => row.key = .text "X") = 1 ∧
      ((r.rowsOf .name).map (·.banished)).sum = (r.banishedNames.map fun e => e.2.total).sum ∧
      "T" ∈ namesOf s.cardsInHand := by
  have hrun : (do
      let s ← Simulation.run ⟨[plain 1 "T", spare 2], [burner 0, spare 3], [], [], []⟩ [targets 1] (.ofInts 10000 none)
      let r ← ofSimulations [s]
      pure (s.keysMet .name, s.keysPiled .name .banished, r.banishedNames.number "X" (·.total)) :
        Except Fault (List String × List (List String) × Nat)) = .ok (["A", "X", "T"], [["X"]], 1) := by
    decide +kernel
  obtain ⟨s, hs, h⟩ := bind_eq_ok.1 hrun
  obtain ⟨r, hr, h⟩ := bind_eq_ok.1 h
  obtain ⟨hmet, h⟩ := Prod.mk.inj (Except.ok.inj h)
  obtain ⟨hpiled, hnumber⟩ := Prod.mk.inj h
  obtain ⟨hrows, hpiles, hhands⟩ := rows_of_ofSimulations hr
  have hall : [s].flatMap (·.keysMet .name) = ["A", "X", "T"] := (List.append_nil _).trans hmet
  have hone : [s].flatMap (·.keysPiled .name .banished) = [["X"]] := (List.append_nil _).trans hpiled
  have hX : "X" ∈ [s].flatMap (·.keysMet .name) :=
    (List.Perm.of_eq hall).mem_iff.2 (List.mem_cons_of_mem _ List.mem_cons_self)
  refine ⟨s, r, hs, hr, hnumber, (hrows .name "X").2.trans (if_pos hX), ?_, ?_⟩
  · refine (hpiles .name .banished).2.2.2 fun pile hpile name hname => ?_
    obtain rfl := List.mem_singleton.1 ((List.Perm.of_eq hone).mem_iff.1 hpile)
    obtain rfl := List.mem_singleton.1 hname
    exact hX
  · refine (hhands s (List.mem_singleton_self s) ⟨_, _, _, hs⟩ "T").1
      ((List.Perm.of_eq hmet).mem_iff.2 ?_)
    exact List.mem_cons_of_mem _ (List.mem_cons_of_mem _ List.mem_cons_self)

/-- A key lies on a pile of some winning line and has no row, and the column of the pile does not add up to its total. -/
def Misses (r : Report) (k : KeyKind) (p : PileKind) (key : k.Key) : Prop :=
  (r.piled k p).number key (·.total) ≠ 0 ∧ (r.rowsOf k).countP (fun row => row.key = k.shown key) = 0 ∧
    ((r.rowsOf k).map (·.piled p)).sum ≠ ((r.piled k p).map fun e => e.2.total).sum

/-- The same said of the ledgers, where no rows have to be sorted. -/
def Lacks {α : Type} [DecidableEq α] (cards : Ledger α CardStat) (pile : Ledger α (Ledger Nat Nat)) (key : α) : Prop :=
  pile.number key (·.total) ≠ 0 ∧ (cards.map Prod.fst).count key = 0 ∧
    ((cards.map Prod.fst).map fun key => pile.number key (·.total)).sum ≠ (pile.map fun e => e.2.total).sum

instance {α : Type} [DecidableEq α] (cards : Ledger α CardStat) (pile : Ledger α (Ledger Nat Nat)) (key : α) :
    Decidable (Lacks cards pile key) :=
  inferInstanceAs (Decidable (_ ∧ _ ∧ _))

theorem misses_iff {r : Report} {k : KeyKind} {p : PileKind} {key : k.Key} :
    r.Misses k p key ↔ Lacks (r.cards k) (r.piled k p) key := by
  rw [Misses, countP_rowsOf, sum_rowsOf, Lacks]

/-- **A card that goes from the deck to a pile at once has no row,** and neither has its tag. -/
theorem rows_of_ofSimulations_spare :
    ∃ s r, Simulation.run ⟨[plain 1 "T", spare 2], [burner 0], [], [], []⟩ [targets 1] (.ofInts 10000 none) = .ok s ∧
      ofSimulations [s] = .ok r ∧ r.Misses .name .banished "X" ∧ r.Misses .tag .banished (Value.text "Spare") := by
  have hrun : (do
      let s ← Simulation.run ⟨[plain 1 "T", spare 2], [burner 0], [], [], []⟩ [targets 1] (.ofInts 10000 none)
      let r ← ofSimulations [s]
      pure (decide (Lacks r.cardNames r.banishedNames "X"),
        decide (Lacks r.cardTags r.banishedTags (.text "Spare"))) :
        Except Fault (Bool × Bool)) = .ok (true, true) := by
    decide +kernel
  obtain ⟨s, hs, h⟩ := bind_eq_ok.1 hrun
  obtain ⟨r, hr, h⟩ := bind_eq_ok.1 h
  obtain ⟨hname, htag⟩ := Prod.mk.inj (Except.ok.inj h)
  have hname : Lacks r.cardNames r.banishedNames "X" := of_decide_eq_true hname
  have htag : Lacks r.cardTags r.banishedTags (.text "Spare") := of_decide_eq_true htag
  exact ⟨s, r, hs, hr, misses_iff.2 hname, misses_iff.2 htag⟩

end Report

end OpeningHand
