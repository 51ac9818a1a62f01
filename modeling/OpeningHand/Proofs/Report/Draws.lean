import OpeningHand.Proofs.Play.Conservation
import OpeningHand.Proofs.Report.Ledgers
import OpeningHand.Proofs.Search.DepthFirst

/-!
# What counts as drawn

A report counts as drawn what a judged hand holds in excess of the hand judged before it, copies of a name counted off.
A play that is made on a board draws from its deck only. So if no copy of a name lies in the deck, no hand further down a
line holds more of them than the hands before it.

But the hands are judged depth first, and when the search steps back, the next hand does not come from the last one. It
may hold cards that the last line played or gave up, and these count as drawn again. For a name that the opening deck
does not hold, the count is made of such cards alone (`Report.drawn_of_run`). It is zero for a name that the opening
hand does not hold either and for searches that never step back, while two free cards that do nothing are both drawn
from an empty deck (`Report.drawn_of_run_idle`).
-/

namespace OpeningHand

/-! ### Hands one after the other -/

/-- How many copies of a name the hand holds. -/
def Branch.copies (b : Branch) (name : String) : Nat := (namesOf b.board.hand).count name

/-- The copies of a name that hands hold in excess of the hand before. -/
def gained (name : String) : List Branch → Nat
  | [] => 0
  | [_] => 0
  | a :: b :: r => (b.copies name - a.copies name) + gained name (b :: r)

/-- The same for the hands alone before which the search has stepped back. -/
def regained (name : String) : List Branch → Nat
  | [] => 0
  | [_] => 0
  | a :: b :: r => (if b.depth ≤ a.depth then b.copies name - a.copies name else 0) + regained name (b :: r)

/-- Copies are counted off as far as there are any. -/
theorem count_newcomers (earlier : List String) (hand : List Card) (name : String) :
    (namesOf (newcomers earlier hand)).count name = (namesOf hand).count name - earlier.count name := by
  induction hand generalizing earlier with
  | nil => simp [newcomers, namesOf]
  | cons card hand ih =>
      have hcons : namesOf (card :: hand) = card.name :: namesOf hand := rfl
      rw [newcomers, hcons, List.count_cons]
      split
      · rename_i hin
        have hpos : 0 < earlier.count card.name := List.count_pos_iff.2 (List.contains_iff_mem.1 hin)
        rw [ih, List.count_erase]
        by_cases hname : card.name = name
        · subst hname
          simp only [beq_self_eq_true, if_true]
          omega
        · simp [hname]
      · rename_i hout
        have hnew : namesOf (card :: newcomers earlier hand) = card.name :: namesOf (newcomers earlier hand) := rfl
        rw [hnew, List.count_cons, ih]
        by_cases hname : card.name = name
        · subst hname
          have hzero : earlier.count card.name = 0 :=
            List.count_eq_zero.2 fun hin => hout (List.contains_iff_mem.2 hin)
          simp only [beq_self_eq_true, if_true]
          omega
        · simp [hname]

theorem count_drawnCards (name : String) : ∀ l : List Branch, (namesOf (drawnCards l)).count name = gained name l
  | [] => rfl
  | [_] => rfl
  | a :: b :: r => by
      have happend : namesOf (drawnCards (a :: b :: r)) =
          namesOf (newcomers (namesOf a.board.hand) b.board.hand) ++ namesOf (drawnCards (b :: r)) := List.map_append
      rw [happend, List.count_append, count_newcomers, count_drawnCards name (b :: r)]
      rfl

/-- If hands further down a line hold no more copies, only those after steps back count. -/
theorem gained_eq_regained {name : String} : ∀ {l : List Branch},
    (l.IsChain fun x y => x.depth < y.depth → y.copies name ≤ x.copies name) → gained name l = regained name l
  | [], _ => rfl
  | [_], _ => rfl
  | a :: b :: r, h => by
      obtain ⟨hab, hrest⟩ := List.isChain_cons_cons.1 h
      rw [gained, regained, gained_eq_regained hrest]
      split
      · rfl
      · rename_i hdeeper
        rw [Nat.sub_eq_zero_of_le (hab (Nat.not_le.1 hdeeper))]

theorem regained_eq_zero_iff {name : String} : ∀ {l : List Branch},
    regained name l = 0 ↔ l.IsChain fun x y => y.depth ≤ x.depth → y.copies name ≤ x.copies name
  | [] => by simp [regained]
  | [_] => by simp [regained]
  | a :: b :: r => by
      rw [regained, Nat.add_eq_zero_iff, regained_eq_zero_iff, List.isChain_cons_cons, ite_eq_right_iff]
      simp only [Nat.sub_eq_zero_iff_le]

/-- Hands hold no copy of a name exactly if the first one does not and none is gained. -/
theorem copies_eq_zero_iff {name : String} : ∀ {l : List Branch}, (∀ x ∈ l, x.copies name = 0) ↔
    (∀ x ∈ l.head?, x.copies name = 0) ∧ gained name l = 0
  | [] => by simp [gained]
  | [_] => by simp [gained]
  | a :: b :: r => by
      have hrest : (∀ x ∈ b :: r, x.copies name = 0) ↔
          (∀ x ∈ (b :: r).head?, x.copies name = 0) ∧ gained name (b :: r) = 0 := copies_eq_zero_iff
      simp only [List.head?_cons, Option.mem_some_iff, forall_eq', List.forall_mem_cons] at hrest ⊢
      rw [hrest, gained]
      omega

/-! ### Names that the deck does not hold -/

namespace Board

variable {b b' : Board}

/-- Cards come to the deck only from the deck. -/
theorem Move.deck_subset (h : Move b b') : b'.deck ⊆ b.deck := by
  cases h with
  | giveUp banished _ => cases banished <;> exact List.Subset.refl _
  | banish h =>
      rw [h]
      exact List.subset_append_left _ _
  | @reveal rest revealed kept back h hcards =>
      have hback : back ⊆ revealed.reverse := fun x hx =>
        List.mem_reverse.2 (hcards.subset (List.mem_append_right kept hx))
      rw [h]
      exact List.append_subset.2 ⟨List.subset_append_of_subset_right rest hback, List.subset_append_left _ _⟩

theorem Moves.deck_subset (h : b.Moves b') : b'.deck ⊆ b.deck := by
  induction h with
  | refl => exact List.Subset.refl _
  | tail _ hmove ih => exact fun _ hx => ih (hmove.deck_subset hx)

theorem namesOf_hand_copy (b : Board) : namesOf b.copy.hand = namesOf b.hand := List.map_map

theorem namesOf_deck_copy (b : Board) : namesOf b.copy.deck = namesOf b.deck := List.map_map

end Board

namespace Plays

variable {c : Condition} {card : Card} {b b' : Board} {name : String}

theorem deck_subset (h : Plays c card b b') : b'.deck ⊆ b.deck := by
  obtain ⟨-, log, log', hplay⟩ := h
  obtain ⟨after, hafter, hmoves⟩ := Play.moves_of_playFree hplay
  obtain ⟨-, hafter⟩ := Option.ite_none_right_eq_some.1 hafter
  obtain rfl := Option.some.inj hafter
  exact hmoves.deck_subset

/-- The hand gets no copy of a name that the deck does not hold. -/
theorem count_hand_le (h : Plays c card b b') (hname : name ∉ namesOf b.deck) :
    (namesOf b'.hand).count name ≤ (namesOf b.hand).count name := by
  have hstock := h.stock.countP_le fun d => d.name == name
  have hdeck : b.deck.countP (fun d => d.name == name) = 0 := by
    rw [← List.count_eq_zero, namesOf, List.count_eq_countP, List.countP_map] at hname
    exact hname
  have hhand : (without b.hand [card]).countP (fun d => d.name == name) ≤ b.hand.countP fun d => d.name == name :=
    List.filter_sublist.countP_le
  rw [Board.stock, List.countP_append, List.countP_append, hdeck] at hstock
  simp only [namesOf, List.count_eq_countP, List.countP_map]
  exact (Nat.le_of_add_right_le hstock).trans hhand

end Plays

/-- A candidate that is tried brings no copy of such a name to the hand, and none to the deck. -/
theorem Tries.keepsOut {c : Condition} {b : Board} {tried name : String} {card : Card} {scene : Scene}
    (h : Tries c b tried card scene) (hname : name ∉ namesOf b.deck) :
    name ∉ namesOf scene.board.deck ∧ (namesOf scene.board.hand).count name ≤ (namesOf b.hand).count name := by
  obtain ⟨-, hplay, -⟩ := h.plays
  rw [← b.namesOf_deck_copy] at hname
  rw [← b.namesOf_hand_copy]
  exact ⟨fun hin => hname (List.map_subset _ hplay.deck_subset hin), hplay.count_hand_le hname⟩

namespace DepthFirst

variable {c : Condition} {caps : Caps} {depth : Nat} {b : Board} {l : List Branch} {name : String}

/-- No hand below a board holds more copies than the hand of the board. -/
theorem copies_le (h : DepthFirst c caps depth b l) (hname : name ∉ namesOf b.deck) :
    ∀ x ∈ l, x.copies name ≤ (namesOf b.hand).count name := by
  induction h with
  | nil => exact List.forall_mem_nil _
  | play tries _ _ _ ihlower ihlater =>
      obtain ⟨hdeck, hle⟩ := tries.keepsOut hname
      exact List.forall_mem_cons.2
        ⟨hle, List.forall_mem_append.2 ⟨fun x hx => (ihlower hdeck x hx).trans hle, ihlater hname⟩⟩

/-- **A hand that lies deeper than the one before it holds no more copies,** since it comes from it by a play. -/
theorem isChain_copies (h : DepthFirst c caps depth b l) (hname : name ∉ namesOf b.deck) :
    l.IsChain fun x y => x.depth < y.depth → y.copies name ≤ x.copies name := by
  induction h with
  | nil => exact .nil
  | @play depth b tried card scene lower later tries _ hlower hlater ihlower ihlater =>
      obtain ⟨hdeck, -⟩ := tries.keepsOut hname
      have hfirst : (judge c depth scene.board :: lower).IsChain fun x y =>
          x.depth < y.depth → y.copies name ≤ x.copies name :=
        List.isChain_cons.2 ⟨fun y hy _ => hlower.copies_le hdeck y (List.mem_of_mem_head? hy), ihlower hdeck⟩
      -- the hand after the next play on the board lies no deeper than those below this one
      refine hfirst.append (ihlater hname) fun x hx y hy hlt => absurd hlt ?_
      rw [hlater.depth_head y hy, Nat.not_lt]
      rcases List.mem_cons.1 (List.mem_of_getLast? hx) with rfl | hx
      · exact Nat.le_refl depth
      · exact Nat.le_of_succ_le (hlower.le_depth x hx)

end DepthFirst

namespace Simulation

variable {opening : Board} {cs : List Condition} {caps : Caps} {s : Simulation}

/-- The opening hand is judged first, and then the search goes depth first. -/
theorem depthFirst_of_run (h : run opening cs caps = .ok s) {c : ConditionRun} (hc : c ∈ s.runs) :
    ∃ below, c.branches = judge c.condition 0 s.opening.copy :: below ∧
      DepthFirst c.condition caps 1 s.opening below := by
  obtain ⟨found, hfound, hbranches⟩ := exists_search_of_run h hc
  rw [hbranches, opening_of_run h]
  exact depthFirst_search hfound

theorem copies_judge_copy (c : Condition) (depth : Nat) (b : Board) (name : String) :
    (judge c depth b.copy).copies name = (namesOf b.hand).count name :=
  congrArg (List.count name) b.namesOf_hand_copy

/-- For names that the opening deck does not hold, no hand that lies deeper than the one before it holds more copies, and
none holds more than the opening hand. -/
theorem isChain_copies_of_run (h : run opening cs caps = .ok s) {name : String}
    (hname : name ∉ namesOf s.opening.deck) {c : ConditionRun} (hc : c ∈ s.runs) :
    (c.branches.IsChain fun x y => x.depth < y.depth → y.copies name ≤ x.copies name) ∧
      ∀ x ∈ c.branches, x.copies name ≤ (namesOf s.opening.hand).count name := by
  obtain ⟨below, hfirst, hbelow⟩ := depthFirst_of_run h hc
  have hopening := copies_judge_copy c.condition 0 s.opening name
  have hle := hbelow.copies_le hname
  rw [hfirst]
  refine ⟨List.isChain_cons.2 ⟨fun y hy _ => ?_, hbelow.isChain_copies hname⟩,
    List.forall_mem_cons.2 ⟨hopening.le, hle⟩⟩
  rw [hopening]
  exact hle y (List.mem_of_mem_head? hy)

end Simulation

/-! ### The counts of a report -/

namespace Report

/-- **What counts as drawn without coming from the deck.** There is a report on a simulation whose conditions were read
from texts. Whenever there is one, and the opening deck does not hold a name, its count of drawn copies is the sum, over
the steps back of the searches, of the copies that the next hand holds in excess of the last one. It is zero exactly if
no hand after a step back holds more copies than the hand before. So it is if no search steps back, and for a name that
the opening hand does not hold either. -/
theorem drawn_of_run {opening : Board} {cs : List Condition} {caps : Caps} {s : Simulation}
    (h : Simulation.run opening cs caps = .ok s) :
    ((∀ c ∈ cs, ∃ written, Condition.ofText written = .ok c) → ∃ r, ofSimulations [s] = .ok r) ∧
    ∀ r name, ofSimulations [s] = .ok r → name ∉ namesOf opening.deck →
      r.cardNames.number name (·.drawn) = (s.runs.map fun c => regained name c.branches).sum ∧
      (r.cardNames.number name (·.drawn) = 0 ↔ ∀ c ∈ s.runs,
        c.branches.IsChain fun x y => y.depth ≤ x.depth → y.copies name ≤ x.copies name) ∧
      ((∀ c ∈ s.runs, c.branches.IsChain fun x y => x.depth < y.depth) →
        r.cardNames.number name (·.drawn) = 0) ∧
      (name ∉ namesOf opening.hand → r.cardNames.number name (·.drawn) = 0) := by
  refine ⟨fun hcs => exists_ofSimulations_of_ofText (List.forall_mem_singleton.2 fun c =>
    Simulation.exists_written_of_run h hcs), fun r name hr hname => ?_⟩
  have hopening := Simulation.opening_of_run h
  rw [← opening.namesOf_deck_copy, ← hopening] at hname
  have hruns := fun c => Simulation.isChain_copies_of_run h hname (c := c)
  have hsum : r.cardNames.number name (·.drawn) = (s.runs.map fun c => regained name c.branches).sum := by
    refine (((CountsAll.ofSimulations hr).cards .name).draws name).trans ?_
    rw [List.flatMap_singleton]
    show (s.runs.flatMap fun c => namesOf (drawnCards c.branches)).count name = _
    rw [List.count_flatMap]
    refine congrArg List.sum (List.map_congr_left fun c hc => ?_)
    exact (count_drawnCards name c.branches).trans (gained_eq_regained (hruns c hc).1)
  have hzero : r.cardNames.number name (·.drawn) = 0 ↔ ∀ c ∈ s.runs,
      c.branches.IsChain fun x y => y.depth ≤ x.depth → y.copies name ≤ x.copies name := by
    rw [hsum, List.sum_eq_zero_iff, List.forall_mem_map]
    simp only [regained_eq_zero_iff]
  refine ⟨hsum, hzero, fun hdown => hzero.2 fun c hc => ?_, fun hhand => hzero.2 fun c hc => ?_⟩
  · exact (hdown c hc).imp fun x y hlt hle => absurd hlt (Nat.not_lt.2 hle)
  · have hnone : ∀ x ∈ c.branches, x.copies name = 0 := fun x hx => by
      have hle := (hruns c hc).2 x hx
      rw [hopening, opening.namesOf_hand_copy, List.count_eq_zero_of_not_mem hhand] at hle
      exact Nat.le_zero.1 hle
    have hpairs : c.branches.Pairwise fun x y => y.depth ≤ x.depth → y.copies name ≤ x.copies name :=
      List.pairwise_of_forall_mem_list fun x _ y hy _ => (hnone y hy).le.trans (Nat.zero_le _)
    exact hpairs.isChain

open Simulation (plain targets drawing)

/-- A free card is played and another copy of it stays in the hand: none of its copies counts as drawn. -/
theorem drawn_of_run_drawing :
    ∃ s r, Simulation.run drawing [targets 1] (.ofInts 10000 none) = .ok s ∧ ofSimulations [s] = .ok r ∧
      s.runs.map (fun c => c.branches.map (·.depth)) = [[0, 1]] ∧
      r.cardNames.number "A" (·.seen.copies) = 2 ∧ r.cardNames.number "A" (·.drawn) = 0 := by
  have hrun : (Simulation.run drawing [targets 1] (.ofInts 10000 none)).map
      (fun s => (s.runs.map fun c => c.branches.map (·.depth), namesOf s.opening.hand)) =
      .ok ([[0, 1]], ["A", "A"]) := by
    decide +kernel
  obtain ⟨s, hs, hshown⟩ := map_eq_ok.1 hrun
  obtain ⟨hdepths, hhand⟩ := Prod.mk.inj hshown
  obtain ⟨hexists, hall⟩ := drawn_of_run hs
  obtain ⟨r, hr⟩ := hexists (List.forall_mem_singleton.2 ⟨(targets 1).text, by decide +kernel⟩)
  obtain ⟨-, -, hdown, -⟩ := hall r "A" hr (by decide +kernel)
  obtain ⟨c, hc, hbranches⟩ := List.map_eq_singleton_iff.1 hdepths
  refine ⟨s, r, hs, hr, hdepths, ?_, hdown fun c' hc' => ?_⟩
  · refine (((CountsAll.ofSimulations hr).cards .name).copies "A").trans ?_
    show [(namesOf s.opening.hand).count "A"].sum = 2
    rw [hhand]
    rfl
  · obtain rfl := List.mem_singleton.1 (hc ▸ hc')
    have hdeeper : (c'.branches.map (·.depth)).IsChain (· < ·) := by
      rw [hbranches]
      decide
    exact (List.isChain_map _).1 hdeeper

/-- A free card that does nothing. -/
def idler (number : Nat) (name : String) : Card := ⟨⟨number, 0⟩, name, [], some ⟨0, true, none, [], none, none⟩⟩

/-- **A card may count as drawn though there is no deck.** Two free cards that do nothing are played in both orders.
When the search steps back, the first of them is in the hand again. -/
theorem drawn_of_run_idle :
    ∃ s r, Simulation.run (holding [idler 0 "A", idler 1 "B"]) [targets 1] (.ofInts 10000 none) = .ok s ∧
      s.runs.map (fun c => c.branches.map fun b => (b.depth, namesOf b.board.hand)) =
        [[(0, ["A", "B"]), (1, ["B"]), (2, []), (1, ["A"]), (2, [])]] ∧
      ofSimulations [s] = .ok r ∧ "A" ∉ namesOf (holding [idler 0 "A", idler 1 "B"]).deck ∧
      r.cardNames.number "A" (·.drawn) = 1 := by
  have hrun : (do
      let s ← Simulation.run (holding [idler 0 "A", idler 1 "B"]) [targets 1] (.ofInts 10000 none)
      let r ← ofSimulations [s]
      pure (s.runs.map fun c => c.branches.map fun b => (b.depth, namesOf b.board.hand),
        r.cardNames.number "A" (·.drawn)) : Except Fault (List (List (Nat × List String)) × Nat)) =
      .ok ([[(0, ["A", "B"]), (1, ["B"]), (2, []), (1, ["A"]), (2, [])]], 1) := by
    decide +kernel
  obtain ⟨s, hs, h⟩ := bind_eq_ok.1 hrun
  obtain ⟨r, hr, h⟩ := bind_eq_ok.1 h
  obtain ⟨hhands, hdrawn⟩ := Prod.mk.inj (Except.ok.inj h)
  exact ⟨s, r, hs, hhands, hr, by decide +kernel, hdrawn⟩

end Report

end OpeningHand
