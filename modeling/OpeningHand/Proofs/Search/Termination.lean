import OpeningHand.Proofs.Search.Legality
import Mathlib.Algebra.Group.Int.Defs

/-!
# A search ends by itself

No cap is needed to end a search. Whatever its cost, its draws, its excavation and its aftermath do, a card that is
played leaves the hand and the deck for good (`Plays.freeAhead_lt`). So the boards on which a search can go on form a
well-founded relation (`wellFounded_leadsTo`), and no line has more plays than the opening hand and deck hold free
cards (`freeAhead_of_search`).

The recursion of a search is bounded by a number all the same, the free cards still ahead. This number is never what
ends it: any greater one gives the same result (`explore_eq_of_le`), and a search satisfies the equation of the
recursion without a bound (`explore_freeAhead`).
-/

namespace OpeningHand

/-- A search for some condition can go on from the first board on the second one: a candidate is played on a copy of
the first, and that leaves the second. -/
def Board.LeadsTo (b b' : Board) : Prop := ∃ c name card scene, Tries c b name card scene ∧ scene.board = b'

theorem Tries.leadsTo {c : Condition} {b : Board} {name : String} {card : Card} {scene : Scene}
    (h : Tries c b name card scene) : b.LeadsTo scene.board := ⟨c, name, card, scene, h, rfl⟩

theorem Board.LeadsTo.freeAhead_lt {b b' : Board} (h : b.LeadsTo b') : b'.freeAhead < b.freeAhead := by
  obtain ⟨c, name, card, scene, htries, rfl⟩ := h
  rw [← b.freeAhead_copy]
  exact htries.plays.2.1.freeAhead_lt

/-- **No line of plays goes on forever.** -/
theorem wellFounded_leadsTo : WellFounded fun b' b : Board => b.LeadsTo b' :=
  Subrelation.wf (fun h => h.freeAhead_lt) (InvImage.wf Board.freeAhead wellFounded_lt)

/-! ### The bound of the recursion -/

/-- A free card that is worth trying is a free card of the hand. -/
theorem Board.candidates_eq_nil {b : Board} (h : b.freeAhead = 0) (used : List Card) :
    b.candidates used = [] := by
  have hnone : b.freeInHand = [] := by
    refine List.filter_eq_nil_iff.2 fun card hcard => ?_
    exact List.countP_eq_zero.1 h card (List.mem_append_left _ hcard)
  rw [candidates, hnone]
  rfl

section

variable {c : Condition} {caps : Caps}

/-- A candidate is tried alike if the search below it is alike. -/
theorem tryEach_congr {b : Board} {deeper deeper' : Nat → List Card → Board → Except Fault Found}
    (h : ∀ b', b.LeadsTo b' → ∀ recorded used, deeper recorded used b' = deeper' recorded used b')
    (depth recorded : Nat) (used cards : List Card) :
    tryEach c caps depth used b deeper recorded cards = tryEach c caps depth used b deeper' recorded cards := by
  induction cards generalizing recorded with
  | nil => rfl
  | cons card cards ih =>
      rw [tryEach, tryEach]
      rcases caps.allowsMore recorded with f | _ | _
      · rfl
      · rfl
      · dsimp only
        rcases hplay : Play.playNamed c.aim card.name ⟨b.copy, []⟩ with ⟨f | _ | played, scene⟩
        · rfl
        · dsimp only
          rw [ih]
        · have htries : Tries c b card.name played scene := hplay
          dsimp only
          rw [h scene.board htries.leadsTo]
          simp only [ih]

/-- **The bound of the recursion is never what ends a search**: all bounds that are not less than the number of free
cards ahead give the same result. -/
theorem explore_eq_of_le {ahead ahead' depth recorded : Nat} {used : List Card} {b : Board}
    (h : b.freeAhead ≤ ahead) (h' : b.freeAhead ≤ ahead') :
    explore c caps ahead depth recorded used b = explore c caps ahead' depth recorded used b := by
  induction ahead generalizing ahead' depth recorded used b with
  | zero =>
      cases ahead' with
      | zero => rfl
      | succ ahead' =>
          rw [explore, explore, Board.candidates_eq_nil (Nat.le_zero.1 h)]
          rfl
  | succ ahead ih =>
      cases ahead' with
      | zero =>
          rw [explore, explore, Board.candidates_eq_nil (Nat.le_zero.1 h')]
          rfl
      | succ ahead' =>
          have hbelow : ∀ b', b.LeadsTo b' → ∀ recorded used,
              explore c caps ahead (depth + 1) recorded used b'
                = explore c caps ahead' (depth + 1) recorded used b' := by
            intro b' hb' recorded used
            have hless := hb'.freeAhead_lt
            exact ih (by omega) (by omega)
          rw [explore, explore]
          simp only [tryEach_congr hbelow]

/-- **The recursion of a search without a bound**: below each board it goes on with the free cards ahead of that
board. -/
theorem explore_freeAhead (depth recorded : Nat) (used : List Card) (b : Board) :
    explore c caps b.freeAhead depth recorded used b =
      match caps.isTooDeep depth with
      | .error f => .error f
      | .ok true => .ok (.line (Caps.line "depth" caps.depth))
      | .ok false =>
        tryEach c caps depth used b
          (fun recorded used b' => explore c caps b'.freeAhead (depth + 1) recorded used b') recorded
          (b.candidates used) := by
  have hbelow : ∀ b', b.LeadsTo b' → ∀ recorded used,
      explore c caps b.freeAhead (depth + 1) recorded used b'
        = explore c caps b'.freeAhead (depth + 1) recorded used b' := fun b' hb' recorded used =>
    explore_eq_of_le hb'.freeAhead_lt.le le_rfl
  rw [explore_eq_of_le le_rfl (Nat.le_succ _), explore]
  rcases caps.isTooDeep depth with f | _ | _
  · rfl
  · exact tryEach_congr hbelow depth recorded used _
  · rfl

end

/-! ### The depth of a line -/

/-- **Plays and free cards ahead**: a judged hand has as many plays behind it, and free cards ahead of it, as there
were free cards ahead of the opening hand, or fewer. -/
theorem freeAhead_of_search {c : Condition} {caps : Caps} {opening : Board} {found : Found}
    (h : search c caps opening = .ok found) :
    ∀ branch ∈ found.branches, branch.depth + branch.board.freeAhead ≤ opening.freeAhead := by
  refine @invariant_search (fun depth b => depth + b.freeAhead ≤ opening.freeAhead) c caps ?_ _ _ ?_ ?_ h
  · intro depth b name card scene hb ht
    have hless := ht.leadsTo.freeAhead_lt
    omega
  · exact (Nat.zero_add _).le
  · rw [Board.freeAhead_copy, Nat.zero_add]

namespace Simulation

/-- **A search ends without any cap.**  In a run, with whatever caps or none, the depth of a judged hand is at most
the number of free cards in the opening hand and deck. No bound of the recursion is at work in this: the search
satisfies the equation of the recursion without one, and the boards on which it goes on form a well-founded
relation. -/
theorem depth_le_freeAhead {caps : Caps} {opening : Board} {cs : List Condition} {s : Simulation}
    (h : run opening cs caps = .ok s) :
    (∀ r ∈ s.runs, ∀ branch ∈ r.branches,
      branch.depth ≤ opening.hand.countP (·.isFree) + opening.deck.countP (·.isFree)) ∧
    (∀ c depth recorded used b, explore c caps b.freeAhead depth recorded used b =
      match caps.isTooDeep depth with
      | .error f => .error f
      | .ok true => .ok (.line (Caps.line "depth" caps.depth))
      | .ok false =>
        tryEach c caps depth used b
          (fun recorded used b' => explore c caps b'.freeAhead (depth + 1) recorded used b') recorded
          (b.candidates used)) ∧
    WellFounded fun b' b : Board => b.LeadsTo b' := by
  refine ⟨fun r hr branch hbranch => ?_, fun _ => explore_freeAhead, wellFounded_leadsTo⟩
  obtain ⟨⟨runs, log⟩, hruns, h⟩ := bind_eq_ok.1 h
  obtain rfl := Except.ok.inj h
  obtain ⟨found, hfound, hbranches⟩ := exists_search_of_runFrom hruns hr
  rw [hbranches] at hbranch
  have hbound := freeAhead_of_search hfound branch hbranch
  rw [opening.freeAhead_copy, opening.freeAhead_eq] at hbound
  omega

/-- A card that draws a card that draws a card that draws a card. -/
def chained : Board := ⟨[plain 3 "X", drawer 2 none, drawer 1 none], [drawer 0 none], [], [], []⟩

/-- The line of the three free cards is played to its end, and is as long as it can be. -/
theorem depth_le_freeAhead_chained :
    ∃ s r branch, run chained [targets 1] ⟨.int (10 ^ 100), .null⟩ = .ok s ∧ r ∈ s.runs ∧
      branch ∈ r.branches ∧ branch.depth = 3 ∧
      branch.depth ≤ chained.hand.countP (·.isFree) + chained.deck.countP (·.isFree) ∧
      chained.hand.countP (·.isFree) + chained.deck.countP (·.isFree) = 3 := by
  have hrun : (run chained [targets 1] ⟨.int (10 ^ 100), .null⟩).map
      (fun s => s.runs.map fun r => r.branches.map (·.depth)) = .ok [[0, 1, 2, 3]] := by
    decide +kernel
  obtain ⟨s, hs, hdepths⟩ := map_eq_ok.1 hrun
  obtain ⟨r, hruns, hr⟩ := List.map_eq_singleton_iff.1 hdepths
  have hrmem : r ∈ s.runs := by simp [hruns]
  obtain ⟨branch, hbranch, hdepth⟩ : ∃ branch ∈ r.branches, branch.depth = 3 := by
    rw [← List.mem_map, hr]
    decide
  exact ⟨s, r, branch, hs, hrmem, hbranch, hdepth,
    (depth_le_freeAhead hs).1 r hrmem branch hbranch, by decide⟩

end Simulation

end OpeningHand
