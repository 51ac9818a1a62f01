import OpeningHand.Proofs.Search.Parts

/-!
# What a search finds

A search that no cap cuts short succeeds exactly if some line of first copies leads to a hand that meets
the condition (`success_search`). The search looks at less than all such lines: of each name it tries
one candidate, it skips the cards used on the way, and it plays on copies of the board. Nothing is lost by
that. The first copy of a name is played whatever copy is the candidate; the cards used are no longer in the
hand (`Ready`); and a copy is the same board under other identities (`Board.copy_alike`).
-/

namespace OpeningHand

open Card

/-! ### Copies of a board -/

namespace Board

/-- The identities of the cards of a copy. -/
def shifted (b : Board) (i : CardId) : CardId := { i with edition := i.edition + b.nextEdition }

theorem shifted_injective (b : Board) : Function.Injective b.shifted := by
  rintro ⟨n, e⟩ ⟨m, f⟩ h
  simp only [shifted, CardId.mk.injEq, Nat.add_right_cancel_iff] at h
  rw [h.1, h.2]

theorem le_edition_shifted (b : Board) (i : CardId) : b.nextEdition ≤ (b.shifted i).edition := Nat.le_add_left _ _

theorem copy_eq (b : Board) : b.copy = b.map (rename b.shifted) := rfl

theorem copy_alike (b : Board) : b.Alike b.shifted True b.copy := .of_map _ _ _

theorem cards_map (f : Card → Card) (b : Board) : (b.map f).cards = b.cards.map f := by
  simp only [cards, map, List.map_append]

theorem edition_lt {b : Board} {c : Card} (h : c ∈ b.cards) : c.id.edition < b.nextEdition := by
  have hmax : ∀ (l : List Nat) (m : Nat), m ≤ l.foldl max m ∧ ∀ x ∈ l, x ≤ l.foldl max m := by
    intro l
    induction l with
    | nil => simp
    | cons y l ih =>
        intro m
        obtain ⟨hm, hl⟩ := ih (max m y)
        rw [List.foldl_cons]
        refine ⟨by omega, fun x hx => ?_⟩
        rcases List.mem_cons.1 hx with rfl | hx
        · omega
        · exact hl x hx
  exact (hmax _ 0).2 _ (List.mem_map_of_mem h)

theorem inSight_map (f : Card → Card) (b : Board) : (b.map f).inSight = b.inSight.map f := by
  simp [inSight, stock, map]

theorem le_edition_copy {b : Board} {c : Card} (h : c ∈ b.copy.inSight) :
    b.nextEdition ≤ c.id.edition := by
  rw [copy_eq, inSight_map] at h
  obtain ⟨d, -, rfl⟩ := List.mem_map.1 h
  exact Nat.le_add_left _ _

theorem allDifferent_copy {b : Board} (h : AllDifferent b.inSight) : AllDifferent b.copy.inSight := by
  rw [copy_eq, inSight_map]
  exact h.rename b.shifted_injective

theorem freeAhead_eq (b : Board) :
    b.freeAhead = b.hand.countP (·.isFree) + b.deck.countP (·.isFree) := List.countP_append

theorem freeAhead_copy (b : Board) : b.copy.freeAhead = b.freeAhead := by
  rw [freeAhead_eq, freeAhead_eq, copy_eq]
  simp [map, List.countP_map, Function.comp_def]

end Board

/-- **Every play takes a free card out of the hand and the deck**, and brings none back. -/
theorem Plays.freeAhead_lt {c : Condition} {card : Card} {b b' : Board} (h : Plays c card b b') :
    b'.freeAhead < b.freeAhead := by
  have hgone : card ∉ without b.hand [card] := fun hin => (mem_without.1 hin).2 (by simp)
  have hleft : (without b.hand [card]).Sublist (b.hand.erase card) := by
    have hsub := (without_sublist b.hand [card]).erase card
    rwa [List.erase_of_not_mem hgone] at hsub
  have hhand : b.hand.countP (·.isFree) = (b.hand.erase card).countP (·.isFree) + 1 := by
    rw [(List.perm_cons_erase h.1).countP_eq, List.countP_cons_of_pos h.isFree]
  have hstock := h.stock.countP_le (·.isFree)
  have hless := hleft.countP_le (p := (·.isFree))
  rw [List.countP_append] at hstock
  rw [b.freeAhead_eq]
  exact Nat.lt_of_le_of_lt hstock (by omega)

/-! ### Candidates -/

theorem exists_mem_firstOfEachName (seen : List String) {cards : List Card} {x : Card}
    (hx : x ∈ cards) (hseen : x.name ∉ seen) :
    ∃ y ∈ firstOfEachName seen cards, y.name = x.name := by
  induction cards generalizing seen with
  | nil => cases hx
  | cons z cards ih =>
      unfold firstOfEachName
      split
      · rename_i hz
        rcases List.mem_cons.1 hx with rfl | hx
        · exact absurd (by simpa using hz) hseen
        · exact ih seen hx hseen
      · by_cases hname : x.name = z.name
        · exact ⟨z, List.mem_cons_self, hname.symm⟩
        · have hx : x ∈ cards := (List.mem_cons.1 hx).resolve_left fun h => hname (h ▸ rfl)
          obtain ⟨y, hy, hyname⟩ := ih (z.name :: seen) hx (by simp [hname, hseen])
          exact ⟨y, List.mem_cons_of_mem _ hy, hyname⟩

/-- What holds on every board that a search comes to: the cards differ, and those used on the way are not
in the hand and older than the next copy. -/
structure Ready (used : List Card) (b : Board) : Prop where
  different : AllDifferent b.inSight
  gone : ∀ u ∈ used, ∀ x ∈ b.hand, x.id ≠ u.id
  older : ∀ u ∈ used, u.id.edition < b.nextEdition

theorem Ready.step {c : Condition} {used : List Card} {b : Board} {name : String} {played : Card}
    {scene : Scene} (h : Ready used b) (ht : Tries c b name played scene) :
    Ready (used ++ [played]) scene.board := by
  obtain ⟨-, hplay, -⟩ := ht.plays
  have hcopy := Board.allDifferent_copy h.different
  have hafter := hplay.allDifferent hcopy
  have hinSight : ∀ x ∈ scene.board.hand, b.nextEdition ≤ x.id.edition := fun x hx =>
    Board.le_edition_copy ((hplay.inSight hcopy).subset
      (List.mem_append_left _ (List.mem_append_left _ hx)))
  have hmem : played ∈ scene.board.played := by
    rw [hplay.played]
    exact List.mem_append_right _ (List.mem_singleton_self _)
  have hplayed : played.id.edition < scene.board.nextEdition :=
    Board.edition_lt (scene.board.inSight_subperm.subset (List.mem_append_right _ hmem))
  have hedition : b.nextEdition ≤ played.id.edition :=
    Board.le_edition_copy (List.mem_append_left _ (List.mem_append_left _ hplay.1))
  refine ⟨hafter, fun u hu x hx => ?_, fun u hu => ?_⟩
  · rcases List.mem_append.1 hu with hu | hu
    · intro heq
      have holder := h.older u hu
      have hx := hinSight x hx
      rw [heq] at hx
      omega
    · obtain rfl := List.mem_singleton.1 hu
      intro heq
      exact hafter.notMem_right (List.mem_append_left _ hx) (heq ▸ List.mem_map_of_mem hmem)
  · rcases List.mem_append.1 hu with hu | hu
    · have holder := h.older u hu
      omega
    · obtain rfl := List.mem_singleton.1 hu
      exact hplayed

/-- The candidates come to all boards that first copies do. -/
theorem canMeetLater_iff_candidates {c : Condition} {used : List Card} {b : Board}
    (h : Ready used b) :
    CanMeetLater c b ↔ ∃ card ∈ b.candidates used, ∃ played scene,
      Tries c b card.name played scene ∧ CanMeet c scene.board := by
  have hinj := b.shifted_injective
  constructor
  · rintro ⟨card, b', hfirst, hplay, hmeet⟩
    have hfree : card ∈ b.freeInHand := List.mem_of_find?_eq_some hfirst
    have hunused : card.isIn used = false := by
      rw [Bool.eq_false_iff]
      intro hin
      obtain ⟨u, hu, heq⟩ := List.mem_map.1 (isIn_iff.1 hin)
      exact h.gone u hu card hplay.1 heq.symm
    obtain ⟨candidate, hcandidate, hname⟩ := exists_mem_firstOfEachName []
      (List.mem_filter.2 ⟨hfree, by rw [hunused, hplay.usable]; rfl⟩ :
        card ∈ b.freeInHand.filter fun x => !x.isIn used && b.usable x) (by simp)
    obtain ⟨scene, hscene, halike⟩ := hplay.follow hinj b.copy_alike (Or.inl trivial)
    refine ⟨candidate, hcandidate, card.rename b.shifted, scene, ?_,
      (canMeet_alike hinj halike).2 hmeet⟩
    rw [hname]
    exact Tries.of_first ((isFirst_alike hinj b.copy_alike).2 hfirst) hscene
  · rintro ⟨card, -, played, scene, htries, hmeet⟩
    obtain ⟨hfirst, hplay, -⟩ := htries.plays
    exact canMeetLater_of_alike hinj b.copy_alike ⟨played, scene.board, hfirst, hplay, hmeet⟩

/-! ### Completeness -/

theorem success_tryEach {c : Condition} {caps : Caps} {depth : Nat} {used : List Card} {b : Board}
    {deeper : Nat → List Card → Board → Except Fault Found}
    (hdeeper : ∀ n name played scene below, Tries c b name played scene →
      deeper n (used ++ [played]) scene.board = .ok below → caps.Unreached below.log →
      (below.success = true ↔ CanMeetLater c scene.board))
    {cards : List Card} {recorded : Nat} {found : Found}
    (h : tryEach c caps depth used b deeper recorded cards = .ok found)
    (hcaps : caps.Unreached found.log) :
    found.success = true ↔ ∃ card ∈ cards, ∃ played scene,
      Tries c b card.name played scene ∧ CanMeet c scene.board := by
  induction cards generalizing recorded found with
  | nil =>
      obtain rfl := Except.ok.inj h
      simp [Found.nothing]
  | cons card cards ih =>
      rw [List.exists_mem_cons_iff]
      rcases tryEach_cases h with rfl | ⟨scene, rest, hplay, hrest, rfl⟩ |
        ⟨played, scene, htries, hcase⟩
      · exact absurd List.mem_cons_self hcaps.1
      · -- the candidate cannot be played
        have hno : ¬ ∃ played scene, Tries c b card.name played scene ∧ CanMeet c scene.board := by
          rintro ⟨played, scene', htries, -⟩
          rw [Tries, hplay] at htries
          simp at htries
        rw [or_iff_right hno]
        have hothers := ih hrest (Caps.unreached_append.1 hcaps).2
        exact hothers
      · rw [htries.exists_iff, canMeet_iff]
        rcases hcase with ⟨hmeets, rfl⟩ | ⟨hmeets, below, hbelow, ⟨hsuccess, rfl⟩ |
          ⟨hfail, rest, hrest, rfl⟩⟩
        · exact iff_of_true hmeets (Or.inl (Or.inl hmeets))
        · have hlater := (hdeeper _ _ _ _ _ htries hbelow (Caps.unreached_append.1 hcaps).2).1 hsuccess
          exact iff_of_true hsuccess (Or.inl (Or.inr hlater))
        · obtain ⟨hfirst, hlast⟩ := Caps.unreached_append.1 hcaps
          have hlater := hdeeper _ _ _ _ _ htries hbelow (Caps.unreached_append.1 hfirst).2
          have hno : ¬ CanMeetLater c scene.board := by simp [← hlater, hfail]
          rw [or_iff_right hmeets, or_iff_right hno]
          have hothers := ih hrest hlast
          exact hothers

theorem success_explore {c : Condition} {caps : Caps} {ahead depth recorded : Nat} {used : List Card}
    {b : Board} {found : Found} (h : explore c caps ahead depth recorded used b = .ok found)
    (hready : Ready used b) (hahead : b.freeAhead ≤ ahead) (hcaps : caps.Unreached found.log) :
    found.success = true ↔ CanMeetLater c b := by
  induction ahead generalizing depth recorded used b found with
  | zero =>
      rcases explore_cases h with rfl | ⟨-, rfl⟩ | ⟨rest, hrest, -⟩
      · exact absurd List.mem_cons_self hcaps.2
      · refine iff_of_false Bool.false_ne_true ?_
        rintro ⟨card, b', -, hplay, -⟩
        have hless := hplay.freeAhead_lt
        omega
      · cases hrest
  | succ ahead ih =>
      rcases explore_cases h with rfl | ⟨hzero, -⟩ | ⟨rest, hrest, htry⟩
      · exact absurd List.mem_cons_self hcaps.2
      · cases hzero
      · obtain rfl := Nat.succ.inj hrest
        rw [canMeetLater_iff_candidates hready]
        refine success_tryEach (fun n name played scene below htries hbelow hcaps => ?_) htry hcaps
        have hless := htries.plays.2.1.freeAhead_lt
        rw [Board.freeAhead_copy] at hless
        exact ih hbelow (hready.step htries) (by omega) hcaps

/-- **A search that no cap cut short succeeds exactly if some line of first copies leads to a hand that
meets the condition.** -/
theorem success_search {c : Condition} {caps : Caps} {opening : Board} {found : Found}
    (h : search c caps opening = .ok found) (hd : AllDifferent opening.inSight)
    (hcaps : caps.Unreached found.log) : found.success = true ↔ CanMeet c opening := by
  have hmeets : opening.copy.meets c ↔ opening.meets c :=
    meets_alike opening.shifted_injective opening.copy_alike
  rw [canMeet_iff, ← hmeets]
  unfold search at h
  dsimp only at h
  split at h
  · rename_i hhere
    obtain rfl := Except.ok.inj h
    exact iff_of_true hhere (Or.inl hhere)
  · rename_i hhere
    obtain ⟨below, hbelow, rfl⟩ := map_eq_ok.1 h
    have hready : Ready [] opening := ⟨hd, by simp, by simp⟩
    have hlater := success_explore hbelow hready (Nat.le_refl _) (Caps.unreached_append.1 hcaps).2
    exact hlater.trans (or_iff_right hhere).symm

end OpeningHand
