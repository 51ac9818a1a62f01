import OpeningHand.Proofs.Search.Verdict

/-!
# The lines of a search are legal

Every hand that a search judges lies at the end of a line of plays as long as its depth says. The line follows
the cards that had been played when the search began, and each of its cards may follow those before it: it is
free, its limit per turn is not used up, no card before it forbids further draws, and if it wants to be the
first draw, no card before it is free (`MayFollow`, `Simulation.legal_of_run`).

A search plays on copies, and each play is made on a copy of the board before it, so what stays the same along
a line are the faces of its cards, not their identities. Whatever one play on a copy keeps, every judged hand
has (`invariant_search`).
-/

namespace OpeningHand

open Card

/-! ### What every judged hand has -/

/-- **What a play on a copy keeps, every judged hand has**, if the opening board has it, and its copy. -/
theorem invariant_search {Inv : Nat → Board → Prop} {c : Condition} {caps : Caps}
    (hstep : ∀ {d b name played scene}, Inv d b → Tries c b name played scene → Inv (d + 1) scene.board)
    {opening : Board} {found : Found} (hopening : Inv 0 opening) (hcopy : Inv 0 opening.copy)
    (h : search c caps opening = .ok found) :
    ∀ branch ∈ found.branches, Inv branch.depth branch.board := by
  have hkept : KeptBySearch c Inv fun f => ∀ branch ∈ f.branches, Inv branch.depth branch.board :=
    { step := hstep
      warning := fun _ _ => List.forall_mem_nil _
      failed := fun _ => List.forall_mem_nil _
      judged := fun hb _ => List.forall_mem_singleton.2 hb
      andThen := fun hf hg _ => List.forall_mem_append.2 ⟨hf, hg⟩ }
  exact hkept.search hopening hcopy h

/-! ### Legal lines -/

/-- What must hold of a card that is played after others. -/
structure MayFollow (before : List Card) (card : Card) : Prop where
  free : card.isFree = true
  oncePerTurn : ∀ e, card.effect = some e → e.oncePerTurn = true → ∀ d ∈ before, d.name ≠ card.name
  drawsAllowed : ∀ d ∈ before, ∀ e, d.effect = some e → Restriction.noMoreDraws ∉ e.restrictions
  firstDraw : ∀ e, card.effect = some e → Restriction.noPreviousDraws ∈ e.restrictions →
    ∀ d ∈ before, d.isFree = false

/-- Each of some cards may follow those before it, played after others. -/
def Legal (before cards : List Card) : Prop :=
  ∀ front card back, cards = front ++ card :: back → MayFollow (before ++ front) card

/-- A usable card may follow what has been played. -/
theorem mayFollow_of_usable {b : Board} {card : Card} (h : b.usable card = true) :
    MayFollow b.played card := by
  unfold Board.usable at h
  cases he : card.effect with
  | none =>
      rw [he] at h
      cases h
  | some e =>
      rw [he] at h
      simp only [Bool.and_eq_true, Bool.not_eq_true', Bool.and_eq_false_iff] at h
      obtain ⟨⟨⟨⟨honce, -⟩, hforbidden⟩, hallows⟩, -⟩ := h
      refine ⟨by rw [Card.isFree, he]; rfl, ?_, ?_, ?_⟩
      · rintro e' he' htrue d hd hname
        obtain rfl := Option.some.inj (he'.symm.trans he)
        rcases honce with hfalse | hnone
        · rw [htrue] at hfalse
          cases hfalse
        · have hd := List.any_eq_false.1 hnone d hd
          simp [hname] at hd
      · intro d hd e' he' hmem
        have hd := List.any_eq_false.1 hforbidden d hd
        rw [he'] at hd
        simp [hmem] at hd
      · rintro e' he' hmem d hd
        obtain rfl := Option.some.inj (he'.symm.trans he)
        simp only [Board.allows, Bool.not_eq_true', Bool.and_eq_false_iff] at hallows
        rcases hallows with hnot | hempty
        · simp [hmem] at hnot
        · have hnone : b.freePlayed = [] := by simpa using hempty
          have hd := List.filter_eq_nil_iff.1 hnone d hd
          simpa using hd

section

variable {σ : CardId → CardId} {before cards : List Card} {card : Card}

/-- Whether a card may follow others does not depend on identities. -/
theorem MayFollow.rename (h : MayFollow before card) (σ : CardId → CardId) :
    MayFollow (before.map (Card.rename σ)) (card.rename σ) where
  free := h.free
  oncePerTurn e he htrue := List.forall_mem_map.2 (h.oncePerTurn e he htrue)
  drawsAllowed := List.forall_mem_map.2 h.drawsAllowed
  firstDraw e he hmem := List.forall_mem_map.2 (h.firstDraw e he hmem)

namespace Legal

theorem nil (before : List Card) : Legal before [] := by
  intro front card back h
  simp at h

theorem rename (h : Legal before cards) (σ : CardId → CardId) :
    Legal (before.map (Card.rename σ)) (cards.map (Card.rename σ)) := by
  intro front card back hcards
  obtain ⟨front, rest, rfl, rfl, hrest⟩ := List.map_eq_append_iff.1 hcards
  obtain ⟨card, back, rfl, rfl, rfl⟩ := List.map_eq_cons_iff.1 hrest
  rw [← List.map_append]
  exact (h front card back rfl).rename σ

/-- A line goes on with a card that may follow all of it. -/
theorem append (h : Legal before cards) (hcard : MayFollow (before ++ cards) card) :
    Legal before (cards ++ [card]) := by
  intro front d back hcards
  rcases List.eq_nil_or_concat back with rfl | ⟨back, last, rfl⟩
  · obtain ⟨rfl, hd⟩ := List.append_inj' hcards rfl
    obtain rfl := List.singleton_inj.1 hd
    exact hcard
  · have hends : cards ++ [card] = (front ++ d :: back) ++ [last] := by simpa using hcards
    obtain ⟨hfront, -⟩ := List.append_inj' hends rfl
    exact h front d back hfront

end Legal

end

/-- The board lies at the end of a legal line of so many plays, which follows a copy of the cards that had been
played when it began. -/
def Board.IsAfter (played : List Card) (depth : Nat) (b : Board) : Prop :=
  ∃ σ line, Function.Injective σ ∧ b.played = played.map (rename σ) ++ line ∧ line.length = depth ∧
    Legal (played.map (rename σ)) line

namespace Board.IsAfter

variable {played : List Card} {depth : Nat} {b : Board}

theorem opening (b : Board) : b.IsAfter b.played 0 := by
  have hsame : b.played.map (rename id) = b.played := List.map_id b.played
  exact ⟨id, [], Function.injective_id, by rw [hsame, List.append_nil], rfl, .nil _⟩

/-- A copy lies at the end of the copied line. -/
theorem copy (h : b.IsAfter played depth) : b.copy.IsAfter played depth := by
  obtain ⟨σ, line, hσ, hplayed, hlength, hlegal⟩ := h
  have hcopied : played.map (rename (b.shifted ∘ σ)) = (played.map (rename σ)).map (rename b.shifted) := by
    rw [List.map_map]
    rfl
  refine ⟨b.shifted ∘ σ, line.map (rename b.shifted), b.shifted_injective.comp hσ, ?_, ?_, ?_⟩
  · rw [copy_eq, hcopied]
    show b.played.map (rename b.shifted) = _
    rw [hplayed, List.map_append]
  · rw [List.length_map, hlength]
  · rw [hcopied]
    exact hlegal.rename b.shifted

/-- **One play more**: the card that is played on the copy may follow the line. -/
theorem step {c : Condition} {name : String} {card : Card} {scene : Scene} (h : b.IsAfter played depth)
    (ht : Tries c b name card scene) : scene.board.IsAfter played (depth + 1) := by
  obtain ⟨σ, line, hσ, hplayed, hlength, hlegal⟩ := h.copy
  obtain ⟨-, hplay, -⟩ := ht.plays
  have hfollow := mayFollow_of_usable hplay.usable
  rw [hplayed] at hfollow
  refine ⟨σ, line ++ [card], hσ, ?_, ?_, hlegal.append hfollow⟩
  · rw [hplay.played, hplayed, List.append_assoc]
  · rw [List.length_append, hlength, List.length_singleton]

end Board.IsAfter

namespace Simulation

theorem opening_of_run {caps : Caps} {opening : Board} {cs : List Condition} {s : Simulation}
    (h : run opening cs caps = .ok s) : s.opening = opening.copy := by
  obtain ⟨⟨runs, log⟩, -, h⟩ := bind_eq_ok.1 h
  obtain rfl := Except.ok.inj h
  rfl

/-- What is recorded for a condition is what its search judged. -/
theorem exists_search_of_runFrom {caps : Caps} {opening : Board} {i : Nat} {cs : List Condition}
    {runs : List ConditionRun} {log : List String} (h : runFrom caps opening i cs = .ok (runs, log))
    {r : ConditionRun} (hr : r ∈ runs) :
    ∃ found, search r.condition caps opening = .ok found ∧ r.branches = found.branches := by
  induction cs generalizing i runs log with
  | nil =>
      obtain ⟨rfl, rfl⟩ := Prod.mk.inj (Except.ok.inj h)
      cases hr
  | cons c cs ih =>
      obtain ⟨found, runs', log', hfound, hrest, rfl, rfl⟩ := runFrom_cons h
      rcases List.mem_cons.1 hr with rfl | hr
      · exact ⟨found, hfound, rfl⟩
      · exact ih hrest hr

/-- **Every judged hand lies at the end of a legal line.** Its played cards are a copy of those of the opening
board, followed by as many cards as its depth says, each of which may follow all before it. -/
theorem legal_of_run {caps : Caps} {opening : Board} {cs : List Condition} {s : Simulation}
    (h : run opening cs caps = .ok s) {r : ConditionRun} (hr : r ∈ s.runs) {branch : Branch}
    (hbranch : branch ∈ r.branches) :
    ∃ σ line, Function.Injective σ ∧
      branch.board.played = opening.played.map (rename σ) ++ line ∧ line.length = branch.depth ∧
      ∀ front card back, line = front ++ card :: back →
        MayFollow (opening.played.map (rename σ) ++ front) card := by
  obtain ⟨⟨runs, log⟩, hruns, h⟩ := bind_eq_ok.1 h
  obtain rfl := Except.ok.inj h
  obtain ⟨found, hfound, hbranches⟩ := exists_search_of_runFrom hruns hr
  rw [hbranches] at hbranch
  have hopening : opening.copy.IsAfter opening.played 0 := (Board.IsAfter.opening opening).copy
  exact invariant_search (fun hb ht => hb.step ht) hopening hopening.copy hfound branch hbranch

/-- A free card that draws a card, under some restrictions. -/
def restrained (number : Nat) (name : String) (restrictions : List Restriction) : Card :=
  ⟨⟨number, 0⟩, name, [], some ⟨1, true, none, restrictions, none, none⟩⟩

/-- A card that wants to be the first draw and one that forbids further draws, after another card. -/
def restraining : Board :=
  ⟨[plain 3 "X", plain 4 "X"], [restrained 0 "A" [.noPreviousDraws], restrained 1 "B" [.noMoreDraws]],
    [], [], [plain 2 "P"]⟩

/-- The two cards are played in this order only. -/
theorem legal_of_run_restraining :
    ∃ s r branch, run restraining [targets 1] (.ofInts 10000 none) = .ok s ∧ r ∈ s.runs ∧
      branch ∈ r.branches ∧ branch.depth = 2 ∧
      ∃ σ line, Function.Injective σ ∧
        branch.board.played = restraining.played.map (rename σ) ++ line ∧ line.length = 2 ∧
        ∀ front card back, line = front ++ card :: back →
          MayFollow (restraining.played.map (rename σ) ++ front) card := by
  have hrun : (run restraining [targets 1] (.ofInts 10000 none)).map
      (fun s => s.runs.map fun r => r.branches.map (·.depth)) = .ok [[0, 1, 2, 1]] := by
    decide +kernel
  obtain ⟨s, hs, hdepths⟩ := map_eq_ok.1 hrun
  obtain ⟨r, hruns, hr⟩ := List.map_eq_singleton_iff.1 hdepths
  have hrmem : r ∈ s.runs := by simp [hruns]
  obtain ⟨branch, hbranch, hdepth⟩ : ∃ branch ∈ r.branches, branch.depth = 2 := by
    rw [← List.mem_map, hr]
    decide
  have hlegal := legal_of_run hs hrmem hbranch
  rw [hdepth] at hlegal
  exact ⟨s, r, branch, hs, hrmem, hbranch, hdepth, hlegal⟩

end Simulation

end OpeningHand
