import OpeningHand.Proofs.Search.Completeness

/-!
# Plays on a copied board

A copy of a board has the same faces at the same positions of every zone, one card lies at two of its positions exactly
if one card lies at both on the board, and no card of the board lies on it (`Board.CopyOf`). Nothing else is said about
the new identities, and nothing else matters: whatever they are, the copy is a renaming of the board
(`Board.CopyOf.exists_renaming`), and a play asks of two cards no more than whether they are the same one. So what a
card of the hand does on the board, the card at its position does on the copy, with the same outcome and the same lines
(`Play.playFree_on_copies`). A card may lie at any number of positions.
-/

namespace OpeningHand

open Card

/-- The zones of a board. -/
inductive Zone where
  | deck
  | hand
  | banished
  | graveyard
  | played
deriving DecidableEq, Repr

namespace Board

variable {b b' : Board} {σ : CardId → CardId}

/-- The cards of a zone, in order. -/
def zone (b : Board) : Zone → List Card
  | .deck => b.deck
  | .hand => b.hand
  | .banished => b.banished
  | .graveyard => b.graveyard
  | .played => b.played

/-- Which card lies at a position of a zone. -/
def idAt (b : Board) (z : Zone) (i : Nat) : Option CardId := (b.zone z)[i]?.map (·.id)

theorem zone_map (f : Card → Card) (z : Zone) : (b.map f).zone z = (b.zone z).map f := by
  cases z <;> rfl

theorem idAt_rename (z : Zone) (i : Nat) : (b.map (rename σ)).idAt z i = (b.idAt z i).map σ := by
  rw [idAt, idAt, zone_map, List.getElem?_map, Option.map_map, Option.map_map]
  rfl

theorem eq_of_zone_eq (h : ∀ z, b.zone z = b'.zone z) : b = b' := by
  obtain ⟨deck, hand, banished, graveyard, played⟩ := b
  obtain rfl : deck = _ := h .deck
  obtain rfl : hand = _ := h .hand
  obtain rfl : banished = _ := h .banished
  obtain rfl : graveyard = _ := h .graveyard
  obtain rfl : played = _ := h .played
  rfl

theorem mem_cards_of_mem_zone {z : Zone} {c : Card} (h : c ∈ b.zone z) : c ∈ b.cards := by
  cases z <;> simp_all [zone, cards]

/-- The same faces at the same positions, one card at two positions exactly if one card lies at both on the other board,
and none of the cards of the other board. -/
structure CopyOf (b' b : Board) : Prop where
  faces (z : Zone) : (b'.zone z).map face = (b.zone z).map face
  shared (z w : Zone) (i j : Nat) : b'.idAt z i = b'.idAt w j ↔ b.idAt z i = b.idAt w j
  new : ∀ c ∈ b'.cards, ∀ d ∈ b.cards, c.id ≠ d.id

/-- **A board is copied card by card.** -/
theorem copy_copyOf (b : Board) : b.copy.CopyOf b where
  faces z := by rw [copy_eq, zone_map, map_face_rename]
  shared z w i j := by
    rw [copy_eq, idAt_rename, idAt_rename]
    exact (Option.map_injective b.shifted_injective).eq_iff
  new c hc d hd heq := by
    rw [copy_eq, cards_map] at hc
    obtain ⟨c, -, rfl⟩ := List.mem_map.1 hc
    have hle := b.le_edition_shifted c.id
    rw [show b.shifted c.id = d.id from heq] at hle
    exact absurd (edition_lt hd) (Nat.not_lt.2 hle)

/-! ### The renaming -/

/-- One card lies on one board where the other lies on the other. -/
def Counterparts (b b' : Board) (x y : CardId) : Prop := ∃ z i, b.idAt z i = some x ∧ b'.idAt z i = some y

namespace CopyOf

theorem right_unique (h : b'.CopyOf b) {x y y' : CardId} (hy : Counterparts b b' x y)
    (hy' : Counterparts b b' x y') : y = y' := by
  obtain ⟨z, i, hx, hy⟩ := hy
  obtain ⟨w, j, hx', hy'⟩ := hy'
  have hsame : b'.idAt z i = b'.idAt w j := (h.shared z w i j).2 (hx.trans hx'.symm)
  exact Option.some.inj (hy.symm.trans (hsame.trans hy'))

theorem left_unique (h : b'.CopyOf b) {x x' y : CardId} (hx : Counterparts b b' x y)
    (hx' : Counterparts b b' x' y) : x = x' := by
  obtain ⟨z, i, hx, hy⟩ := hx
  obtain ⟨w, j, hx', hy'⟩ := hx'
  have hsame : b.idAt z i = b.idAt w j := (h.shared z w i j).1 (hy.trans hy'.symm)
  exact Option.some.inj (hx.symm.trans (hsame.trans hx'))

end CopyOf

theorem Counterparts.edition_lt {x y : CardId} (h : Counterparts b b' x y) : y.edition < b'.nextEdition := by
  obtain ⟨z, i, -, hy⟩ := h
  obtain ⟨c, hc, rfl⟩ := Option.map_eq_some_iff.1 hy
  exact Board.edition_lt (mem_cards_of_mem_zone (List.mem_of_getElem? hc))

open Classical in
/-- The identity of the counterpart; identities that do not lie on the board go out of the way. -/
noncomputable def counterpart (b b' : Board) (x : CardId) : CardId :=
  if h : ∃ y, Counterparts b b' x y then h.choose else b'.shifted x

theorem counterpart_cases (b b' : Board) (x : CardId) :
    Counterparts b b' x (counterpart b b' x) ∨ counterpart b b' x = b'.shifted x := by
  unfold counterpart
  split
  · rename_i h
    exact Or.inl h.choose_spec
  · exact Or.inr rfl

theorem CopyOf.counterpart_eq (h : b'.CopyOf b) {x y : CardId} (hxy : Counterparts b b' x y) :
    counterpart b b' x = y := by
  have hex : ∃ y, Counterparts b b' x y := ⟨y, hxy⟩
  rw [counterpart, dif_pos hex]
  exact h.right_unique hex.choose_spec hxy

theorem CopyOf.counterpart_injective (h : b'.CopyOf b) : Function.Injective (counterpart b b') := by
  have hapart : ∀ x y, Counterparts b b' x y → ∀ x', y ≠ b'.shifted x' := by
    rintro x y hxy x' rfl
    exact absurd hxy.edition_lt (Nat.not_lt.2 (b'.le_edition_shifted x'))
  intro x x' heq
  rcases counterpart_cases b b' x with hx | hx <;> rcases counterpart_cases b b' x' with hx' | hx'
  · exact h.left_unique hx (heq ▸ hx')
  · exact absurd (heq.trans hx') (hapart _ _ hx _)
  · exact absurd (heq.symm.trans hx) (hapart _ _ hx' _)
  · exact b'.shifted_injective (hx.symm.trans (heq.trans hx'))

/-- **A copy is a renaming**, whatever the new identities are. -/
theorem CopyOf.exists_renaming (h : b'.CopyOf b) : ∃ σ, Function.Injective σ ∧ b' = b.map (rename σ) := by
  refine ⟨counterpart b b', h.counterpart_injective, eq_of_zone_eq fun z => List.ext_getElem? fun i => ?_⟩
  have hface := congrArg (·[i]?) (h.faces z)
  simp only [List.getElem?_map] at hface
  rw [zone_map, List.getElem?_map]
  cases hc : (b.zone z)[i]? with
  | none => simpa [hc] using hface
  | some c =>
      rw [hc] at hface
      obtain ⟨c', hc', hface⟩ := Option.map_eq_some_iff.1 hface
      have hpair : Counterparts b b' c.id c'.id := ⟨z, i, by rw [idAt, hc]; rfl, by rw [idAt, hc']; rfl⟩
      rw [hc', Option.map_some, rename, h.counterpart_eq hpair]
      simp only [face, Prod.mk.injEq] at hface
      obtain ⟨hname, htags, heffect⟩ := hface
      rw [← hname, ← htags, ← heffect]

end Board

namespace Play

variable {σ : CardId → CardId}

/-- **What a card does under one identity it does under every other**: with the same outcome, on the board renamed, and
with the same lines behind whatever was in the log. -/
theorem playFree_rename (hσ : Function.Injective σ) (aim : Aim) (card : Card) (b : Board) (log : List String) :
    playFree aim (card.rename σ) ⟨b.map (rename σ), log⟩ =
      ((playFree aim card ⟨b, []⟩).1,
        ⟨(playFree aim card ⟨b, []⟩).2.board.map (rename σ), log ++ (playFree aim card ⟨b, []⟩).2.log⟩) := by
  have hfollows : Follows σ True Eq (playFree aim card) (playFree aim (card.rename σ)) :=
    playFree_follows hσ aim (Or.inl trivial)
  obtain ⟨hagree, hboard, lines, hlines, hlog⟩ := hfollows ⟨b, []⟩ ⟨b.map (rename σ), log⟩ (.of_map σ True b)
  rw [← hboard.eq_map, hlines, List.nil_append, hagree.eq]
  exact Prod.ext rfl (congrArg (Scene.mk _) hlog)

/-- What is in the log makes no difference to a play. -/
theorem playFree_log (aim : Aim) (card : Card) (b : Board) (log : List String) :
    playFree aim card ⟨b, log⟩ =
      ((playFree aim card ⟨b, []⟩).1,
        ⟨(playFree aim card ⟨b, []⟩).2.board, log ++ (playFree aim card ⟨b, []⟩).2.log⟩) := by
  have hsame : ∀ b : Board, b.map (rename id) = b := fun b => (Board.Alike.refl b).eq_map.symm
  have h := playFree_rename Function.injective_id aim card b log
  rwa [hsame, hsame] at h

/-- **Copies behave like the original.** The copy of a board is a copy card by card: the same faces at the same
positions of every zone, one card at two positions exactly if it was one card, and none of the old cards. Every board of
which that is true is the original under other identities; and whatever the aim and whichever card of the hand is
played, the card at its position on the copy is played with the same outcome and the same lines, and leaves what the
original becomes, under those identities. -/
theorem playFree_on_copies (b : Board) : b.copy.CopyOf b ∧
    ∀ b' : Board, b'.CopyOf b → ∃ σ : CardId → CardId, Function.Injective σ ∧ b' = b.map (rename σ) ∧
      ∀ (aim : Aim) (i : Nat) (card : Card), b.hand[i]? = some card →
        ∃ card' outcome after lines, b'.hand[i]? = some card' ∧ ∀ log log',
          playFree aim card ⟨b, log⟩ = (outcome, ⟨after, log ++ lines⟩) ∧
          playFree aim card' ⟨b', log'⟩ = (outcome, ⟨after.map (rename σ), log' ++ lines⟩) := by
  refine ⟨b.copy_copyOf, fun b' hcopy => ?_⟩
  obtain ⟨σ, hσ, rfl⟩ := hcopy.exists_renaming
  refine ⟨σ, hσ, rfl, fun aim i card hcard => ?_⟩
  refine ⟨card.rename σ, (playFree aim card ⟨b, []⟩).1, (playFree aim card ⟨b, []⟩).2.board,
    (playFree aim card ⟨b, []⟩).2.log, ?_, fun log log' => ⟨playFree_log aim card b log, ?_⟩⟩
  · rw [Board.map, List.getElem?_map, hcard, Option.map_some]
  · exact playFree_rename hσ aim card b log'

/-- A free card that has another card of the hand discarded and draws one. -/
def echo : Card := ⟨⟨0, 0⟩, "Echo", [], some ⟨1, false, some ⟨.discard, .amount 1⟩, [], none, none⟩⟩

/-- A card that is not free. -/
def ash (number : Nat) : Card := ⟨⟨number, 0⟩, "Ash", [], none⟩

/-- A board on which a free card lies twice in the hand, and another card both in the hand and in the graveyard. -/
def echoing : Board := ⟨[ash 2], [echo, ash 1, echo], [], [ash 1], []⟩

/-- On the copy too the card leaves the hand at both of its positions, and the card that is discarded for it then lies
in the graveyard twice. -/
theorem playFree_on_copies_echoing :
    let aim := (Condition.leaf ⟨"Ash", 2, .atLeast, .hand⟩).aim
    echoing.copy.CopyOf echoing ∧ echoing.hand[2]? = some echo ∧
      ∃ σ, Function.Injective σ ∧ echoing.copy = echoing.map (rename σ) ∧
        ∃ card', echoing.copy.hand[2]? = some card' ∧ playFree aim card' ⟨echoing.copy, ["before"]⟩ =
          (.ok true, ⟨Board.map (rename σ) ⟨[], [ash 2], [], [ash 1, ash 1], [echo]⟩,
            ["before", "[FREE] play Echo", "[FREE] Echo cost: discarded Ash", "[FREE] Echo drew Ash"]⟩) := by
  intro aim
  have hplayed : playFree aim echo ⟨echoing, []⟩ = (.ok true, ⟨⟨[], [ash 2], [], [ash 1, ash 1], [echo]⟩,
      ["[FREE] play Echo", "[FREE] Echo cost: discarded Ash", "[FREE] Echo drew Ash"]⟩) := by decide +kernel
  obtain ⟨hcopy, hcopies⟩ := playFree_on_copies echoing
  obtain ⟨σ, hσ, hmap, hplays⟩ := hcopies _ hcopy
  obtain ⟨card', outcome, after, lines, hcard', hboth⟩ := hplays aim 2 echo rfl
  obtain ⟨horiginal, hcopied⟩ := hboth [] ["before"]
  rw [hplayed, List.nil_append, Prod.mk.injEq, Scene.mk.injEq] at horiginal
  obtain ⟨rfl, rfl, rfl⟩ := horiginal
  exact ⟨hcopy, rfl, σ, hσ, hmap, card', hcard', hcopied⟩

end Play

end OpeningHand
