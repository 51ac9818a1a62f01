import OpeningHand.Proofs.Play.Alike
import OpeningHand.Proofs.Play.Stock
import Mathlib.Logic.Relation
import Mathlib.Logic.Equiv.Basic

/-!
# Lines of plays

A line of plays leads from one board to another by successful plays of cards of the hand (`Reaches`). In a
line of first copies each card that is played is the first free card of its name in the hand
(`ReachesFirst`); these are the lines that a search tries. What a line comes to does not depend on the
identities of the cards (`canMeet_alike`).

If no card looks at the order of the hand, or no two free cards share a name, first copies are enough:
whatever a line of any copies reaches, a line of first copies reaches as well, up to the order of the hand
and to which copy lies where (`Reaches.exists_first`).
-/

namespace OpeningHand

open Card Relation
open scoped List

/-- Whether the hand and the deck meet a condition. -/
def Board.meets (c : Condition) (b : Board) : Prop := (c.evaluate b.hand b.deck).success = true

instance (c : Condition) (b : Board) : Decidable (b.meets c) :=
  inferInstanceAs (Decidable ((c.evaluate b.hand b.deck).success = true))

/-- A card of the hand is played successfully. -/
def Plays (c : Condition) (card : Card) (b b' : Board) : Prop :=
  card ∈ b.hand ∧ ∃ log log', Play.playFree c.aim card ⟨b, log⟩ = (.ok true, ⟨b', log'⟩)

/-- A board is reached from another by plays of any cards in any order. -/
def Reaches (c : Condition) : Board → Board → Prop := ReflTransGen fun b b' => ∃ card, Plays c card b b'

/-- The first free card of its name in the hand. -/
def Board.isFirst (b : Board) (card : Card) : Prop :=
  b.freeInHand.find? (fun d => d.name == card.name) = some card

/-- A board is reached from another by plays of first copies. -/
def ReachesFirst (c : Condition) : Board → Board → Prop :=
  ReflTransGen fun b b' => ∃ card, b.isFirst card ∧ Plays c card b b'

/-- Some line of first copies leads to a hand that meets the condition. -/
def CanMeet (c : Condition) (b : Board) : Prop := ∃ b', ReachesFirst c b b' ∧ b'.meets c

/-- Some line of first copies with at least one play does. -/
def CanMeetLater (c : Condition) (b : Board) : Prop :=
  ∃ card b', b.isFirst card ∧ Plays c card b b' ∧ CanMeet c b'

theorem canMeet_iff {c : Condition} {b : Board} : CanMeet c b ↔ b.meets c ∨ CanMeetLater c b := by
  constructor
  · rintro ⟨b', hline, hmeets⟩
    rcases ReflTransGen.cases_head hline with rfl | ⟨b₁, ⟨card, hfirst, hplay⟩, hrest⟩
    · exact Or.inl hmeets
    · exact Or.inr ⟨card, b₁, hfirst, hplay, b', hrest, hmeets⟩
  · rintro (hmeets | ⟨card, b₁, hfirst, hplay, b', hrest, hmeets⟩)
    · exact ⟨b, ReflTransGen.refl, hmeets⟩
    · exact ⟨b', ReflTransGen.head ⟨card, hfirst, hplay⟩ hrest, hmeets⟩

/-! ### Alike boards have alike lines -/

section

variable {σ : CardId → CardId} {ordered : Prop} {c : Condition} {b b' : Board}

theorem meets_alike (hσ : Function.Injective σ) (h : b.Alike σ ordered b') :
    b'.meets c ↔ b.meets c := by
  rw [Board.meets, Board.meets, h.deck, c.success_evaluate_rename hσ h.hand]

theorem Plays.follow {card : Card} {b₁ : Board} (hplay : Plays c card b b₁)
    (hσ : Function.Injective σ) (h : b.Alike σ ordered b')
    (ho : ordered ∨ card.isOrderless = true) :
    ∃ scene, Play.playFree c.aim (card.rename σ) ⟨b', []⟩ = (.ok true, scene) ∧
      b₁.Alike σ ordered scene.board := by
  obtain ⟨-, log, log', hres⟩ := hplay
  obtain ⟨hagree, ⟨hboard, -⟩⟩ := Play.playFree_follows hσ c.aim ho ⟨b, log⟩ ⟨b', []⟩ h
  rw [hres] at hagree hboard
  generalize Play.playFree c.aim (card.rename σ) ⟨b', []⟩ = p at hagree hboard ⊢
  obtain ⟨r, scene⟩ := p
  cases r with
  | error f => exact hagree.elim
  | ok ok =>
      obtain rfl : true = ok := hagree
      exact ⟨scene, rfl, hboard⟩

theorem Plays.alike {card : Card} {b₁ : Board} (hplay : Plays c card b b₁)
    (hσ : Function.Injective σ) (h : b.Alike σ ordered b')
    (ho : ordered ∨ card.isOrderless = true) :
    ∃ b₁', Plays c (card.rename σ) b' b₁' ∧ b₁.Alike σ ordered b₁' := by
  obtain ⟨scene, hscene, hboard⟩ := hplay.follow hσ h ho
  exact ⟨scene.board, ⟨h.hand.mem_iff.2 (List.mem_map_of_mem hplay.1), [], scene.log, hscene⟩, hboard⟩

/-- What is played on one board is played on every board of which it is a renaming. -/
theorem Plays.of_alike {card' : Card} {b₁' : Board} (hplay : Plays c card' b' b₁')
    (hσ : Function.Injective σ) (h : b.Alike σ True b') :
    ∃ card b₁, card' = card.rename σ ∧ Plays c card b b₁ ∧ b₁.Alike σ True b₁' := by
  obtain ⟨hmem, log, log', hres⟩ := hplay
  rw [h.order trivial] at hmem
  obtain ⟨card, hcard, rfl⟩ := List.mem_map.1 hmem
  have horder : True ∨ card.isOrderless = true := Or.inl trivial
  obtain ⟨hagree, ⟨hboard, -⟩⟩ := Play.playFree_follows hσ c.aim horder ⟨b, []⟩ ⟨b', log⟩ h
  rw [hres] at hagree hboard
  generalize hp : Play.playFree c.aim card ⟨b, []⟩ = p at hagree hboard
  obtain ⟨r, ⟨b₁, log''⟩⟩ := p
  cases r with
  | error f => exact hagree.elim
  | ok ok =>
      obtain rfl : ok = true := hagree
      exact ⟨card, b₁, rfl, ⟨hcard, [], log'', hp⟩, hboard⟩

theorem isFirst_alike (hσ : Function.Injective σ) (h : b.Alike σ True b') {card : Card} :
    b'.isFirst (card.rename σ) ↔ b.isFirst card := by
  have hfree : b'.freeInHand = b.freeInHand.map (rename σ) := by
    rw [Board.freeInHand, Board.freeInHand, h.order trivial, List.filter_map]
    rfl
  rw [Board.isFirst, Board.isFirst, hfree, List.find?_map, ← Option.map_some]
  exact (Option.map_injective (rename_injective hσ)).eq_iff

/-- **Which boards a line can meet a condition from does not depend on the identities of cards.** -/
theorem canMeet_alike (hσ : Function.Injective σ) (h : b.Alike σ True b') :
    CanMeet c b' ↔ CanMeet c b := by
  constructor
  · rintro ⟨b'', hline, hmeets⟩
    induction hline using ReflTransGen.head_induction_on generalizing b with
    | refl => exact ⟨b, ReflTransGen.refl, (meets_alike hσ h).1 hmeets⟩
    | head hstep _ ih =>
        obtain ⟨card', hfirst, hplay⟩ := hstep
        obtain ⟨card, b₁, rfl, hplay, h₁⟩ := hplay.of_alike hσ h
        exact canMeet_iff.2 (Or.inr ⟨card, b₁, (isFirst_alike hσ h).1 hfirst, hplay, ih h₁⟩)
  · rintro ⟨b'', hline, hmeets⟩
    induction hline using ReflTransGen.head_induction_on generalizing b' with
    | refl => exact ⟨b', ReflTransGen.refl, (meets_alike hσ h).2 hmeets⟩
    | head hstep _ ih =>
        obtain ⟨card, hfirst, hplay⟩ := hstep
        obtain ⟨b₁', hplay', h₁⟩ := hplay.alike hσ h (Or.inl trivial)
        exact canMeet_iff.2 (Or.inr ⟨_, b₁', (isFirst_alike hσ h).2 hfirst, hplay', ih h₁⟩)

theorem canMeetLater_of_alike (hσ : Function.Injective σ) (h : b.Alike σ True b')
    (hlater : CanMeetLater c b') : CanMeetLater c b := by
  obtain ⟨card', b₁', hfirst, hplay, hmeet⟩ := hlater
  obtain ⟨card, b₁, rfl, hplay, h₁⟩ := hplay.of_alike hσ h
  exact ⟨card, b₁, (isFirst_alike hσ h).1 hfirst, hplay, (canMeet_alike hσ h₁).1 hmeet⟩

end

/-! ### The cards of a line -/

/-- The cards that plays look at: the stock and the played cards. -/
def Board.inSight (b : Board) : List Card := b.stock ++ b.played

theorem Board.inSight_subperm (b : Board) : b.inSight.Subperm b.cards := by
  have hperm : b.inSight.Perm (b.deck ++ b.hand ++ b.played) := List.perm_append_comm.append_right _
  refine hperm.subperm.trans (List.Sublist.subperm (List.Sublist.append_right ?_ _))
  rw [List.append_assoc (b.deck ++ b.hand)]
  exact List.sublist_append_left _ _

namespace Plays

variable {c : Condition} {card : Card} {b b' : Board}

theorem isFree (h : Plays c card b b') : card.isFree = true := by
  obtain ⟨-, log, log', hres⟩ := h
  exact (Play.stock_of_playFree hres).2.1

theorem usable (h : Plays c card b b') : b.usable card = true := by
  obtain ⟨-, log, log', hres⟩ := h
  exact (Play.stock_of_playFree hres).2.2.1

theorem played (h : Plays c card b b') : b'.played = b.played ++ [card] := by
  obtain ⟨-, log, log', hres⟩ := h
  exact (Play.stock_of_playFree hres).2.2.2.1

theorem stock (h : Plays c card b b') : b'.stock.Subperm (without b.hand [card] ++ b.deck) := by
  obtain ⟨-, log, log', hres⟩ := h
  exact (Play.stock_of_playFree hres).2.2.2.2

/-- No new card comes into sight. -/
theorem inSight (h : Plays c card b b') (hd : AllDifferent b.inSight) :
    b'.inSight.Subperm b.inSight := by
  have hhand : AllDifferent b.hand := hd.left.left
  have hcard : ([card] ++ without b.hand [card]).Perm b.hand :=
    hhand.perm_append_without (List.singleton_subperm_iff.2 h.1)
  rw [Board.inSight, Board.inSight, h.played]
  refine ((List.subperm_append_right _).2 h.stock).trans (List.Perm.subperm ?_)
  -- the played card moves from the hand to the end of the played cards
  calc without b.hand [card] ++ b.deck ++ (b.played ++ [card])
      _ = (without b.hand [card] ++ (b.deck ++ b.played)) ++ [card] := by simp
      _ ~ [card] ++ (without b.hand [card] ++ (b.deck ++ b.played)) := List.perm_append_comm
      _ = ([card] ++ without b.hand [card]) ++ (b.deck ++ b.played) := by simp
      _ ~ b.hand ++ (b.deck ++ b.played) := hcard.append_right _
      _ = b.stock ++ b.played := by simp [Board.stock]

theorem allDifferent (h : Plays c card b b') (hd : AllDifferent b.inSight) :
    AllDifferent b'.inSight := by
  obtain ⟨l, hl, hsub⟩ := h.inSight hd
  exact (hd.sublist hsub).perm hl

end Plays

theorem Reaches.inSight {c : Condition} {b b' : Board} (h : Reaches c b b')
    (hd : AllDifferent b.inSight) : b'.inSight.Subperm b.inSight ∧ AllDifferent b'.inSight := by
  induction h with
  | refl => exact ⟨List.Subperm.refl _, hd⟩
  | tail _ hstep ih =>
      obtain ⟨card, hplay⟩ := hstep
      obtain ⟨hsub, hd'⟩ := ih
      exact ⟨(hplay.inSight hd').trans hsub, hplay.allDifferent hd'⟩

/-! ### Copies in each other's place -/

/-- Cards of one name have one face. -/
def AlikeCopies (cards : List Card) : Prop :=
  ∀ x ∈ cards, ∀ y ∈ cards, x.name = y.name → x.face = y.face

instance (cards : List Card) : Decidable (AlikeCopies cards) :=
  inferInstanceAs (Decidable (∀ x ∈ cards, ∀ y ∈ cards, x.name = y.name → x.face = y.face))

theorem rename_swap_left {x y : Card} (h : x.face = y.face) :
    x.rename (Equiv.swap x.id y.id) = y := by
  simp only [face, Prod.mk.injEq] at h
  cases x
  cases y
  simp_all [rename]

theorem rename_swap_right {x y : Card} (h : x.face = y.face) :
    y.rename (Equiv.swap x.id y.id) = x := by
  rw [Equiv.swap_comm]
  exact rename_swap_left h.symm

theorem rename_swap_of_ne {x y z : Card} (hx : z.id ≠ x.id) (hy : z.id ≠ y.id) :
    z.rename (Equiv.swap x.id y.id) = z := by
  rw [rename, Equiv.swap_apply_of_ne_of_ne hx hy]

theorem map_rename_swap {x y : Card} {cards : List Card}
    (h : ∀ z ∈ cards, z.id ≠ x.id ∧ z.id ≠ y.id) :
    cards.map (rename (Equiv.swap x.id y.id)) = cards := by
  rw [List.map_congr_left fun z hz => rename_swap_of_ne (h z hz).1 (h z hz).2, List.map_id']

/-- Two copies of a card may change places. -/
theorem perm_rename_swap {x y : Card} {cards : List Card} (hd : AllDifferent cards) (hx : x ∈ cards)
    (hy : y ∈ cards) (hface : x.face = y.face) :
    (cards.map (rename (Equiv.swap x.id y.id))).Perm cards := by
  have hinj := rename_injective (Equiv.swap x.id y.id).injective
  refine (List.perm_ext_iff_of_nodup (hd.nodup.map hinj) hd.nodup).2 fun z => ?_
  have hsub : ∀ z ∈ cards, z.rename (Equiv.swap x.id y.id) ∈ cards := by
    intro z hz
    by_cases hzx : z.id = x.id
    · obtain rfl := hd.eq_of_id_eq hz hx hzx
      rwa [rename_swap_left hface]
    by_cases hzy : z.id = y.id
    · obtain rfl := hd.eq_of_id_eq hz hy hzy
      rwa [rename_swap_right hface]
    rwa [rename_swap_of_ne hzx hzy]
  constructor
  · intro hz
    obtain ⟨w, hw, rfl⟩ := List.mem_map.1 hz
    exact hsub w hw
  · intro hz
    refine List.mem_map.2 ⟨_, hsub z hz, ?_⟩
    simp [rename]

theorem Board.Alike.swap {σ : CardId → CardId} {b b' : Board} (h : b.Alike σ False b')
    (hd : AllDifferent b.inSight) {x y : Card} (hx : x ∈ b.hand) (hy : y ∈ b.hand)
    (hxfree : x.isFree = true) (hface : x.face = y.face) :
    b.Alike (σ ∘ Equiv.swap x.id y.id) False b' := by
  have hyfree : y.isFree = true := by
    simp only [face, Prod.mk.injEq] at hface
    rwa [Card.isFree, ← hface.2.2]
  have hhand : AllDifferent b.hand := hd.left.left
  -- the two copies lie in the hand, so they are none of the other cards
  have hout : ∀ z ∈ b.deck ++ b.played, z.id ≠ x.id ∧ z.id ≠ y.id := by
    have hd' : AllDifferent (b.hand ++ (b.deck ++ b.played)) := by
      rwa [← List.append_assoc]
    refine fun z hz => ⟨fun he => ?_, fun he => ?_⟩
    · exact hd'.notMem_right hx (he ▸ List.mem_map_of_mem hz)
    · exact hd'.notMem_right hy (he ▸ List.mem_map_of_mem hz)
  have hplain : ∀ z ∈ Board.plain b.hand, z.id ≠ x.id ∧ z.id ≠ y.id := by
    intro z hz
    obtain ⟨hz, hnot⟩ := List.mem_filter.1 hz
    refine ⟨fun he => ?_, fun he => ?_⟩
    · obtain rfl := hhand.eq_of_id_eq hz hx he
      simp [hxfree] at hnot
    · obtain rfl := hhand.eq_of_id_eq hz hy he
      simp [hyfree] at hnot
  have hcomp : ∀ cards : List Card, cards.map (rename (σ ∘ Equiv.swap x.id y.id))
      = (cards.map (rename (Equiv.swap x.id y.id))).map (rename σ) := fun cards => by
    rw [List.map_map]
    rfl
  refine ⟨?_, ?_, ?_, ?_, False.elim, False.elim, False.elim⟩
  · rw [hcomp, map_rename_swap fun z hz => hout z (List.mem_append_left _ hz), h.deck]
  · rw [hcomp, map_rename_swap fun z hz => hout z (List.mem_append_right _ hz), h.played]
  · rw [hcomp]
    exact h.hand.trans ((perm_rename_swap hhand hx hy hface).symm.map _)
  · rw [hcomp, map_rename_swap hplain, h.plain]

/-- The first copy of a card, in a hand that is alike. -/
theorem Board.Alike.exists_isFirst {σ : CardId → CardId} {ordered : Prop} {b b' : Board}
    (h : b.Alike σ ordered b') {x : Card} (hx : x ∈ b.hand) (hfree : x.isFree = true) :
    ∃ y ∈ b.hand, y.name = x.name ∧ b'.isFirst (y.rename σ) := by
  have hmem : x.rename σ ∈ b'.freeInHand :=
    List.mem_filter.2 ⟨h.hand.mem_iff.2 (List.mem_map_of_mem hx), hfree⟩
  obtain ⟨d, hd⟩ := Option.isSome_iff_exists.1
    (List.find?_isSome.2 ⟨x.rename σ, hmem, beq_self_eq_true x.name⟩ :
      (b'.freeInHand.find? fun d => d.name == x.name).isSome)
  have hdhand : d ∈ b'.hand := (List.mem_filter.1 (List.mem_of_find?_eq_some hd)).1
  obtain ⟨y, hy, rfl⟩ := List.mem_map.1 (h.hand.mem_iff.1 hdhand)
  have hname : y.name = x.name := by simpa using List.find?_some hd
  refine ⟨y, hy, hname, ?_⟩
  rw [Board.isFirst, rename_name, hname]
  exact hd

/-- **First copies reach what any copies reach**, up to the order of the hand, if no card looks at that
order. -/
theorem Reaches.exists_first {c : Condition} {b b' : Board} (h : Reaches c b b')
    (hd : AllDifferent b.inSight) (hcopies : AlikeCopies b.inSight)
    (horder : ∀ x ∈ b.inSight, x.isOrderless = true) :
    ∃ b₁ σ, ReachesFirst c b b₁ ∧ Function.Injective σ ∧ b'.Alike σ False b₁ := by
  induction h with
  | refl => exact ⟨b, id, ReflTransGen.refl, Function.injective_id, .refl b⟩
  | @tail b' b'' hline hstep ih =>
      obtain ⟨b₁, σ, hfirst, hσ, halike⟩ := ih
      obtain ⟨x, hplay⟩ := hstep
      obtain ⟨hsub, hd'⟩ := Reaches.inSight hline hd
      have hhand : ∀ z ∈ b'.hand, z ∈ b.inSight := fun z hz =>
        hsub.subset (List.mem_append_left _ (List.mem_append_left _ hz))
      obtain ⟨y, hy, hname, hyfirst⟩ := halike.exists_isFirst hplay.1 hplay.isFree
      have hface : x.face = y.face := hcopies x (hhand x hplay.1) y (hhand y hy) hname.symm
      have hswap := halike.swap hd' hplay.1 hy hplay.isFree hface
      have hσ' : Function.Injective (σ ∘ Equiv.swap x.id y.id) :=
        hσ.comp (Equiv.swap x.id y.id).injective
      obtain ⟨b₂, hplay', halike'⟩ := hplay.alike hσ' hswap (Or.inr (horder x (hhand x hplay.1)))
      have hxy : x.rename (σ ∘ Equiv.swap x.id y.id) = y.rename σ :=
        congrArg (rename σ) (rename_swap_left hface)
      rw [hxy] at hplay'
      exact ⟨b₂, _, hfirst.tail ⟨_, hyfirst, hplay'⟩, hσ', halike'⟩

/-- If no two free cards share a name, there are no other copies to play. -/
theorem Reaches.first_of_names {c : Condition} {b b' : Board} (h : Reaches c b b')
    (hd : AllDifferent b.inSight)
    (hnames : ∀ x ∈ b.inSight, ∀ y ∈ b.inSight, x.isFree = true → y.isFree = true →
      x.name = y.name → x = y) : ReachesFirst c b b' := by
  induction h with
  | refl => exact ReflTransGen.refl
  | @tail b' b'' hline hstep ih =>
      obtain ⟨x, hplay⟩ := hstep
      obtain ⟨hsub, -⟩ := Reaches.inSight hline hd
      refine ih.tail ⟨x, ?_, hplay⟩
      have hsame : b'.Alike id True b' := .refl b'
      obtain ⟨y, hy, hname, hfirst⟩ := hsame.exists_isFirst hplay.1 hplay.isFree
      have hhand : ∀ z ∈ b'.hand, z ∈ b.inSight := fun z hz =>
        hsub.subset (List.mem_append_left _ (List.mem_append_left _ hz))
      have hyfree : y.isFree = true := (List.mem_filter.1 (List.mem_of_find?_eq_some hfirst)).2
      obtain rfl := hnames y (hhand y hy) x (hhand x hplay.1) hyfree hplay.isFree hname
      exact hfirst

/-- **Lines of any copies meet no more than lines of first copies**, if no card looks at the order of the
hand or no two free cards share a name. -/
theorem Reaches.canMeet {c : Condition} {b b' : Board} (h : Reaches c b b') (hmeets : b'.meets c)
    (hd : AllDifferent b.inSight) (hcopies : AlikeCopies b.inSight)
    (hchoice : (∀ x ∈ b.inSight, x.isOrderless = true) ∨
      ∀ x ∈ b.inSight, ∀ y ∈ b.inSight, x.isFree = true → y.isFree = true → x.name = y.name → x = y) :
    CanMeet c b := by
  rcases hchoice with horder | hnames
  · obtain ⟨b₁, σ, hfirst, hσ, halike⟩ := h.exists_first hd hcopies horder
    exact ⟨b₁, hfirst, (meets_alike hσ halike).2 hmeets⟩
  · exact ⟨b', h.first_of_names hd hnames, hmeets⟩

end OpeningHand
