import OpeningHand.Proofs.Condition.Orders
import Mathlib.Data.Finset.Card

/-!
# Setting cards aside

What a condition with its `AND`s on top means, without any order of the hand: its conjuncts are met
from left to right, each on what the ones before it have left, and each sets aside the cards that it
uses up (`SetsAside`). A leaf that asks for at least some number is free to set aside any cards that
answer, as many as it asks for.

The greedy pass follows one such choice, the one that the order of the hand suggests
(`exists_setsAside_of_check`). Conversely a choice is the one that the pass makes if the cards set aside
lie in front, in the order of the conjuncts (`check_of_setsAside`). Since a judgement tries all orders,
it succeeds exactly when some choice exists. If all leaves ask for at least some number of cards of
the hand, a choice is nothing but a family of disjoint sets (`setsAside_iff_disjoint`).
-/

namespace OpeningHand

/-- What a comparison says about the number of cards found. -/
def Comparison.Meets : Comparison → (found : Nat) → (count : Int) → Prop
  | .atLeast, found, count => count ≤ found
  | .exactly, found, count => (found : Int) = count
  | .atMost, found, count => (found : Int) ≤ count

theorem Comparison.holds_iff {k : Comparison} {found : Nat} {count : Int} :
    k.holds found count = true ↔ k.Meets found count := by
  cases k <;> simp [holds, Meets]

namespace Condition

/-- Whether no `AND` stands below an `OR`. -/
def andsOnTop : Condition → Bool
  | .leaf _ => true
  | .joint .and a b _ => a.andsOnTop && b.andsOnTop
  | .joint .or a b _ => !a.hasAnd && !b.hasAnd

/-- Whether all joints are `AND`s. -/
def onlyAnds : Condition → Bool
  | .leaf _ => true
  | .joint .and a b _ => a.onlyAnds && b.onlyAnds
  | .joint .or _ _ _ => false

theorem andsOnTop_of_hasAnd_eq_false : ∀ {c : Condition}, c.hasAnd = false → c.andsOnTop = true
  | .leaf _, _ => rfl
  | .joint .and _ _ _, h => by simp [hasAnd] at h
  | .joint .or a b _, h => by
      rw [hasAnd, Bool.or_eq_false_iff] at h
      simp [andsOnTop, h]

/-- How a condition is met by a hand: each conjunct sets cards aside, and the next one looks at what
is left. -/
inductive SetsAside (deck : List Card) : Condition → (hand aside : List Card) → Prop
  /-- Some cards that answer are set aside, as many as asked for. -/
  | atLeast {name : String} {count : Int} {hand aside : List Card}
      (choice : aside.Subperm (answering [name] hand)) (size : (aside.length : Int) = count) :
      SetsAside deck (.leaf ⟨name, count, .atLeast, .hand⟩) hand aside
  /-- All cards that answer are set aside, if they are as many as asked for. -/
  | exactly {name : String} {count : Int} {hand aside : List Card}
      (all : aside.Perm (answering [name] hand)) (size : (aside.length : Int) = count) :
      SetsAside deck (.leaf ⟨name, count, .exactly, .hand⟩) hand aside
  /-- A limit sets nothing aside. -/
  | atMost {name : String} {count : Int} {hand : List Card}
      (size : ((answering [name] hand).length : Int) ≤ count) :
      SetsAside deck (.leaf ⟨name, count, .atMost, .hand⟩) hand []
  /-- A look into the deck takes nothing from the hand. -/
  | deck {name : String} {count : Int} {k : Comparison} {hand : List Card}
      (size : k.Meets (answering [name] deck).length count) :
      SetsAside deck (.leaf ⟨name, count, k, .deck⟩) hand []
  /-- The right side sees what the left side has left. -/
  | and {a b : Condition} {g : Bool} {hand x y : List Card}
      (left : SetsAside deck a hand x) (right : SetsAside deck b (without hand x) y) :
      SetsAside deck (.joint .and a b g) hand (x ++ y)
  /-- One side is enough for an `OR`, and nothing is set aside. -/
  | orLeft {a b : Condition} {g : Bool} {hand x : List Card} (left : SetsAside deck a hand x) :
      SetsAside deck (.joint .or a b g) hand []
  /-- The same for the other side. -/
  | orRight {a b : Condition} {g : Bool} {hand y : List Card} (right : SetsAside deck b hand y) :
      SetsAside deck (.joint .or a b g) hand []

namespace SetsAside

variable {deck hand aside : List Card} {c : Condition}

/-- The order of the hand does not matter. -/
protected theorem perm (h : SetsAside deck c hand aside) {hand' : List Card}
    (hp : hand.Perm hand') : SetsAside deck c hand' aside := by
  induction h generalizing hand' with
  | atLeast choice size => exact .atLeast (choice.trans (answering_perm hp).subperm) size
  | exactly all size => exact .exactly (all.trans (answering_perm hp)) size
  | atMost size => exact .atMost (by rwa [← (answering_perm hp).length_eq])
  | deck size => exact .deck size
  | and _ _ iha ihb => exact .and (iha hp) (ihb (without_perm hp _))
  | orLeft _ ih => exact .orLeft (ih hp)
  | orRight _ ih => exact .orRight (ih hp)

/-- Only cards of the hand are set aside, none of them twice. -/
theorem subperm (h : SetsAside deck c hand aside) (hd : AllDifferent hand) :
    aside.Subperm hand := by
  induction h with
  | atLeast choice _ => exact choice.trans (List.filter_sublist.subperm)
  | exactly all _ => exact all.subperm.trans (List.filter_sublist.subperm)
  | atMost _ | deck _ | orLeft _ | orRight _ => exact List.nil_subperm
  | and _ _ iha ihb =>
      have hx := iha hd
      have hy := ihb (hd.sublist (without_sublist ..))
      exact ((List.Subperm.refl _).append hy).trans (hd.perm_append_without hx).subperm

end SetsAside

/-- What a leaf takes from a deck that holds no card of the hand is not in the hand. -/
theorem without_taken_of_notMem {hand order deck : List Card}
    (h : ∀ c ∈ hand, c.id ∉ deck.map (·.id)) {l : Leaf} (hl : l.place = .deck) :
    without hand (l.taken order deck) = hand := by
  refine without_eq_self fun c hc hin => ?_
  obtain ⟨d, hdt, he⟩ := List.mem_map.1 hin
  have hdeck : d ∈ deck := by
    have hf : d ∈ l.found order deck := by
      unfold Leaf.taken at hdt
      split at hdt
      · simp at hdt
      · exact (firstCards_sublist _ _).subset hdt
    rw [Leaf.found, hl] at hf
    exact (mem_answering.1 hf).1
  exact h c hc (he ▸ List.mem_map_of_mem hdeck)

theorem without_taken_deck {hand deck : List Card} (hd : AllDifferent (hand ++ deck)) {l : Leaf}
    (hl : l.place = .deck) : without hand (l.taken hand deck) = hand :=
  without_taken_of_notMem (fun _ hc => hd.notMem_right hc) hl

/-- **The greedy pass sets cards aside.**  What it takes from the hand is a choice of cards for the
conjuncts; what it takes from the deck does not matter to the hand. -/
theorem exists_setsAside_of_check {deck : List Card} :
    ∀ {c : Condition}, c.andsOnTop = true → (∀ l ∈ c.leaves, 0 ≤ l.count) →
      ∀ {hand : List Card}, AllDifferent (hand ++ deck) → (c.check hand deck).success = true →
        ∃ aside, SetsAside deck c hand aside ∧
          without hand (c.check hand deck).used = without hand aside
  | .leaf ⟨name, count, k, .hand⟩, _, hn, hand, _, hs => by
      have hcount : 0 ≤ count := hn ⟨name, count, k, .hand⟩ (by simp [leaves])
      rw [check, Comparison.holds_iff] at hs
      refine ⟨Leaf.taken ⟨name, count, k, .hand⟩ hand deck, ?_, rfl⟩
      cases k with
      | atLeast => exact .atLeast (firstCards_sublist ..).subperm (length_firstCards hcount hs)
      | exactly =>
          have hall : Leaf.taken ⟨name, count, .exactly, .hand⟩ hand deck = answering [name] hand :=
            firstCards_of_length_le (le_of_eq hs)
          rw [hall]
          exact .exactly (.refl _) hs
      | atMost => exact .atMost hs
  | .leaf ⟨name, count, k, .deck⟩, _, _, hand, hd, hs => by
      rw [check, Comparison.holds_iff] at hs
      exact ⟨[], .deck hs, (without_taken_deck hd rfl).trans (without_nil hand).symm⟩
  | .joint .and a b g, hc, hn, hand, hd, hs => by
      rw [andsOnTop, Bool.and_eq_true] at hc
      simp only [check, Bool.and_eq_true] at hs
      obtain ⟨hsa, hsb⟩ := hs
      simp only [hsa, if_true] at hsb
      obtain ⟨x, hx, hux⟩ := exists_setsAside_of_check hc.1 (fun l hl => hn l (by simp [leaves, hl]))
        hd hsa
      rw [hux] at hsb
      obtain ⟨y, hy, huy⟩ := exists_setsAside_of_check hc.2 (fun l hl => hn l (by simp [leaves, hl]))
        (hd.sublist ((without_sublist hand x).append_right deck)) hsb
      refine ⟨x ++ y, .and hx hy, ?_⟩
      simp only [check, hsa, if_true, hux, hsb]
      rw [without_append, hux, huy, without_append]
  | .joint .or a b g, hc, hn, hand, hd, hs => by
      simp only [andsOnTop, Bool.and_eq_true, Bool.not_eq_eq_eq_not, Bool.not_true] at hc
      simp only [check, Bool.or_eq_true] at hs
      refine ⟨[], ?_, rfl⟩
      rcases hs with hsa | hsb
      · obtain ⟨x, hx, _⟩ := exists_setsAside_of_check (andsOnTop_of_hasAnd_eq_false hc.1)
          (fun l hl => hn l (by simp [leaves, hl])) hd hsa
        exact .orLeft hx
      · obtain ⟨y, hy, _⟩ := exists_setsAside_of_check (andsOnTop_of_hasAnd_eq_false hc.2)
          (fun l hl => hn l (by simp [leaves, hl])) hd hsb
        exact .orRight hy

/-- Cards chosen for a leaf are the first ones it finds, if they lie in front. -/
theorem found_front (count : Int) (k : Comparison) {name : String} {hand aside : List Card}
    (h : aside ⊆ answering [name] hand) (rest deck : List Card) :
    Leaf.found ⟨name, count, k, .hand⟩ (aside ++ rest) deck = aside ++ answering [name] rest := by
  have hself : answering [name] aside = aside := answering_eq_self fun x hx =>
    (mem_answering.1 (h hx)).2
  rw [Leaf.found, answering_append, hself]

/-- Below an `OR` the cards of a choice need not lie in front, as only numbers count there. -/
theorem success_check_of_front {deck hand aside cards : List Card} {c : Condition}
    (hc : c.hasAnd = false) (hd : AllDifferent hand) (ha : aside.Subperm hand) (hp : cards.Perm hand)
    (hfront : ∀ {rest : List Card}, (aside ++ rest).Perm hand →
      (c.check (aside ++ rest) deck).success = true) : (c.check cards deck).success = true := by
  have hperm := hd.perm_append_without ha
  rw [(check_perm_of_hasAnd_eq_false deck hc (hp.trans hperm.symm)).1]
  exact hfront hperm

/-- **A choice is the one of the greedy pass if it lies in front.**  With the cards set aside in front,
in the order of the conjuncts, the pass succeeds and leaves exactly the cards behind them. -/
theorem check_of_setsAside {deck hand aside : List Card} {c : Condition}
    (h : SetsAside deck c hand aside) (hc : c.andsOnTop = true) (hd : AllDifferent (hand ++ deck)) :
    ∀ {rest : List Card}, (aside ++ rest).Perm hand →
      (c.check (aside ++ rest) deck).success = true ∧
        without (aside ++ rest) (c.check (aside ++ rest) deck).used = rest := by
  induction h with
  | @atLeast name count hand aside choice size =>
      intro rest hp
      have hfound := found_front count .atLeast choice.subset rest deck
      refine ⟨?_, ?_⟩
      · rw [check, Comparison.holds_iff, hfound, List.length_append]
        show count ≤ _
        omega
      · rw [check, Leaf.taken, hfound, firstCards_append size]
        exact ((hd.left).perm hp.symm).without_left
  | @exactly name count hand aside all size =>
      intro rest hp
      have hfound := found_front count .exactly all.subset rest deck
      have hnone : answering [name] rest = [] := by
        have hlen := ((Leaf.found_perm ⟨name, count, .exactly, .hand⟩ hp deck).trans all.symm).length_eq
        rw [hfound, List.length_append] at hlen
        exact List.length_eq_zero_iff.1 (by omega)
      rw [hnone, List.append_nil] at hfound
      refine ⟨?_, ?_⟩
      · rw [check, Comparison.holds_iff, hfound]
        exact size
      · rw [check, Leaf.taken, hfound, firstCards_of_length_le (le_of_eq size)]
        exact ((hd.left).perm hp.symm).without_left
  | @atMost name count hand size =>
      intro rest hp
      refine ⟨?_, without_nil rest⟩
      rw [check, Comparison.holds_iff, (Leaf.found_perm _ hp deck).length_eq]
      exact size
  | @deck name count k hand size =>
      intro rest hp
      refine ⟨?_, ?_⟩
      · rw [check, Comparison.holds_iff]
        exact size
      · exact without_taken_deck (hd.perm (hp.symm.append_right deck)) rfl
  | @and a b g hand x y _ _ iha ihb =>
      intro rest hp
      rw [andsOnTop, Bool.and_eq_true] at hc
      rw [List.append_assoc] at hp ⊢
      obtain ⟨hsa, hua⟩ := iha hc.1 hd hp
      have hleft : (y ++ rest).Perm (without hand x) := by
        have := without_perm hp x
        rwa [((hd.left).perm hp.symm).without_left] at this
      obtain ⟨hsb, hub⟩ := ihb hc.2 (hd.sublist ((without_sublist hand x).append_right deck)) hleft
      simp only [check, hsa, if_true, hua, hsb, Bool.and_self, without_append, hub, and_self]
  | @orLeft a b g hand x hx ih =>
      intro rest hp
      simp only [andsOnTop, Bool.and_eq_true, Bool.not_eq_eq_eq_not, Bool.not_true] at hc
      have hs := success_check_of_front hc.1 hd.left (hx.subperm hd.left) hp fun hfront =>
        (ih (andsOnTop_of_hasAnd_eq_false hc.1) hd hfront).1
      exact ⟨by simp only [check, hs, Bool.true_or], without_nil _⟩
  | @orRight a b g hand y hy ih =>
      intro rest hp
      simp only [andsOnTop, Bool.and_eq_true, Bool.not_eq_eq_eq_not, Bool.not_true] at hc
      have hs := success_check_of_front hc.2 hd.left (hy.subperm hd.left) hp fun hfront =>
        (ih (andsOnTop_of_hasAnd_eq_false hc.2) hd hfront).1
      exact ⟨by simp only [check, hs, Bool.or_true], without_nil _⟩

/-- **A judgement succeeds exactly when cards can be set aside.** -/
theorem exists_setsAside_iff {c : Condition} {hand deck : List Card} (hc : c.andsOnTop = true)
    (hn : ∀ l ∈ c.leaves, 0 ≤ l.count) (hd : AllDifferent (hand ++ deck)) :
    (c.evaluate hand deck).success = true ↔ ∃ aside, SetsAside deck c hand aside := by
  rw [success_evaluate]
  constructor
  · rintro ⟨order, ho, hs⟩
    obtain ⟨aside, h, _⟩ := exists_setsAside_of_check hc hn (hd.perm (ho.symm.append_right deck)) hs
    exact ⟨aside, h.perm ho⟩
  · rintro ⟨aside, h⟩
    have hp := hd.left.perm_append_without (h.subperm hd.left)
    exact ⟨_, hp, (check_of_setsAside h hc hd hp).1⟩

/-! ### Disjoint sets -/

/-- A set of cards that serves a leaf: as many cards of the hand as the leaf asks for, all of which
answer to its name. -/
def Serves (hand : List Card) (s : Finset Card) (l : Leaf) : Prop :=
  (s.card : Int) = l.count ∧ ∀ x ∈ s, x ∈ hand ∧ x.answersTo l.name = true

theorem Serves.mono {hand hand' : List Card} {s : Finset Card} {l : Leaf} (h : Serves hand s l)
    (hs : ∀ x ∈ s, x ∈ hand → x ∈ hand') : Serves hand' s l :=
  ⟨h.1, fun x hx => ⟨hs x hx (h.2 x hx).1, (h.2 x hx).2⟩⟩

/-- A choice of cards gives each leaf a set of its own. -/
theorem exists_serves_of_setsAside {deck hand aside : List Card} {c : Condition}
    (h : SetsAside deck c hand aside) (hc : c.onlyAnds = true)
    (hl : ∀ l ∈ c.leaves, l.comparison = .atLeast ∧ l.place = .hand) (hd : AllDifferent hand) :
    ∃ sets : List (Finset Card), List.Forall₂ (Serves hand) sets c.leaves ∧
      sets.Pairwise Disjoint ∧ ∀ s ∈ sets, ∀ x ∈ s, x ∈ aside := by
  induction h with
  | @atLeast name count hand aside choice size =>
      have hnd : aside.Nodup := by
        obtain ⟨l, hp, hsub⟩ := choice
        exact hp.nodup_iff.1 ((hd.sublist (List.filter_sublist)).nodup.sublist hsub)
      refine ⟨[aside.toFinset], .cons ⟨?_, ?_⟩ .nil, by simp, by simp⟩
      · rw [List.toFinset_card_of_nodup hnd]
        exact size
      · intro x hx
        exact mem_answering_singleton.1 (choice.subset (List.mem_toFinset.1 hx))
  | exactly _ _ | atMost _ | deck _ => simp [leaves] at hl
  | @and a b g hand x y _ hy iha ihb =>
      rw [onlyAnds, Bool.and_eq_true] at hc
      obtain ⟨sa, hsa, hpa, hxa⟩ := iha hc.1 (fun l h => hl l (by simp [leaves, h])) hd
      have hd' := hd.sublist (without_sublist hand x)
      obtain ⟨sb, hsb, hpb, hyb⟩ := ihb hc.2 (fun l h => hl l (by simp [leaves, h])) hd'
      refine ⟨sa ++ sb, List.rel_append hsa (hsb.imp fun _ _ h => h.mono fun _ _ hm =>
        (mem_without.1 hm).1), List.pairwise_append.2 ⟨hpa, hpb, ?_⟩, ?_⟩
      · intro s hs t ht
        refine Finset.disjoint_left.2 fun e hes het => ?_
        have hout := (mem_without.1 ((hy.subperm hd').subset (hyb t ht e het))).2
        exact hout (List.mem_map_of_mem (hxa s hs e hes))
      · intro s hs e he
        rcases List.mem_append.1 hs with hs | hs
        · exact List.mem_append_left _ (hxa s hs e he)
        · exact List.mem_append_right _ (hyb s hs e he)
  | orLeft _ | orRight _ => simp [onlyAnds] at hc

/-- Sets for the leaves, each of its own, are a choice of cards. -/
theorem exists_setsAside_of_serves (deck : List Card) :
    ∀ {c : Condition}, c.onlyAnds = true →
      (∀ l ∈ c.leaves, l.comparison = .atLeast ∧ l.place = .hand) →
      ∀ {hand : List Card}, AllDifferent hand → ∀ {sets : List (Finset Card)},
        List.Forall₂ (Serves hand) sets c.leaves → sets.Pairwise Disjoint →
          ∃ aside, SetsAside deck c hand aside ∧ ∀ x ∈ aside, ∃ s ∈ sets, x ∈ s
  | .leaf ⟨name, count, k, p⟩, _, hl, hand, _, sets, hs, _ => by
      obtain ⟨rfl, rfl⟩ : k = .atLeast ∧ p = .hand := hl _ (List.mem_singleton_self _)
      obtain ⟨s, rfl⟩ : ∃ s, sets = [s] := by
        cases hs with
        | cons _ ht => cases ht; exact ⟨_, rfl⟩
      obtain ⟨hcard, hmem⟩ : Serves hand s ⟨name, count, .atLeast, .hand⟩ := by
        cases hs with
        | cons h _ => exact h
      refine ⟨s.toList, .atLeast ?_ (by rw [Finset.length_toList]; exact hcard), by simp⟩
      refine s.nodup_toList.subperm fun x hx => ?_
      exact mem_answering_singleton.2 (hmem x (Finset.mem_toList.1 hx))
  | .joint .and a b g, hc, hl, hand, hd, sets, hs, hp => by
      rw [onlyAnds, Bool.and_eq_true] at hc
      rw [leaves] at hs hl
      obtain ⟨sa, sb, rfl, hsa, hsb⟩ : ∃ sa sb, sets = sa ++ sb ∧
          List.Forall₂ (Serves hand) sa a.leaves ∧ List.Forall₂ (Serves hand) sb b.leaves :=
        ⟨_, _, (List.take_append_drop _ _).symm, List.forall₂_take_append _ _ _ hs,
          List.forall₂_drop_append _ _ _ hs⟩
      obtain ⟨hpa, hpb, hab⟩ := List.pairwise_append.1 hp
      obtain ⟨x, hx, hxs⟩ := exists_setsAside_of_serves deck hc.1
        (fun l h => hl l (List.mem_append_left _ h)) hd hsa hpa
      -- a card of a later set is still there, since no earlier leaf has it in its set
      have hleft : ∀ t ∈ sb, ∀ e ∈ t, e ∈ hand → e ∈ without hand x := by
        intro t ht e het he
        refine mem_without.2 ⟨he, fun hin => ?_⟩
        obtain ⟨d, hdx, hid⟩ := List.mem_map.1 hin
        obtain rfl := hd.eq_of_id_eq ((hx.subperm hd).subset hdx) he hid
        obtain ⟨s, hs, hds⟩ := hxs d hdx
        exact Finset.disjoint_left.1 (hab s hs t ht) hds het
      have hsb' : List.Forall₂ (Serves (without hand x)) sb b.leaves :=
        ((List.forall₂_and_left sb b.leaves).2 ⟨hleft, hsb⟩).imp fun _ _ h => h.2.mono h.1
      obtain ⟨y, hy, hys⟩ := exists_setsAside_of_serves deck hc.2
        (fun l h => hl l (List.mem_append_right _ h)) (hd.sublist (without_sublist hand x)) hsb' hpb
      refine ⟨x ++ y, .and hx hy, fun e he => ?_⟩
      rcases List.mem_append.1 he with he | he
      · obtain ⟨s, hs, hes⟩ := hxs e he
        exact ⟨s, List.mem_append_left _ hs, hes⟩
      · obtain ⟨s, hs, hes⟩ := hys e he
        exact ⟨s, List.mem_append_right _ hs, hes⟩
  | .joint .or _ _ _, hc, _, _, _, _, _, _ => by simp [onlyAnds] at hc

/-- A condition that only asks for cards of the hand is met by a choice of cards exactly if its leaves
can be served by disjoint sets. -/
theorem setsAside_iff_disjoint {deck hand : List Card} {c : Condition} (hc : c.onlyAnds = true)
    (hl : ∀ l ∈ c.leaves, l.comparison = .atLeast ∧ l.place = .hand) (hd : AllDifferent hand) :
    (∃ aside, SetsAside deck c hand aside) ↔
      ∃ sets : List (Finset Card), List.Forall₂ (Serves hand) sets c.leaves ∧
        sets.Pairwise Disjoint := by
  constructor
  · rintro ⟨aside, h⟩
    obtain ⟨sets, hs, hp, _⟩ := exists_serves_of_setsAside h hc hl hd
    exact ⟨sets, hs, hp⟩
  · rintro ⟨sets, hs, hp⟩
    obtain ⟨aside, h, _⟩ := exists_setsAside_of_serves _ hc hl hd hs hp
    exact ⟨aside, h⟩

/-- **What a condition with its `AND`s on top means.**  It is met exactly if its conjuncts, from left
to right, can set cards aside such that each holds on what is left.  If it only asks for cards of the
hand, it is met exactly if pairwise disjoint sets of answering cards exist, one of the right size for
each leaf. -/
theorem success_evaluate_iff_setsAside {c : Condition} {hand deck : List Card}
    (hc : c.andsOnTop = true) (hn : ∀ l ∈ c.leaves, 0 ≤ l.count)
    (hd : AllDifferent (hand ++ deck)) :
    ((c.evaluate hand deck).success = true ↔ ∃ aside, SetsAside deck c hand aside) ∧
      (c.onlyAnds = true → (∀ l ∈ c.leaves, l.comparison = .atLeast ∧ l.place = .hand) →
        ((c.evaluate hand deck).success = true ↔
          ∃ sets : List (Finset Card), List.Forall₂ (Serves hand) sets c.leaves ∧
            sets.Pairwise Disjoint)) := by
  have hmain := exists_setsAside_iff hc hn hd
  exact ⟨hmain, fun ha hl => hmain.trans (setsAside_iff_disjoint ha hl hd.left)⟩

/-- Of three cards that answer to A the second answers to B as well. "Two As and one B" is met by
leaving it for the B, although the order of the hand offers it to the As. -/
theorem success_evaluate_iff_setsAside_shared :
    let card := fun n tags => (⟨⟨n, 0⟩, "X", tags, none⟩ : Card)
    let c : Condition := .joint .and (.leaf ⟨"A", 2, .atLeast, .hand⟩)
      (.leaf ⟨"B", 1, .atLeast, .hand⟩) false
    let hand := [card 0 [.text "A"], card 1 [.text "A", .text "B"], card 2 [.text "A"]]
    c.andsOnTop = true ∧ (∀ l ∈ c.leaves, 0 ≤ l.count) ∧ AllDifferent (hand ++ []) ∧
      ∃ aside, SetsAside [] c hand aside := by
  refine ⟨by decide, by decide, by decide, ?_⟩
  exact (success_evaluate_iff_setsAside (by decide) (by decide) (by decide)).1.1 (by decide +kernel)

end Condition

end OpeningHand
