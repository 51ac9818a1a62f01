import OpeningHand.Card.Basic
import Mathlib.Data.List.Nodup
import Mathlib.Data.List.Perm.Subperm

/-!
# Choosing and removing cards

Cards are chosen by name (`answering`) and removed by identity (`without`). Both are filters, so they
commute with each other and with any change of order. Where no two cards are the same one
(`AllDifferent`), removing cards of a hand leaves exactly the others.
-/

namespace OpeningHand

namespace Card

theorem isIn_iff {c : Card} {cards : List Card} :
    c.isIn cards = true ↔ c.id ∈ cards.map (·.id) := by
  simp only [isIn, is, List.any_eq_true, List.mem_map, beq_iff_eq]

end Card

/-! ### Cards that answer -/

theorem mem_answering {names : List String} {cards : List Card} {c : Card} :
    c ∈ answering names cards ↔ c ∈ cards ∧ ∃ n ∈ names, c.answersTo n = true := by
  rw [answering, List.mem_filter, List.any_eq_true]

theorem mem_answering_singleton {name : String} {cards : List Card} {c : Card} :
    c ∈ answering [name] cards ↔ c ∈ cards ∧ c.answersTo name = true := by
  simp [mem_answering]

theorem answering_append (names : List String) (a b : List Card) :
    answering names (a ++ b) = answering names a ++ answering names b := List.filter_append ..

theorem answering_perm {names : List String} {a b : List Card} (h : a.Perm b) :
    (answering names a).Perm (answering names b) := h.filter _

theorem answering_eq_self {names : List String} {cards : List Card}
    (h : ∀ c ∈ cards, ∃ n ∈ names, c.answersTo n = true) : answering names cards = cards :=
  List.filter_eq_self.2 fun c hc => List.any_eq_true.2 (h c hc)

/-- Asking for some of the names among the cards that answer to any of them changes nothing. -/
theorem answering_answering {ns ms : List String} (h : ∀ n ∈ ns, n ∈ ms) (cards : List Card) :
    answering ns (answering ms cards) = answering ns cards := by
  unfold answering
  rw [List.filter_filter]
  refine List.filter_congr fun c _ => ?_
  rw [Bool.and_eq_left_iff_imp]
  intro hc
  obtain ⟨n, hn, hcn⟩ := List.any_eq_true.1 hc
  exact List.any_eq_true.2 ⟨n, h n hn, hcn⟩

/-! ### Cards that are left -/

theorem mem_without {cards removed : List Card} {c : Card} :
    c ∈ without cards removed ↔ c ∈ cards ∧ c.id ∉ removed.map (·.id) := by
  rw [without, List.mem_filter, Bool.not_eq_eq_eq_not, Bool.not_true, ← Bool.not_eq_true,
    Card.isIn_iff]

theorem without_perm {a b : List Card} (h : a.Perm b) (removed : List Card) :
    (without a removed).Perm (without b removed) := h.filter _

theorem without_sublist (cards removed : List Card) : (without cards removed).Sublist cards :=
  List.filter_sublist

theorem without_eq_self {cards removed : List Card}
    (h : ∀ c ∈ cards, c.id ∉ removed.map (·.id)) : without cards removed = cards := by
  refine List.filter_eq_self.2 fun c hc => ?_
  rw [Bool.not_eq_eq_eq_not, Bool.not_true, ← Bool.not_eq_true, Card.isIn_iff]
  exact h c hc

@[simp]
theorem without_nil (cards : List Card) : without cards [] = cards := without_eq_self (by simp)

theorem without_append (cards r s : List Card) :
    without cards (r ++ s) = without (without cards r) s := by
  unfold without
  rw [List.filter_filter]
  refine List.filter_congr fun c _ => ?_
  rw [Card.isIn, List.any_append, Bool.not_or, Bool.and_comm, ← Card.isIn, ← Card.isIn]

/-- Choosing by name and removing cards may change places. -/
theorem without_answering (names : List String) (cards removed : List Card) :
    without (answering names cards) removed = answering names (without cards removed) := by
  unfold without answering
  rw [List.filter_filter, List.filter_filter]
  exact List.filter_congr fun c _ => Bool.and_comm _ _

/-- What is left when the answering cards are removed answers to none of the names. -/
theorem answering_without_answering (names : List String) (cards : List Card) :
    answering names (without cards (answering names cards)) = [] := by
  refine List.filter_eq_nil_iff.2 fun c hc hn => ?_
  obtain ⟨hmem, hout⟩ := mem_without.1 hc
  exact hout (List.mem_map_of_mem (List.mem_filter.2 ⟨hmem, hn⟩))

/-! ### Cards that are all different -/

/-- No two of the cards are the same one. -/
def AllDifferent (cards : List Card) : Prop := (cards.map (·.id)).Nodup

instance (cards : List Card) : Decidable (AllDifferent cards) :=
  inferInstanceAs (Decidable (List.Nodup _))

namespace AllDifferent

variable {a b cards : List Card}

protected theorem nodup (h : AllDifferent cards) : cards.Nodup := List.Nodup.of_map _ h

protected theorem sublist (h : AllDifferent b) (hs : a.Sublist b) : AllDifferent a :=
  List.Nodup.sublist (hs.map _) h

protected theorem perm (h : AllDifferent a) (hp : a.Perm b) : AllDifferent b := (hp.map _).nodup_iff.1 h

theorem left (h : AllDifferent (a ++ b)) : AllDifferent a := h.sublist (List.sublist_append_left a b)

/-- A card on the left is not one of those on the right. -/
theorem notMem_right (h : AllDifferent (a ++ b)) {c : Card} (hc : c ∈ a) :
    c.id ∉ b.map (·.id) := by
  rw [AllDifferent, List.map_append, List.nodup_append] at h
  exact fun hb => h.2.2 _ (List.mem_map_of_mem hc) _ hb rfl

/-- A card that is none of them can be added. -/
theorem concat (h : AllDifferent cards) {c : Card} (hc : c.isIn cards = false) : AllDifferent (cards ++ [c]) := by
  rw [AllDifferent, List.map_append, List.nodup_append]
  refine ⟨h, List.nodup_singleton _, fun i hi j hj hij => ?_⟩
  obtain rfl := List.mem_singleton.1 hj
  rw [hij, ← Card.isIn_iff, hc] at hi
  cases hi

/-- A card is known by its identity. -/
theorem eq_of_id_eq (h : AllDifferent cards) {c d : Card} (hc : c ∈ cards) (hd : d ∈ cards)
    (he : c.id = d.id) : c = d := List.inj_on_of_nodup_map h hc hd he

/-- Removing the front leaves the back. -/
theorem without_left (h : AllDifferent (a ++ b)) : without (a ++ b) a = b := by
  have hb : without b a = b := without_eq_self fun c hc hin => by
    obtain ⟨d, hd, he⟩ := List.mem_map.1 hin
    exact h.notMem_right hd (List.mem_map.2 ⟨c, hc, he.symm⟩)
  have ha : without a a = [] :=
    List.eq_nil_iff_forall_not_mem.2 fun c hc => (mem_without.1 hc).2 (List.mem_map_of_mem
      (mem_without.1 hc).1)
  rw [without, List.filter_append, ← without, ← without, ha, hb, List.nil_append]

/-- Removing cards leaves exactly the others. -/
theorem perm_append_without (h : AllDifferent cards) (ha : a.Subperm cards) :
    (a ++ without cards a).Perm cards := by
  obtain ⟨a', ha', hs⟩ := ha
  obtain ⟨b, hb⟩ := hs.exists_perm_append
  replace hb : cards.Perm (a ++ b) := hb.trans (ha'.append_right b)
  have hleft : without (a ++ b) a = b := (h.perm hb).without_left
  have hrest : (without cards a).Perm b := hleft ▸ without_perm hb a
  exact (hrest.append_left a).trans hb.symm

end AllDifferent

end OpeningHand
