import OpeningHand.Proofs.Play.Costs
import Mathlib.Data.List.Forall2

/-!
# Which costs by name can be paid

A cost by name can be paid if its names can be paired with different cards of the hand (`CanServe`). The check goes
through the names in turn and takes for each the first card that is left (`pickNamed`), so it never says that a cost
can be paid that cannot. But a card that it takes for one name may be the last one for another, and then it says
that a cost cannot be paid that can.

Which names lose their cards in this way depends on the order of the hand and on that of the names. In some order each
name can come last, after any cards that the others may take. So the check is right in every order exactly if the
names cannot be paired at all, or no name can lose all its cards to others (`NeverCutOff`,
`Board.canPay_in_every_order_iff`). Clear names cannot.
-/

namespace OpeningHand

open scoped List

/-- The names can be paired with different cards of a pool. -/
def CanServe (pool : List Card) (names : List Value) : Prop :=
  ∃ cards, Answers cards names ∧ AllDifferent cards ∧ cards ⊆ pool

/-- Whatever cards are taken for some of the names, one is left for each other name. -/
def NeverCutOff (pool : List Card) (names : List Value) : Prop :=
  ∀ before name after, before ++ name :: after ~ names →
    ∀ taken, Answers taken before → AllDifferent taken → taken ⊆ pool →
      ∃ c ∈ pool, c.answersToValue name = true ∧ c.isIn taken = false

section

variable {pool pool' taken rest cards : List Card} {names names' done todo : List Value}

/-! ### Pairing does not depend on any order -/

theorem CanServe.mono (h : CanServe pool names) (hsub : pool ⊆ pool') : CanServe pool' names := by
  obtain ⟨cards, hnames, hdifferent, hcards⟩ := h
  exact ⟨cards, hnames, hdifferent, List.Subset.trans hcards hsub⟩

theorem CanServe.perm_names (h : CanServe pool names) (hn : names ~ names') : CanServe pool names' := by
  obtain ⟨cards, hnames, hdifferent, hcards⟩ := h
  obtain ⟨cards', hnames', hperm⟩ := List.perm_comp_forall₂ hn.symm hnames.flip
  exact ⟨cards', hnames'.flip, hdifferent.perm hperm.symm, fun c hc => hcards (hperm.subset hc)⟩

theorem canServe_perm (hp : pool ~ pool') (hn : names ~ names') : CanServe pool names ↔ CanServe pool' names' :=
  ⟨fun h => (h.mono hp.subset).perm_names hn, fun h => (h.mono hp.symm.subset).perm_names hn.symm⟩

theorem NeverCutOff.perm (h : NeverCutOff pool names) (hp : pool ~ pool') (hn : names ~ names') :
    NeverCutOff pool' names' := by
  intro before name after hsplit taken htaken hdifferent hsub
  obtain ⟨c, hc, hleft⟩ := h before name after (hsplit.trans hn.symm) taken htaken hdifferent
    (List.Subset.trans hsub hp.symm.subset)
  exact ⟨c, hp.subset hc, hleft⟩

/-! ### What picking finds -/

/-- **What is picked are cards for the names.** -/
theorem canServe_of_isSome_pickNamed (h : (pickNamed pool [] names).isSome = true) : CanServe pool names := by
  obtain ⟨cards, hcards⟩ := Option.isSome_iff_exists.1 h
  obtain ⟨picked, -, hnames, hsub, hdifferent⟩ := pickNamed_eq_some hcards
  exact ⟨picked, hnames, hdifferent List.nodup_nil, hsub⟩

/-- Clear names can be picked exactly if they can be paired. -/
theorem isSome_pickNamed_iff_canServe (hpool : AllDifferent pool) (hclear : ClearNames pool names) :
    (pickNamed pool [] names).isSome = true ↔ CanServe pool names := by
  refine ⟨canServe_of_isSome_pickNamed, fun h => (isSome_pickNamed_iff hpool hclear).2 fun n _ => ?_⟩
  obtain ⟨cards, hnames, hdifferent, hsub⟩ := h
  exact (hnames.kindred_le hsub n).trans ((List.subperm_of_subset hdifferent.nodup hsub).countP_le _)

/-- If no name can be cut off, picking comes to its end. -/
theorem isSome_pickNamed_of_neverCutOff (h : NeverCutOff pool (done ++ todo)) (htaken : Answers taken done)
    (hdifferent : AllDifferent taken) (hsub : taken ⊆ pool) : (pickNamed pool taken todo).isSome = true := by
  induction todo generalizing done taken with
  | nil => rfl
  | cons name todo ih =>
      obtain ⟨d, hd, hanswers, hnew⟩ := h done name todo (.refl _) taken htaken hdifferent hsub
      have hfind : (pool.find? fun c => c.answersToValue name && !c.isIn taken).isSome :=
        List.find?_isSome.2 ⟨d, hd, by rw [hanswers, hnew]; rfl⟩
      obtain ⟨c, hc⟩ := Option.isSome_iff_exists.1 hfind
      have hboth := List.find?_some hc
      rw [Bool.and_eq_true, Bool.not_eq_true'] at hboth
      rw [pickNamed, hc]
      rw [List.append_cons] at h
      refine ih h ?_ (hdifferent.concat hboth.2) ?_
      · exact List.rel_append htaken (.cons hboth.1 .nil)
      · exact List.append_subset.2 ⟨hsub, List.cons_subset.2 ⟨List.mem_of_find?_eq_some hc, List.nil_subset _⟩⟩

/-- Cards that come first are taken first, if they answer to the first names one by one. -/
theorem pickNamed_front (h : Answers cards names) (hd : AllDifferent (taken ++ cards)) :
    pickNamed (taken ++ cards ++ rest) taken (names ++ todo) =
      pickNamed (taken ++ cards ++ rest) (taken ++ cards) todo := by
  induction h generalizing taken with
  | nil => rw [List.append_nil, List.nil_append]
  | @cons c name cards names hanswers _ ih =>
      have hnew : c.isIn taken = false := by
        rw [← Bool.not_eq_true, Card.isIn_iff]
        intro hin
        obtain ⟨d, hd', hid⟩ := List.mem_map.1 hin
        exact hd.notMem_right hd' (hid ▸ List.mem_map_of_mem List.mem_cons_self)
      have hold : (taken.find? fun d => d.answersToValue name && !d.isIn taken) = none := by
        refine List.find?_eq_none.2 fun d hd' => ?_
        rw [Card.isIn_iff.2 (List.mem_map_of_mem hd'), Bool.not_true, Bool.and_false]
        exact Bool.false_ne_true
      have hfind : ((taken ++ c :: cards ++ rest).find? fun d => d.answersToValue name && !d.isIn taken) = some c := by
        rw [List.append_assoc, List.find?_append, hold, Option.none_or, List.cons_append,
          List.find?_cons_of_pos (by rw [hanswers, hnew]; rfl)]
      rw [List.append_cons taken] at hd
      rw [List.cons_append, pickNamed, hfind]
      dsimp only
      rw [List.append_cons taken]
      exact ih hd

/-- **Picking finds cards in every order of the pool and of the names exactly if no name can be cut off.** A name that
can be cut off is, if the cards that cut it off come first in the pool, and their names before it. -/
theorem isSome_pickNamed_in_every_order_iff (hpool : AllDifferent pool) :
    (∀ pool' names', pool' ~ pool → names' ~ names → (pickNamed pool' [] names').isSome = true) ↔
      NeverCutOff pool names := by
  constructor
  · intro h before name after hsplit taken htaken hdifferent hsub
    by_contra hno
    push Not at hno
    have hfirst : taken ++ without pool taken ~ pool :=
      hpool.perm_append_without (List.subperm_of_subset hdifferent.nodup hsub)
    have hpick := h _ _ hfirst hsplit
    have hfront : pickNamed ([] ++ taken ++ without pool taken) [] (before ++ name :: after) =
        pickNamed ([] ++ taken ++ without pool taken) ([] ++ taken) (name :: after) :=
      pickNamed_front htaken hdifferent
    rw [List.nil_append] at hfront
    have hnone : ((taken ++ without pool taken).find? fun c => c.answersToValue name && !c.isIn taken) = none := by
      refine List.find?_eq_none.2 fun c hc hboth => ?_
      rw [Bool.and_eq_true, Bool.not_eq_true'] at hboth
      exact hno c (hfirst.subset hc) hboth.1 hboth.2
    rw [hfront, pickNamed, hnone] at hpick
    cases hpick
  · intro h pool' names' hp hn
    have h' : NeverCutOff pool' ([] ++ names') := h.perm hp.symm hn.symm
    exact isSome_pickNamed_of_neverCutOff h' .nil List.nodup_nil (List.nil_subset _)

/-- Clear names that can be paired are never cut off. -/
theorem neverCutOff_of_clearNames (hpool : AllDifferent pool) (hclear : ClearNames pool names)
    (h : CanServe pool names) : NeverCutOff pool names := by
  refine (isSome_pickNamed_in_every_order_iff hpool).1 fun pool' names' hp hn => ?_
  have hclear' : ClearNames pool' names' := hclear.mono hp.subset hn.subset
  exact (isSome_pickNamed_iff_canServe (hpool.perm hp.symm) hclear').2 ((canServe_perm hp hn).2 h)

end

/-! ### The check of a cost -/

namespace Board

variable {b : Board} {card : Card} {e : Effect} {kind : CostKind} {names : List Value}

/-- The cards of the hand but for one. -/
def others (b : Board) (card : Card) : List Card := b.hand.filter fun c => !c.is card

theorem canPay_named (he : card.effect = some e) (hcost : e.cost = some ⟨kind, .named names⟩)
    (hkind : kind = .discard ∨ kind = .banishFromHand) :
    b.canPay card = (pickNamed (b.others card) [] names).isSome := by
  rw [canPay, he, Option.bind_some, hcost]
  rcases hkind with rfl | rfl <;> rfl

/-- Each order of the other cards comes from an order of the hand. -/
theorem exists_perm_others {pool : List Card} (h : pool ~ b.others card) :
    ∃ hand, hand ~ b.hand ∧ others { b with hand := hand } card = pool := by
  refine ⟨pool ++ b.hand.filter (fun c => !!c.is card), ?_, ?_⟩
  · exact (h.append_right _).trans (List.filter_append_perm _ b.hand)
  · have hkept : pool.filter (fun c => !c.is card) = pool :=
      List.filter_eq_self.2 fun c hc => (List.mem_filter.1 (h.subset hc)).2
    have hgone : (b.hand.filter fun c => !!c.is card).filter (fun c => !c.is card) = [] := by
      simp [List.filter_filter]
    rw [others, List.filter_append, hkept, hgone, List.append_nil]

/-- Whether the check is right in every order: it says whether the names can be paired with different other cards of
the hand, however the cards lie in the hand and the names stand in the cost. -/
def ChecksEveryOrder (b : Board) (card : Card) (e : Effect) (kind : CostKind) (names : List Value) : Prop :=
  ∀ hand names', hand ~ b.hand → names' ~ names →
    (canPay { card with effect := some { e with cost := some ⟨kind, .named names'⟩ } } { b with hand := hand } = true ↔
      CanServe (b.others card) names)

/-- **When the check of a cost by names is right.** A cost that passes can be paid: its names can be paired with
different other cards of the hand. The converse holds in every order exactly if the names cannot be paired, or none of
them can be cut off, whatever the others take. So it does if the names are clear. -/
theorem canPay_in_every_order_iff (hd : AllDifferent b.hand) (he : card.effect = some e)
    (hcost : e.cost = some ⟨kind, .named names⟩) (hkind : kind = .discard ∨ kind = .banishFromHand) :
    (b.canPay card = true → CanServe (b.others card) names) ∧
    (b.ChecksEveryOrder card e kind names ↔
      (CanServe (b.others card) names → NeverCutOff (b.others card) names)) ∧
    (ClearNames (b.others card) names → b.ChecksEveryOrder card e kind names) := by
  have hothers : AllDifferent (b.others card) := hd.sublist List.filter_sublist
  have hcheck : ∀ hand names', canPay { card with effect := some { e with cost := some ⟨kind, .named names'⟩ } }
      { b with hand := hand } = (pickNamed (others { b with hand := hand } card) [] names').isSome :=
    fun hand names' => canPay_named rfl rfl hkind
  have hsound : ∀ {pool names'}, pool ~ b.others card → names' ~ names → (pickNamed pool [] names').isSome = true →
      CanServe (b.others card) names := fun hp hn hpick => (canServe_perm hp hn).1 (canServe_of_isSome_pickNamed hpick)
  have hfilter : ∀ {hand}, hand ~ b.hand → others { b with hand := hand } card ~ b.others card := fun h => h.filter _
  have hright : b.ChecksEveryOrder card e kind names ↔
      (CanServe (b.others card) names → NeverCutOff (b.others card) names) := by
    rw [← isSome_pickNamed_in_every_order_iff hothers]
    constructor
    · intro hright hserve pool names' hp hn
      obtain ⟨hand, hhand, rfl⟩ := exists_perm_others hp
      rw [← hcheck]
      exact (hright hand names' hhand hn).2 hserve
    · intro hevery hand names' hhand hn
      rw [hcheck]
      exact ⟨hsound (hfilter hhand) hn, fun hserve => hevery hserve _ _ (hfilter hhand) hn⟩
  refine ⟨fun hpay => ?_, hright, fun hclear => hright.2 (neverCutOff_of_clearNames hothers hclear)⟩
  rw [canPay_named he hcost hkind] at hpay
  exact hsound (.refl _) (.refl _) hpay

end Board

namespace Play

open Board

/-- With an A and a B in the hand the names are clear, and the cost can be paid in every order. -/
theorem canPay_in_every_order_iff_clear :
    AllDifferent (asking ["B"]).hand ∧ (asking ["B"]).canPay asker = true ∧
      CanServe ((asking ["B"]).others asker) [.text "A", .text "B"] ∧
      ∀ hand names', hand ~ (asking ["B"]).hand → names' ~ [.text "A", .text "B"] →
        canPay { asker with effect := some ⟨0, true, some ⟨.discard, .named names'⟩, [], none, none⟩ }
          { asking ["B"] with hand := hand } = true := by
  have hd : AllDifferent (asking ["B"]).hand := by decide
  have hpay : (asking ["B"]).canPay asker = true := by decide +kernel
  have he : asker.effect = some ⟨0, true, some ⟨.discard, .named [.text "A", .text "B"]⟩, [], none, none⟩ := rfl
  obtain ⟨hsound, -, hclear⟩ := canPay_in_every_order_iff hd he rfl (Or.inl rfl)
  have hserve := hsound hpay
  exact ⟨hd, hpay, hserve, fun hand names' hhand hn => (hclear (by decide +kernel) hand names' hhand hn).2 hserve⟩

/-- A hand whose first card is wanted for both names. -/
def refusing : Board := ⟨[], [asker, tagged 1 "X" ["A", "B"], tagged 2 "Y" ["A"]], [], [], []⟩

/-- **A cost that can be paid may be refused.** X is taken for the A, and nothing is left for the B; but Y can serve
for the A and X for the B. If Y comes before X in the hand, or the B before the A in the cost, the check finds that. -/
theorem canPay_refused :
    AllDifferent refusing.cards ∧ asker ∈ refusing.hand ∧
      CanServe (refusing.others asker) [.text "A", .text "B"] ∧ refusing.canPay asker = false ∧
      canPay asker { refusing with hand := [asker, tagged 2 "Y" ["A"], tagged 1 "X" ["A", "B"]] } = true ∧
      refusing.canPayCost asker ⟨.discard, .named [.text "B", .text "A"]⟩ = true := by
  refine ⟨by decide, List.mem_cons_self, ?_, by decide +kernel, by decide +kernel, by decide +kernel⟩
  exact ⟨[tagged 2 "Y" ["A"], tagged 1 "X" ["A", "B"]], by decide +kernel, by decide, by decide +kernel⟩

end Play

end OpeningHand
