import OpeningHand.Play.Resolve
import OpeningHand.Proofs.Card.Naming
import OpeningHand.Proofs.Condition.Usefulness
import Mathlib.Logic.Relation

/-!
# The moves a play is made of

Whatever the effect of a card asks for, the cards on the board change places in three ways only
(`Board.Move`): cards of the hand are banished or discarded, cards off the top of the deck are banished, and
cards off the top of the deck are revealed, of which some come to the hand and the others go under the deck.
Here each step of a play is opened once (`payFromHand_eq_ok`, `exacts_suffer`, …), and an effect that is
resolved to its end is a sequence of such moves (`moves_of_resolve`). What a move keeps, a play keeps.

A toll that cannot be paid has not moved anything yet (`Exacts`), so the hand that is forfeited is the whole
hand.
-/

namespace OpeningHand

open Relation

namespace Board

/-- Cards of the hand go to one of the piles. -/
def giveUp (banished : Bool) (cards : List Card) (b : Board) : Board :=
  if banished then b.banishFromHand cards else b.discard cards

/-- One move of cards. The top of the deck is its end. -/
inductive Move : Board → Board → Prop
  /-- Cards of the hand are banished or discarded. -/
  | giveUp {b : Board} (banished : Bool) {cards : List Card} (h : cards.Subperm b.hand) :
      Move b (b.giveUp banished cards)
  /-- Cards off the top of the deck are banished. -/
  | banish {b : Board} {rest cards : List Card} (h : b.deck = rest ++ cards.reverse) :
      Move b { b with deck := rest, banished := b.banished ++ cards }
  /-- Cards off the top of the deck are revealed; some are kept, the others go under the deck. -/
  | reveal {b : Board} {rest revealed kept back : List Card} (h : b.deck = rest ++ revealed.reverse)
      (hcards : (kept ++ back).Perm revealed) :
      Move b { b with deck := back ++ rest, hand := b.hand ++ kept }

/-- A board comes from another by moves of cards. -/
abbrev Moves : Board → Board → Prop := ReflTransGen Move

/-- The cards that a cost takes from the hand: the least useful ones that fit. -/
def payment (wanted : List String) (card : Card) (price : Price) (b : Board) : List Card :=
  match price with
  | .amount n => firstCards n (byUsefulness wanted (b.costPool card)).reverse
  | .named names => (pickNamed (byUsefulness wanted b.hand).reverse [] names).getD []

/-- A draw that succeeds takes cards off the top of the deck. -/
theorem draw_eq_ok {n : Int} {b b' : Board} {cards : List Card} (h : b.draw n = (.ok cards, b')) :
    b.deck = b'.deck ++ cards.reverse ∧ cards.length = n.toNat ∧ b' = { b with deck := b'.deck } := by
  unfold draw at h
  split at h
  · rename_i hn
    obtain ⟨hcards, rfl⟩ := Prod.mk.inj h
    obtain rfl := Except.ok.inj hcards
    refine ⟨?_, ?_, rfl⟩
    · rw [List.take_reverse, List.reverse_reverse, List.take_append_drop]
    · rw [List.length_take, List.length_reverse]
      omega
  · cases h

theorem pickNamed_subperm {cards hand picked : List Card} {names : List Value} (hperm : cards.Perm hand)
    (h : pickNamed cards [] names = some picked) : picked.Subperm hand := by
  obtain ⟨_, rfl, -, hsub, hdifferent⟩ := pickNamed_eq_some h
  have hnodup := (hdifferent List.nodup_nil).nodup
  exact (List.subperm_of_subset hnodup hsub).trans hperm.subperm

theorem payment_subperm (wanted : List String) (card : Card) (price : Price) (b : Board) :
    (b.payment wanted card price).Subperm b.hand := by
  cases price with
  | amount n =>
      have hpool := reverse_byUsefulness_perm wanted (b.costPool card)
      refine ((firstCards_sublist n _).subperm.trans hpool.subperm).trans ?_
      exact (List.filter_sublist (l := b.hand)).subperm
  | named names =>
      rw [payment]
      cases h : pickNamed (byUsefulness wanted b.hand).reverse [] names with
      | none => exact List.nil_subperm
      | some picked =>
          exact pickNamed_subperm (reverse_byUsefulness_perm wanted b.hand) h

end Board

namespace Play

/-! ### Steps opened one by one -/

section

variable {α β : Type} {s s' : Scene}

/-- Two steps succeed together exactly if the first one does and the second one does after it. -/
theorem bind_eq_ok {x : Play α} {f : α → Play β} {b : β} :
    (x >>= f) s = (.ok b, s') ↔ ∃ a s₁, x s = (.ok a, s₁) ∧ f a s₁ = (.ok b, s') := by
  show Play.bind x f s = _ ↔ _
  unfold Play.bind
  rcases x s with ⟨a | a, s₁⟩ <;> simp

/-- Two steps stop with a fault exactly if the first one does or the second one does after it. -/
theorem bind_eq_error {x : Play α} {f : α → Play β} {e : Fault} :
    (x >>= f) s = (.error e, s') ↔
      x s = (.error e, s') ∨ ∃ a s₁, x s = (.ok a, s₁) ∧ f a s₁ = (.error e, s') := by
  show Play.bind x f s = _ ↔ _
  unfold Play.bind
  rcases x s with ⟨a | a, s₁⟩ <;> simp

theorem ranked_eq_ok {aim : Aim} {cards ranking : List Card} (h : ranked aim cards s = (.ok ranking, s')) :
    ∃ wanted, aim = .ok wanted ∧ ranking = byUsefulness wanted cards ∧ s' = s := by
  obtain ⟨hranking, rfl⟩ := Prod.mk.inj h
  obtain ⟨wanted, rfl, rfl⟩ := map_eq_ok.1 hranking
  exact ⟨wanted, rfl, rfl, rfl⟩

theorem giveUp_eq (card : Card) (reason : String) (banished : Bool) (cards : List Card) (s : Scene) :
    ∃ log, giveUp card reason banished cards s = (.ok (), ⟨s.board.giveUp banished cards, log⟩) := by
  cases banished <;> exact ⟨_, rfl⟩

/-- A draw of no more cards than the deck holds. -/
theorem draw_of_le {n : Int} (h : n ≤ s.board.deck.length) :
    ∃ cards deck, draw n s = (.ok cards, ⟨{ s.board with deck := deck }, s.log⟩) ∧
      deck.length = s.board.deck.length - n.toNat := by
  refine ⟨s.board.deck.reverse.take n.toNat, s.board.deck.take (s.board.deck.length - n.toNat), ?_, ?_⟩
  · unfold draw Board.draw
    rw [if_pos (Int.toNat_le.2 h)]
  · rw [List.length_take, Nat.min_eq_left (Nat.sub_le _ _)]

/-- A draw of more cards than that. -/
theorem draw_of_lt {n : Int} (h : s.board.deck.length < n) : ∃ s', draw n s = (.error .emptyDeck, s') := by
  unfold draw Board.draw
  rw [if_neg (by omega)]
  exact ⟨_, rfl⟩

theorem draw_eq_ok {n : Int} {cards : List Card} (h : draw n s = (.ok cards, s')) :
    s.board.deck = s'.board.deck ++ cards.reverse ∧ cards.length = n.toNat ∧
      s'.board = { s.board with deck := s'.board.deck } := by
  obtain ⟨hcards, rfl⟩ := Prod.mk.inj h
  exact Board.draw_eq_ok (Prod.ext hcards rfl)

variable {aim : Aim} {card : Card}

/-- **What a cost takes from the hand** is the same whatever pile it goes to. -/
theorem payFromHand_eq (wanted : List String) (card : Card) (kind : CostKind) (price : Price) (s : Scene) :
    ∃ log, payFromHand (.ok wanted) card kind price s = (.ok (),
      ⟨s.board.giveUp (kind = .banishFromHand) (s.board.payment wanted card price), log⟩) := by
  cases price <;> exact giveUp_eq card "cost" (kind = .banishFromHand) _ s

theorem payFromHand_eq_ok {kind : CostKind} {price : Price} {u : Unit}
    (h : payFromHand aim card kind price s = (.ok u, s')) :
    ∃ wanted, aim = .ok wanted ∧
      s'.board = s.board.giveUp (kind = .banishFromHand) (s.board.payment wanted card price) := by
  cases aim with
  | error f => cases price <;> cases (Prod.mk.inj h).1
  | ok wanted =>
      obtain ⟨log, hlog⟩ := payFromHand_eq wanted card kind price s
      rw [hlog] at h
      obtain ⟨-, rfl⟩ := Prod.mk.inj h
      exact ⟨wanted, rfl, rfl⟩

/-- Cards that are drawn and then banished. -/
theorem moves_of_draw_banish {n : Int} {line : List Card → String} {u : Unit}
    (h : (draw n >>= fun cards => change (·.banish cards) >>= fun _ => say (line cards)) s = (.ok u, s')) :
    s.board.Moves s'.board := by
  obtain ⟨cards, s₁, hdraw, h⟩ := bind_eq_ok.1 h
  have hafter : s'.board = s₁.board.banish cards := by
    obtain ⟨-, rfl⟩ := Prod.mk.inj h
    rfl
  obtain ⟨hdeck, -, hboard⟩ := draw_eq_ok hdraw
  rw [hafter, hboard]
  exact .single (.banish hdeck)

theorem moves_of_payCost {cost : Cost} {u : Unit} (h : payCost aim card cost s = (.ok u, s')) :
    s.board.Moves s'.board := by
  obtain ⟨kind, price⟩ := cost
  have hhand : ∀ kind, payFromHand aim card kind price s = (.ok u, s') → s.board.Moves s'.board := by
    intro kind h
    obtain ⟨wanted, -, hboard⟩ := payFromHand_eq_ok h
    rw [hboard]
    exact .single (.giveUp _ (Board.payment_subperm wanted card price s.board))
  cases kind with
  | payLife =>
      obtain ⟨-, rfl⟩ := Prod.mk.inj h
      exact .refl
  | banishFromDeck =>
      cases price with
      | named names => cases h
      | amount n => exact moves_of_draw_banish h
  | banishFromHand => exact hhand _ h
  | discard => exact hhand _ h

theorem moves_of_drawCards {n : Int} {u : Unit} (h : drawCards card n s = (.ok u, s')) :
    s.board.Moves s'.board := by
  unfold drawCards at h
  split at h
  · obtain ⟨cards, s₁, hdraw, h⟩ := bind_eq_ok.1 h
    have hafter : s'.board = { s₁.board with hand := s₁.board.hand ++ cards } := by
      obtain ⟨-, rfl⟩ := Prod.mk.inj h
      rfl
    obtain ⟨hdeck, -, hboard⟩ := draw_eq_ok hdraw
    rw [hafter, hboard]
    have hkept : (cards ++ []).Perm cards := by rw [List.append_nil]
    exact .single (.reveal hdeck hkept)
  · obtain ⟨-, rfl⟩ := Prod.mk.inj h
    exact .refl

/-- What lies on the board after some cards have been dug up. -/
theorem dig_eq_ok {count pick : Int} {u : Unit} (h : dig aim card count pick s = (.ok u, s')) :
    ∃ wanted rest revealed, aim = .ok wanted ∧ s.board.deck = rest ++ revealed.reverse ∧
      revealed.length = count.toNat ∧ s'.board = { s.board with
        deck := otherCards pick (byUsefulness wanted revealed) ++ rest,
        hand := s.board.hand ++ firstCards pick (byUsefulness wanted revealed) } := by
  obtain ⟨revealed, s₁, hdraw, h⟩ := bind_eq_ok.1 h
  obtain ⟨cards, s₂, hranked, h⟩ := bind_eq_ok.1 h
  obtain ⟨wanted, rfl, rfl, rfl⟩ := ranked_eq_ok hranked
  have hafter : s'.board = { s₂.board with
      deck := otherCards pick (byUsefulness wanted revealed) ++ s₂.board.deck,
      hand := s₂.board.hand ++ firstCards pick (byUsefulness wanted revealed) } := by
    obtain ⟨-, rfl⟩ := Prod.mk.inj h
    rfl
  obtain ⟨hdeck, hlength, hboard⟩ := draw_eq_ok hdraw
  refine ⟨wanted, s₂.board.deck, revealed, rfl, hdeck, hlength, ?_⟩
  rw [hafter, hboard]

/-- An excavation digs no deeper than the deck, on the same board. -/
theorem excavate_eq_ok {rule : Excavation} {u : Unit} (h : excavate aim card rule s = (.ok u, s')) :
    ∃ s₁, s₁.board = s.board ∧
      dig aim card (min rule.count s.board.deck.length) rule.pick s₁ = (.ok u, s') := by
  obtain ⟨b, s₁, hboard, h⟩ := bind_eq_ok.1 h
  obtain ⟨hb, rfl⟩ := Prod.mk.inj hboard
  obtain rfl := Except.ok.inj hb
  obtain ⟨u, s₂, hsay, h⟩ := bind_eq_ok.1 h
  have hsame : s₂.board = s.board := by
    unfold sayIf at hsay
    split at hsay <;> obtain ⟨-, rfl⟩ := Prod.mk.inj hsay <;> rfl
  exact ⟨s₂, hsame, h⟩

theorem moves_of_excavate {rule : Excavation} {u : Unit}
    (h : excavate aim card rule s = (.ok u, s')) : s.board.Moves s'.board := by
  obtain ⟨s₁, hsame, hdig⟩ := excavate_eq_ok h
  obtain ⟨wanted, rest, revealed, -, hdeck, -, hafter⟩ := dig_eq_ok hdig
  -- the cards that are kept and the others are those revealed, ranked
  have hcards : (firstCards rule.pick (byUsefulness wanted revealed) ++
      otherCards rule.pick (byUsefulness wanted revealed)).Perm revealed := by
    rw [firstCards_append_otherCards]
    exact byUsefulness_perm wanted revealed
  rw [hafter, hsame]
  exact .single (.reveal (hsame ▸ hdeck) hcards)

/-! ### Tolls -/

/-- A toll is taken by moves, or it turns out that it cannot be taken before anything has happened: it cannot be paid,
or the cards cannot be ranked. -/
def Exacts (aim : Aim) (x : Play Unit) (s : Scene) : Prop :=
  (∃ s', x s = (.ok (), s') ∧ s.board.Moves s'.board) ∨
    ∃ f, x s = (.error f, s) ∧ (f.kind = .aftermath ∨ aim = .error f)

theorem Exacts.congr {x y : Play Unit} (h : x s = y s) (hy : Exacts aim y s) : Exacts aim x s := by
  rwa [Exacts, h]

theorem exacts_stop {f : Fault} (h : f.kind = .aftermath ∨ aim = .error f) (s : Scene) :
    Exacts aim (Play.stop f) s :=
  Or.inr ⟨f, rfl, h⟩

theorem exacts_giveUp (card : Card) (reason : String) (banished : Bool) {cards : List Card}
    (h : cards.Subperm s.board.hand) : Exacts aim (giveUp card reason banished cards) s := by
  obtain ⟨log, hlog⟩ := giveUp_eq card reason banished cards s
  exact Or.inl ⟨_, hlog, .single (.giveUp banished h)⟩

theorem exacts_draw_banish {n : Int} (h : n ≤ s.board.deck.length) (line : List Card → String) :
    Exacts aim (draw n >>= fun cards => change (·.banish cards) >>= fun _ => say (line cards)) s := by
  obtain ⟨cards, deck, hdraw, -⟩ := draw_of_le h
  have hbanished : ∃ s', (draw n >>= fun cards => change (·.banish cards) >>= fun _ => say (line cards)) s
      = (.ok (), s') := ⟨_, bind_eq_ok.2 ⟨cards, _, hdraw, rfl⟩⟩
  obtain ⟨s', hbanished⟩ := hbanished
  exact Or.inl ⟨s', hbanished, moves_of_draw_banish hbanished⟩

theorem exacts_tollFromDeck (card : Card) (toll : Toll) (s : Scene) :
    Exacts aim (tollFromDeck card toll) s := by
  cases toll with
  | named name => exact (exacts_stop (Or.inl rfl) s).congr rfl
  | amount n =>
      refine Exacts.congr (y := if (s.board.deck.length : Int) < n then _ else _) rfl ?_
      split
      · exact exacts_stop (Or.inl rfl) s
      · rename_i hn
        exact exacts_draw_banish (Int.not_lt.1 hn) _

theorem exacts_tollFromHand (aim : Aim) (card : Card) (kind : AftermathKind) (toll : Toll) (s : Scene) :
    Exacts aim (tollFromHand aim card kind toll) s := by
  cases aim with
  | error f => exact (exacts_stop (Or.inr rfl) s).congr rfl
  | ok wanted =>
      have hranked := reverse_byUsefulness_perm wanted s.board.hand
      cases toll with
      | amount n =>
          have hchosen : (firstCards n (byUsefulness wanted s.board.hand).reverse).Subperm s.board.hand :=
            (firstCards_sublist n _).subperm.trans hranked.subperm
          refine Exacts.congr (y := if ((firstCards n (byUsefulness wanted s.board.hand).reverse).length :
            Int) < n then _ else _) rfl ?_
          split
          · exact exacts_stop (Or.inl rfl) s
          · exact exacts_giveUp card "condition" _ hchosen
      | named name =>
          cases hpick : pickNamed (byUsefulness wanted s.board.hand).reverse [] [.text name] with
          | none =>
              refine (exacts_stop (f := .noneInHand name) (Or.inl rfl) s).congr ?_
              simp [tollFromHand, bind, Play.bind, board, ranked, ofExcept, Except.map, hpick]
          | some chosen =>
              have hchosen := Board.pickNamed_subperm hranked hpick
              refine (exacts_giveUp card "condition" (kind = .banishFromHand) hchosen).congr ?_
              simp [tollFromHand, bind, Play.bind, board, ranked, ofExcept, Except.map, hpick]

/-- **A toll moves cards only if it is paid**, and if the cards can be ranked, nothing but the toll itself can keep it
from being paid. -/
theorem exacts_suffer (aim : Aim) (card : Card) (a : Aftermath) (s : Scene) :
    Exacts aim (suffer aim card a) s := by
  obtain ⟨kind, toll⟩ := a
  cases kind with
  | banishFromDeck => exact exacts_tollFromDeck card toll s
  | discard => exact exacts_tollFromHand aim card .discard toll s
  | banishFromHand => exact exacts_tollFromHand aim card .banishFromHand toll s

theorem moves_of_sufferOrForfeit {a : Aftermath} {u : Unit}
    (h : sufferOrForfeit aim card a s = (.ok u, s')) : s.board.Moves s'.board := by
  unfold sufferOrForfeit orElse at h
  rcases exacts_suffer aim card a s with ⟨s₁, hpaid, hmoves⟩ | ⟨f, hfault, -⟩
  · rw [hpaid] at h
    obtain ⟨-, rfl⟩ := Prod.mk.inj h
    exact hmoves
  · rw [hfault] at h
    dsimp only at h
    by_cases hf : f.kind = .aftermath
    · rw [if_pos hf] at h
      have hafter : s'.board = s.board.giveUp false s.board.hand := by
        obtain ⟨-, rfl⟩ := Prod.mk.inj h
        rfl
      rw [hafter]
      exact .single (.giveUp false (List.Subperm.refl _))
    · rw [if_neg hf] at h
      cases h

/-! ### Effects -/

theorem moves_of_ifAny {α : Type} {a : Option α} {step : α → Play Unit} {u : Unit}
    (hstep : ∀ x, step x s = (.ok u, s') → s.board.Moves s'.board)
    (h : ifAny a step s = (.ok u, s')) : s.board.Moves s'.board := by
  cases a with
  | some x => exact hstep x h
  | none =>
      obtain ⟨-, rfl⟩ := Prod.mk.inj h
      exact .refl

/-- **An effect that is resolved to its end is a sequence of moves.** -/
theorem moves_of_resolve {e : Effect} {u : Unit} (h : resolve aim card e s = (.ok u, s')) :
    s.board.Moves s'.board := by
  obtain ⟨_, s₁, hcost, h⟩ := bind_eq_ok.1 h
  obtain ⟨_, s₂, hdraws, h⟩ := bind_eq_ok.1 h
  obtain ⟨_, s₃, hdig, htoll⟩ := bind_eq_ok.1 h
  have h₁ : s.board.Moves s₁.board := moves_of_ifAny (fun _ => moves_of_payCost) hcost
  have h₂ : s₁.board.Moves s₂.board := moves_of_drawCards hdraws
  have h₃ : s₂.board.Moves s₃.board := moves_of_ifAny (fun _ => moves_of_excavate) hdig
  have h₄ : s₃.board.Moves s'.board := moves_of_ifAny (fun _ => moves_of_sufferOrForfeit) htoll
  exact ((h₁.trans h₂).trans h₃).trans h₄

end

end Play

end OpeningHand
