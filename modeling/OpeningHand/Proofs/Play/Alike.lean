import OpeningHand.Play.Resolve
import OpeningHand.Proofs.Card.Renaming

/-!
# Boards that are alike

Two boards are alike (`Board.Alike`) if the same faces lie in the same places under other identities; in
the hand only the cards that are not free must keep their order. Whatever a play does on one board it does
on the other (`Play.playFree_follows`), provided that the order of the hands is the same or that the card
does not look at it: it asks for no card of the hand by name and has no aftermath that the hand pays
(`Effect.isOrderless`). Boards that are alike in the order of the hand too are renamings of each other
(`Board.Alike.eq_map`).

The plays are followed step by step: `Play.Follows` relates two plays that give matching results, say the
same and lead from alike boards to alike ones, and holds of a sequence of steps if it holds of each.
-/

namespace OpeningHand

open Card

/-! ### Effects that do not look at the order of the hand -/

/-- Whether paying the cost does not depend on the order of the hand: a number of cards is paid with
cards that are not free, but names may be answered by any. -/
def Cost.isOrderless (c : Cost) : Bool :=
  match c.kind, c.price with
  | .banishFromHand, .named _ | .discard, .named _ => false
  | _, _ => true

/-- Whether neither the cost nor the aftermath depends on the order of the hand. -/
def Effect.isOrderless (e : Effect) : Bool :=
  (e.cost.all fun c => c.isOrderless) && e.aftermath.all fun a => a.kind == .banishFromDeck

/-- Whether playing the card does not depend on the order of the hand. -/
def Card.isOrderless (c : Card) : Bool := c.effect.all fun e => e.isOrderless

/-! ### Boards -/

namespace Board

/-- The cards that are not free. -/
def plain (cards : List Card) : List Card := cards.filter fun c => !c.isFree

/-- The same faces in the same places of the deck, the hand and the played cards. The hands may be in a
different order, if that is allowed, except for the cards that are not free; if it is not, then the piles
are the same too. -/
structure Alike (σ : CardId → CardId) (ordered : Prop) (b b' : Board) : Prop where
  deck : b'.deck = b.deck.map (rename σ)
  played : b'.played = b.played.map (rename σ)
  hand : b'.hand.Perm (b.hand.map (rename σ))
  plain : plain b'.hand = (plain b.hand).map (rename σ)
  order : ordered → b'.hand = b.hand.map (rename σ)
  banished : ordered → b'.banished = b.banished.map (rename σ)
  graveyard : ordered → b'.graveyard = b.graveyard.map (rename σ)

theorem plain_rename (σ : CardId → CardId) (cards : List Card) :
    plain (cards.map (rename σ)) = (plain cards).map (rename σ) := by
  rw [plain, List.filter_map]
  rfl

theorem plain_append (a b : List Card) : plain (a ++ b) = plain a ++ plain b := List.filter_append ..

theorem plain_without (cards removed : List Card) :
    plain (without cards removed) = without (plain cards) removed := by
  unfold plain without
  rw [List.filter_filter, List.filter_filter]
  exact List.filter_congr fun c _ => Bool.and_comm _ _

namespace Alike

variable {σ : CardId → CardId} {ordered : Prop} {b b' : Board}

theorem of_map (σ : CardId → CardId) (ordered : Prop) (b : Board) : Alike σ ordered b (b.map (rename σ)) where
  deck := rfl
  played := rfl
  hand := List.Perm.refl _
  plain := plain_rename σ b.hand
  order _ := rfl
  banished _ := rfl
  graveyard _ := rfl

/-- If no other order is allowed, the boards are the same but for the identities. -/
theorem eq_map (h : Alike σ True b b') : b' = b.map (rename σ) := by
  obtain ⟨deck, hand, banished, graveyard, played⟩ := b'
  obtain ⟨rfl, rfl, -, -, horder, hbanished, hgraveyard⟩ := h
  rw [Board.map, Board.mk.injEq]
  exact ⟨rfl, horder trivial, hbanished trivial, hgraveyard trivial, rfl⟩

theorem refl (b : Board) : Alike id ordered b b := by
  have h := of_map id ordered b
  have hmap : ∀ cards : List Card, cards.map (rename id) = cards := List.map_id
  simp only [Board.map, hmap] at h
  exact h

theorem length_deck (h : Alike σ ordered b b') : b'.deck.length = b.deck.length := by
  rw [h.deck, List.length_map]

/-- Cards of the hand go elsewhere. -/
theorem without (hσ : Function.Injective σ) (h : Alike σ ordered b b') (cards : List Card)
    {g g' e e' : List Card} (he : ordered → e' = e.map (rename σ)) (hg : ordered → g' = g.map (rename σ)) :
    Alike σ ordered ⟨b.deck, OpeningHand.without b.hand cards, e, g, b.played⟩
      ⟨b'.deck, OpeningHand.without b'.hand (cards.map (rename σ)), e', g', b'.played⟩ where
  deck := h.deck
  played := h.played
  hand := by
    rw [← without_rename hσ]
    exact without_perm h.hand _
  plain := by rw [plain_without, plain_without, h.plain, without_rename hσ]
  order ho := by rw [h.order ho, without_rename hσ]
  banished := he
  graveyard := hg

/-- Cards come to the end of the hand. -/
theorem append (h : Alike σ ordered b b') (cards : List Card) :
    Alike σ ordered { b with hand := b.hand ++ cards } { b' with hand := b'.hand ++ cards.map (rename σ) } where
  deck := h.deck
  played := h.played
  hand := by
    rw [List.map_append]
    exact h.hand.append_right _
  plain := by rw [plain_append, plain_append, h.plain, plain_rename, List.map_append]
  order ho := by rw [h.order ho, List.map_append]
  banished := h.banished
  graveyard := h.graveyard

theorem addToBottom (h : Alike σ ordered b b') (cards : List Card) :
    Alike σ ordered (b.addToBottom cards) (b'.addToBottom (cards.map (rename σ))) where
  deck := by simp [Board.addToBottom, h.deck]
  played := h.played
  hand := h.hand
  plain := h.plain
  order := h.order
  banished := h.banished
  graveyard := h.graveyard

theorem discard (hσ : Function.Injective σ) (h : Alike σ ordered b b') (cards : List Card) :
    Alike σ ordered (b.discard cards) (b'.discard (cards.map (rename σ))) :=
  h.without hσ cards h.banished fun ho => by rw [h.graveyard ho, List.map_append]

theorem banishFromHand (hσ : Function.Injective σ) (h : Alike σ ordered b b') (cards : List Card) :
    Alike σ ordered (b.banishFromHand cards) (b'.banishFromHand (cards.map (rename σ))) :=
  h.without hσ cards (fun ho => by rw [h.banished ho, List.map_append]) h.graveyard

theorem banish (h : Alike σ ordered b b') (cards : List Card) :
    Alike σ ordered (b.banish cards) (b'.banish (cards.map (rename σ))) where
  deck := h.deck
  played := h.played
  hand := h.hand
  plain := h.plain
  order := h.order
  banished ho := by rw [Board.banish, Board.banish, h.banished ho, List.map_append]
  graveyard := h.graveyard

/-- A whole hand is discarded, in whatever order. -/
theorem discard_hand (h : Alike σ ordered b b') :
    Alike σ ordered (b.discard b.hand) (b'.discard b'.hand) := by
  have hnil : ∀ cards : List Card, OpeningHand.without cards cards = [] := fun cards =>
    List.eq_nil_iff_forall_not_mem.2 fun c hc =>
      (mem_without.1 hc).2 (List.mem_map_of_mem (mem_without.1 hc).1)
  refine ⟨h.deck, h.played, ?_, ?_, fun _ => ?_, h.banished, fun ho => ?_⟩
  · simp [Board.discard, hnil]
  · simp [Board.discard, hnil, Board.plain]
  · simp [Board.discard, hnil]
  · rw [Board.discard, Board.discard, h.graveyard ho, h.order ho, List.map_append]

theorem isIn_hand (hσ : Function.Injective σ) (h : Alike σ ordered b b') (card : Card) :
    (card.rename σ).isIn b'.hand = card.isIn b.hand := by
  rw [← isIn_rename hσ card, Bool.eq_iff_iff, isIn_iff, isIn_iff]
  exact (h.hand.map _).mem_iff

theorem costPool (hσ : Function.Injective σ) (h : Alike σ ordered b b') (card : Card) :
    b'.costPool (card.rename σ) = (b.costPool card).map (rename σ) := by
  have hpool : ∀ (card : Card) (b : Board), b.costPool card = (Board.plain b.hand).filter fun c => !c.is card := by
    intro card b
    rw [Board.costPool, Board.plain, List.filter_filter]
  rw [hpool, hpool, h.plain, List.filter_map]
  simp [Function.comp_def, is_rename hσ]

/-- A cost can be paid on both boards or on neither. -/
theorem canPayCost (hσ : Function.Injective σ) (h : Alike σ ordered b b') {card : Card} {cost : Cost}
    (ho : ordered ∨ cost.isOrderless = true) :
    b'.canPayCost (card.rename σ) cost = b.canPayCost card cost := by
  obtain ⟨kind, price⟩ := cost
  have hnamed : ∀ names, ordered → (pickNamed (b'.hand.filter fun c => !c.is (card.rename σ)) [] names).isSome
      = (pickNamed (b.hand.filter fun c => !c.is card) [] names).isSome := by
    intro names ho
    have hpool : (b'.hand.filter fun c => !c.is (card.rename σ))
        = (b.hand.filter fun c => !c.is card).map (rename σ) := by
      rw [h.order ho, List.filter_map]
      simp [Function.comp_def, is_rename hσ]
    have hpick := pickNamed_rename hσ (b.hand.filter fun c => !c.is card) [] names
    rw [List.map_nil] at hpick
    rw [hpool, hpick, Option.isSome_map]
  cases kind <;> cases price <;>
    simp only [Board.canPayCost, h.length_deck, h.costPool hσ, List.length_map]
  · exact hnamed _ (ho.resolve_right (by simp [Cost.isOrderless]))
  · exact hnamed _ (ho.resolve_right (by simp [Cost.isOrderless]))

/-- **A card can be played on both boards or on neither.** -/
theorem usable (hσ : Function.Injective σ) (h : Alike σ ordered b b') {card : Card}
    (ho : ordered ∨ card.isOrderless = true) : b'.usable (card.rename σ) = b.usable card := by
  have hpay : b'.canPay (card.rename σ) = b.canPay card := by
    unfold Board.canPay
    rw [rename_effect]
    cases hcost : card.effect.bind (·.cost) with
    | none => rfl
    | some cost =>
        refine h.canPayCost hσ (ho.imp_right fun hless => ?_)
        obtain ⟨e, he, hc⟩ := Option.bind_eq_some_iff.1 hcost
        simp only [Card.isOrderless, he, Option.all_some, Effect.isOrderless, hc, Bool.and_eq_true] at hless
        exact hless.1
  have hnames : (b'.played.any fun c => c.name == card.name)
      = b.played.any fun c => c.name == card.name := by
    rw [h.played, List.any_map]
    rfl
  have hfree : b'.freePlayed.isEmpty = b.freePlayed.isEmpty := by
    rw [Board.freePlayed, Board.freePlayed, h.played, List.filter_map]
    simp [Function.comp_def]
  have hforbidden : b'.drawsForbidden = b.drawsForbidden := by
    rw [Board.drawsForbidden, Board.drawsForbidden, h.played, List.any_map]
    rfl
  unfold Board.usable Board.allows
  rw [rename_effect, rename_name, hnames, hfree, hforbidden, hpay, h.length_deck]

/-- A card is put on the pile of played cards. -/
theorem play (hσ : Function.Injective σ) (h : Alike σ ordered b b') (card : Card) :
    Alike σ ordered ⟨b.deck, OpeningHand.without b.hand [card], b.banished, b.graveyard, b.played ++ [card]⟩
      ⟨b'.deck, OpeningHand.without b'.hand [card.rename σ], b'.banished, b'.graveyard,
        b'.played ++ [card.rename σ]⟩ := by
  obtain ⟨hdeck, -, hhand, hplain, horder, -, -⟩ := h.discard hσ [card]
  exact ⟨hdeck, by simp [h.played], hhand, hplain, horder, h.banished, h.graveyard⟩

end Alike

end Board

/-! ### Plays that follow each other -/

/-- Two results that match: both are there, or the same fault is. -/
def Agree {α β : Type} (Q : α → β → Prop) : Except Fault α → Except Fault β → Prop
  | .ok a, .ok a' => Q a a'
  | .error f, .error f' => f = f'
  | _, _ => False

theorem Agree.eq {α : Type} {r r' : Except Fault α} (h : Agree Eq r r') : r = r' := by
  cases r with
  | ok a =>
      cases r' with
      | ok a' => exact congrArg Except.ok h
      | error f' => exact h.elim
  | error f =>
      cases r' with
      | ok a' => exact h.elim
      | error f' => exact congrArg Except.error h

namespace Play

section

variable {σ : CardId → CardId} {ordered : Prop}

/-- What has become of two scenes: their boards are alike, and the same lines were added to both logs. -/
structure Matched (σ : CardId → CardId) (ordered : Prop) (s t s' t' : Scene) : Prop where
  board : s'.board.Alike σ ordered t'.board
  log : ∃ lines, s'.log = s.log ++ lines ∧ t'.log = t.log ++ lines

/-- Nothing was said. -/
theorem Matched.of_log_eq {s t s' t' : Scene} (h : s'.board.Alike σ ordered t'.board) (hs : s'.log = s.log)
    (ht : t'.log = t.log) : Matched σ ordered s t s' t' :=
  ⟨h, [], by rw [hs, List.append_nil], by rw [ht, List.append_nil]⟩

theorem Matched.trans {s t s' t' s'' t'' : Scene} (h : Matched σ ordered s t s' t')
    (h' : Matched σ ordered s' t' s'' t'') : Matched σ ordered s t s'' t'' := by
  obtain ⟨-, lines, hs, ht⟩ := h
  obtain ⟨hboard, lines', hs', ht'⟩ := h'
  refine ⟨hboard, lines ++ lines', ?_, ?_⟩
  · rw [hs', hs, List.append_assoc]
  · rw [ht', ht, List.append_assoc]

/-- One play does on alike boards what the other does, with matching results and the same lines. -/
def Follows (σ : CardId → CardId) (ordered : Prop) {α β : Type} (Q : α → β → Prop) (x : Play α)
    (y : Play β) : Prop :=
  ∀ s t, s.board.Alike σ ordered t.board →
    Agree Q (x s).1 (y t).1 ∧ Matched σ ordered s t (x s).2 (y t).2

/-- Cards that match: the same ones, renamed. -/
def Renamed (σ : CardId → CardId) (cards cards' : List Card) : Prop := cards' = cards.map (rename σ)

namespace Follows

variable {α β γ δ : Type} {Q : α → β → Prop} {P : γ → δ → Prop}

theorem pure {a : α} {a' : β} (h : Q a a') : Follows σ ordered Q (Pure.pure a) (Pure.pure a') :=
  fun _ _ hb => ⟨h, .of_log_eq hb rfl rfl⟩

theorem bind {x : Play α} {y : Play β} {f : α → Play γ} {g : β → Play δ} (hx : Follows σ ordered Q x y)
    (hf : ∀ a a', Q a a' → Follows σ ordered P (f a) (g a')) :
    Follows σ ordered P (x >>= f) (y >>= g) := by
  intro s t hb
  obtain ⟨hres, hscene⟩ := hx s t hb
  show Agree P (Play.bind x f s).1 (Play.bind y g t).1 ∧
    Matched σ ordered s t (Play.bind x f s).2 (Play.bind y g t).2
  unfold Play.bind
  revert hres hscene
  generalize x s = p
  generalize y t = q
  intro hres hscene
  obtain ⟨r, s'⟩ := p
  obtain ⟨r', t'⟩ := q
  cases r with
  | error e =>
      cases r' with
      | error e' => exact ⟨hres, hscene⟩
      | ok a' => exact hres.elim
  | ok a =>
      cases r' with
      | error e' => exact hres.elim
      | ok a' =>
          obtain ⟨hres', hscene'⟩ := hf a a' hres s' t' hscene.board
          exact ⟨hres', hscene.trans hscene'⟩

theorem say (line : String) : Follows σ ordered (fun _ _ => True) (Play.say line) (Play.say line) :=
  fun _ _ hb => ⟨trivial, hb, [line], rfl, rfl⟩

theorem stop (f : Fault) : Follows σ ordered Q (Play.stop f) (Play.stop f) :=
  fun _ _ hb => ⟨rfl, .of_log_eq hb rfl rfl⟩

theorem board : Follows σ ordered (Board.Alike σ ordered) Play.board Play.board :=
  fun _ _ hb => ⟨hb, .of_log_eq hb rfl rfl⟩

theorem change {f g : Board → Board}
    (h : ∀ b b', Board.Alike σ ordered b b' → (f b).Alike σ ordered (g b')) :
    Follows σ ordered (fun _ _ => True) (Play.change f) (Play.change g) :=
  fun _ _ hb => ⟨trivial, .of_log_eq (h _ _ hb) rfl rfl⟩

theorem draw (n : Int) : Follows σ ordered (Renamed σ) (Play.draw n) (Play.draw n) := by
  intro s t hb
  simp only [Play.draw, Board.draw, hb.length_deck]
  split
  · refine ⟨?_, .of_log_eq ?_ rfl rfl⟩
    · simp [Agree, Renamed, hb.deck]
    · exact ⟨by simp [hb.deck], hb.played, hb.hand, hb.plain, hb.order, hb.banished, hb.graveyard⟩
  · refine ⟨rfl, .of_log_eq ?_ rfl rfl⟩
    exact ⟨rfl, hb.played, hb.hand, hb.plain, hb.order, hb.banished, hb.graveyard⟩

theorem ranked (aim : Aim) {cards cards' : List Card} (h : Renamed σ cards cards') :
    Follows σ ordered (Renamed σ) (Play.ranked aim cards) (Play.ranked aim cards') := by
  intro s t hb
  refine ⟨?_, .of_log_eq hb rfl rfl⟩
  cases aim with
  | error f => rfl
  | ok wanted =>
      show Renamed σ (byUsefulness wanted cards) (byUsefulness wanted cards')
      rw [Renamed, h, byUsefulness_rename]

theorem orElse {x : Play α} {y : Play β} {f : Fault → Option (Play α)} {g : Fault → Option (Play β)}
    (hx : Follows σ ordered Q x y)
    (h : ∀ e, (f e = none ∧ g e = none) ∨
      ∃ u v, f e = some u ∧ g e = some v ∧ Follows σ ordered Q u v) :
    Follows σ ordered Q (x.orElse f) (y.orElse g) := by
  intro s t hb
  obtain ⟨hres, hscene⟩ := hx s t hb
  unfold Play.orElse
  revert hres hscene
  generalize x s = p
  generalize y t = q
  intro hres hscene
  obtain ⟨r, s'⟩ := p
  obtain ⟨r', t'⟩ := q
  cases r with
  | ok a =>
      cases r' with
      | ok a' => exact ⟨hres, hscene⟩
      | error e' => exact hres.elim
  | error e =>
      cases r' with
      | ok a' => exact hres.elim
      | error e' =>
          obtain rfl : e = e' := hres
          rcases h e with ⟨hf, hg⟩ | ⟨u, v, hf, hg, huv⟩
          · simp only [hf, hg]
            exact ⟨rfl, hscene⟩
          · simp only [hf, hg]
            obtain ⟨hres', hscene'⟩ := huv s' t' hscene.board
            exact ⟨hres', hscene.trans hscene'⟩

end Follows

theorem sayIf_follows (reason : Bool) (line : String) :
    Follows σ ordered (fun _ _ => True) (sayIf reason line) (sayIf reason line) := by
  cases reason with
  | true => exact .say _
  | false => exact .pure trivial

theorem ifAny_follows {α : Type} (a : Option α) {f g : α → Play Unit}
    (h : ∀ x ∈ a, Follows σ ordered (fun _ _ => True) (f x) (g x)) :
    Follows σ ordered (fun _ _ => True) (ifAny a f) (ifAny a g) := by
  cases a with
  | some x => exact h x rfl
  | none => exact .pure trivial

theorem drawCards_follows (card : Card) (n : Int) :
    Follows σ ordered (fun _ _ => True) (drawCards card n) (drawCards (card.rename σ) n) := by
  unfold drawCards
  split
  · refine .bind (.draw n) ?_
    rintro cards _ rfl
    rw [nameList_rename]
    exact .bind (.change fun b b' h => h.append cards) fun _ _ _ => .say _
  · exact .pure trivial

theorem dig_follows (aim : Aim) (card : Card) (count pick : Int) :
    Follows σ ordered (fun _ _ => True) (dig aim card count pick) (dig aim (card.rename σ) count pick) := by
  refine .bind (.draw count) ?_
  rintro revealed _ rfl
  refine .bind (.ranked aim rfl) ?_
  rintro cards _ rfl
  simp only [firstCards_map, otherCards_map, nameList_rename]
  refine .bind (.change fun b b' h => h.append _) fun _ _ _ => ?_
  exact .bind (.change fun b b' h => h.addToBottom _) fun _ _ _ => .say _

theorem excavate_follows (aim : Aim) (card : Card) (rule : Excavation) :
    Follows σ ordered (fun _ _ => True) (excavate aim card rule) (excavate aim (card.rename σ) rule) := by
  refine .bind .board fun b b' hb => ?_
  simp only [hb.length_deck]
  exact .bind (sayIf_follows _ _) fun _ _ _ => dig_follows aim card _ _

theorem tollFromDeck_follows (card : Card) (toll : Toll) :
    Follows σ ordered (fun _ _ => True) (tollFromDeck card toll) (tollFromDeck (card.rename σ) toll) := by
  refine .bind .board fun b b' hb => ?_
  rw [hb.length_deck]
  cases toll with
  | named s => exact .stop _
  | amount n =>
      dsimp only
      split
      · exact .stop _
      · refine .bind (.draw n) ?_
        rintro cards _ rfl
        rw [nameList_rename]
        exact .bind (.change fun b b' h => h.banish cards) fun _ _ _ => .say _

theorem forfeit_follows (card : Card) (f : Fault) :
    Follows σ ordered (fun _ _ => True) (forfeit card f) (forfeit (card.rename σ) f) :=
  .bind (.say _) fun _ _ _ => .change fun _ _ h => h.discard_hand

section

variable (hσ : Function.Injective σ)

include hσ in
theorem giveUp_follows (card : Card) (reason : String) (banished : Bool) (cards : List Card) :
    Follows σ ordered (fun _ _ => True) (giveUp card reason banished cards)
      (giveUp (card.rename σ) reason banished (cards.map (rename σ))) := by
  unfold giveUp
  rw [nameList_rename]
  cases banished with
  | true => exact .bind (.change fun b b' h => h.banishFromHand hσ cards) fun _ _ _ => .say _
  | false => exact .bind (.change fun b b' h => h.discard hσ cards) fun _ _ _ => .say _

include hσ in
theorem payFromHand_follows (aim : Aim) (card : Card) (kind : CostKind) {price : Price}
    (ho : ordered ∨ price.isNamed = false) :
    Follows σ ordered (fun _ _ => True) (payFromHand aim card kind price)
      (payFromHand aim (card.rename σ) kind price) := by
  refine .bind .board fun b b' hb => ?_
  cases price with
  | named names =>
      have hhand : Renamed σ b.hand b'.hand := hb.order (ho.resolve_right (by simp [Price.isNamed]))
      refine .bind (.ranked aim hhand) ?_
      rintro cards _ rfl
      have hpick : (pickNamed (cards.map (rename σ)).reverse [] names).getD []
          = ((pickNamed cards.reverse [] names).getD []).map (rename σ) := by
        have h := pickNamed_rename hσ cards.reverse [] names
        rw [List.map_nil, List.map_reverse] at h
        rw [h]
        cases pickNamed cards.reverse [] names <;> rfl
      rw [hpick]
      exact giveUp_follows hσ card _ _ _
  | amount n =>
      refine .bind (.ranked aim (hb.costPool hσ card)) ?_
      rintro cards _ rfl
      rw [← List.map_reverse, firstCards_map]
      exact giveUp_follows hσ card _ _ _

include hσ in
theorem payCost_follows (aim : Aim) (card : Card) {cost : Cost}
    (ho : ordered ∨ cost.isOrderless = true) :
    Follows σ ordered (fun _ _ => True) (payCost aim card cost)
      (payCost aim (card.rename σ) cost) := by
  obtain ⟨kind, price⟩ := cost
  have hprice : kind = .banishFromHand ∨ kind = .discard → ordered ∨ price.isNamed = false := by
    intro hkind
    refine ho.imp_right fun h => ?_
    rcases hkind with rfl | rfl <;> cases price <;> simp_all [Cost.isOrderless, Price.isNamed]
  cases kind with
  | payLife => exact .say _
  | banishFromDeck =>
      cases price with
      | named names => exact .stop _
      | amount n =>
          refine .bind (.draw n) ?_
          rintro cards _ rfl
          rw [nameList_rename]
          exact .bind (.change fun b b' h => h.banish cards) fun _ _ _ => .say _
  | banishFromHand => exact payFromHand_follows hσ aim card _ (hprice (Or.inl rfl))
  | discard => exact payFromHand_follows hσ aim card _ (hprice (Or.inr rfl))

include hσ in
theorem tollFromHand_follows (aim : Aim) (card : Card) (kind : AftermathKind) (toll : Toll)
    (ho : ordered) :
    Follows σ ordered (fun _ _ => True) (tollFromHand aim card kind toll)
      (tollFromHand aim (card.rename σ) kind toll) := by
  refine .bind .board fun b b' hb => ?_
  refine .bind (.ranked aim (hb.order ho)) ?_
  rintro cards _ rfl
  rw [← List.map_reverse]
  cases toll with
  | amount n =>
      simp only [firstCards_map, List.length_map]
      split
      · exact .stop _
      · exact giveUp_follows hσ card _ _ _
  | named s =>
      have hpick := pickNamed_rename hσ cards.reverse [] [.text s]
      rw [List.map_nil] at hpick
      dsimp only
      rw [hpick]
      cases pickNamed cards.reverse [] [.text s] with
      | some chosen => exact giveUp_follows hσ card _ _ _
      | none => exact .stop _

include hσ in
theorem sufferOrForfeit_follows (aim : Aim) (card : Card) (a : Aftermath)
    (ho : ordered ∨ a.kind = .banishFromDeck) :
    Follows σ ordered (fun _ _ => True) (sufferOrForfeit aim card a)
      (sufferOrForfeit aim (card.rename σ) a) := by
  have hsuffer : Follows σ ordered (fun _ _ => True) (suffer aim card a) (suffer aim (card.rename σ) a) := by
    obtain ⟨kind, toll⟩ := a
    cases kind with
    | banishFromDeck => exact tollFromDeck_follows card toll
    | discard => exact tollFromHand_follows hσ aim card _ toll (ho.resolve_right (by simp))
    | banishFromHand => exact tollFromHand_follows hσ aim card _ toll (ho.resolve_right (by simp))
  refine hsuffer.orElse fun f => ?_
  by_cases hf : f.kind = .aftermath
  · exact Or.inr ⟨_, _, if_pos hf, if_pos hf, forfeit_follows card f⟩
  · exact Or.inl ⟨if_neg hf, if_neg hf⟩

include hσ in
/-- **What a card does on one board it does on every board that is alike.** -/
theorem resolve_follows (aim : Aim) (card : Card) {e : Effect} (ho : ordered ∨ e.isOrderless = true) :
    Follows σ ordered (fun _ _ => True) (resolve aim card e) (resolve aim (card.rename σ) e) := by
  have hcost : ∀ c ∈ e.cost, ordered ∨ c.isOrderless = true := fun c hc => ho.imp_right fun h => by
    simp only [Effect.isOrderless, Option.mem_def.1 hc, Option.all_some, Bool.and_eq_true] at h
    exact h.1
  have hafter : ∀ a ∈ e.aftermath, ordered ∨ a.kind = .banishFromDeck := fun a ha =>
    ho.imp_right fun h => by
      simp only [Effect.isOrderless, Option.mem_def.1 ha, Option.all_some, Bool.and_eq_true,
        beq_iff_eq] at h
      exact h.2
  refine .bind (ifAny_follows _ fun c hc => payCost_follows hσ aim card (hcost c hc)) fun _ _ _ => ?_
  refine .bind (drawCards_follows card _) fun _ _ _ => ?_
  refine .bind (ifAny_follows _ fun x _ => excavate_follows aim card x) fun _ _ _ => ?_
  exact ifAny_follows _ fun a ha => sufferOrForfeit_follows hσ aim card a (hafter a ha)

include hσ in
/-- **A card that is played on one board is played on every board that is alike**, with the same
outcome. -/
theorem playFree_follows (aim : Aim) {card : Card} (ho : ordered ∨ card.isOrderless = true) :
    Follows σ ordered Eq (playFree aim card) (playFree aim (card.rename σ)) := by
  refine .bind .board fun b b' hb => ?_
  rw [hb.usable hσ ho, rename_effect]
  unfold Board.play?
  rw [hb.isIn_hand hσ]
  cases card.isIn b.hand with
  | false => exact .bind (.say _) fun _ _ _ => .pure rfl
  | true =>
      cases he : card.effect with
      | none => exact .pure rfl
      | some e =>
          rw [if_pos rfl, if_pos rfl]
          dsimp only
          split
          · refine .bind (.change fun _ _ _ => hb.play hσ card) fun _ _ _ => ?_
            refine .bind (.say _) fun _ _ _ => ?_
            have hless : ordered ∨ e.isOrderless = true := ho.imp_right fun h => by
              simpa [Card.isOrderless, he] using h
            exact .bind (resolve_follows hσ aim card hless) fun _ _ _ => .pure rfl
          · exact .pure rfl

end

end

end Play

end OpeningHand
