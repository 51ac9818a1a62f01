import OpeningHand.Play.Resolve
import OpeningHand.Proofs.Card.Choosing

/-!
# What plays do to the cards ahead

The hand and the deck are the stock that plays draw on (`Board.stock`). A play adds nothing to it: it
draws cards from the deck into the hand, puts some back, and gives up the rest. A card that is played
leaves the stock for the pile of played cards (`Play.stock_of_playFree`), so no line of plays is longer than
the number of free cards it begins with.

While cards are between the deck and their new place they are in no place at all; `Play.Spends` therefore
says what a play does to the stock and to some cards in the air.
-/

namespace OpeningHand

/-- The cards that can still be played or drawn. -/
def Board.stock (b : Board) : List Card := b.hand ++ b.deck

/-- Cards are drawn off the deck, or the deck is used up. -/
theorem Board.draw_cases (n : Int) (b : Board) :
    (∃ cards deck, b.draw n = (.ok cards, { b with deck := deck }) ∧ (cards ++ deck).Perm b.deck) ∨
      b.draw n = (.error .emptyDeck, { b with deck := [] }) := by
  unfold Board.draw
  split
  · refine Or.inl ⟨_, _, rfl, ?_⟩
    rw [List.take_reverse]
    refine ((List.reverse_perm _).append_right _).trans (List.perm_append_comm.trans ?_)
    rw [List.take_append_drop]
  · exact Or.inr rfl

/-- Lines that tell what a free card does. -/
def IsPlayLine (line : String) : Prop := "[FREE]".toList <+: line.toList

theorem isPlayLine_append (s : String) : IsPlayLine ("[FREE]" ++ s) := by
  rw [IsPlayLine, String.toList_append]
  exact List.prefix_append _ _

namespace Play

/-- The played cards stay, the stock gets at most the cards in the air, and the log grows by lines of free
cards. -/
structure Spent (air : List Card) (s s' : Scene) : Prop where
  played : s'.board.played = s.board.played
  stock : s'.board.stock.Subperm (air ++ s.board.stock)
  log : ∃ lines, s'.log = s.log ++ lines ∧ ∀ l ∈ lines, IsPlayLine l

/-- A play that only spends what is in stock and in the air. -/
def Spends (air : List Card) {α : Type} (x : Play α) : Prop := ∀ s, Spent air s (x s).2

theorem Spent.trans {air air' : List Card} {s s' s'' : Scene} (h : Spent air s s')
    (h' : Spent air' s' s'') : Spent (air' ++ air) s s'' := by
  obtain ⟨lines, hlog, hlines⟩ := h.log
  obtain ⟨lines', hlog', hlines'⟩ := h'.log
  refine ⟨h'.played.trans h.played, ?_, lines ++ lines', by rw [hlog', hlog, List.append_assoc], ?_⟩
  · rw [List.append_assoc]
    exact h'.stock.trans ((List.subperm_append_left air').2 h.stock)
  · intro l hl
    exact (List.mem_append.1 hl).elim (hlines l) (hlines' l)

namespace Spends

variable {air : List Card} {α β : Type}

theorem of_same {x : Play α} (h : ∀ s, (x s).2 = s) : Spends air x := fun s => by
  rw [h]
  exact ⟨rfl, (List.sublist_append_right _ _).subperm, [], by simp, by simp⟩

theorem pure (a : α) : Spends air (Pure.pure a) := of_same fun _ => rfl

theorem stop (f : Fault) : Spends (α := α) air (Play.stop f) := of_same fun _ => rfl

theorem board : Spends air Play.board := of_same fun _ => rfl

theorem ranked (aim : Aim) (cards : List Card) : Spends air (Play.ranked aim cards) :=
  of_same fun _ => rfl

theorem say {line : String} (h : IsPlayLine line) : Spends air (Play.say line) := fun _ =>
  ⟨rfl, (List.sublist_append_right _ _).subperm, [line], rfl, by simpa using h⟩

theorem change {f : Board → Board} (hplayed : ∀ b, (f b).played = b.played)
    (hstock : ∀ b, (f b).stock.Subperm (air ++ b.stock)) : Spends air (Play.change f) := fun s =>
  ⟨hplayed _, hstock _, [], by simp [Play.change], by simp⟩

theorem mono {air' : List Card} {x : Play α} (h : Spends air x) (hair : air.Subperm air') :
    Spends air' x := fun s =>
  ⟨(h s).played, (h s).stock.trans ((List.subperm_append_right _).2 hair), (h s).log⟩

/-- The first step leaves cards in the air, the rest of the play puts them down. -/
theorem bind {air' : List Card} {x : Play α} {f : α → Play β} (hx : Spends air x)
    (hf : ∀ a, Spends air' (f a)) : Spends (air' ++ air) (x >>= f) := by
  intro s
  show Spent _ s (Play.bind x f s).2
  have h := hx s
  unfold Play.bind
  revert h
  generalize x s = p
  intro h
  obtain ⟨r, s'⟩ := p
  cases r with
  | error e =>
      exact ⟨h.played, h.stock.trans (by rw [List.append_assoc]; exact
        (List.sublist_append_right air' _).subperm), h.log⟩
  | ok a => exact h.trans (hf a s')

theorem bind_nil {x : Play α} {f : α → Play β} (hx : Spends [] x) (hf : ∀ a, Spends air (f a)) :
    Spends air (x >>= f) := by
  have h := bind hx hf
  rwa [List.append_nil] at h

theorem bind_last {x : Play α} {f : α → Play β} (hx : Spends air x) (hf : ∀ a, Spends [] (f a)) :
    Spends air (x >>= f) := bind hx hf

/-- Cards are drawn into the air. -/
theorem draw {n : Int} {f : List Card → Play α} (hf : ∀ cards, Spends cards (f cards)) :
    Spends [] (Play.draw n >>= f) := by
  intro s
  show Spent _ s (Play.bind (Play.draw n) f s).2
  simp only [Play.bind, Play.draw]
  rcases s.board.draw_cases n with ⟨cards, deck, hdraw, hdeck⟩ | hdraw
  · have h := hf cards ⟨{ s.board with deck := deck }, s.log⟩
    simp only [hdraw]
    refine ⟨h.played, h.stock.trans (List.Perm.subperm ?_), h.log⟩
    exact (List.perm_append_comm_assoc cards s.board.hand deck).trans (hdeck.append_left _)
  · simp only [hdraw]
    refine ⟨rfl, ?_, [], by simp, by simp⟩
    simp only [Board.stock, List.append_nil, List.nil_append]
    exact (List.sublist_append_left _ _).subperm

theorem orElse {x : Play α} {f : Fault → Option (Play α)} (hx : Spends [] x)
    (hf : ∀ e, ∀ y ∈ f e, Spends [] y) : Spends [] (x.orElse f) := by
  intro s
  have h := hx s
  unfold Play.orElse
  revert h
  generalize x s = p
  intro h
  obtain ⟨r, s'⟩ := p
  cases r with
  | ok a => exact h
  | error e =>
      dsimp only
      cases hy : f e with
      | none => exact h
      | some y => exact h.trans (hf e y hy s')

end Spends

theorem isPlayLine_freeLine (card : Card) (text : String) : IsPlayLine (freeLine card text) := by
  have h := isPlayLine_append (" " ++ card.name ++ text)
  rw [← String.append_assoc, ← String.append_assoc] at h
  exact h

theorem spends_sayIf {air : List Card} (reason : Bool) {line : String} (h : IsPlayLine line) :
    Spends air (sayIf reason line) := by
  cases reason with
  | true => exact .say h
  | false => exact .pure _

theorem spends_ifAny {α : Type} (a : Option α) {f : α → Play Unit} (h : ∀ x, Spends [] (f x)) :
    Spends [] (ifAny a f) := by
  cases a with
  | some x => exact h x
  | none => exact .pure _

theorem spends_giveUp (card : Card) (reason : String) (banished : Bool) (cards : List Card) :
    Spends [] (giveUp card reason banished cards) := by
  have hout : ∀ b : Board, (without b.hand cards ++ b.deck).Subperm b.stock := fun b =>
    ((without_sublist _ _).append_right _).subperm
  cases banished with
  | true => exact .bind_nil (.change (fun _ => rfl) hout) fun _ => .say (isPlayLine_freeLine _ _)
  | false => exact .bind_nil (.change (fun _ => rfl) hout) fun _ => .say (isPlayLine_freeLine _ _)

/-- Banished cards are left in the air as far as the stock goes. -/
theorem spends_banish {air : List Card} (card : Card) (cards : List Card) (text : String) :
    Spends air (change (·.banish cards) >>= fun _ => say (freeLine card text)) :=
  .bind_last (.change (fun _ => rfl) fun _ => (List.sublist_append_right _ _).subperm)
    fun _ => .say (isPlayLine_freeLine _ _)

theorem spends_payCost (aim : Aim) (card : Card) (cost : Cost) : Spends [] (payCost aim card cost) := by
  obtain ⟨kind, price⟩ := cost
  have hhand : Spends [] (payFromHand aim card kind price) := by
    refine .bind_nil .board fun b => ?_
    cases price with
    | named names => exact .bind_nil (.ranked _ _) fun cards => spends_giveUp _ _ _ _
    | amount n => exact .bind_nil (.ranked _ _) fun cards => spends_giveUp _ _ _ _
  cases kind with
  | payLife => exact .say (isPlayLine_freeLine _ _)
  | banishFromDeck =>
      cases price with
      | named names => exact .stop _
      | amount n => exact .draw fun cards => spends_banish card cards _
  | banishFromHand => exact hhand
  | discard => exact hhand

/-- Some of the cards in the air come to the end of the hand. -/
theorem spends_append {air cards : List Card} (air' : List Card) (h : (air' ++ cards).Subperm air) {α : Type}
    {f : Unit → Play α} (hf : ∀ u, Spends air' (f u)) :
    Spends air (change (fun b => { b with hand := b.hand ++ cards }) >>= f) := by
  refine Spends.mono (.bind (.change (fun _ => rfl) fun b => List.Perm.subperm ?_) hf) h
  simp only [Board.stock]
  rw [← List.append_assoc]
  exact List.perm_append_comm.append_right _

theorem spends_drawCards (card : Card) (n : Int) : Spends [] (drawCards card n) := by
  unfold drawCards
  split
  · refine .draw fun cards => spends_append [] ?_ fun _ => .say (isPlayLine_freeLine _ _)
    exact (List.Perm.refl cards).subperm
  · exact .pure _

/-- Ranking is no step of its own. -/
theorem ranked_bind {α : Type} (wanted : List String) (cards : List Card) (f : List Card → Play α) :
    (ranked (.ok wanted) cards >>= f) = f (byUsefulness wanted cards) := rfl

theorem spends_dig (aim : Aim) (card : Card) (count pick : Int) :
    Spends [] (dig aim card count pick) := by
  refine .draw fun revealed => ?_
  cases aim with
  | error f => exact .stop f
  | ok wanted =>
      rw [ranked_bind]
      refine spends_append (otherCards pick (byUsefulness wanted revealed)) ?_ fun _ => ?_
      · refine (List.perm_append_comm.trans ?_).subperm
        rw [firstCards_append_otherCards]
        exact byUsefulness_perm wanted revealed
      · refine .bind_last (.change (fun _ => rfl) fun b => List.Perm.subperm ?_) fun _ =>
          .say (isPlayLine_freeLine _ _)
        exact List.perm_append_comm_assoc _ _ _

theorem spends_excavate (aim : Aim) (card : Card) (rule : Excavation) :
    Spends [] (excavate aim card rule) := by
  refine .bind_nil .board fun b => .bind_nil (spends_sayIf _ ?_) fun _ => spends_dig _ _ _ _
  have h := isPlayLine_append (" WARN " ++ card.name ++ " excavate " ++ Number.text rule.count ++
    " with only " ++ Number.text b.deck.length ++ " cards in deck")
  simpa [← String.append_assoc] using h

theorem spends_sufferOrForfeit (aim : Aim) (card : Card) (a : Aftermath) :
    Spends [] (sufferOrForfeit aim card a) := by
  obtain ⟨kind, toll⟩ := a
  have hhand : Spends [] (tollFromHand aim card kind toll) := by
    refine .bind_nil .board fun b => .bind_nil (.ranked _ _) fun cards => ?_
    cases toll with
    | amount n =>
        dsimp only
        split
        · exact .stop _
        · exact spends_giveUp _ _ _ _
    | named s =>
        dsimp only
        split
        · exact spends_giveUp _ _ _ _
        · exact .stop _
  have hdeck : Spends [] (tollFromDeck card toll) := by
    refine .bind_nil .board fun b => ?_
    cases toll with
    | named s => exact .stop _
    | amount n =>
        dsimp only
        split
        · exact .stop _
        · exact .draw fun cards => spends_banish card cards _
  have hsuffer : Spends [] (suffer aim card ⟨kind, toll⟩) := by
    cases kind with
    | banishFromDeck => exact hdeck
    | discard => exact hhand
    | banishFromHand => exact hhand
  refine hsuffer.orElse fun f y hy => ?_
  obtain ⟨-, hy⟩ := Option.ite_none_right_eq_some.1 (Option.mem_def.1 hy)
  obtain rfl := Option.some.inj hy
  refine .bind_nil (.say ?_) fun _ => .change (fun _ => rfl) fun b => ?_
  · have h := isPlayLine_append (" WARN " ++ card.name ++ " post condition failed (" ++ f.message ++
      "); hand discarded")
    simpa [← String.append_assoc] using h
  · exact ((without_sublist _ _).append_right _).subperm

/-- **The effect of a card only spends what is in stock.** -/
theorem spends_resolve (aim : Aim) (card : Card) (e : Effect) : Spends [] (resolve aim card e) := by
  refine .bind_nil (spends_ifAny _ fun c => spends_payCost aim card c) fun _ => ?_
  refine .bind_nil (spends_drawCards card e.draws) fun _ => ?_
  refine .bind_nil (spends_ifAny _ fun x => spends_excavate aim card x) fun _ => ?_
  exact spends_ifAny _ fun a => spends_sufferOrForfeit aim card a

/-- What playing a card comes to: nothing but a line, or its effect once it has left the hand. -/
theorem playFree_eq (aim : Aim) (card : Card) (s : Scene) :
    (∃ lines, playFree aim card s = (.ok false, ⟨s.board, s.log ++ lines⟩) ∧
        ∀ l ∈ lines, IsPlayLine l) ∨
      ∃ e after, s.board.play? card = some after ∧ card.effect = some e ∧
        s.board.usable card = true ∧ playFree aim card s
          = (resolve aim card e >>= fun _ => pure true)
              ⟨after, s.log ++ ["[FREE] play " ++ card.name]⟩ := by
  obtain ⟨b, log⟩ := s
  unfold playFree
  simp only [bind, Play.bind, board]
  cases hplay : b.play? card with
  | none =>
      refine Or.inl ⟨["[FREE] WARN " ++ card.name ++ " is not in hand"], rfl, ?_⟩
      have h := isPlayLine_append (" WARN " ++ card.name ++ " is not in hand")
      simpa [← String.append_assoc] using h
  | some after =>
      cases he : card.effect with
      | none => exact Or.inl ⟨[], by simp [pure, Play.pure], by simp⟩
      | some e =>
          cases hu : b.usable card with
          | false => exact Or.inl ⟨[], by simp [pure, Play.pure], by simp⟩
          | true => exact Or.inr ⟨e, after, rfl, rfl, rfl, rfl⟩

theorem spends_resolve_true (aim : Aim) (card : Card) (e : Effect) :
    Spends [] (resolve aim card e >>= fun _ => pure true) :=
  .bind_nil (spends_resolve aim card e) fun _ => .pure _

/-- **A card that is played leaves the stock**, and nothing comes to it. -/
theorem stock_of_playFree {aim : Aim} {card : Card} {s s' : Scene}
    (h : playFree aim card s = (.ok true, s')) :
    card.isIn s.board.hand = true ∧ card.isFree = true ∧ s.board.usable card = true ∧
      s'.board.played = s.board.played ++ [card] ∧
      s'.board.stock.Subperm (without s.board.hand [card] ++ s.board.deck) := by
  rcases playFree_eq aim card s with ⟨lines, hno, -⟩ | ⟨e, after, hplay, he, hu, hplayed⟩
  · rw [h] at hno
    simp at hno
  · rw [h] at hplayed
    have hspent := spends_resolve_true aim card e
      ⟨after, s.log ++ ["[FREE] play " ++ card.name]⟩
    rw [← hplayed] at hspent
    obtain ⟨hin, hafter⟩ := Option.ite_none_right_eq_some.1 hplay
    obtain rfl := Option.some.inj hafter
    exact ⟨hin, by rw [Card.isFree, he]; rfl, hu, hspent.played, hspent.stock⟩

/-- Whatever comes of it, a card that one tries to play adds lines of free cards to the log. -/
theorem log_playFree (aim : Aim) (card : Card) (s : Scene) :
    ∃ lines, (playFree aim card s).2.log = s.log ++ lines ∧ ∀ l ∈ lines, IsPlayLine l := by
  rcases playFree_eq aim card s with ⟨lines, hno, hlines⟩ | ⟨e, after, -, -, -, hplayed⟩
  · exact ⟨lines, by rw [hno], hlines⟩
  · obtain ⟨lines, hlog, hlines⟩ := (spends_resolve_true aim card e
      ⟨after, s.log ++ ["[FREE] play " ++ card.name]⟩).log
    refine ⟨("[FREE] play " ++ card.name) :: lines, by rw [hplayed, hlog]; simp, ?_⟩
    intro l hl
    rcases List.mem_cons.1 hl with rfl | hl
    · have h := isPlayLine_append (" play " ++ card.name)
      rwa [← String.append_assoc] at h
    · exact hlines l hl

end Play

end OpeningHand
