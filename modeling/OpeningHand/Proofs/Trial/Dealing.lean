import OpeningHand.Trial.Run
import OpeningHand.Proofs.Card.Documents
import OpeningHand.Proofs.Play.Losses
import OpeningHand.Proofs.Search.Completeness
import OpeningHand.Proofs.Search.Legality

/-!
# What is dealt

A trial begins in four steps: the deck list is written out card by card, fillers are added up to the size of the deck,
the template is copied, and the copy is shuffled and the hand drawn from its top. None of them loses a card or
doubles one. The copy renames the cards, one identity for one identity and all of them later than those of the
template; the shuffle reorders; and the draw takes from the deck what it puts into the hand, because it asks for no more
cards than there are. So the board that is dealt holds the template's cards in hand and deck, whatever the numbers
drawn in the shuffle (`Board.DealtFrom`, `deal_dealtFrom`).

The template itself is left as it is: all trials of a run are dealt from the same cards
(`Settings.dealtFrom_template`).
-/

namespace OpeningHand

open Card

/-! ### The template -/

namespace DeckList

/-- The face of the cards that an entry asks for. -/
def faceOf (e : String × DeckEntry) : String × List Value × Option Effect :=
  (e.1, e.2.tags.map .text, e.2.effect)

theorem faces_cons (e : String × DeckEntry) (deck : DeckList) :
    faces (e :: deck) = List.replicate e.2.copies.toNat (faceOf e) ++ deck.faces := rfl

/-- The number of cards that a deck list asks for. A negative number of copies is none. -/
def listed (deck : DeckList) : Int := (deck.map fun e => max 0 e.2.copies).sum

theorem listed_cons (e : String × DeckEntry) (deck : DeckList) :
    listed (e :: deck) = max 0 e.2.copies + deck.listed := List.sum_cons

theorem length_faces (deck : DeckList) : (deck.faces.length : Int) = deck.listed := by
  induction deck with
  | nil => rfl
  | cons e deck ih =>
      rw [faces_cons, List.length_append, List.length_replicate, listed_cons, ← ih]
      omega

end DeckList

theorem map_face_cardsFrom (n : Nat) (faces : List (String × List Value × Option Effect)) :
    (cardsFrom n faces).map face = faces := by
  induction faces generalizing n with
  | nil => rfl
  | cons f faces ih => rw [cardsFrom, List.map_cons, ih]; rfl

/-- The listed cards come first, in the order of the deck list, and then the fillers. -/
theorem map_face_template (deck : DeckList) (size : Int) (fillerName : String) (fillerTags : List Value) :
    (template deck size fillerName fillerTags).map face =
      (deck.flatMap fun e => List.replicate e.2.copies.toNat (DeckList.faceOf e)) ++
        List.replicate (size - deck.listed).toNat (fillerName, fillerTags, none) := by
  rw [template, map_face_cardsFrom, ← DeckList.length_faces]
  rfl

theorem map_id_cardsFrom (n : Nat) (faces : List (String × List Value × Option Effect)) :
    (cardsFrom n faces).map (·.id) = (List.range' n faces.length).map fun i => ⟨i, 0⟩ := by
  induction faces generalizing n with
  | nil => rfl
  | cons f faces ih => rw [cardsFrom, List.map_cons, ih]; rfl

/-- The cards of a template are numbered in order. -/
theorem allDifferent_cardsFrom (n : Nat) (faces : List (String × List Value × Option Effect)) :
    AllDifferent (cardsFrom n faces) := by
  rw [AllDifferent, map_id_cardsFrom]
  exact (List.nodup_range' 1).map fun i j h => (CardId.mk.inj h).1

/-! ### The deal -/

namespace Board

/-- A copy has the same faces in hand and deck. -/
theorem map_face_copy (b : Board) :
    (b.copy.hand ++ b.copy.deck).map face = (b.hand ++ b.deck).map face := by
  have hstock : b.copy.hand ++ b.copy.deck = (b.hand ++ b.deck).map (Card.rename b.shifted) := List.map_append.symm
  rw [hstock, map_face_rename]

/-- The board holds the cards of a template in hand and deck, so many of them in the hand as were asked for or as there
are, and no card of the template itself. -/
structure DealtFrom (b : Board) (cards : List Card) (handSize : Int) : Prop where
  faces : ((b.hand ++ b.deck).map face).Perm (cards.map face)
  hand : (b.hand.length : Int) = max 0 (min handSize cards.length)
  piles : b.banished = [] ∧ b.graveyard = [] ∧ b.played = []
  different : AllDifferent b.cards
  new : ∀ c ∈ b.cards, ∀ d ∈ cards, c.id ≠ d.id

/-- Every card of the board is of a later edition than all of some cards. -/
def LaterThan (b : Board) (cards : List Card) : Prop := ∀ c ∈ b.cards, ∀ d ∈ cards, d.id.edition < c.id.edition

/-- A copy of a board that is dealt is dealt. -/
theorem DealtFrom.copy {b : Board} {cards : List Card} {handSize : Int} (h : b.DealtFrom cards handSize)
    (hlater : b.LaterThan cards) : b.copy.DealtFrom cards handSize where
  faces := b.map_face_copy ▸ h.faces
  hand := by
    rw [copy_eq, map, List.length_map]
    exact h.hand
  piles := by simp [copy_eq, map, h.piles]
  different := by
    rw [copy_eq, cards_map]
    exact h.different.rename b.shifted_injective
  new c hc d hd heq := by
    rw [copy_eq, cards_map] at hc
    obtain ⟨c', hc', rfl⟩ := List.mem_map.1 hc
    have hlt := hlater c' hc' d hd
    rw [← heq] at hlt
    exact absurd hlt (Nat.not_lt.2 (Nat.le_add_right _ _))

end Board

/-- A deal draws the hand from the top of a reordered copy of the template, never more cards than there are. -/
theorem exists_shuffled (cards : List Card) (t : Twister) : ∃ shuffled : List Card,
    shuffled.Perm (cards.map (rename (Board.ofDeck cards).shifted)) ∧ ∀ handSize,
      deal cards t handSize = ((Board.ofDeck shuffled).drawHand (min handSize cards.length)).2 := by
  have hperm := shuffle_perm (cards.map (rename (Board.ofDeck cards).shifted)) t
  have hlength := hperm.length_eq
  rw [List.length_map] at hlength
  refine ⟨_, hperm, fun handSize => ?_⟩
  rw [← hlength]
  rfl

/-- What is dealt, put together, is the copied template in another order. -/
theorem deal_eq (cards : List Card) (t : Twister) (handSize : Int) :
    ∃ hand rest, deal cards t handSize = ⟨rest, hand, [], [], []⟩ ∧
      (hand ++ rest).Perm (cards.map (rename (Board.ofDeck cards).shifted)) ∧
      hand.length = (min handSize cards.length).toNat := by
  obtain ⟨shuffled, hperm, hdeal⟩ := exists_shuffled cards t
  have hlength := hperm.length_eq
  rw [List.length_map] at hlength
  have hle : min handSize cards.length ≤ (Board.ofDeck shuffled).deck.length :=
    hlength ▸ min_le_right handSize cards.length
  obtain ⟨rest, hand, hdraw, hdeck, hn⟩ := Board.drawHand_of_le hle
  refine ⟨hand, rest, (hdeal handSize).trans (congrArg Prod.snd hdraw), List.Perm.trans ?_ hperm, hn⟩
  rw [show shuffled = rest ++ hand.reverse from hdeck]
  exact List.perm_append_comm.trans ((List.reverse_perm hand).symm.append_left rest)

/-- **What is dealt.** -/
theorem deal_dealtFrom {cards : List Card} (h : AllDifferent cards) (t : Twister) (handSize : Int) :
    (deal cards t handSize).DealtFrom cards handSize ∧ (deal cards t handSize).LaterThan cards := by
  obtain ⟨hand, rest, hdeal, hperm, hlength⟩ := deal_eq cards t handSize
  have hcards : (deal cards t handSize).cards.Perm (cards.map (rename (Board.ofDeck cards).shifted)) := by
    rw [hdeal]
    refine List.Perm.trans ?_ hperm
    simp only [Board.cards, List.append_nil]
    exact List.perm_append_comm
  have hlater : (deal cards t handSize).LaterThan cards := by
    intro c hc d hd
    obtain ⟨c, -, rfl⟩ := List.mem_map.1 (hcards.subset hc)
    have hlt : d.id.edition < (Board.ofDeck cards).nextEdition :=
      Board.edition_lt (by simpa [Board.cards, Board.ofDeck] using hd)
    exact hlt.trans_le (Nat.le_add_left _ _)
  refine ⟨⟨?_, ?_, ?_, ?_, ?_⟩, hlater⟩
  · rw [hdeal]
    refine (hperm.map face).trans ?_
    rw [map_face_rename]
  · rw [hdeal]
    dsimp only
    rw [hlength]
    omega
  · rw [hdeal]
    exact ⟨rfl, rfl, rfl⟩
  · exact (h.rename (Board.shifted_injective _)).perm hcards.symm
  · intro c hc d hd heq
    have hlt := hlater c hc d hd
    rw [heq] at hlt
    exact lt_irrefl _ hlt

/-! ### Trials -/

namespace Settings

variable {settings : Settings} {size handSize : Int} {fillerName : String} {fillerTags : List Value}

theorem sizeFor_of_int (hsize : settings .deckSize = .int size) (listed : Nat) :
    settings.sizeFor listed = .ok size := by
  unfold sizeFor
  rw [hsize]
  rfl

/-- Texts are taken as tags as they are. -/
theorem tagsOfFiller_of_texts {tags : List String} (htags : settings .fillerTags = .list (tags.map .text)) :
    settings.tagsOfFiller = .ok (tags.map .text) := by
  have hopened : (tags.map Value.text).map Value.opened = tags.map .text := by
    rw [List.map_map]
    rfl
  have hfirst : ∀ t ∈ tags.map Value.text, ((tags.map Value.text).find? (·.same t)).getD t = t := by
    intro t ht
    obtain ⟨s, -, rfl⟩ := List.mem_map.1 ht
    cases hfind : (tags.map Value.text).find? (·.same (.text s)) with
    | none => rfl
    | some v =>
        have hsame := List.find?_some hfind
        obtain ⟨s', -, rfl⟩ := List.mem_map.1 (List.mem_of_find?_eq_some hfind)
        rw [Value.same, beq_iff_eq] at hsame
        exact congrArg Value.text hsame
  have hitems : (settings .fillerTags).toItems = .ok (tags.map .text) := by
    rw [htags]
    exact congrArg Except.ok hopened
  rw [tagsOfFiller, hitems]
  refine congrArg Except.ok ?_
  rw [List.map_congr_left hfirst, List.map_id']

theorem template_eq_ok (hsize : settings .deckSize = .int size) (hname : settings .fillerName = .text fillerName)
    (htags : settings.tagsOfFiller = .ok fillerTags) (deck : DeckList) :
    settings.template deck = .ok (OpeningHand.template deck size fillerName fillerTags) := by
  rw [Settings.template, htags, sizeFor_of_int hsize, hname]
  rfl

/-- To ask for more cards than there are is to ask for all of them. -/
theorem deal_of_handFrom (hhand : settings .handSize = .int handSize) {cards : List Card} {hand : Int}
    (h : settings.handFrom cards.length = .ok hand) (t : Twister) : deal cards t hand = deal cards t handSize := by
  have hmin : min hand cards.length = min handSize cards.length := by
    unfold handFrom at h
    rw [hhand, Value.isMoreThan_int] at h
    obtain ⟨more, hmore, h⟩ := bind_eq_ok.1 h
    obtain rfl := Except.ok.inj hmore
    split at h
    · rename_i hlt
      obtain rfl := Except.ok.inj h
      have hlt := of_decide_eq_true hlt
      omega
    · obtain rfl := Except.ok.inj h
      rfl
  obtain ⟨shuffled, -, hdeal⟩ := exists_shuffled cards t
  rw [hdeal, hdeal, hmin]

end Settings

namespace Simulation

variable {caps : Caps} {opening : Board} {s : Simulation}

/-- Drafts that are all sound are searched as conditions. -/
theorem run_of_runDrafts {drafts : List Draft} (h : runDrafts opening drafts caps = .ok s) :
    run opening (soundPart drafts).1 caps = .ok s := by
  unfold runDrafts at h
  dsimp only at h
  obtain ⟨s', hs', h⟩ := bind_eq_ok.1 h
  split at h
  · cases h
  · obtain rfl := Except.ok.inj h
    exact hs'

end Simulation

/-- A trial searches on a copy of what is dealt from the template. -/
theorem of_runTrial {template : List Card} {listed : Nat} {drafts : List Draft} {seed : Int} {settings : Settings}
    {s : Simulation} (h : runTrial template listed drafts seed settings = .ok s) : ∃ hand s' log,
      settings.handFrom template.length = .ok hand ∧
      Simulation.run (deal template (.ofSeed seed) hand) (Simulation.soundPart drafts).1 settings.caps = .ok s' ∧
      s = { s' with log := log } := by
  unfold runTrial at h
  obtain ⟨hand, hhand, h⟩ := bind_eq_ok.1 h
  obtain ⟨_, -, h⟩ := bind_eq_ok.1 h
  obtain ⟨s', hs', h⟩ := bind_eq_ok.1 h
  obtain ⟨_, -, h⟩ := bind_eq_ok.1 h
  exact ⟨hand, s', _, hhand, Simulation.run_of_runDrafts hs', (Except.ok.inj h).symm⟩

/-- What a run comes to: its trials are on one template and differ in their seeds alone. -/
theorem runTrialsWith_eq_ok {deck : DeckList} {drafts : List Draft} {settings : Settings} {sims : List Simulation} :
    runTrialsWith deck drafts settings = .ok sims ↔ ∃ template seeds, settings.template deck = .ok template ∧
      trialSeeds settings = .ok seeds ∧ settings.checkWorkers = .ok () ∧
      (seeds.mapM fun (seed : Nat) => runTrial template deck.faces.length drafts seed settings) = .ok sims := by
  rw [runTrialsWith, bind_eq_ok]
  constructor
  · rintro ⟨template, htemplate, h⟩
    obtain ⟨seeds, hseeds, h⟩ := bind_eq_ok.1 h
    obtain ⟨_, hworkers, hsims⟩ := bind_eq_ok.1 h
    exact ⟨template, seeds, htemplate, hseeds, hworkers, hsims⟩
  · rintro ⟨template, seeds, htemplate, hseeds, hworkers, hsims⟩
    exact ⟨template, htemplate, bind_eq_ok.2 ⟨seeds, hseeds, bind_eq_ok.2 ⟨(), hworkers, hsims⟩⟩⟩

/-- All trials of a run are on one template. -/
theorem of_runTrialsWith {deck : DeckList} {drafts : List Draft} {settings : Settings} {sims : List Simulation}
    (h : runTrialsWith deck drafts settings = .ok sims) : ∃ template, settings.template deck = .ok template ∧
      ∀ s ∈ sims, ∃ seed : Nat, runTrial template deck.faces.length drafts seed settings = .ok s := by
  obtain ⟨template, seeds, htemplate, -, -, hsims⟩ := runTrialsWith_eq_ok.1 h
  refine ⟨template, htemplate, fun s hs => ?_⟩
  obtain ⟨seed, -, hseed⟩ := exists_of_mem_mapM hsims s hs
  exact ⟨seed, hseed⟩

namespace Settings

/-- **Setting up trials neither loses nor doubles a card.** The template holds the listed copies in order, and after
them as many fillers as are missing. Whatever the shuffle draws, a board that is dealt has the template's cards in
hand and deck, the hand has as many cards as were asked for and as there are, the piles are empty, all cards are
different, and none of them is one of the template. All trials of a run are dealt from this template, in this
order. -/
theorem dealtFrom_template {settings : Settings} {size : Int} {fillerName : String} {fillerTags : List Value}
    (hsize : settings .deckSize = .int size) (hname : settings .fillerName = .text fillerName)
    (htags : settings.tagsOfFiller = .ok fillerTags) (deck : DeckList) (handSize : Int) :
    ∃ cards, settings.template deck = .ok cards ∧
      cards.map face = (deck.flatMap fun e => List.replicate e.2.copies.toNat (DeckList.faceOf e)) ++
        List.replicate (size - deck.listed).toNat (fillerName, fillerTags, none) ∧
      AllDifferent cards ∧
      (∀ t, (deal cards t handSize).DealtFrom cards handSize) ∧
      (settings .handSize = .int handSize → ∀ drafts sims, runTrialsWith deck drafts settings = .ok sims →
        ∀ s ∈ sims, s.opening.DealtFrom cards handSize ∧
          ∃ seed : Nat, s.opening = (deal cards (.ofSeed seed) handSize).copy) := by
  have htemplate := template_eq_ok hsize hname htags deck
  have hdifferent : AllDifferent (OpeningHand.template deck size fillerName fillerTags) := allDifferent_cardsFrom _ _
  refine ⟨_, htemplate, map_face_template .., hdifferent, fun t => (deal_dealtFrom hdifferent t handSize).1,
    fun hhand drafts sims hsims s hs => ?_⟩
  obtain ⟨cards, hcards, hall⟩ := of_runTrialsWith hsims
  obtain rfl := Except.ok.inj (htemplate.symm.trans hcards)
  obtain ⟨seed, hseed⟩ := hall s hs
  obtain ⟨hand, s', log, hhandFrom, hrun, rfl⟩ := of_runTrial hseed
  have hopening : s'.opening = (deal _ (.ofSeed seed) handSize).copy :=
    deal_of_handFrom hhand hhandFrom _ ▸ Simulation.opening_of_run hrun
  obtain ⟨hdealt, hlater⟩ := deal_dealtFrom hdifferent (.ofSeed seed) handSize
  exact ⟨hopening ▸ hdealt.copy hlater, seed, hopening⟩

/-- Three cards of which one is listed, with a hand of two: an entry with a negative number of copies lists none. -/
theorem dealtFrom_template_three :
    let settings := (default.set .deckSize (.int 3)).set .fillerTags (.list [.text "Blank"])
    let deck : DeckList := [("A", ⟨1, ["Starter"], none⟩), ("B", ⟨-1, [], none⟩)]
    ∃ cards, settings.template deck = .ok cards ∧
      cards.map face = [("A", [.text "Starter"], none), ("Empty Card", [.text "Blank"], none),
        ("Empty Card", [.text "Blank"], none)] ∧
      ∀ t, (deal cards t 2).hand.length = 2 ∧
        (((deal cards t 2).hand ++ (deal cards t 2).deck).map face).Perm (cards.map face) := by
  intro settings deck
  have htags : settings .fillerTags = .list (["Blank"].map .text) := rfl
  obtain ⟨cards, hcards, hfaces, -, hdealt, -⟩ :=
    dealtFrom_template (by rfl : settings .deckSize = .int 3) rfl (tagsOfFiller_of_texts htags) deck 2
  refine ⟨cards, hcards, hfaces, fun t => ⟨?_, (hdealt t).faces⟩⟩
  have hhand := (hdealt t).hand
  have hlength : cards.length = 3 := by rw [← List.length_map face, hfaces]; rfl
  rw [hlength] at hhand
  exact Int.ofNat_inj.1 hhand

end Settings

end OpeningHand
