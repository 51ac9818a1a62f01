import OpeningHand.DeckFile.Csv
import OpeningHand.Proofs.DeckFile.Json

/-!
# Decks from tables, by the rules of documents

A card comes out of a table cell by cell, out of a document field by field, and the two readers have rules of their own.
An entry is fit for a document if the reader of documents takes what is written for it, and gives the same entry back.
Tags and effects always are: whatever a cell lists as tags is a list of texts, and the effect in a cell is read from JSON
by the same reader. The number of copies need not be. A document must give a natural number, while a cell may hold any
number, of which the fraction is dropped; so a table can bring an entry with fewer than no copies, and it is the only kind
of entry that is refused later (`DeckFile.rules_of_ofCsv`).
-/

namespace OpeningHand

/-- A reading item by item stops with the first fault. -/
theorem mapM_eq_error {α β : Type} {f : α → Except Fault β} {before after : List α} {a : α} {e : Fault}
    (hbefore : ∀ b ∈ before, ∃ c, f b = .ok c) (h : f a = .error e) : (before ++ a :: after).mapM f = .error e := by
  induction before with
  | nil => rw [List.nil_append, List.mapM_cons, h]; rfl
  | cons b before ih =>
      obtain ⟨⟨c, hc⟩, hbefore⟩ := List.forall_mem_cons.1 hbefore
      rw [List.cons_append, List.mapM_cons, hc, ih hbefore]
      rfl

theorem DeckEntry.ofValue_toValue_of_neg (card : String) {e : DeckEntry} (h : e.copies < 0) :
    ofValue card e.toValue = .error (.copies card (Number.text e.copies)) :=
  bind_eq_error.2 (Or.inl (if_neg (Int.not_le.2 h)))

/-- An entry is fit for a document exactly if its number of copies is a natural number. -/
theorem DeckEntry.ofValue_toValue_iff (card : String) (e : DeckEntry) :
    ofValue card e.toValue = .ok e ↔ 0 ≤ e.copies := by
  refine ⟨fun h => ?_, ofValue_toValue card⟩
  by_contra hneg
  cases (ofValue_toValue_of_neg card (Int.not_le.1 hneg)).symm.trans h

/-- The document of a deck is refused for its first entry with fewer than no copies. -/
theorem DeckList.ofValue_toValue_of_neg {deck before after : DeckList} {e : String × DeckEntry}
    (h : deck.withoutFiller = before ++ e :: after) (hbefore : ∀ d ∈ before, 0 ≤ d.2.copies) (he : e.2.copies < 0) :
    ofValue deck.toValue = .error (.copies e.1 (Number.text e.2.copies)) := by
  have hread : (Entries.named (deck.withoutFiller.map fun e => (e.1, e.2.toValue))).mapM
      (fun e => do pure (e.1.shown, ← DeckEntry.ofValue e.1.shown e.2.opened)) =
        .error (.copies e.1 (Number.text e.2.copies)) := by
    rw [Entries.named, List.map_map, h, List.map_append, List.map_cons]
    refine mapM_eq_error (fun b hb => ?_) (bind_eq_error.2 (Or.inl (DeckEntry.ofValue_toValue_of_neg e.1 he)))
    obtain ⟨d, hd, rfl⟩ := List.mem_map.1 hb
    exact ⟨d, bind_eq_ok.2 ⟨d.2, DeckEntry.ofValue_toValue d.1 (hbefore d hd), rfl⟩⟩
  exact bind_eq_error.2 (Or.inl hread)

namespace DeckFile

variable {t : Csv.Table} {f : DeckFile}

/-! ### What a table gives -/

/-- The card of a row, cell by cell. -/
theorem cardOfRow_eq_some {row : Nat} {e : String × DeckEntry} :
    cardOfRow t row = .ok (some e) ↔ t.cell "name" row = e.1 ∧ e.1 ≠ "" ∧
      copiesOfCell e.1 (t.cell "qty" row) = .ok e.2.copies ∧ tagsOfCell (t.cell "tags" row) = e.2.tags ∧
      effectOfCell e.1 (t.cell "free" row) = .ok e.2.effect := by
  obtain ⟨name, copies, tags, effect⟩ := e
  unfold cardOfRow
  by_cases hname : t.cell "name" row = ""
  · simp only [hname, if_true]
    refine iff_of_false nofun ?_
    rintro ⟨rfl, hne, -⟩
    exact hne rfl
  · simp only [if_neg hname, bind_eq_ok, pure, Except.pure, Except.ok.injEq, Option.some.injEq, Prod.mk.injEq,
      DeckEntry.mk.injEq]
    constructor
    · rintro ⟨_, hcopies, _, heffect, rfl, rfl, rfl, rfl⟩
      exact ⟨rfl, hname, hcopies, rfl, heffect⟩
    · rintro ⟨rfl, -, hcopies, rfl, heffect⟩
      exact ⟨_, hcopies, _, heffect, rfl, rfl, rfl, rfl⟩

theorem isJson_of_effectOfCell {card cell : String} {x : Effect} (h : effectOfCell card cell = .ok (some x)) :
    x.toValue.IsJson := by
  unfold effectOfCell at h
  split at h
  · cases h
  · split at h
    · cases h
    · rename_i v hv
      split at h
      · rename_i x' hx
        obtain rfl := Option.some.inj (Except.ok.inj h)
        exact Effect.isJson_toValue (Effect.isJson_price_of_ofValue (Json.isJson_of_read? hv) hx)
      · split at h <;> cases h

theorem ofTable_eq_ok (h : ofTable t = .ok f) :
    ∃ cards, (List.range t.height).mapM (cardOfRow t) = .ok cards ∧ f = ⟨DeckList.ofList (cards.filterMap id),
      (((List.range t.height).map (t.cell "condition")).filter (· ≠ "")).map fun s => .document (.text s), .null⟩ := by
  unfold ofTable at h
  split at h
  · cases h
  · obtain ⟨cards, hcards, h⟩ := bind_eq_ok.1 h
    exact ⟨cards, hcards, (Except.ok.inj h).symm⟩

/-- What holds of a deck file that was read from a table. -/
structure FromCsv (f : DeckFile) : Prop where
  names : (f.deck.map (·.1)).Nodup
  effects : ∀ e ∈ f.deck, ∀ x ∈ e.2.effect, x.toValue.IsJson
  conditions : ∃ texts : List String, f.conditions = texts.map fun s => .document (.text s)
  deckName : f.deckName = .null

theorem fromCsv_of_ofCsv {text : String} (h : ofCsv text = .ok f) : f.FromCsv := by
  obtain ⟨t, -, h⟩ := bind_eq_ok.1 h
  obtain ⟨cards, hcards, rfl⟩ := ofTable_eq_ok h
  refine ⟨DeckList.nodup_ofList _, fun e he x hx => ?_, ⟨_, rfl⟩, rfl⟩
  obtain ⟨card, hcard, rfl⟩ := List.mem_filterMap.1 (DeckList.mem_of_mem_ofList he)
  obtain ⟨row, -, hrow⟩ := exists_of_mem_mapM hcards _ hcard
  obtain ⟨-, -, -, -, heffect⟩ := cardOfRow_eq_some.1 hrow
  rw [Option.mem_def.1 hx] at heffect
  exact isJson_of_effectOfCell heffect

/-! ### Its document -/

/-- The fields of a deck file's document, if it has no name. -/
def namelessFields (deck : DeckList) (texts : List String) : List (String × Value) :=
  [("deck", deck.toValue), ("conditions", .list (texts.map .text))]

theorem toJsonDocument_texts (deck : DeckList) (texts : List String) :
    toJsonDocument ⟨deck, texts.map fun s => .document (.text s), .null⟩ = .ok (.record (namelessFields deck texts)) := by
  have hgiven : (texts.map fun s => Given.document (.text s)).mapM Given.asGiven = .ok (texts.map .text) := by
    have hmap : (texts.map fun s => Given.document (.text s)) = (texts.map .text).map .document := List.map_map.symm
    rw [hmap]
    refine mapM_map_eq_ok fun v hv => ?_
    obtain ⟨s, -, rfl⟩ := List.mem_map.1 hv
    rfl
  exact bind_eq_ok.2 ⟨_, hgiven, rfl⟩

theorem ofJsonDocument_texts (deck : DeckList) (texts : List String) :
    ofJsonDocument (.record (namelessFields deck texts)) = (DeckList.ofValue deck.toValue).map fun deck =>
      ⟨deck, texts.map fun s => .document (.text s), .null⟩ := by
  have hdeck : Entries.get (Entries.named (namelessFields deck texts)) "deck" = deck.toValue := rfl
  have hconditions : (Entries.get (Entries.named (namelessFields deck texts)) "conditions").toItemsOrNone =
      .ok (texts.map .text) := by
    refine Value.toItemsOrNone_list fun v hv => ?_
    obtain ⟨s, -, rfl⟩ := List.mem_map.1 hv
    rfl
  have hname : Entries.get (Entries.named (namelessFields deck texts)) "deckName" = .null := rfl
  have hfields : ofJsonDocument (.record (namelessFields deck texts)) =
      ofFields (Entries.named (namelessFields deck texts)) := rfl
  rw [hfields, ofFields, hdeck, hconditions, hname]
  cases DeckList.ofValue deck.toValue with
  | error e => rfl
  | ok d => simp only [bind, Except.bind, pure, Except.pure, Except.map, List.map_map, Function.comp_def]

/-- **A deck from a table by the rules of documents.** Of a deck file that is read from a table, an entry is read back
from its document exactly if it has no fewer than no copies, and is refused for its number of copies otherwise. The deck
file can be written in JSON. What is written describes the deck file again exactly if all entries that are written are of
the first kind, and is refused for the first one that is not. -/
theorem rules_of_ofCsv {text : String} (h : ofCsv text = .ok f) :
    (∀ e ∈ f.deck, (DeckEntry.ofValue e.1 e.2.toValue = .ok e.2 ↔ 0 ≤ e.2.copies) ∧
      (e.2.copies < 0 → DeckEntry.ofValue e.1 e.2.toValue = .error (.copies e.1 (Number.text e.2.copies)))) ∧
    ∃ document, f.toJsonDocument = .ok document ∧ document.IsJson ∧
      (ofJsonDocument document = .ok ⟨f.deck.withoutFiller, f.conditions, .null⟩ ↔
        ∀ e ∈ f.deck.withoutFiller, 0 ≤ e.2.copies) ∧
      (∀ before e after, f.deck.withoutFiller = before ++ e :: after → (∀ d ∈ before, 0 ≤ d.2.copies) →
        e.2.copies < 0 → ofJsonDocument document = .error (.copies e.1 (Number.text e.2.copies))) ∧
      (Json.ReadsBack document → ∃ written, f.toJson = .ok written ∧ ofJson written = ofJsonDocument document) := by
  obtain ⟨hnames, heffects, ⟨texts, hconditions⟩, hname⟩ := fromCsv_of_ofCsv h
  obtain ⟨deck, conditions, deckName⟩ := f
  obtain rfl : conditions = _ := hconditions
  obtain rfl : deckName = .null := hname
  have hdocument := toJsonDocument_texts deck texts
  have hdeck : deck.toValue.IsJson :=
    DeckList.isJson_toValue_of_entries hnames fun e he => DeckEntry.isJson_toValue_of_effect (heffects e he)
  have hjson : (Value.record (namelessFields deck texts)).IsJson := by
    refine .map (by simp [namelessFields]) fun p hp => ?_
    rcases List.mem_cons.1 hp with rfl | hp
    · exact hdeck
    · obtain rfl := List.mem_singleton.1 hp
      exact .list (by simp [Value.IsJson.text])
  refine ⟨fun e _ => ⟨DeckEntry.ofValue_toValue_iff e.1 e.2, DeckEntry.ofValue_toValue_of_neg e.1⟩,
    _, hdocument, hjson, ⟨fun hread => ?_, fun hcopies => ?_⟩, fun before e after hsplit hbefore he => ?_, fun hback => ?_⟩
  · rw [ofJsonDocument_texts] at hread
    obtain ⟨deck', hread, -⟩ := map_eq_ok.1 hread
    by_contra hneg
    have hsome : (deck.withoutFiller.find? fun e => decide (e.2.copies < 0)).isSome := by
      simpa using hneg
    obtain ⟨e, hfirst⟩ := Option.isSome_iff_exists.1 hsome
    obtain ⟨he, before, after, hsplit, hbefore⟩ := List.find?_eq_some_iff_append.1 hfirst
    have hbefore : ∀ d ∈ before, 0 ≤ d.2.copies := fun d hd => by simpa using hbefore d hd
    cases (DeckList.ofValue_toValue_of_neg hsplit hbefore (of_decide_eq_true he)).symm.trans hread
  · rw [ofJsonDocument_texts, DeckList.ofValue_toValue hnames hcopies]
    rfl
  · rw [ofJsonDocument_texts, DeckList.ofValue_toValue_of_neg hsplit hbefore he]
    rfl
  · obtain ⟨written, hwritten⟩ := Json.exists_write hjson
    refine ⟨written, bind_eq_ok.2 ⟨_, hdocument, hwritten⟩, ?_⟩
    rw [ofJson, hback written hwritten]

/-- The first card has two copies, the second one minus one: the deck file is refused for the second one. -/
theorem rules_of_ofCsv_mixed : ∃ f document, ofCsv "name,qty,condition\nA,2,1+ A\nB,-1.5,\n" = .ok f ∧
    f.toJsonDocument = .ok document ∧ ofJsonDocument document = .error (.copies "B" "-1") := by
  have hread : ofCsv "name,qty,condition\nA,2,1+ A\nB,-1.5,\n" =
      .ok ⟨[("A", ⟨2, [], none⟩), ("B", ⟨-1, [], none⟩)], [.document (.text "1+ A")], .null⟩ := by decide +kernel
  obtain ⟨-, document, hdocument, -, -, hrefused, -⟩ := rules_of_ofCsv hread
  have hshown : Number.text (-1) = "-1" := by decide +kernel
  refine ⟨_, document, hread, hdocument, ?_⟩
  rw [← hshown]
  exact hrefused [("A", ⟨2, [], none⟩)] ("B", ⟨-1, [], none⟩) [] (by decide) (by decide) (by decide)

/-- **A table can bring an entry that no document may have.** It lists a card with minus one copy, and is read; the
entry's document is refused, and so is the deck file that is written for it. -/
theorem ofCsv_negative :
    ofCsv "name,qty\nA,-1\n" = .ok ⟨[("A", ⟨-1, [], none⟩)], [], .null⟩ ∧
      DeckEntry.ofValue "A" (DeckEntry.toValue ⟨-1, [], none⟩) = .error (.copies "A" "-1") ∧
      ∃ written, toJson ⟨[("A", ⟨-1, [], none⟩)], [], .null⟩ = .ok written ∧
        ofJson written = .error (.copies "A" "-1") :=
  ⟨by decide +kernel, by decide +kernel, map_eq_ok.1 (by decide +kernel)⟩

end DeckFile

end OpeningHand
