import OpeningHand.DeckFile.Json
import OpeningHand.Proofs.Card.Documents
import OpeningHand.Proofs.Json.RoundTrip
import Mathlib.Data.List.Nodup

/-!
# Deck files written in JSON and read back

A deck file that was read from JSON can be written in JSON, and what is written describes the same deck
file: the same entries in the same order, the same conditions as they came in, the same name
(`DeckFile.ofJson_toJson`). Two things are left out on the way: the blank cards that fill up the deck, and
a name that counts as false.

That the text of the document reads as the document (`Json.ReadsBack`) is a matter of the JSON reader and
writer alone. It holds of all documents but those with the two halves of a pair of surrogates as neighbours
in a text (`readsBack_document`): they are read as one character.
-/

namespace OpeningHand

/-! ### Decks -/

namespace DeckList

variable {deck : DeckList} {v : Value}

/-- An entry of a deck was read from an entry of the deck's document. -/
theorem exists_of_mem (h : ofValue v = .ok deck) {e : String × DeckEntry} (he : e ∈ deck) :
    ∃ entries, v = .map entries ∧
      ∃ f ∈ entries, e.1 = f.1.shown ∧ DeckEntry.ofValue f.1.shown f.2.opened = .ok e.2 := by
  unfold ofValue at h
  split at h
  · obtain rfl := Except.ok.inj h
    simp at he
  · rename_i entries
    obtain ⟨l, hl, h⟩ := bind_eq_ok.1 h
    obtain rfl := Except.ok.inj h
    obtain ⟨f, hf, hfe⟩ := exists_of_mem_mapM hl e (mem_of_mem_ofList he)
    obtain ⟨d, hd, hfe⟩ := bind_eq_ok.1 hfe
    obtain rfl := Except.ok.inj hfe
    exact ⟨entries, rfl, f, hf, rfl, hd⟩
  · cases h

theorem nodup_of_ofValue (h : ofValue v = .ok deck) : (deck.map (·.1)).Nodup := by
  unfold ofValue at h
  split at h
  · obtain rfl := Except.ok.inj h
    exact List.nodup_nil
  · obtain ⟨l, -, h⟩ := bind_eq_ok.1 h
    obtain rfl := Except.ok.inj h
    exact nodup_ofList l
  · cases h

theorem names_withoutFiller_nodup (h : (deck.map (·.1)).Nodup) :
    (deck.withoutFiller.map (·.1)).Nodup :=
  h.sublist (List.filter_sublist.map _)

theorem mem_of_mem_withoutFiller {e : String × DeckEntry} (he : e ∈ deck.withoutFiller) : e ∈ deck :=
  (List.mem_filter.1 he).1

/-- **A deck is read back from its document**, without the cards that fill it up. -/
theorem ofValue_toValue (hnames : (deck.map (·.1)).Nodup) (hcopies : ∀ e ∈ deck.withoutFiller, 0 ≤ e.2.copies) :
    ofValue deck.toValue = .ok deck.withoutFiller := by
  have hread : (Entries.named (deck.withoutFiller.map fun e => (e.1, e.2.toValue))).mapM
      (fun e => do pure (e.1.shown, ← DeckEntry.ofValue e.1.shown e.2.opened)) =
        .ok deck.withoutFiller := by
    rw [Entries.named, List.map_map]
    refine mapM_map_eq_ok fun e he => bind_eq_ok.2 ⟨e.2, ?_, rfl⟩
    exact DeckEntry.ofValue_toValue e.1 (hcopies e he)
  exact bind_eq_ok.2 ⟨_, hread, congrArg Except.ok (ofList_eq_self (names_withoutFiller_nodup hnames))⟩

/-- A deck can be written in JSON if each of its entries can. -/
theorem isJson_toValue_of_entries (hnames : (deck.map (·.1)).Nodup) (h : ∀ e ∈ deck, e.2.toValue.IsJson) :
    deck.toValue.IsJson := by
  refine .map ?_ fun f hf => ?_
  · rw [List.map_map]
    exact names_withoutFiller_nodup hnames
  · obtain ⟨e, he, rfl⟩ := List.mem_map.1 hf
    exact h e (mem_of_mem_withoutFiller he)

/-- A deck that was read from JSON can be written in JSON. -/
theorem isJson_toValue (hv : v.IsJson) (h : ofValue v = .ok deck) : deck.toValue.IsJson := by
  refine isJson_toValue_of_entries (nodup_of_ofValue h) fun e he => ?_
  obtain ⟨entries, rfl, f, hf, -, hread⟩ := exists_of_mem h he
  have hf2 : f.2.IsJson := hv.value hf
  rw [hf2.opened] at hread
  exact DeckEntry.isJson_toValue hf2 hread

end DeckList

/-! ### Deck files -/

/-- Whether a condition came in as a text or a mapping. -/
def Given.isTextOrMapping : Given → Bool
  | .document (.text _) | .document (.map _) => true
  | _ => false

namespace DeckFile

variable {f : DeckFile} {fields : Entries}

/-- What holds of a deck file that was read from JSON, whatever the text. -/
structure FromJson (f : DeckFile) : Prop where
  names : (f.deck.map (·.1)).Nodup
  copies : ∀ e ∈ f.deck, 0 ≤ e.2.copies
  deck : f.deck.toValue.IsJson
  conditions : ∃ l : List Value, f.conditions = l.map .document ∧ ∀ v ∈ l, v.IsJson
  deckName : f.deckName.IsJson

theorem fromJson_of_ofFields (hv : (Value.map fields).IsJson) (h : ofFields fields = .ok f) :
    f.FromJson := by
  obtain ⟨deck, hdeck, h⟩ := bind_eq_ok.1 h
  obtain ⟨l, hl, h⟩ := bind_eq_ok.1 h
  obtain rfl := Except.ok.inj h
  refine ⟨DeckList.nodup_of_ofValue hdeck, fun e he => ?_, DeckList.isJson_toValue (hv.get "deck") hdeck,
    ⟨l, rfl, (hv.get "conditions").toItemsOrNone hl⟩, hv.get "deckName"⟩
  obtain ⟨entries, -, f, -, -, hread⟩ := DeckList.exists_of_mem hdeck he
  exact DeckEntry.copies_nonneg hread

theorem fromJson_of_ofJson {source : String} (h : ofJson source = .ok f) : f.FromJson := by
  unfold ofJson at h
  split at h
  · cases h
  · rename_i v hv
    unfold ofJsonDocument at h
    split at h
    · exact fromJson_of_ofFields (Json.isJson_of_read? hv) h
    · cases h

/-- The name as it is read back: a name that counts as false is not written. -/
def writtenName (v : Value) : Value := if v.truthy then v else .null

theorem nameFields_eq (v : Value) :
    nameFields v = Effect.fieldIf "deckName" (if v.truthy then some v else none) := by
  unfold nameFields
  split <;> rfl

theorem asGiven_document {v : Value} (h : (Given.document v).isTextOrMapping = true) :
    (Given.document v).asGiven = .ok v := by
  cases v <;> first | rfl | cases h

/-- What the fields of a deck file's document hold. -/
structure Written (f : DeckFile) (fields : List (String × Value)) : Prop where
  deck : fields.lookup "deck" = some f.deck.toValue
  conditions : ∃ l : List Value, f.conditions = l.map .document ∧ (∀ v ∈ l, v.IsJson) ∧
    fields.lookup "conditions" = some (.list l)
  deckName : fields.lookup "deckName" = if f.deckName.truthy then some f.deckName else none

/-- **A deck file is read back from its document.** -/
theorem FromJson.ofFields_written (h : f.FromJson) {fields : List (String × Value)}
    (hfields : f.Written fields) :
    ofFields (Entries.named fields) =
      .ok ⟨f.deck.withoutFiller, f.conditions, writtenName f.deckName⟩ := by
  obtain ⟨l, hl, hjson, hitems⟩ := hfields.conditions
  have hdeck : DeckList.ofValue ((Entries.named fields).get "deck") = .ok f.deck.withoutFiller := by
    rw [Entries.get_named, hfields.deck]
    exact DeckList.ofValue_toValue h.names fun e he => h.copies e (DeckList.mem_of_mem_withoutFiller he)
  have hconditions : ((Entries.named fields).get "conditions").toItemsOrNone = .ok l := by
    rw [Entries.get_named, hitems]
    exact Value.toItemsOrNone_list fun v hv => (hjson v hv).opened
  have hname : (Entries.named fields).get "deckName" = writtenName f.deckName := by
    rw [Entries.get_named, hfields.deckName, writtenName]
    split
    · exact h.deckName.opened
    · rfl
  refine bind_eq_ok.2 ⟨_, hdeck, bind_eq_ok.2 ⟨_, hconditions, ?_⟩⟩
  rw [hname, hl]
  rfl

/-- The document of a deck file that was read from JSON, its conditions being texts and mappings. -/
theorem FromJson.exists_document (h : f.FromJson)
    (hconditions : ∀ c ∈ f.conditions, c.isTextOrMapping = true) :
    ∃ fields, f.toJsonDocument = .ok (.record fields) ∧ f.Written fields ∧
      (Value.record fields).IsJson := by
  obtain ⟨l, hl, hjson⟩ := h.conditions
  have hgiven : f.conditions.mapM Given.asGiven = .ok l := by
    rw [hl] at hconditions ⊢
    exact mapM_map_eq_ok fun v hv => asGiven_document (hconditions _ (List.mem_map_of_mem hv))
  refine ⟨_, bind_eq_ok.2 ⟨l, hgiven, rfl⟩, ⟨?_, ⟨l, hl, hjson, ?_⟩, ?_⟩, ?_⟩
  · simp
  · simp [lookup_cons]
  · simp [lookup_cons, nameFields_eq, Effect.lookup_fieldIf]
  · rw [nameFields_eq]
    refine (((Value.JsonFields.single "deck" h.deck).append (.single "conditions" (.list hjson))).append
      (.fieldIf "deckName" ?_)).isJson (by decide)
    intro v hv
    split at hv
    · obtain rfl := Option.some.inj hv
      exact h.deckName
    · cases hv

/-- **The document of a deck file reads back**, unless it holds a pair of halves. -/
theorem readsBack_document {source : String} {document : Value} (h : ofJson source = .ok f)
    (hconditions : ∀ c ∈ f.conditions, c.isTextOrMapping = true)
    (hdocument : f.toJsonDocument = .ok document)
    (hs : ∀ s ∈ document.texts, Text.hasPair s.toList = false) : Json.ReadsBack document := by
  obtain ⟨fields, hfields, -, hjson⟩ := (fromJson_of_ofJson h).exists_document hconditions
  rw [hdocument] at hfields
  obtain rfl := Except.ok.inj hfields
  exact Json.readsBack hjson hs

/-- **A deck file comes back from JSON**: the same cards in the same order but those that fill up the
deck, the same conditions, and the same name unless it counts as false. -/
theorem ofJson_toJson {source : String} (h : ofJson source = .ok f)
    (hconditions : ∀ c ∈ f.conditions, c.isTextOrMapping = true)
    (hback : ∀ document, f.toJsonDocument = .ok document → Json.ReadsBack document) :
    ∃ text, f.toJson = .ok text ∧
      ofJson text = .ok ⟨f.deck.withoutFiller, f.conditions,
        if f.deckName.truthy then f.deckName else .null⟩ := by
  have hf := fromJson_of_ofJson h
  obtain ⟨fields, hdocument, hwritten, hjson⟩ := hf.exists_document hconditions
  obtain ⟨text, htext⟩ := Json.exists_write hjson
  refine ⟨text, bind_eq_ok.2 ⟨_, hdocument, htext⟩, ?_⟩
  rw [ofJson, hback _ hdocument text htext]
  exact hf.ofFields_written hwritten

/-- A deck with a free card, told in shorter words than it is written in. -/
def wishText : String :=
  "\x7b\"deck\": \x7b\"Wish\": \x7b\"tags\": [7], \"free\": \x7b\"count\": true, \"cost\": " ++
  "\x7b\"type\": \"Discard\", \"value\": \"Imp\"\x7d\x7d\x7d, \"Empty Card\": null\x7d, " ++
  "\"conditions\": [\"\", \x7b\x7d], \"deckName\": []\x7d"

/-- The deck file of this text. -/
def wish : DeckFile :=
  ⟨[("Wish", ⟨1, ["7"], some ⟨1, false, some ⟨.discard, .named [.text "Imp"]⟩, [], none, none⟩⟩),
    ("Empty Card", ⟨1, [], none⟩)],
   [.document (.text ""), .document (.map [])], .list []⟩

theorem ofJson_toJson_wish : ∃ text, wish.toJson = .ok text ∧ ofJson text = .ok
    ⟨[("Wish", ⟨1, ["7"], some ⟨1, false, some ⟨.discard, .named [.text "Imp"]⟩, [], none, none⟩⟩)],
      [.document (.text ""), .document (.map [])], .null⟩ := by
  have hwish : ofJson wishText = .ok wish := by decide +kernel
  have hconditions : ∀ c ∈ wish.conditions, c.isTextOrMapping = true := by decide
  refine ofJson_toJson hwish hconditions fun document hdocument => ?_
  have hpairs : (wish.toJsonDocument.map fun v =>
      v.texts.all fun s => Text.hasPair s.toList = false) = .ok true := by decide +kernel
  rw [hdocument] at hpairs
  refine readsBack_document hwish hconditions hdocument fun s hs => ?_
  exact of_decide_eq_true (List.all_eq_true.1 (Except.ok.inj hpairs) s hs)

end DeckFile

end OpeningHand
