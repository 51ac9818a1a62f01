import OpeningHand.Proofs.Json.Values

/-!
# Cards written to documents and read back

The document of an effect leaves out what equals its default, and the reader turns what it finds into
numbers, names and words, so the two could drift apart field by field. They do not: every effect is read
back from its document as it was (`Effect.ofValue_toValue`), and so is every entry of a deck with a natural
number of copies (`DeckEntry.ofValue_toValue`), which all entries have that were read from a document
(`DeckEntry.copies_nonneg`).

A named cost keeps the names as the values they were. It is the only part of a card that keeps a value of
the document it came from, so a card that was read from JSON can be written in JSON
(`DeckEntry.isJson_toValue`).
-/

namespace OpeningHand

/-! ### Lists read item by item -/

section Items

variable {α β : Type} {f : α → Except Fault β}

/-- **A list is read item by item.** -/
theorem mapM_eq_ok_iff {l : List α} {bs : List β} :
    l.mapM f = .ok bs ↔ List.Forall₂ (fun a b => f a = .ok b) l bs := by
  induction l generalizing bs with
  | nil => exact ⟨fun h => Except.ok.inj h ▸ .nil, fun h => by cases h; rfl⟩
  | cons a l ih =>
      rw [List.mapM_cons, List.forall₂_cons_left_iff]
      constructor
      · intro h
        obtain ⟨b, hb, h⟩ := bind_eq_ok.1 h
        obtain ⟨bs', hbs, h⟩ := bind_eq_ok.1 h
        exact ⟨b, bs', hb, ih.1 hbs, (Except.ok.inj h).symm⟩
      · rintro ⟨b, bs', hb, hbs, rfl⟩
        exact bind_eq_ok.2 ⟨b, hb, bind_eq_ok.2 ⟨bs', ih.2 hbs, rfl⟩⟩

/-- A list is read if its items are. -/
theorem mapM_eq_ok {g : α → β} {l : List α} (h : ∀ a ∈ l, f a = .ok (g a)) : l.mapM f = .ok (l.map g) :=
  mapM_eq_ok_iff.2 (List.forall₂_map_right_iff.2 (List.forall₂_same.2 h))

/-- A list whose items are read back one by one is read back. -/
theorem mapM_map_eq_ok {g : β → α} {l : List β} (h : ∀ b ∈ l, f (g b) = .ok b) :
    (l.map g).mapM f = .ok l := by
  rw [List.mapM_map]
  exact (mapM_eq_ok (g := id) h).trans (by rw [List.map_id])

theorem exists_of_mem_mapM {l : List α} {bs : List β} (h : l.mapM f = .ok bs) :
    ∀ b ∈ bs, ∃ a ∈ l, f a = .ok b := by
  intro b hb
  obtain ⟨i, hi, rfl⟩ := List.getElem_of_mem hb
  have hall := mapM_eq_ok_iff.1 h
  exact ⟨_, List.getElem_mem (hall.length_eq ▸ hi), hall.get _ hi⟩

theorem length_of_mapM {l : List α} {bs : List β} (h : l.mapM f = .ok bs) : bs.length = l.length :=
  (mapM_eq_ok_iff.1 h).length_eq.symm

/-- Of the first items of a list as much is read as of the list. -/
theorem mapM_take {l : List α} {bs : List β} (h : l.mapM f = .ok bs) (n : Nat) :
    (l.take n).mapM f = .ok (bs.take n) :=
  mapM_eq_ok_iff.2 (List.forall₂_take n (mapM_eq_ok_iff.1 h))

end Items

theorem Value.toFields_record (fields : List (String × Value)) :
    (Value.record fields).toFields = .ok (Entries.named fields) := rfl

namespace Effect

/-! ### Fields that may be left out -/

theorem lookup_fieldIf (name key : String) (v : Option Value) :
    (fieldIf name v).lookup key = if key = name then v else none := by
  cases v with
  | none => simp [fieldIf]
  | some v => rw [fieldIf, lookup_cons, List.lookup_nil]

/-- A part that was written is read back, and so is that it was left out. -/
theorem optional_written {α : Type} {read : Value → Except Fault α} {write : α → Value}
    (hopened : ∀ a, (write a).opened = write a) (htrue : ∀ a, (write a).truthy = true)
    (hread : ∀ a, read (write a) = .ok a) (part : Option α) :
    optional read (((part.map write).map Value.opened).getD .null) = .ok part := by
  cases part with
  | none => rfl
  | some a =>
      rw [Option.map_some, Option.map_some, Option.getD_some, hopened, optional, if_pos (htrue a),
        hread]
      rfl

/-- A list that was written is read back item by item, and so is that there was nothing to write. -/
theorem toItemsOrNone_written {α : Type} {write : α → Value}
    (hopened : ∀ a, (write a).opened = write a) (l : List α) :
    (((if l.isEmpty then none else some (Value.list (l.map write))).map
      Value.opened).getD .null).toItemsOrNone = .ok (l.map write) := by
  cases l with
  | nil => rfl
  | cons a l =>
      refine Value.toItemsOrNone_list fun v hv => ?_
      obtain ⟨b, -, rfl⟩ := List.mem_map.1 hv
      exact hopened b

theorem of_optional {α : Type} {read : Value → Except Fault α} {v : Value} {a : α}
    (h : optional read v = .ok (some a)) : read v = .ok a := by
  unfold optional at h
  split at h
  · obtain ⟨b, hb, hab⟩ := map_eq_ok.1 h
    rw [hb, Option.some.inj hab]
  · cases h

/-! ### Costs and aftermaths

Both are a word and what it takes, written in the same way. -/

section Parts

variable (word : String) (amount : Value)

theorem require_type :
    Value.require (Entries.named [("type", .text word), ("value", amount)]) "type" =
      .ok (.text word) := by
  simp [Value.require, Entries.get?_named, Value.opened]

theorem valueOr1_written :
    valueOr1 (Entries.named [("type", .text word), ("value", amount)]) = amount.opened := by
  simp [valueOr1, Entries.get?_named, lookup_cons]

end Parts

theorem costOf_written (c : Cost) :
    costOf (.record [("type", .text c.kind.word), ("value", c.price.toValue)]) = .ok c := by
  have hprice : priceOf c.price.toValue.opened = .ok c.price := by cases c.price <;> rfl
  refine bind_eq_ok.2 ⟨_, Value.toFields_record _, bind_eq_ok.2 ⟨_, require_type _ _,
    bind_eq_ok.2 ⟨c.kind, ?_, bind_eq_ok.2 ⟨c.price, ?_, rfl⟩⟩⟩⟩
  · simp [Value.choice]
  · rwa [valueOr1_written]

theorem aftermathOf_written (a : Aftermath) :
    aftermathOf (.record [("type", .text a.kind.word), ("value", a.toll.toValue)]) = .ok a := by
  have htoll : tollOf a.toll.toValue.opened = .ok a.toll := by cases a.toll <;> rfl
  refine bind_eq_ok.2 ⟨_, Value.toFields_record _, bind_eq_ok.2 ⟨_, require_type _ _,
    bind_eq_ok.2 ⟨a.kind, ?_, bind_eq_ok.2 ⟨a.toll, ?_, rfl⟩⟩⟩⟩
  · simp [Value.choice]
  · rwa [valueOr1_written]

theorem excavationOf_written (x : Excavation) :
    excavationOf (.record [("count", .int x.count), ("pick", .int x.pick)]) = .ok x := rfl

/-! ### Effects -/

/-- What the fields of an effect's document hold. -/
structure Written (e : Effect) (fields : List (String × Value)) : Prop where
  oncePerTurn : fields.lookup "oncePerTurn" = some (.bool e.oncePerTurn)
  draws : fields.lookup "count" = if e.draws = 0 then none else some (.int e.draws)
  cost : fields.lookup "cost" = e.cost.map fun c =>
    .record [("type", .text c.kind.word), ("value", c.price.toValue)]
  restrictions : fields.lookup "restriction" = if e.restrictions.isEmpty then none
    else some (.list (e.restrictions.map fun r => .text r.word))
  excavation : fields.lookup "excavate" = e.excavation.map fun x =>
    .record [("count", .int x.count), ("pick", .int x.pick)]
  aftermath : fields.lookup "condition" = e.aftermath.map fun a =>
    .record [("type", .text a.kind.word), ("value", a.toll.toValue)]

theorem written_toValue (e : Effect) : ∃ fields, e.toValue = .record fields ∧ e.Written fields := by
  refine ⟨_, rfl, ?_⟩
  constructor <;> simp [List.lookup_append, lookup_fieldIf, lookup_cons]

/-- An effect is read from any mapping that holds its fields. -/
theorem Written.ofValue_record {e : Effect} {fields : List (String × Value)} (h : e.Written fields) :
    ofValue (.record fields) = .ok e := by
  have hcost : optional costOf ((Entries.named fields).get "cost") = .ok e.cost := by
    rw [Entries.get_named, h.cost]
    exact optional_written (fun _ => rfl) (fun _ => rfl) costOf_written e.cost
  have hexcavation :
      optional excavationOf ((Entries.named fields).get "excavate") = .ok e.excavation := by
    rw [Entries.get_named, h.excavation]
    exact optional_written (fun _ => rfl) (fun _ => rfl) excavationOf_written e.excavation
  have haftermath :
      optional aftermathOf ((Entries.named fields).get "condition") = .ok e.aftermath := by
    rw [Entries.get_named, h.aftermath]
    exact optional_written (fun _ => rfl) (fun _ => rfl) aftermathOf_written e.aftermath
  have hdraws : optional Value.toWhole ((Entries.named fields).get "count") =
      .ok (if e.draws = 0 then none else some e.draws) := by
    rw [Entries.get_named, h.draws]
    by_cases h0 : e.draws = 0 <;>
      simp [h0, optional, Value.truthy, Value.opened, Value.toWhole, Except.map]
  have hwords : ((Entries.named fields).get "restriction").toItemsOrNone =
      .ok (e.restrictions.map fun r => .text r.word) := by
    rw [Entries.get_named, h.restrictions]
    exact toItemsOrNone_written (fun _ => rfl) e.restrictions
  have hrestrictions : (e.restrictions.map fun r => Value.text r.word).mapM
      (Value.choice Restriction.ofWord? "Restriction") = .ok e.restrictions :=
    mapM_map_eq_ok fun r _ => by simp [Value.choice]
  have honce : ((Entries.named fields).get "oncePerTurn").truthy = e.oncePerTurn := by
    rw [Entries.get_named, h.oncePerTurn]
    rfl
  have hcount : (if e.draws = 0 then none else some e.draws).getD 0 = e.draws := by
    by_cases h0 : e.draws = 0 <;> simp [h0]
  refine bind_eq_ok.2 ⟨_, Value.toFields_record _, bind_eq_ok.2 ⟨_, hcost,
    bind_eq_ok.2 ⟨_, hexcavation, bind_eq_ok.2 ⟨_, haftermath, bind_eq_ok.2 ⟨_, hdraws,
    bind_eq_ok.2 ⟨_, hwords, bind_eq_ok.2 ⟨_, hrestrictions, ?_⟩⟩⟩⟩⟩⟩⟩
  rw [honce, hcount]
  rfl

/-- **An effect is read back from its document.** -/
theorem ofValue_toValue (e : Effect) : ofValue e.toValue = .ok e := by
  obtain ⟨fields, heq, hwritten⟩ := e.written_toValue
  rw [heq, hwritten.ofValue_record]

/-! ### Effects in JSON -/

theorem isJson_of_priceOf {v : Value} {p : Price} (hv : v.IsJson) (h : priceOf v = .ok p) :
    p.toValue.IsJson := by
  unfold priceOf at h
  split at h
  · obtain ⟨n, -, rfl⟩ := map_eq_ok.1 h
    exact .int n
  · split at h
    · obtain rfl := Except.ok.inj h
      exact hv
    · obtain rfl := Except.ok.inj h
      exact .list (by simpa using hv)

theorem isJson_of_costOf {v : Value} {c : Cost} (hv : v.IsJson) (h : costOf v = .ok c) :
    c.price.toValue.IsJson := by
  obtain ⟨fields, hfields, h⟩ := bind_eq_ok.1 h
  obtain ⟨_, _, h⟩ := bind_eq_ok.1 h
  obtain ⟨_, _, h⟩ := bind_eq_ok.1 h
  obtain ⟨p, hp, h⟩ := bind_eq_ok.1 h
  obtain rfl := Except.ok.inj h
  refine isJson_of_priceOf ?_ hp
  cases hvalue : fields.get? "value" with
  | none => rw [valueOr1, hvalue]; exact .int 1
  | some w => rw [valueOr1, hvalue]; exact (hv.toFields hfields).get? hvalue

/-- The names of a cost are all that an effect keeps of the document that it was read from. -/
theorem isJson_price_of_ofValue {v : Value} {e : Effect} (hv : v.IsJson) (h : ofValue v = .ok e) :
    ∀ c ∈ e.cost, c.price.toValue.IsJson := by
  obtain ⟨fields, hfields, h⟩ := bind_eq_ok.1 h
  obtain ⟨cost, hcost, h⟩ := bind_eq_ok.1 h
  obtain ⟨_, _, h⟩ := bind_eq_ok.1 h
  obtain ⟨_, _, h⟩ := bind_eq_ok.1 h
  obtain ⟨_, _, h⟩ := bind_eq_ok.1 h
  obtain ⟨_, _, h⟩ := bind_eq_ok.1 h
  obtain ⟨_, _, h⟩ := bind_eq_ok.1 h
  obtain rfl := Except.ok.inj h
  rintro c rfl
  exact isJson_of_costOf ((hv.toFields hfields).get "cost") (of_optional hcost)

theorem isJson_toValue {e : Effect} (h : ∀ c ∈ e.cost, c.price.toValue.IsJson) :
    e.toValue.IsJson := by
  have hcost (c : Cost) (hc : c ∈ e.cost) :
      (Value.record [("type", .text c.kind.word), ("value", c.price.toValue)]).IsJson :=
    ((Value.JsonFields.single "type" (.text _)).append (.single "value" (h c hc))).isJson (by decide)
  have hwords : (Value.list (e.restrictions.map fun r => .text r.word)).IsJson :=
    .list fun v hv => by obtain ⟨r, -, rfl⟩ := List.mem_map.1 hv; exact .text _
  have hexcavation (x : Excavation) :
      (Value.record [("count", .int x.count), ("pick", .int x.pick)]).IsJson :=
    ((Value.JsonFields.single "count" (.int _)).append (.single "pick" (.int _))).isJson (by decide)
  have haftermath (a : Aftermath) :
      (Value.record [("type", .text a.kind.word), ("value", a.toll.toValue)]).IsJson :=
    ((Value.JsonFields.single "type" (.text _)).append
      (.single "value" (by cases a.toll <;> constructor))).isJson (by decide)
  refine ((((((Value.JsonFields.single "oncePerTurn" (.bool e.oncePerTurn)).append (.fieldIf "count" ?_)).append
    (.fieldIf "cost" ?_)).append (.fieldIf "restriction" ?_)).append (.fieldIf "excavate" ?_)).append
    (.fieldIf "condition" ?_)).isJson (by decide)
  · intro v hv
    split at hv
    · cases hv
    · obtain rfl := Option.some.inj hv
      exact .int _
  · intro v hv
    obtain ⟨c, hc, rfl⟩ := Option.map_eq_some_iff.1 hv
    exact hcost c hc
  · intro v hv
    split at hv
    · cases hv
    · obtain rfl := Option.some.inj hv
      exact hwords
  · intro v hv
    obtain ⟨x, -, rfl⟩ := Option.map_eq_some_iff.1 hv
    exact hexcavation x
  · intro v hv
    obtain ⟨a, -, rfl⟩ := Option.map_eq_some_iff.1 hv
    exact haftermath a

end Effect

/-! ### Entries of a deck -/

namespace DeckEntry

/-- What an entry was read from: the empty value or a mapping. -/
theorem exists_of_ofValue {card : String} {v : Value} {e : DeckEntry} (h : ofValue card v = .ok e) :
    ∃ fields : Entries, (v = .null ∧ fields = [] ∨ v = .map fields) ∧
      copiesOf card ((fields.get? "qty").getD (.int 1)) = .ok e.copies ∧
      Effect.optional Effect.ofValue (fields.get "free") = .ok e.effect := by
  unfold ofValue at h
  simp only at h
  split at h
  · cases h
  · rename_i fields hfields
    obtain ⟨copies, hcopies, h⟩ := bind_eq_ok.1 h
    obtain ⟨_, _, h⟩ := bind_eq_ok.1 h
    obtain ⟨effect, heffect, h⟩ := bind_eq_ok.1 h
    obtain rfl := Except.ok.inj h
    refine ⟨fields, ?_, hcopies, heffect⟩
    split at hfields <;> simp_all

/-- An entry that was read from a document has a natural number of copies. -/
theorem copies_nonneg {card : String} {v : Value} {e : DeckEntry} (h : ofValue card v = .ok e) :
    0 ≤ e.copies := by
  obtain ⟨fields, -, hcopies, -⟩ := exists_of_ofValue h
  unfold copiesOf at hcopies
  split at hcopies
  · split at hcopies
    · rename_i hi
      rwa [← Except.ok.inj hcopies]
    · cases hcopies
  · cases hcopies

/-- An entry can be written in JSON if its effect can. -/
theorem isJson_toValue_of_effect {e : DeckEntry} (h : ∀ x ∈ e.effect, x.toValue.IsJson) : e.toValue.IsJson := by
  refine (((Value.JsonFields.single "qty" (.int e.copies)).append (.fieldIf "tags" ?_)).append
    (.fieldIf "free" ?_)).isJson (by decide)
  · intro v hv
    split at hv
    · cases hv
    · obtain rfl := Option.some.inj hv
      refine .list fun v hv => ?_
      obtain ⟨t, -, rfl⟩ := List.mem_map.1 hv
      exact .text t
  · intro v hv
    obtain ⟨x, hx, rfl⟩ := Option.map_eq_some_iff.1 hv
    exact h x hx

theorem isJson_toValue {card : String} {v : Value} {e : DeckEntry} (hv : v.IsJson)
    (h : ofValue card v = .ok e) : e.toValue.IsJson := by
  obtain ⟨fields, hfields, -, heffect⟩ := exists_of_ofValue h
  have hmap : (Value.map fields).IsJson := by
    rcases hfields with ⟨-, rfl⟩ | rfl
    · exact Value.isJson_nil
    · exact hv
  refine isJson_toValue_of_effect fun x hx => ?_
  rw [hx] at heffect
  exact Effect.isJson_toValue (Effect.isJson_price_of_ofValue (hmap.get "free") (Effect.of_optional heffect))

/-- **An entry is read back from its document.** -/
theorem ofValue_toValue (card : String) {e : DeckEntry} (h : 0 ≤ e.copies) :
    ofValue card e.toValue = .ok e := by
  obtain ⟨fields, heq, hqty, htags, hfree⟩ : ∃ fields, e.toValue = .record fields ∧
      fields.lookup "qty" = some (.int e.copies) ∧
      fields.lookup "tags" = (if e.tags.isEmpty then none else some (.list (e.tags.map .text))) ∧
      fields.lookup "free" = e.effect.map Effect.toValue := by
    refine ⟨_, rfl, ?_, ?_, ?_⟩ <;> simp [List.lookup_append, Effect.lookup_fieldIf, lookup_cons]
  have hcopies : copiesOf card (((Entries.named fields).get? "qty").getD (.int 1)) = .ok e.copies := by
    rw [Entries.get?_named, hqty]
    exact if_pos h
  have hitems : ((Entries.named fields).get "tags").toItemsOrNone = .ok (e.tags.map .text) := by
    rw [Entries.get_named, htags]
    exact Effect.toItemsOrNone_written (fun _ => rfl) e.tags
  have heffect : Effect.optional Effect.ofValue ((Entries.named fields).get "free") = .ok e.effect := by
    rw [Entries.get_named, hfree]
    exact Effect.optional_written (fun _ => rfl) (fun _ => rfl) Effect.ofValue_toValue e.effect
  have hshown : (e.tags.map Value.text).map Value.shown = e.tags := by
    simp [Function.comp_def, Value.shown]
  rw [heq]
  refine bind_eq_ok.2 ⟨_, hcopies, bind_eq_ok.2 ⟨_, hitems, bind_eq_ok.2 ⟨_, heffect, ?_⟩⟩⟩
  rw [hshown]
  rfl

end DeckEntry

end OpeningHand
