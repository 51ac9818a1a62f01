import OpeningHand.Document.Conversion
import OpeningHand.Json.Reader
import OpeningHand.Json.Writer
import OpeningHand.Proofs.Document.Fields
import OpeningHand.Proofs.Number.Nearest

/-!
# The values of JSON

A document can hold more than JSON has words for: fixed lists, sets, bytes, dates, and what is met inside
itself come from YAML only. `Value.IsJson` is what is left, and it is the meeting point of the reader and
the writer: the reader yields nothing else (`isJson_of_read?`), and the writer takes all of it
(`exists_write`). What is looked up in such a value is such a value again, so a part of a JSON document
can be put into another one and written there.
-/

namespace OpeningHand

/-- A value that JSON can write. The keys of a mapping are texts, no two of them the same. -/
inductive Value.IsJson : Value → Prop
  | null : IsJson .null
  | bool (b : Bool) : IsJson (.bool b)
  | int (i : Int) : IsJson (.int i)
  | float {x : Number.Binary64} (canonical : x.Canonical) : IsJson (.float x)
  | text (s : String) : IsJson (.text s)
  | list {l : List Value} (items : ∀ v ∈ l, IsJson v) : IsJson (.list l)
  | map {fields : List (String × Value)} (distinct : (fields.map (·.1)).Nodup)
      (values : ∀ f ∈ fields, IsJson f.2) : IsJson (.map (Entries.named fields))

theorem Value.isJson_nil : (Value.map []).IsJson :=
  @IsJson.map [] List.nodup_nil (by simp)

/-! ### Looking into a value -/

/-- The items of a list, unless one of them was met inside itself. -/
theorem Value.toItemsOrNone_list {l : List Value} (h : ∀ v ∈ l, v.opened = v) :
    (Value.list l).toItemsOrNone = .ok l := by
  have hmap : l.map Value.opened = l := by simpa using List.map_congr_left h
  cases l with
  | nil => rfl
  | cons v l => exact congrArg Except.ok hmap

namespace Value.IsJson

variable {v : Value} {entries : Entries}

theorem opened (h : v.IsJson) : v.opened = v := by
  cases h <;> rfl

theorem toFields (h : v.IsJson) (hfields : v.toFields = .ok entries) :
    (Value.map entries).IsJson := by
  cases v with
  | map l =>
      obtain rfl := Except.ok.inj hfields
      exact h
  | _ => cases hfields

theorem value (h : (Value.map entries).IsJson) {e : Value × Value} (he : e ∈ entries) :
    e.2.IsJson := by
  cases h with
  | map _ hvalues =>
      obtain ⟨f, hf, rfl⟩ := List.mem_map.1 he
      exact hvalues f hf

theorem get? (h : (Value.map entries).IsJson) {key : String} (hv : entries.get? key = some v) :
    v.IsJson := by
  obtain ⟨e, he, rfl⟩ := Option.map_eq_some_iff.1 hv
  have hvalue := h.value (List.mem_of_find?_eq_some he)
  rwa [hvalue.opened]

theorem get (h : (Value.map entries).IsJson) (key : String) : (entries.get key).IsJson := by
  unfold Entries.get
  cases hv : entries.get? key with
  | none => exact .null
  | some v => exact h.get? hv

/-- The members of a list, the letters of a text and the keys of a mapping. -/
theorem toItemsOrNone (h : v.IsJson) {items : List Value} (hitems : v.toItemsOrNone = .ok items) :
    ∀ x ∈ items, x.IsJson := by
  unfold Value.toItemsOrNone at hitems
  split at hitems
  · cases h with
    | list hl =>
        obtain rfl := Except.ok.inj hitems
        intro x hx
        obtain ⟨y, hy, rfl⟩ := List.mem_map.1 hx
        rw [(hl y hy).opened]
        exact hl y hy
    | text s =>
        obtain rfl := Except.ok.inj hitems
        intro x hx
        obtain ⟨c, -, rfl⟩ := List.mem_map.1 hx
        exact .text _
    | map _ _ =>
        obtain rfl := Except.ok.inj hitems
        intro x hx
        obtain ⟨e, he, rfl⟩ := List.mem_map.1 hx
        obtain ⟨f, -, rfl⟩ := List.mem_map.1 he
        exact .text f.1
    | null | bool | int | float => nomatch hitems
  · obtain rfl := Except.ok.inj hitems
    simp

/-- Under a text key a mapping takes any value of JSON. -/
theorem insert (h : (Value.map entries).IsJson) (key : String) (hv : v.IsJson) :
    (Value.map (entries.insert (.text key) v)).IsJson := by
  cases h with
  | map hdistinct hvalues =>
      rw [Entries.insert_named]
      refine .map (nodup_put hdistinct) fun f hf => ?_
      rcases mem_put hf with rfl | hf
      · exact hv
      · exact hvalues f hf

end Value.IsJson

/-! ### Putting a value together -/

/-- Fields under some of the given names, in the order of the names, with values of JSON. -/
structure Value.JsonFields (names : List String) (fields : List (String × Value)) : Prop where
  names : (fields.map (·.1)).Sublist names
  values : ∀ f ∈ fields, f.2.IsJson

namespace Value.JsonFields

variable {names names' : List String} {fields fields' : List (String × Value)}

theorem single (name : String) {v : Value} (h : v.IsJson) : JsonFields [name] [(name, v)] :=
  ⟨.refl _, by simpa using h⟩

theorem fieldIf (name : String) {v : Option Value} (h : ∀ w ∈ v, w.IsJson) :
    JsonFields [name] (Effect.fieldIf name v) := by
  cases v with
  | none => exact ⟨List.nil_sublist _, by simp [Effect.fieldIf]⟩
  | some v => exact single name (h v rfl)

theorem append (h : JsonFields names fields) (h' : JsonFields names' fields') :
    JsonFields (names ++ names') (fields ++ fields') := by
  refine ⟨?_, fun f hf => ?_⟩
  · rw [List.map_append]
    exact h.names.append h'.names
  · exact (List.mem_append.1 hf).elim (h.values f) (h'.values f)

theorem isJson (h : JsonFields names fields) (hnodup : names.Nodup) : (Value.record fields).IsJson :=
  .map (hnodup.sublist h.names) h.values

end Value.JsonFields

namespace Json

/-! ### The reader -/

theorem isJson_of_number? {s r : List Char} {v : Value} (h : number? s = some (v, r)) : v.IsJson := by
  unfold number? at h
  grind [Value.IsJson, Number.Binary64.canonical_ofDecimal]

theorem isJson_of_atom? {s r : List Char} {v : Value} (h : atom? s = some (v, r)) : v.IsJson := by
  unfold atom? at h
  split at h
  · rename_i p hp
    obtain ⟨w, hw, hdrop⟩ := List.exists_of_findSome?_eq_some hp
    obtain ⟨rest, -, rfl⟩ := Option.map_eq_some_iff.1 hdrop
    obtain ⟨rfl, rfl⟩ := Prod.mk.inj (Option.some.inj h)
    simp only [words, List.mem_cons, List.not_mem_nil, or_false] at hw
    rcases hw with rfl | rfl | rfl | rfl | rfl | rfl
    · exact .null
    · exact .bool true
    · exact .bool false
    all_goals exact .float trivial
  · exact isJson_of_number? h

/-- What the three readers that call each other yield within a bound. -/
structure ReadsJson (n : Nat) : Prop where
  value : ∀ {s v r}, value? n s = some (v, r) → v.IsJson
  items : ∀ {acc s l r}, (∀ v ∈ acc, v.IsJson) → items? n acc s = some (l, r) → ∀ v ∈ l, v.IsJson
  members : ∀ {acc s l r}, (Value.map acc).IsJson → members? n acc s = some (l, r) →
    (Value.map l).IsJson

namespace ReadsJson

variable {n : Nat} (h : ReadsJson n)
include h

theorem value_succ {s r : List Char} {v : Value} (hv : value? (n + 1) s = some (v, r)) :
    v.IsJson := by
  unfold value? at hv
  split at hv
  · obtain ⟨p, -, hp⟩ := Option.map_eq_some_iff.1 hv
    obtain ⟨rfl, -⟩ := Prod.mk.inj hp
    exact .text p.1
  · split at hv
    · obtain ⟨rfl, -⟩ := Prod.mk.inj (Option.some.inj hv)
      exact .list (by simp)
    · obtain ⟨p, hitems, hp⟩ := Option.map_eq_some_iff.1 hv
      obtain ⟨rfl, -⟩ := Prod.mk.inj hp
      exact .list (h.items (by simp) hitems)
  · split at hv
    · obtain ⟨rfl, -⟩ := Prod.mk.inj (Option.some.inj hv)
      exact Value.isJson_nil
    · obtain ⟨p, hmembers, hp⟩ := Option.map_eq_some_iff.1 hv
      obtain ⟨rfl, -⟩ := Prod.mk.inj hp
      exact h.members Value.isJson_nil hmembers
  · exact isJson_of_atom? hv

theorem items_succ {acc l : List Value} {s r : List Char} (hacc : ∀ v ∈ acc, v.IsJson)
    (hl : items? (n + 1) acc s = some (l, r)) : ∀ v ∈ l, v.IsJson := by
  unfold items? at hl
  split at hl
  · cases hl
  · rename_i v t hv
    have hcons : ∀ x ∈ v :: acc, x.IsJson := by
      intro x hx
      rcases List.mem_cons.1 hx with rfl | hx
      · exact h.value hv
      · exact hacc x hx
    split at hl
    · exact h.items hcons hl
    · obtain ⟨rfl, -⟩ := Prod.mk.inj (Option.some.inj hl)
      exact fun x hx => hcons x (List.mem_reverse.1 hx)
    · cases hl

theorem members_succ {acc l : Entries} {s r : List Char} (hacc : (Value.map acc).IsJson)
    (hl : members? (n + 1) acc s = some (l, r)) : (Value.map l).IsJson := by
  unfold members? at hl
  split at hl
  · split at hl
    · cases hl
    · rename_i key t hkey
      split at hl
      · split at hl
        · cases hl
        · rename_i v t' hv
          have hinsert := hacc.insert key (h.value hv)
          split at hl
          · exact h.members hinsert hl
          · obtain ⟨rfl, -⟩ := Prod.mk.inj (Option.some.inj hl)
            exact hinsert
          · cases hl
      · cases hl
  · cases hl

end ReadsJson

theorem readsJson (n : Nat) : ReadsJson n := by
  induction n with
  | zero => exact ⟨by simp [value?], by simp [items?], by simp [members?]⟩
  | succ n ih => exact ⟨ih.value_succ, ih.items_succ, ih.members_succ⟩

/-- **The reader yields values of JSON.** -/
theorem isJson_of_read? {text : String} {v : Value} (h : read? text = some v) : v.IsJson := by
  unfold read? at h
  simp only at h
  split at h
  · rename_i w r hw
    split at h
    · obtain rfl := Option.some.inj h
      exact (readsJson _).value hw
    · cases h
  · cases h

/-! ### The writer -/

theorem exists_writeItems {l : List Value} (h : ∀ v ∈ l, ∃ t, write v = .ok t) :
    ∃ ts, write.writeItems l = .ok ts := by
  induction l with
  | nil => exact ⟨[], rfl⟩
  | cons v l ih =>
      obtain ⟨t, ht⟩ := h v (.head _)
      obtain ⟨ts, hts⟩ := ih fun v hv => h v (.tail _ hv)
      exact ⟨t :: ts, by rw [write.writeItems, ht, hts]; rfl⟩

theorem exists_writeMembers {fields : List (String × Value)} (h : ∀ f ∈ fields, ∃ t, write f.2 = .ok t) :
    ∃ ts, write.writeMembers (Entries.named fields) = .ok ts := by
  induction fields with
  | nil => exact ⟨[], rfl⟩
  | cons f fields ih =>
      obtain ⟨t, ht⟩ := h f (.head _)
      obtain ⟨ts, hts⟩ := ih fun f hf => h f (.tail _ hf)
      refine ⟨(writeText f.1 ++ ": " ++ t) :: ts, ?_⟩
      rw [Entries.named] at hts ⊢
      rw [List.map_cons, write.writeMembers, ht, hts]
      rfl

/-- **The writer takes every value of JSON.** -/
theorem exists_write {v : Value} (h : v.IsJson) : ∃ text, write v = .ok text := by
  induction h with
  | null => exact ⟨_, rfl⟩
  | bool b => exact ⟨_, rfl⟩
  | int i => exact ⟨_, rfl⟩
  | float _ => exact ⟨_, rfl⟩
  | text s => exact ⟨_, rfl⟩
  | list _ ih =>
      obtain ⟨ts, hts⟩ := exists_writeItems ih
      exact ⟨_, by rw [write, hts]; rfl⟩
  | map _ _ ih =>
      obtain ⟨ts, hts⟩ := exists_writeMembers ih
      exact ⟨_, by rw [write, hts]; rfl⟩

end Json

end OpeningHand
