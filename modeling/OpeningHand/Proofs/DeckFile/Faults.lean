import OpeningHand.DeckFile.Json
import OpeningHand.Proofs.Condition.Grammar

/-!
# What a deck file in JSON may be refused with

A text that is no deck file should be refused with a fault that says which value was not acceptable. The reader of a
deck file takes the form of many of its parts for granted, though: that what should have fields is a mapping, that a
cost has a type, that a number is finite, that what is gone through has members. Where a part has another form, the
reading stops with a fault of another kind.

The parts are read one after another, and a part that is refused spares the later ones. So a deck file is read or
refused as it should be exactly if each part has its form, as far as the reading comes (`DeckFile.settles_ofJson_iff`).
For each part there is a predicate `Formed`, and one lemma which says that its reading settles exactly then.
-/

namespace OpeningHand

open Condition (OnlyFaults)

/-! ### Readings that settle -/

/-- A reading comes to a value, or to a fault which says that some value was not acceptable. -/
def Settles {α : Type} (x : Except Fault α) : Prop := OnlyFaults (·.isValue = true) x

/-- A reading comes to a value. -/
def Succeeds {α : Type} (x : Except Fault α) : Prop := ∃ a, x = .ok a

/-- A part of a document: whether it has the form that its reader relies on, and whether it is read. -/
structure Part where
  formed : Prop
  read : Prop

/-- The parts of a document have their form, as far as the reading comes. -/
def InTurn : List Part → Prop
  | [] => True
  | part :: parts => part.formed ∧ (part.read → InTurn parts)

theorem inTurn_singleton {p q : Prop} : InTurn [⟨p, q⟩] ↔ p := and_iff_left fun _ => trivial

theorem inTurn_of_forall {parts : List Part} (h : ∀ part ∈ parts, part.formed) : InTurn parts := by
  induction parts with
  | nil => trivial
  | cons part parts ih =>
      rw [List.forall_mem_cons] at h
      exact ⟨h.1, fun _ => ih h.2⟩

section

variable {α β : Type} {x : Except Fault α}

@[simp]
theorem settles_ok (a : α) : Settles (.ok a : Except Fault α) := .ok a

@[simp]
theorem settles_pure (a : α) : Settles (pure a : Except Fault α) := .ok a

@[simp]
theorem settles_error (f : Fault) : Settles (.error f : Except Fault α) ↔ f.isValue = true :=
  ⟨fun h => h f rfl, fun h => .error h⟩

@[simp]
theorem settles_map {f : α → β} : Settles (x.map f) ↔ Settles x := OnlyFaults.map_iff

/-- The second of two readings matters only if the first comes to a value. -/
theorem settles_bind {f : α → Except Fault β} {p : Prop} (hf : ∀ a, x = .ok a → (Settles (f a) ↔ p)) :
    Settles (x >>= f) ↔ Settles x ∧ (Succeeds x → p) := by
  refine OnlyFaults.bind_iff.trans (and_congr_right fun _ => ?_)
  constructor
  · rintro h ⟨a, ha⟩
    exact (hf a ha).1 (h a ha)
  · exact fun h a ha => (hf a ha).2 (h ⟨a, ha⟩)

theorem settles_bind_settles {f : α → Except Fault β} (hf : ∀ a, Settles (f a)) : Settles (x >>= f) ↔ Settles x :=
  (settles_bind fun a _ => iff_true_intro (hf a)).trans (and_iff_left fun _ => trivial)

theorem succeeds_bind_pure {f : α → β} : Succeeds (x >>= fun a => pure (f a)) ↔ Succeeds x := by
  constructor
  · rintro ⟨b, hb⟩
    obtain ⟨a, ha, -⟩ := bind_eq_ok.1 hb
    exact ⟨a, ha⟩
  · rintro ⟨a, ha⟩
    exact ⟨f a, bind_eq_ok.2 ⟨a, ha, rfl⟩⟩

/-- A list is read item by item. -/
theorem settles_mapM {f : α → Except Fault β} (l : List α) :
    Settles (l.mapM f) ↔ InTurn (l.map fun a => ⟨Settles (f a), Succeeds (f a)⟩) := by
  induction l with
  | nil => exact iff_true_intro (settles_ok _)
  | cons a l ih =>
      rw [List.mapM_cons, List.map_cons, InTurn]
      exact settles_bind fun b _ => (settles_bind_settles fun bs => settles_pure _).trans ih

end

/-! ### Numbers, members, fields and words -/

namespace Value

/-- What can be taken for a whole number, or be refused as none. -/
def holdsWhole : Value → Bool
  | .float (.infinite _) => false
  | .bool _ | .int _ | .float _ | .text _ | .bytes _ => true
  | _ => false

/-- An infinity. -/
def isInfinite : Value → Bool
  | .float (.infinite _) => true
  | _ => false

/-- What has members, or counts as false and so has none. -/
def holdsItems (v : Value) : Bool :=
  !v.truthy || match v with
    | .list _ | .tuple _ | .set _ | .bytes _ | .text _ | .map _ => true
    | _ => false

theorem settles_toWhole (v : Value) : Settles v.toWhole ↔ v.holdsWhole = true := by
  cases v with
  | float x =>
      cases x <;>
        simp [toWhole, holdsWhole, Number.Binary64.toInt?, Fault.isValue, Fault.kind, FaultKind.isValue]
  | text s =>
      simp only [toWhole, holdsWhole, iff_true]
      split <;> simp [Fault.isValue, Fault.kind, FaultKind.isValue]
  | bytes l =>
      simp only [toWhole, holdsWhole, iff_true]
      split <;> simp [Fault.isValue, Fault.kind, FaultKind.isValue]
  | _ => simp [toWhole, holdsWhole, Fault.isValue, Fault.kind, FaultKind.isValue]

theorem settles_toItemsOrNone (v : Value) : Settles v.toItemsOrNone ↔ v.holdsItems = true := by
  unfold toItemsOrNone holdsItems
  cases h : v.truthy with
  | false => simp
  | true => cases v <;> simp [toItems, Fault.isValue, Fault.kind, FaultKind.isValue]

theorem settles_choice {α : Type} (ofWord? : String → Option α) (choices : String) (v : Value) :
    Settles (choice ofWord? choices v) := by
  unfold choice
  split
  · split
    · exact settles_ok _
    · exact (settles_error _).2 rfl
  · exact (settles_error _).2 rfl

theorem settles_toFields_bind {β : Type} {v : Value} {f : Entries → Except Fault β} :
    Settles (v.toFields >>= f) ↔ ∃ fields : Entries, v = .map fields ∧ Settles (f fields) := by
  constructor
  · intro h
    have hfields := (OnlyFaults.bind_iff.1 h).1
    cases v with
    | map fields => exact ⟨fields, rfl, h⟩
    | _ => exact absurd (hfields _ rfl) (by decide)
  · rintro ⟨fields, rfl, h⟩
    exact h

theorem settles_require_bind {β : Type} {fields : Entries} {key : String} {f : Value → Except Fault β} :
    Settles (require fields key >>= f) ↔ ∃ v, fields.get? key = some v ∧ Settles (f v) := by
  unfold require
  cases fields.get? key with
  | none => exact iff_of_false (fun h => absurd (h _ rfl) Bool.false_ne_true) (by simp)
  | some v => exact ⟨fun h => ⟨v, rfl, h⟩, by rintro ⟨v, ⟨⟩, h⟩; exact h⟩

theorem settles_item_bind {β : Type} {v : Value} {key : String} {f : Value → Except Fault β} :
    Settles (v.item key >>= f) ↔
      ∃ fields : Entries, v = .map fields ∧ ∃ w, fields.get? key = some w ∧ Settles (f w) := by
  constructor
  · intro h
    have hitem := (OnlyFaults.bind_iff.1 h).1
    cases v with
    | map fields => exact ⟨fields, rfl, settles_require_bind.1 h⟩
    | _ => exact absurd (hitem _ rfl) (by decide)
  · rintro ⟨fields, rfl, h⟩
    exact settles_require_bind.2 h

end Value

/-! ### Effects -/

namespace Effect

variable {α : Type} {ofWord? : String → Option α} {choices : String} {read : Value → Except Fault α} {v : Value}

/-- The document of a cost or an aftermath: it has fields and among them a type, and if that is one of its words, it
asks for no infinite number. -/
def ChargeFormed (ofWord? : String → Option α) (choices : String) (v : Value) : Prop :=
  ∃ fields : Entries, v = .map fields ∧ ∃ type, fields.get? "type" = some type ∧
    (Succeeds (Value.choice ofWord? choices type) → (valueOr1 fields).isInfinite = false)

/-- The document of an excavation: a count, and, if that is read, a number to pick. -/
def ExcavationFormed (v : Value) : Prop :=
  ∃ fields : Entries, v = .map fields ∧ ∃ count, fields.get? "count" = some count ∧ count.holdsWhole = true ∧
    (Succeeds count.toWhole → ∃ pick, fields.get? "pick" = some pick ∧ pick.holdsWhole = true)

/-- The document of an effect. -/
def Formed (v : Value) : Prop :=
  ∃ fields : Entries, v = .map fields ∧ InTurn
    [⟨(fields.get "cost").truthy = true → ChargeFormed CostKind.ofWord? "CostType" (fields.get "cost"),
        Succeeds (optional costOf (fields.get "cost"))⟩,
      ⟨(fields.get "excavate").truthy = true → ExcavationFormed (fields.get "excavate"),
        Succeeds (optional excavationOf (fields.get "excavate"))⟩,
      ⟨(fields.get "condition").truthy = true →
          ChargeFormed AftermathKind.ofWord? "PostConditionType" (fields.get "condition"),
        Succeeds (optional aftermathOf (fields.get "condition"))⟩,
      ⟨(fields.get "count").truthy = true → (fields.get "count").holdsWhole = true,
        Succeeds (optional Value.toWhole (fields.get "count"))⟩,
      ⟨(fields.get "restriction").holdsItems = true, True⟩]

theorem settles_optional {p : Prop} (hread : Settles (read v) ↔ p) :
    Settles (optional read v) ↔ (v.truthy = true → p) := by
  unfold optional
  split
  · rename_i h
    rw [settles_map, hread]
    exact ⟨fun hs _ => hs, fun hs => hs h⟩
  · rename_i h
    exact iff_of_true (settles_ok _) fun ht => absurd ht h

/-- A number that is asked for is refused as it should be, unless it is infinite. -/
theorem settles_amount {β : Type} {make : Int → β} {other : Except Fault β} (hother : Settles other) :
    Settles (if v.isNumeric then v.toWhole.map make else other) ↔ v.isInfinite = false := by
  split
  · rename_i hnumeric
    rw [settles_map, Value.settles_toWhole]
    cases v with
    | float x => cases x <;> simp [Value.holdsWhole, Value.isInfinite]
    | _ => simp_all [Value.isNumeric, Value.holdsWhole, Value.isInfinite]
  · rename_i hnumeric
    refine iff_of_true hother ?_
    cases v <;> simp_all [Value.isNumeric, Value.isInfinite]

theorem settles_priceOf (v : Value) : Settles (priceOf v) ↔ v.isInfinite = false := by
  refine settles_amount ?_
  split <;> exact settles_ok _

theorem settles_tollOf (v : Value) : Settles (tollOf v) ↔ v.isInfinite = false := settles_amount (settles_ok _)

/-- A charge is read field by field. -/
theorem settles_charge {β γ : Type} {amountOf : Value → Except Fault β} {make : α → β → γ}
    (hamount : ∀ v, Settles (amountOf v) ↔ v.isInfinite = false) :
    Settles (do
      let fields ← v.toFields
      let kind ← Value.choice ofWord? choices (← Value.require fields "type")
      let amount ← amountOf (valueOr1 fields)
      pure (make kind amount)) ↔ ChargeFormed ofWord? choices v := by
  refine Value.settles_toFields_bind.trans (exists_congr fun fields => and_congr_right fun _ => ?_)
  refine Value.settles_require_bind.trans (exists_congr fun type => and_congr_right fun _ => ?_)
  refine (settles_bind fun kind _ => ?_).trans (and_iff_right (Value.settles_choice _ _ _))
  exact (settles_bind_settles fun amount => settles_pure _).trans (hamount _)

theorem settles_costOf (v : Value) : Settles (costOf v) ↔ ChargeFormed CostKind.ofWord? "CostType" v :=
  settles_charge settles_priceOf

theorem settles_aftermathOf (v : Value) :
    Settles (aftermathOf v) ↔ ChargeFormed AftermathKind.ofWord? "PostConditionType" v :=
  settles_charge settles_tollOf

theorem settles_excavationOf (v : Value) : Settles (excavationOf v) ↔ ExcavationFormed v := by
  refine Value.settles_item_bind.trans (exists_congr fun fields => ?_)
  constructor
  · rintro ⟨rfl, count, hcount, h⟩
    obtain ⟨hwhole, hpick⟩ := OnlyFaults.bind_iff.1 h
    refine ⟨rfl, count, hcount, (Value.settles_toWhole count).1 hwhole, fun ⟨n, hn⟩ => ?_⟩
    obtain ⟨pick, hpick, h⟩ := Value.settles_require_bind.1 (hpick n hn)
    exact ⟨pick, hpick, (Value.settles_toWhole pick).1 ((settles_bind_settles fun _ => settles_pure _).1 h)⟩
  · rintro ⟨rfl, count, hcount, hwhole, hpick⟩
    refine ⟨rfl, count, hcount, OnlyFaults.bind_iff.2 ⟨(Value.settles_toWhole count).2 hwhole, fun n hn => ?_⟩⟩
    obtain ⟨pick, hpick, hwhole'⟩ := hpick ⟨n, hn⟩
    refine Value.settles_require_bind.2 ⟨pick, hpick, ?_⟩
    exact (settles_bind_settles fun _ => settles_pure _).2 ((Value.settles_toWhole pick).2 hwhole')

/-- **An effect is read part by part.** -/
theorem settles_ofValue (v : Value) : Settles (ofValue v) ↔ Formed v := by
  refine Value.settles_toFields_bind.trans (exists_congr fun fields => and_congr_right fun _ => ?_)
  refine (settles_bind fun cost _ => ?_).trans (and_congr_left' (settles_optional (settles_costOf _)))
  refine (settles_bind fun excavation _ => ?_).trans (and_congr_left' (settles_optional (settles_excavationOf _)))
  refine (settles_bind fun aftermath _ => ?_).trans (and_congr_left' (settles_optional (settles_aftermathOf _)))
  refine (settles_bind fun draws _ => ?_).trans (and_congr_left' (settles_optional (Value.settles_toWhole _)))
  refine (settles_bind_settles fun items => ?_).trans ((Value.settles_toItemsOrNone _).trans inTurn_singleton.symm)
  refine (settles_bind_settles fun restrictions => settles_pure _).2 ((settles_mapM items).2 (inTurn_of_forall ?_))
  exact List.forall_mem_map.2 fun item _ => Value.settles_choice _ _ item

end Effect

/-! ### Decks -/

/-- The document of an entry: if it has fields, its number of copies is looked at first. -/
def DeckEntry.Formed (card : String) (v : Value) : Prop :=
  ∀ fields : Entries, v = .map fields → InTurn
    [⟨True, Succeeds (copiesOf card ((fields.get? "qty").getD (.int 1)))⟩,
      ⟨(fields.get "tags").holdsItems = true, Succeeds (fields.get "tags").toItemsOrNone⟩,
      ⟨(fields.get "free").truthy = true → Effect.Formed (fields.get "free"), True⟩]

/-- The document of a deck. -/
def DeckList.Formed (v : Value) : Prop :=
  ∀ entries : Entries, v = .map entries → InTurn (entries.map fun e =>
    ⟨DeckEntry.Formed e.1.shown e.2.opened, Succeeds (DeckEntry.ofValue e.1.shown e.2.opened)⟩)

/-- The document of a deck file. -/
def DeckFile.Formed (v : Value) : Prop :=
  ∀ fields : Entries, v = .map fields → InTurn
    [⟨DeckList.Formed (fields.get "deck"), Succeeds (DeckList.ofValue (fields.get "deck"))⟩,
      ⟨(fields.get "conditions").holdsItems = true, True⟩]

theorem DeckEntry.settles_copiesOf (card : String) (v : Value) : Settles (copiesOf card v) := by
  unfold copiesOf
  split
  · split
    · exact settles_ok _
    · exact (settles_error _).2 rfl
  · exact (settles_error _).2 rfl

theorem DeckEntry.settles_ofValue (card : String) (v : Value) : Settles (ofValue card v) ↔ Formed card v := by
  have hmap : ∀ fields : Entries, Settles (ofValue card (.map fields)) ↔ Formed card (.map fields) := by
    intro fields
    simp only [Formed, Value.map.injEq, forall_eq']
    refine (settles_bind fun copies _ => ?_).trans (and_congr_left' (iff_true_intro (settles_copiesOf _ _)))
    refine (settles_bind fun tags _ => ?_).trans (and_congr_left' (Value.settles_toItemsOrNone _))
    refine (settles_bind_settles fun effect => settles_pure _).trans ?_
    exact (Effect.settles_optional (Effect.settles_ofValue _)).trans inTurn_singleton.symm
  cases v with
  | map fields => exact hmap fields
  | null =>
      -- the empty value is read like a mapping without entries
      refine iff_of_true ((hmap []).2 fun fields h => ?_) fun fields h => by cases h
      obtain rfl := Value.map.inj h
      refine inTurn_of_forall (List.forall_mem_cons.2 ⟨trivial, List.forall_mem_cons.2 ⟨rfl, ?_⟩⟩)
      exact List.forall_mem_singleton.2 nofun
  | _ => exact iff_of_true (fun f h => by cases h; rfl) fun fields h => by cases h

theorem DeckList.settles_ofValue (v : Value) : Settles (ofValue v) ↔ Formed v := by
  cases v with
  | map entries =>
      simp only [Formed, Value.map.injEq, forall_eq']
      refine (settles_bind_settles fun l => settles_pure _).trans ((settles_mapM entries).trans (Iff.of_eq ?_))
      refine congrArg InTurn (List.map_congr_left fun e _ => congrArg₂ Part.mk (propext ?_) (propext ?_))
      · exact (settles_bind_settles fun entry => settles_pure _).trans (DeckEntry.settles_ofValue _ _)
      · exact succeeds_bind_pure
  | null => exact iff_of_true (settles_ok _) fun entries h => by cases h
  | _ => exact iff_of_true (fun f h => by cases h; rfl) fun entries h => by cases h

namespace DeckFile

theorem settles_ofJsonDocument (v : Value) : Settles (ofJsonDocument v) ↔ Formed v := by
  cases v with
  | map fields =>
      simp only [Formed, Value.map.injEq, forall_eq']
      refine (settles_bind fun deck _ => ?_).trans (and_congr_left' (DeckList.settles_ofValue _))
      refine (settles_bind_settles fun conditions => settles_pure _).trans ?_
      exact (Value.settles_toItemsOrNone _).trans inTurn_singleton.symm
  | _ => exact iff_of_true (fun f h => by cases h; rfl) fun fields h => by cases h

end DeckFile

/-! ### The other faults -/

/-- A fault of a part that has not the form that its reader relies on. -/
def Fault.IsStray (f : Fault) : Prop :=
  f = .wrongKind ∨ f = .noField ∨ f = .tooLarge ∨ ∃ key ∈ ["type", "count", "pick"], f = .missingKey (.text key)

/-- A reading that is not refused with anything but faults about values and stray ones. -/
def Strays {α : Type} (x : Except Fault α) : Prop := OnlyFaults (fun f => f.isValue = true ∨ f.IsStray) x

section

variable {α β : Type} {x : Except Fault α}

theorem Settles.strays (h : Settles x) : Strays x := fun f hf => Or.inl (h f hf)

theorem strays_error {f : Fault} (h : f.IsStray) : Strays (.error f : Except Fault α) := .error (Or.inr h)

theorem Strays.bind {f : α → Except Fault β} (hx : Strays x) (hf : ∀ a, Strays (f a)) : Strays (x >>= f) :=
  OnlyFaults.bind hx fun a _ => hf a

theorem Strays.map {f : α → β} (hx : Strays x) : Strays (x.map f) := OnlyFaults.map_iff.2 hx

theorem strays_mapM {f : α → Except Fault β} (hf : ∀ a, Strays (f a)) (l : List α) : Strays (l.mapM f) := by
  induction l with
  | nil => exact (settles_ok _).strays
  | cons a l ih =>
      rw [List.mapM_cons]
      exact (hf a).bind fun b => ih.bind fun bs => (settles_ok _).strays

end

namespace Value

theorem strays_toWhole (v : Value) : Strays v.toWhole := by
  by_cases h : v.holdsWhole = true
  · exact ((settles_toWhole v).2 h).strays
  · cases v with
    | float x =>
        cases x with
        | infinite negative => exact strays_error (Or.inr (Or.inr (Or.inl rfl)))
        | _ => exact absurd rfl h
    | bool b => exact absurd rfl h
    | int i => exact absurd rfl h
    | text s => exact absurd rfl h
    | bytes l => exact absurd rfl h
    | _ => exact strays_error (Or.inl rfl)

theorem strays_toItemsOrNone (v : Value) : Strays v.toItemsOrNone := by
  unfold toItemsOrNone
  split
  · cases v <;> first | exact (settles_ok _).strays | exact strays_error (Or.inl rfl)
  · exact (settles_ok _).strays

theorem strays_toFields (v : Value) : Strays v.toFields := by
  cases v with
  | map fields => exact (settles_ok _).strays
  | _ => exact strays_error (Or.inr (Or.inl rfl))

theorem strays_require {key : String} (h : key ∈ ["type", "count", "pick"]) (fields : Entries) :
    Strays (require fields key) := by
  unfold require
  split
  · exact (settles_ok _).strays
  · exact strays_error (Or.inr (Or.inr (Or.inr ⟨key, h, rfl⟩)))

theorem strays_item {key : String} (h : key ∈ ["type", "count", "pick"]) (v : Value) : Strays (v.item key) := by
  cases v with
  | map fields => exact strays_require h fields
  | _ => exact strays_error (Or.inl rfl)

theorem strays_choice {α : Type} (ofWord? : String → Option α) (choices : String) (v : Value) :
    Strays (choice ofWord? choices v) := (settles_choice ofWord? choices v).strays

end Value

namespace Effect

open Value

theorem strays_optional {α : Type} {read : Value → Except Fault α} (hread : ∀ v, Strays (read v)) (v : Value) :
    Strays (optional read v) := by
  unfold optional
  split
  · exact (hread v).map
  · exact (settles_ok _).strays

theorem strays_amount {β : Type} {make : Int → β} {other : Except Fault β} {v : Value} (hother : Strays other) :
    Strays (if v.isNumeric then v.toWhole.map make else other) := by
  split
  · exact (strays_toWhole v).map
  · exact hother

theorem strays_priceOf (v : Value) : Strays (priceOf v) := by
  refine strays_amount ?_
  split <;> exact (settles_ok _).strays

theorem strays_tollOf (v : Value) : Strays (tollOf v) := strays_amount (settles_ok _).strays

theorem strays_charge {α β γ : Type} {ofWord? : String → Option α} {choices : String}
    {amountOf : Value → Except Fault β} {make : α → β → γ} (hamount : ∀ v, Strays (amountOf v)) (v : Value) :
    Strays (do
      let fields ← v.toFields
      let kind ← Value.choice ofWord? choices (← Value.require fields "type")
      let amount ← amountOf (valueOr1 fields)
      pure (make kind amount)) :=
  (strays_toFields v).bind fun fields => (strays_require (by decide) fields).bind fun type =>
    (strays_choice _ _ type).bind fun _ => (hamount _).bind fun _ => (settles_ok _).strays

theorem strays_costOf (v : Value) : Strays (costOf v) := strays_charge strays_priceOf v

theorem strays_aftermathOf (v : Value) : Strays (aftermathOf v) := strays_charge strays_tollOf v

theorem strays_excavationOf (v : Value) : Strays (excavationOf v) :=
  (strays_item (by decide) v).bind fun count => (strays_toWhole count).bind fun _ =>
    (strays_item (by decide) v).bind fun pick => (strays_toWhole pick).bind fun _ => (settles_ok _).strays

theorem strays_ofValue (v : Value) : Strays (ofValue v) :=
  (strays_toFields v).bind fun _ => (strays_optional strays_costOf _).bind fun _ =>
    (strays_optional strays_excavationOf _).bind fun _ => (strays_optional strays_aftermathOf _).bind fun _ =>
      (strays_optional strays_toWhole _).bind fun _ => (strays_toItemsOrNone _).bind fun items =>
        (strays_mapM (strays_choice _ _) items).bind fun _ => (settles_ok _).strays

end Effect

theorem DeckEntry.strays_ofValue (card : String) (v : Value) : Strays (ofValue card v) := by
  unfold ofValue
  dsimp only
  split
  · exact Settles.strays fun f h => by cases h; rfl
  · exact (settles_copiesOf _ _).strays.bind fun _ => (Value.strays_toItemsOrNone _).bind fun _ =>
      (Effect.strays_optional Effect.strays_ofValue _).bind fun _ => (settles_ok _).strays

theorem DeckList.strays_ofValue (v : Value) : Strays (ofValue v) := by
  unfold ofValue
  split
  · exact (settles_ok _).strays
  · refine (strays_mapM (fun e => ?_) _).bind fun l => (settles_ok _).strays
    exact (DeckEntry.strays_ofValue _ _).bind fun _ => (settles_ok _).strays
  · exact Settles.strays fun f h => by cases h; rfl

namespace DeckFile

theorem strays_ofJsonDocument (v : Value) : Strays (ofJsonDocument v) := by
  unfold ofJsonDocument
  split
  · exact (DeckList.strays_ofValue _).bind fun _ => (Value.strays_toItemsOrNone _).bind fun _ => (settles_ok _).strays
  · exact Settles.strays fun f h => by cases h; rfl

/-- **When a deck file in JSON is refused as it should be.** A text is read as a deck file, or refused with a fault
about a value, exactly if it is no JSON document or all parts of its document have their form, as far as the reading
comes. In all other cases the fault is one of four kinds: a value was not of the kind that is needed or had no fields, a
number was infinite, or one of three keys was missing. -/
theorem settles_ofJson_iff (text : String) :
    (Settles (ofJson text) ↔ ∀ v, Json.read? text = some v → Formed v) ∧
    ∀ f, ofJson text = .error f → f.isValue = true ∨ f.IsStray := by
  unfold ofJson
  cases Json.read? text with
  | none => exact ⟨iff_of_true (fun f h => by cases h; rfl) (by simp), fun f h => Or.inl (by cases h; rfl)⟩
  | some v => exact ⟨(settles_ofJsonDocument v).trans (by simp), strays_ofJsonDocument v⟩

/-- The document is written as a text that is refused with the fault. -/
def RefusedWith (document : Value) (f : Fault) : Prop := ∃ text, Json.write document = .ok text ∧ ofJson text = .error f

theorem refusedWith {document : Value} {f : Fault} (h : (Json.write document).map ofJson = .ok (.error f)) :
    RefusedWith document f := map_eq_ok.1 h

/-- The document of a deck with one free card. -/
def deckWith (free : Value) : Value := .record [("deck", .record [("A", .record [("free", free)])])]

/-- **A document may be refused as if its reader had failed.** The cost has no type, the effect is a list, the number of
draws is infinite, and the conditions are a number. None of these faults says that a value was not acceptable. -/
theorem ofJson_strays :
    (RefusedWith (deckWith (.record [("cost", .record [("value", .int 1)])])) (.missingKey (.text "type")) ∧
      RefusedWith (deckWith (.list [.int 1])) .noField ∧
      RefusedWith (deckWith (.record [("count", .float (.infinite false))])) .tooLarge ∧
      RefusedWith (.record [("conditions", .int 5)]) .wrongKind) ∧
    (Fault.missingKey (.text "type")).isValue = false ∧ Fault.noField.isValue = false ∧
      Fault.tooLarge.isValue = false ∧ Fault.wrongKind.isValue = false := by
  refine ⟨⟨refusedWith ?_, refusedWith ?_, refusedWith ?_, refusedWith ?_⟩, rfl, rfl, rfl, rfl⟩ <;> decide +kernel

end DeckFile

end OpeningHand
