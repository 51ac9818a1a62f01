import OpeningHand.Proofs.Condition.Decoding
import OpeningHand.Proofs.DeckFile.Json
import OpeningHand.Proofs.Trial.Audit

/-!
# Audits of deck files from JSON

What a deck file gives for its conditions is looked at only when it is audited, entry by entry: a text that parses and a
mapping that describes a condition are read (`Audit.ReadsAs`), and of a condition that is read the names of all leaves
are looked up. A text or a mapping that cannot be read is listed as bad. So one entry should not hide the others.

Two sorts of entries do hide them (`Audit.Stops`). An entry that is neither a text nor a mapping is taken for a condition
as it is, and found to be none only when its leaves are asked for. And a mapping on which the reading strays is refused
with a fault that is not one of reading. Both stop the whole audit with their own fault; without them the audit comes to
its end, and lists what it should (`Audit.ofFile_of_ofJson`).
-/

namespace OpeningHand.Audit

open Condition (Describes StraysWith)

/-- The entry is read as the condition. -/
inductive ReadsAs : Value → Condition → Prop
  | text {s : String} {c : Condition} (parsed : Condition.ofText s = .ok c) : ReadsAs (.text s) c
  | mapping {fields : Entries} {c : Condition} (described : Describes (.map fields) c) : ReadsAs (.map fields) c

/-- The entry stops an audit with the fault. -/
inductive Stops : Value → Fault → Prop
  | alien {v : Value} (noText : ∀ s, v ≠ .text s) (noMapping : ∀ fields, v ≠ .map fields) : Stops v (.unknownNode v.exact)
  | stray {fields : Entries} {f : Fault} (strays : StraysWith (.map fields) f) : Stops (.map fields) f

/-- The names in the conditions that are read and not among the keys, each with the number of its condition. -/
def unknownAmong (keys : List String) (read : List (Option Condition × Nat)) : List (Nat × String) :=
  read.flatMap fun p => match p.1 with
    | some c => ((c.leaves.map (·.name)).filter fun n => !keys.contains n).map (p.2, ·)
    | none => []

/-- The numbers of the entries that are not read. -/
def unreadAmong (read : List (Option Condition × Nat)) : List Nat := (read.filter (·.1.isNone)).map (·.2)

theorem unknownAmong_cons (keys : List String) (p : Option Condition × Nat) (read : List (Option Condition × Nat)) :
    unknownAmong keys (p :: read) = unknownAmong keys [p] ++ unknownAmong keys read := by
  simp [unknownAmong]

theorem not_stops_text (s : String) (f : Fault) : ¬ Stops (.text s) f := by
  rintro (⟨htext, -⟩ | -)
  exact htext s rfl

section Entries

variable {keys : List String} {v : Value} {i : Nat} {more : List (Given × Nat)}

/-! ### One entry -/

/-- An entry of a JSON document is read, or it cannot be read, or it stops the audit. -/
inductive Entry (v : Value) : Prop
  | read {c : Condition} (reads : ∀ c', ReadsAs v c' ↔ c' = c) (goes : ∀ f, ¬ Stops v f)
      (draft : (Given.document v).toDraft = .ok (.ofCondition c))
  | bad {f : Fault} (unread : ∀ c, ¬ ReadsAs v c) (goes : ∀ g, ¬ Stops v g)
      (draft : (Given.document v).toDraft = .error f) (value : f.isValue = true)
  | stop {f : Fault} (stops : ∀ g, Stops v g ↔ g = f)
      (ofConditions : ∀ keys i more, Audit.ofConditions keys ((.document v, i) :: more) = .error f)

theorem entry_text (s : String) : Entry (.text s) := by
  cases h : Condition.ofText s with
  | ok c =>
      refine .read (fun c' => ⟨?_, ?_⟩) (not_stops_text s) (map_eq_ok.2 ⟨c, h, rfl⟩)
      · rintro ⟨h'⟩
        exact Except.ok.inj (h'.symm.trans h)
      · rintro rfl
        exact .text h
  | error f =>
      refine .bad ?_ (not_stops_text s) (map_eq_error.2 h) (Condition.isValue_of_ofText h)
      rintro c ⟨h'⟩
      cases h'.symm.trans h

theorem entry_mapping {fields : Entries} (hv : (Value.map fields).IsJson) : Entry (.map fields) := by
  obtain ⟨hok, herror, hstrays⟩ := Condition.readsWithin hv (Nat.le_refl _)
  have described : ∀ c, ReadsAs (.map fields) c ↔ Condition.ofValue (.map fields) = .ok c := by
    refine fun c => ⟨fun h => ?_, fun h => .mapping (hok.1 h)⟩
    cases h with
    | mapping h => exact hok.2 h
  have strays : ∀ f, Stops (.map fields) f → StraysWith (.map fields) f := by
    rintro f (⟨-, hmap⟩ | hs)
    · exact absurd rfl (hmap fields)
    · exact hs
  cases h : Condition.ofValue (.map fields) with
  | ok c =>
      refine .read (fun c' => ?_) (fun f hf => ?_) (map_eq_ok.2 ⟨c, h, rfl⟩)
      · rw [described, h, Except.ok.injEq, eq_comm]
      · cases (hstrays (strays f hf)).symm.trans h
  | error f =>
      have unread : ∀ c, ¬ ReadsAs (.map fields) c := by
        intro c hc
        cases h.symm.trans ((described c).1 hc)
      have hfault : ∀ g, Stops (.map fields) g → g = f := fun g hg =>
        Except.error.inj ((hstrays (strays g hg)).symm.trans h)
      have hdraft : (Given.document (.map fields)).toDraft = .error f := map_eq_error.2 h
      rcases herror h with hmalformed | hs
      · have hvalue : f.isValue = true := by
          rw [Fault.isValue, hmalformed]
          rfl
        refine .bad unread (fun g hg => ?_) hdraft hvalue
        obtain rfl := hfault g hg
        rcases (strays g hg).cases_fault with rfl | rfl | rfl <;> cases hvalue
      · refine .stop (fun g => ⟨hfault g, by rintro rfl; exact .stray hs⟩) fun keys i more => ?_
        rw [Audit.ofConditions, hdraft]
        rcases hs.cases_fault with rfl | rfl | rfl <;> rfl

theorem entry (hv : v.IsJson) : Entry v := by
  cases v with
  | text s => exact entry_text s
  | map fields => exact entry_mapping hv
  | _ => exact .stop (fun g => ⟨by rintro ⟨⟩; rfl, by rintro rfl; exact .alien nofun nofun⟩) fun _ _ _ => rfl

theorem ofConditions_cons_read {c : Condition} (hdraft : (Given.document v).toDraft = .ok (.ofCondition c)) :
    ofConditions keys ((.document v, i) :: more) = (ofConditions keys more).map fun rest =>
      ⟨rest.bad, unknownAmong keys [(some c, i)] ++ rest.unknown⟩ := by
  rw [ofConditions, hdraft]
  simp only [Draft.names_ofCondition, unknownAmong, List.flatMap_singleton]
  cases ofConditions keys more <;> rfl

theorem ofConditions_cons_bad {f : Fault} (hdraft : (Given.document v).toDraft = .error f) (hvalue : f.isValue = true) :
    ofConditions keys ((.document v, i) :: more) = (ofConditions keys more).map fun rest =>
      ⟨(i, v.shown, f.message) :: rest.bad, rest.unknown⟩ := by
  rw [ofConditions, hdraft]
  simp only [hvalue, if_true]
  cases ofConditions keys more <;> rfl

/-! ### All entries -/

/-- The first of the entries that stops an audit stops it with the fault. -/
def FirstStops (l : List Value) (f : Fault) : Prop :=
  ∃ before v after, l = before ++ v :: after ∧ Stops v f ∧ ∀ w ∈ before, ∀ g, ¬ Stops w g

theorem not_firstStops_nil (f : Fault) : ¬ FirstStops [] f := by
  rintro ⟨before, v, after, h, -⟩
  simp at h

theorem firstStops_cons_of_goes {l : List Value} {f : Fault} (goes : ∀ g, ¬ Stops v g) :
    FirstStops (v :: l) f ↔ FirstStops l f := by
  constructor
  · rintro ⟨before, w, after, h, hstops, hbefore⟩
    rcases List.cons_eq_append_iff.1 h with ⟨rfl, h⟩ | ⟨before, rfl, h⟩
    · obtain ⟨rfl, rfl⟩ := List.cons.inj h
      exact absurd hstops (goes f)
    · exact ⟨before, w, after, (List.cons.inj h).2, hstops, fun x hx => hbefore x (.tail _ hx)⟩
  · rintro ⟨before, w, after, rfl, hstops, hbefore⟩
    exact ⟨v :: before, w, after, rfl, hstops, List.forall_mem_cons.2 ⟨goes, hbefore⟩⟩

theorem firstStops_cons_of_stops {l : List Value} {f g : Fault} (stops : ∀ g, Stops v g ↔ g = f) :
    FirstStops (v :: l) g ↔ g = f := by
  constructor
  · rintro ⟨before, w, after, h, hstops, hbefore⟩
    rcases List.cons_eq_append_iff.1 h with ⟨rfl, h⟩ | ⟨before, rfl, h⟩
    · obtain ⟨rfl, rfl⟩ := List.cons.inj h
      exact (stops g).1 hstops
    · exact absurd ((stops f).2 rfl) (hbefore v (.head _) f)
  · rintro rfl
    exact ⟨[], v, l, rfl, (stops g).2 rfl, by simp⟩

/-- The condition that is read from the entry, if it is read as one. -/
def ComesTo (v : Value) (read : Option Condition) : Prop := ∀ c, ReadsAs v c ↔ read = some c

/-- What an audit of the entries gives: it stops where the first of them stops it, and otherwise lists what is not read
and what is not known. -/
structure AuditsFrom (keys : List String) (l : List Value) (i : Nat) (result : Except Fault Audit) : Prop where
  error : ∀ f, result = .error f ↔ FirstStops l f
  ok : (∀ f, ¬ FirstStops l f) → ∃ a read, result = .ok a ∧ List.Forall₂ ComesTo l read ∧
    a.bad.map (·.1) = unreadAmong (read.zipIdx i) ∧ a.unknown = unknownAmong keys (read.zipIdx i)

theorem auditsFrom (keys : List String) {l : List Value} (hl : ∀ v ∈ l, v.IsJson) (i : Nat) :
    AuditsFrom keys l i (ofConditions keys ((l.map Given.document).zipIdx i)) := by
  induction l generalizing i with
  | nil => exact ⟨fun f => iff_of_false nofun (not_firstStops_nil f), fun _ => ⟨_, [], rfl, .nil, rfl, rfl⟩⟩
  | cons v l ih =>
      obtain ⟨hv, hl⟩ := List.forall_mem_cons.1 hl
      have ih := ih hl (i + 1)
      rw [List.map_cons, List.zipIdx_cons]
      cases entry hv with
      | @read c reads goes draft =>
          rw [ofConditions_cons_read draft]
          refine ⟨fun f => ?_, fun hgo => ?_⟩
          · rw [map_eq_error, ih.error, firstStops_cons_of_goes goes]
          · obtain ⟨a, read, ha, hread, hbad, hunknown⟩ := ih.ok fun f hf =>
              hgo f ((firstStops_cons_of_goes goes).2 hf)
            have hv : ComesTo v (some c) := fun c' => by rw [reads, Option.some.injEq, eq_comm]
            refine ⟨_, some c :: read, map_eq_ok.2 ⟨a, ha, rfl⟩, .cons hv hread, hbad, ?_⟩
            rw [List.zipIdx_cons, unknownAmong_cons keys (some c, i) (read.zipIdx (i + 1)), hunknown]
      | bad unread goes draft value =>
          rw [ofConditions_cons_bad draft value]
          refine ⟨fun f => ?_, fun hgo => ?_⟩
          · rw [map_eq_error, ih.error, firstStops_cons_of_goes goes]
          · obtain ⟨a, read, ha, hread, hbad, hunknown⟩ := ih.ok fun f hf =>
              hgo f ((firstStops_cons_of_goes goes).2 hf)
            have hv : ComesTo v none := fun c => iff_of_false (unread c) nofun
            refine ⟨_, none :: read, map_eq_ok.2 ⟨a, ha, rfl⟩, .cons hv hread, ?_, hunknown⟩
            rw [List.map_cons, hbad]
            rfl
      | stop stops hstop =>
          rw [hstop]
          refine ⟨fun f => ?_, fun hgo => absurd ((firstStops_cons_of_stops stops).2 rfl) (hgo _)⟩
          rw [firstStops_cons_of_stops stops, Except.error.injEq, eq_comm]

theorem mem_unreadAmong {l : List Value} {read : List (Option Condition)} (h : List.Forall₂ ComesTo l read) {i : Nat} :
    i ∈ unreadAmong read.zipIdx ↔ ∃ v, l[i]? = some v ∧ ∀ c, ¬ ReadsAs v c := by
  have hnone : i ∈ unreadAmong read.zipIdx ↔ read[i]? = some none := by
    simp [unreadAmong, List.mk_mem_zipIdx_iff_getElem?]
  rw [hnone]
  clear hnone
  induction h generalizing i with
  | nil => simp
  | @cons v o l read hv h ih =>
      cases i with
      | zero => cases o <;> simp [hv _]
      | succ i => simpa using ih

end Entries

/-- **What an audit of a deck file from JSON comes to.** It is stopped exactly by the first entry that is neither a text
nor a mapping or on which the reading strays, and with the fault of this entry. If there is none, the audit comes to its
end: an entry is listed as bad exactly if it is read as no condition, and of all that are read, entry by entry and leaf
by leaf, the names are listed that no entry of the deck has as its name or tag. -/
theorem ofFile_of_ofJson {source : String} {f : DeckFile} (h : DeckFile.ofJson source = .ok f) :
    ∃ l : List Value, f.conditions = l.map .document ∧
      (∀ e, ofFile f = .error e ↔ FirstStops l e) ∧
      ((∀ v ∈ l, ∀ e, ¬ Stops v e) → ∃ a read, ofFile f = .ok a ∧
        (∀ i, i ∈ a.bad.map (·.1) ↔ ∃ v, l[i]? = some v ∧ ∀ c, ¬ ReadsAs v c) ∧
        List.Forall₂ ComesTo l read ∧ a.bad.map (·.1) = unreadAmong read.zipIdx ∧
        a.unknown = unknownAmong f.deck.keys read.zipIdx) := by
  obtain ⟨l, hl, hjson⟩ := (DeckFile.fromJson_of_ofJson h).conditions
  have haudits := auditsFrom f.deck.keys hjson 0
  rw [← hl] at haudits
  refine ⟨l, hl, haudits.error, fun hgo => ?_⟩
  obtain ⟨a, read, ha, hread, hbad, hunknown⟩ := haudits.ok fun e he => by
    obtain ⟨before, v, after, rfl, hstops, -⟩ := he
    exact hgo v (by simp) e hstops
  refine ⟨a, read, ha, fun i => ?_, hread, hbad, hunknown⟩
  rw [hbad, mem_unreadAmong hread]

/-- A deck file with one card, and with these conditions, in JSON. -/
def withConditions (conditions : String) : String :=
  "\x7b\"deck\": \x7b\"A\": \x7b\x7d\x7d, \"conditions\": " ++ conditions ++ "\x7d"

/-- The first text names a card that the deck does not have, the second one cannot be read. -/
theorem ofFile_of_ofJson_texts :
    ∃ f a, DeckFile.ofJson (withConditions "[\"1+ B AND 1+ A\", \"(\"]") = .ok f ∧ ofFile f = .ok a ∧
      0 ∉ a.bad.map (·.1) ∧ 1 ∈ a.bad.map (·.1) := by
  have hread : DeckFile.ofJson (withConditions "[\"1+ B AND 1+ A\", \"(\"]") = .ok
      ⟨[("A", ⟨1, [], none⟩)], [.document (.text "1+ B AND 1+ A"), .document (.text "(")], .null⟩ := by
    decide +kernel
  obtain ⟨l, hl, -, hall⟩ := ofFile_of_ofJson hread
  have hinjective : Function.Injective Given.document := fun _ _ => Given.document.inj
  obtain rfl : [.text "1+ B AND 1+ A", .text "("] = l := List.map_injective_iff.2 hinjective hl
  obtain ⟨a, read, ha, hbad, -⟩ := hall (by simp [not_stops_text])
  refine ⟨_, a, hread, ha, ?_, ?_⟩
  · rintro hzero
    obtain ⟨v, hv, hno⟩ := (hbad 0).1 hzero
    obtain rfl := Option.some.inj hv
    have hparsed : Condition.ofText "1+ B AND 1+ A" =
        .ok (.joint .and (.leaf ⟨"B", 1, .atLeast, .hand⟩) (.leaf ⟨"A", 1, .atLeast, .hand⟩) false) := by decide +kernel
    exact hno _ (.text hparsed)
  · refine (hbad 1).2 ⟨_, rfl, ?_⟩
    rintro c ⟨hparsed⟩
    have hrefused : (Condition.ofText "(").toOption = none := by decide +kernel
    rw [hparsed] at hrefused
    cases hrefused

/-- **One condition can stop the audit of all others**: a number, which is not listed as bad although it is no condition,
and a mapping with a list for a count. Before both there is a condition that cannot be read, and would be listed. -/
theorem ofFile_stops :
    (∃ f, DeckFile.ofJson (withConditions "[\"(\", 5]") = .ok f ∧ ofFile f = .error (.unknownNode "5")) ∧
    ∃ f, DeckFile.ofJson (withConditions "[\"(\", \x7b\"kind\": \"card\", \"cardName\": \"A\", \"cardCount\": []\x7d]") = .ok f ∧
      ofFile f = .error .wrongKind := by
  have hstops : ∀ {source e}, (DeckFile.ofJson source).map ofFile = .ok (.error e) →
      ∃ f, DeckFile.ofJson source = .ok f ∧ ofFile f = .error e := map_eq_ok.1
  exact ⟨hstops (by decide +kernel), hstops (by decide +kernel)⟩

end OpeningHand.Audit
