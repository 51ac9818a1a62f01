import OpeningHand.Condition.Tree
import OpeningHand.Proofs.DeckFile.Faults
import OpeningHand.Proofs.Json.Values

/-!
# What the document of a condition can be refused with

A document that describes no condition should be refused as malformed, however deep the flaw lies: a missing field, a
word that is none of a list, a text that is no number all come out as a malformed condition. The reader takes the form
of two fields for granted, though. The count of a leaf may be a list, a mapping or the empty value, or it may be
infinite, and the mark of a joint may be something that has no fields. Then the reading stops with another fault, and
no joint around it changes that.

`Condition.Describes` says which condition a document describes, field by field, and `Condition.StraysWith` where the
reading leaves the way. The reader comes to a condition exactly if the document describes it, and whatever it comes to
otherwise is a malformed condition or one of these strays (`Condition.ofValue_of_isJson`).
-/

namespace OpeningHand

/-! ### Members lie less deep -/

namespace Value

theorem depth_pos (v : Value) : 0 < v.depth := by
  cases v <;> simp [depth]

theorem depth_le_depthEntries {entries : Entries} {e : Value × Value} (he : e ∈ entries) :
    e.2.depth ≤ depth.depthEntries entries := by
  induction entries with
  | nil => cases he
  | cons f entries ih =>
      rw [depth.depthEntries]
      rcases List.mem_cons.1 he with rfl | he
      · exact le_max_left _ _
      · exact (ih he).trans (le_max_right _ _)

/-- A field of a JSON mapping is less deep than the mapping. -/
theorem IsJson.depth_lt {entries : Entries} (h : (Value.map entries).IsJson) {key : String} {v : Value}
    (hv : entries.get? key = some v) : v.depth < (Value.map entries).depth := by
  obtain ⟨e, he, rfl⟩ := Option.map_eq_some_iff.1 hv
  have hmem := List.mem_of_find?_eq_some he
  rw [(h.value hmem).opened, depth]
  exact Nat.lt_succ_of_le (depth_le_depthEntries hmem)

/-! ### Words and numbers -/

theorem require_eq_ok {entries : Entries} {key : String} {v : Value} :
    require entries key = .ok v ↔ entries.get? key = some v := by
  unfold require
  cases entries.get? key <;> simp

theorem require_eq_error {entries : Entries} {key : String} {f : Fault} :
    require entries key = .error f ↔ entries.get? key = none ∧ f = .missingKey (.text key) := by
  unfold require
  cases entries.get? key <;> simp [eq_comm]

/-- A word of a list is read exactly if the value is this word. -/
theorem choice_eq_ok {α : Type} {ofWord? : String → Option α} {word : α → String}
    (hof : ∀ a, ofWord? (word a) = some a) (hword : ∀ {s a}, ofWord? s = some a → word a = s) {choices : String}
    {v : Value} {a : α} : choice ofWord? choices v = .ok a ↔ v = .text (word a) := by
  constructor
  · intro h
    unfold choice at h
    split at h
    · split at h
      · rename_i b hb
        obtain rfl := Except.ok.inj h
        rw [hword hb]
      · cases h
    · cases h
  · rintro rfl
    simp only [choice, hof]

/-- What cannot be taken for a whole number and is not refused as none: an infinity, and what is neither a number nor
written as one. -/
theorem toWhole_eq_error {v : Value} {f : Fault} (h : v.toWhole = .error f) :
    f.isValue = true ∨ v.isInfinite = true ∧ f = .tooLarge ∨
      v.holdsWhole = false ∧ v.isInfinite = false ∧ f = .wrongKind := by
  by_cases hwhole : v.holdsWhole = true
  · exact Or.inl ((settles_toWhole v).2 hwhole f h)
  · cases v with
    | float x =>
        cases x with
        | infinite negative => exact Or.inr (Or.inl ⟨rfl, (Except.error.inj h).symm⟩)
        | _ => exact absurd rfl hwhole
    | bool b => exact absurd rfl hwhole
    | int i => exact absurd rfl hwhole
    | text s => exact absurd rfl hwhole
    | bytes l => exact absurd rfl hwhole
    | _ => exact Or.inr (Or.inr ⟨rfl, rfl, (Except.error.inj h).symm⟩)

theorem toWhole_of_isInfinite {v : Value} (h : v.isInfinite = true) : v.toWhole = .error .tooLarge := by
  cases v with
  | float x => cases x <;> first | rfl | cases h
  | _ => cases h

theorem toWhole_of_holdsWhole_eq_false {v : Value} (hwhole : v.holdsWhole = false) (h : v.isInfinite = false) :
    v.toWhole = .error .wrongKind := by
  cases v with
  | float x => cases x <;> simp_all [holdsWhole, isInfinite]
  | bool | int | text | bytes => cases hwhole
  | _ => rfl

end Value

theorem Comparison.word_of_ofWord? {s : String} {c : Comparison} (h : Comparison.ofWord? s = some c) : c.word = s :=
  by simpa using List.find?_some h

namespace Condition

/-! ### What a document describes -/

/-- The value of `render` says whether a joint stood in parentheses. -/
inductive Marks : Value → Bool → Prop
  | absent {v : Value} (falsy : v.truthy = false) : Marks v false
  | fields (entries : Entries) : Marks (.map entries) (entries.get "hasParentheses").truthy

/-- The document describes the condition. The fields of a leaf but its name may be left out; a name is whatever stands
there, as shown. -/
inductive Describes : Value → Condition → Prop
  | leaf {fields : Entries} {name : Value} {count : Int} {comparison : Comparison} {place : Place}
      (kind : fields.get "kind" = .text "card") (named : fields.get? "cardName" = some name)
      (counted : ((fields.get? "cardCount").getD (.int 1)).toWhole = .ok count)
      (compared : (fields.get? "operator").getD (.text "AT_LEAST") = .text comparison.word)
      (placed : (fields.get? "location").getD (.text "HAND") = .text place.word) :
      Describes (.map fields) (.leaf ⟨name.shown, count, comparison, place⟩)
  | joint {fields : Entries} {j : Joint} {va vb : Value} {a b : Condition} {grouped : Bool}
      (kind : fields.get "kind" = .text "logic") (typed : fields.get? "type" = some (.text j.word))
      (left : fields.get? "conditionA" = some va) (hleft : Describes va a)
      (right : fields.get? "conditionB" = some vb) (hright : Describes vb b)
      (marked : Marks (fields.get "render") grouped) :
      Describes (.map fields) (.joint j a b grouped)

/-- The reading of the document leaves the way, with this fault: the count of a leaf that has a name is infinite or no
number at all, or, once the fields before are read, a side of a joint strays or its mark has no fields. -/
inductive StraysWith : Value → Fault → Prop
  | infinite {fields : Entries} {name count : Value} (kind : fields.get "kind" = .text "card")
      (named : fields.get? "cardName" = some name) (counted : fields.get? "cardCount" = some count)
      (infinite : count.isInfinite = true) : StraysWith (.map fields) .tooLarge
  | uncounted {fields : Entries} {name count : Value} (kind : fields.get "kind" = .text "card")
      (named : fields.get? "cardName" = some name) (counted : fields.get? "cardCount" = some count)
      (unwhole : count.holdsWhole = false) (finite : count.isInfinite = false) : StraysWith (.map fields) .wrongKind
  | left {fields : Entries} {j : Joint} {va : Value} {f : Fault} (kind : fields.get "kind" = .text "logic")
      (typed : fields.get? "type" = some (.text j.word)) (left : fields.get? "conditionA" = some va)
      (hleft : StraysWith va f) : StraysWith (.map fields) f
  | right {fields : Entries} {j : Joint} {va vb : Value} {a : Condition} {f : Fault}
      (kind : fields.get "kind" = .text "logic") (typed : fields.get? "type" = some (.text j.word))
      (left : fields.get? "conditionA" = some va) (hleft : Describes va a)
      (right : fields.get? "conditionB" = some vb) (hright : StraysWith vb f) : StraysWith (.map fields) f
  | unmarked {fields : Entries} {j : Joint} {va vb : Value} {a b : Condition}
      (kind : fields.get "kind" = .text "logic") (typed : fields.get? "type" = some (.text j.word))
      (left : fields.get? "conditionA" = some va) (hleft : Describes va a)
      (right : fields.get? "conditionB" = some vb) (hright : Describes vb b)
      (truthy : (fields.get "render").truthy = true) (unmarked : ∀ entries, fields.get "render" ≠ .map entries) :
      StraysWith (.map fields) .noField

theorem StraysWith.cases_fault {v : Value} {f : Fault} (h : StraysWith v f) :
    f = .tooLarge ∨ f = .wrongKind ∨ f = .noField := by
  induction h with
  | infinite => exact Or.inl rfl
  | uncounted => exact Or.inr (Or.inl rfl)
  | left _ _ _ _ ih => exact ih
  | right _ _ _ _ _ _ ih => exact ih
  | unmarked => exact Or.inr (Or.inr rfl)

/-! ### Reading -/

/-- A fault of a part is reported as a malformed condition, or it is a fault of another kind and stays. -/
theorem mapError_wrapped_eq_error {α : Type} {kind : String} {x : Except Fault α} {f : Fault}
    (h : x.mapError (wrapped kind) = .error f) :
    f.kind = .malformed ∨ x = .error f ∧ f.isValue = false ∧ f.kind ≠ .missingKey := by
  obtain ⟨g, hg, rfl⟩ := mapError_eq_error.1 h
  by_cases hreported : (g.isValue || g.kind == .missingKey) = true
  · exact Or.inl (by rw [wrapped, if_pos hreported]; rfl)
  · rw [wrapped, if_neg hreported]
    exact Or.inr ⟨hg, by simpa using hreported⟩

theorem StraysWith.mapError_wrapped {α : Type} {v : Value} {f : Fault} (hf : StraysWith v f) {kind : String}
    {x : Except Fault α} (hx : x = .error f) : x.mapError (wrapped kind) = .error f := by
  refine mapError_eq_error.2 ⟨f, hx, ?_⟩
  rcases hf.cases_fault with rfl | rfl | rfl <;> rfl

/-- The joint that the fields of a document describe, with a reader for its sides. -/
def jointOfFields (read : Value → Except Fault Condition) (fields : Entries) : Except Fault Condition := do
  let j ← Value.choice Joint.ofWord? "LogicType" (← Value.require fields "type")
  let a ← read (← Value.require fields "conditionA")
  let b ← read (← Value.require fields "conditionB")
  let grouped ← groupedOfFields fields
  pure (.joint j a b grouped)

theorem ofValueWithin_leaf {n : Nat} {fields : Entries} (kind : fields.get "kind" = .text "card") :
    ofValueWithin (n + 1) (.map fields) = ((leafOfFields fields).map .leaf).mapError (wrapped "card") := by
  rw [ofValueWithin]
  simp only [kind, if_true]

theorem ofValueWithin_joint {n : Nat} {fields : Entries} (kind : fields.get "kind" = .text "logic") :
    ofValueWithin (n + 1) (.map fields) = (jointOfFields (ofValueWithin n) fields).mapError (wrapped "logic") := by
  rw [ofValueWithin]
  simp only [kind, if_true]
  rw [if_neg (by decide +kernel)]
  rfl

theorem leafOfFields_eq_ok {fields : Entries} {l : Leaf} : leafOfFields fields = .ok l ↔
    ∃ name, fields.get? "cardName" = some name ∧ l.name = name.shown ∧
      ((fields.get? "cardCount").getD (.int 1)).toWhole = .ok l.count ∧
      (fields.get? "operator").getD (.text "AT_LEAST") = .text l.comparison.word ∧
      (fields.get? "location").getD (.text "HAND") = .text l.place.word := by
  simp only [leafOfFields, bind_eq_ok, Value.require_eq_ok,
    Value.choice_eq_ok Comparison.ofWord?_word Comparison.word_of_ofWord?,
    Value.choice_eq_ok Place.ofWord?_word Place.word_of_ofWord?, pure, Except.pure, Except.ok.injEq]
  constructor
  · rintro ⟨name, hname, count, hcount, comparison, hcomparison, place, hplace, rfl⟩
    exact ⟨name, hname, rfl, hcount, hcomparison, hplace⟩
  · rintro ⟨name, hname, hshown, hcount, hcomparison, hplace⟩
    exact ⟨name, hname, _, hcount, _, hcomparison, _, hplace, by rw [← hshown]⟩

theorem groupedOfFields_eq (fields : Entries) : groupedOfFields fields =
    if (fields.get "render").truthy then
      (fields.get "render").toFields.map fun entries => (entries.get "hasParentheses").truthy
    else .ok false := by
  unfold groupedOfFields
  generalize fields.get "render" = render
  cases render <;> rfl

theorem groupedOfFields_eq_ok {fields : Entries} {grouped : Bool} :
    groupedOfFields fields = .ok grouped ↔ Marks (fields.get "render") grouped := by
  rw [groupedOfFields_eq]
  generalize fields.get "render" = render
  constructor
  · intro h
    split at h
    · obtain ⟨entries, hentries, rfl⟩ := map_eq_ok.1 h
      cases render with
      | map l =>
          obtain rfl := Except.ok.inj hentries
          exact .fields l
      | _ => cases hentries
    · rename_i hfalsy
      obtain rfl := Except.ok.inj h
      exact .absent (by simpa using hfalsy)
  · rintro (hfalsy | entries)
    · rw [if_neg (by simp [hfalsy])]
    · cases entries <;> rfl

theorem groupedOfFields_eq_error {fields : Entries} {f : Fault} : groupedOfFields fields = .error f ↔
    (fields.get "render").truthy = true ∧ (∀ entries, fields.get "render" ≠ .map entries) ∧ f = .noField := by
  rw [groupedOfFields_eq]
  generalize fields.get "render" = render
  split
  · rename_i htruthy
    rw [map_eq_error, and_iff_right htruthy]
    cases render <;> simp [Value.toFields, eq_comm]
  · rename_i hfalsy
    exact iff_of_false nofun fun h => hfalsy h.1

theorem jointOfFields_eq_ok {read : Value → Except Fault Condition} {fields : Entries} {c : Condition} :
    jointOfFields read fields = .ok c ↔ ∃ j va vb a b grouped, fields.get? "type" = some (.text (Joint.word j)) ∧
      fields.get? "conditionA" = some va ∧ read va = .ok a ∧ fields.get? "conditionB" = some vb ∧ read vb = .ok b ∧
      Marks (fields.get "render") grouped ∧ c = .joint j a b grouped := by
  simp only [jointOfFields, bind_eq_ok, Value.require_eq_ok, groupedOfFields_eq_ok,
    Value.choice_eq_ok Joint.ofWord?_word Joint.word_of_ofWord?, pure, Except.pure, Except.ok.injEq]
  constructor
  · rintro ⟨type, htype, j, rfl, va, hva, a, ha, vb, hvb, b, hb, grouped, hgrouped, rfl⟩
    exact ⟨j, va, vb, a, b, grouped, htype, hva, ha, hvb, hb, hgrouped, rfl⟩
  · rintro ⟨j, va, vb, a, b, grouped, htype, hva, ha, hvb, hb, hgrouped, rfl⟩
    exact ⟨_, htype, j, rfl, va, hva, a, ha, vb, hvb, b, hb, grouped, hgrouped, rfl⟩

/-! ### What a document is refused with -/

/-- A leaf that is not refused as malformed has a count that no number can be made of. -/
theorem straysWith_of_leafOfFields {fields : Entries} {f : Fault} (kind : fields.get "kind" = .text "card")
    (h : leafOfFields fields = .error f) (hvalue : f.isValue = false) (hkey : f.kind ≠ .missingKey) :
    StraysWith (.map fields) f := by
  rcases bind_eq_error.1 h with h | ⟨name, named, h⟩
  · obtain ⟨-, rfl⟩ := Value.require_eq_error.1 h
    exact absurd rfl hkey
  have named := Value.require_eq_ok.1 named
  rcases bind_eq_error.1 h with h | ⟨count, -, h⟩
  · cases counted : fields.get? "cardCount" with
    | none =>
        rw [counted] at h
        cases h
    | some count =>
        rw [counted] at h
        rcases Value.toWhole_eq_error h with hf | ⟨hinfinite, rfl⟩ | ⟨hunwhole, hfinite, rfl⟩
        · rw [hvalue] at hf
          cases hf
        · exact .infinite kind named counted hinfinite
        · exact .uncounted kind named counted hunwhole hfinite
  · -- a word that is none of its list is not acceptable
    have hsettles : Settles (.error f : Except Fault Leaf) := by
      rw [← h]
      exact (settles_bind_settles fun comparison => (settles_bind_settles fun place => settles_pure _).2
        (Value.settles_choice _ _ _)).2 (Value.settles_choice _ _ _)
    rw [settles_error, hvalue] at hsettles
    cases hsettles

/-- The fault of a joint comes from one of its sides, or from its mark, if it is not reported as malformed. -/
theorem jointOfFields_eq_error {read : Value → Except Fault Condition} {fields : Entries} {f : Fault}
    (h : jointOfFields read fields = .error f) (hvalue : f.isValue = false) (hkey : f.kind ≠ .missingKey) :
    ∃ j va, fields.get? "type" = some (.text (Joint.word j)) ∧ fields.get? "conditionA" = some va ∧
      (read va = .error f ∨ ∃ a vb, read va = .ok a ∧ fields.get? "conditionB" = some vb ∧
        (read vb = .error f ∨ ∃ b, read vb = .ok b ∧ groupedOfFields fields = .error f)) := by
  have hmissing : ∀ {key : String}, Value.require fields key ≠ .error f := by
    rintro key h
    obtain ⟨-, rfl⟩ := Value.require_eq_error.1 h
    exact hkey rfl
  rcases bind_eq_error.1 h with htype | ⟨type, typed, hchoice⟩
  · exact absurd htype hmissing
  rcases bind_eq_error.1 hchoice with hword | ⟨j, hj, hleft⟩
  · have hsettles : f.isValue = true := Value.settles_choice Joint.ofWord? "LogicType" type f hword
    rw [hvalue] at hsettles
    cases hsettles
  rcases bind_eq_error.1 hleft with hleft | ⟨va, left, hread⟩
  · exact absurd hleft hmissing
  rw [(Value.choice_eq_ok Joint.ofWord?_word Joint.word_of_ofWord?).1 hj] at typed
  refine ⟨j, va, Value.require_eq_ok.1 typed, Value.require_eq_ok.1 left, ?_⟩
  rcases bind_eq_error.1 hread with ha | ⟨a, ha, hright⟩
  · exact Or.inl ha
  rcases bind_eq_error.1 hright with hright | ⟨vb, right, hread⟩
  · exact absurd hright hmissing
  refine Or.inr ⟨a, vb, ha, Value.require_eq_ok.1 right, ?_⟩
  rcases bind_eq_error.1 hread with hb | ⟨b, hb, hmark⟩
  · exact Or.inl hb
  rcases bind_eq_error.1 hmark with hmark | ⟨grouped, -, hpure⟩
  · exact Or.inr ⟨b, hb, hmark⟩
  · cases hpure

theorem jointOfFields_eq {read : Value → Except Fault Condition} {fields : Entries} {j : Joint} {va : Value}
    (typed : fields.get? "type" = some (.text j.word)) (left : fields.get? "conditionA" = some va) :
    jointOfFields read fields = (do
      let a ← read va
      let b ← read (← Value.require fields "conditionB")
      let grouped ← groupedOfFields fields
      pure (.joint j a b grouped)) := by
  rw [jointOfFields, Value.require_eq_ok.2 typed, Value.require_eq_ok.2 left]
  simp only [bind, Except.bind, Value.choice, Joint.ofWord?_word]

/-- The reader with a bound on the depth comes to what the document describes, or strays where it does. -/
structure ReadsWithin (n : Nat) (v : Value) : Prop where
  ok : ∀ {c}, ofValueWithin n v = .ok c ↔ Describes v c
  error : ∀ {f}, ofValueWithin n v = .error f → f.kind = .malformed ∨ StraysWith v f
  strays : ∀ {f}, StraysWith v f → ofValueWithin n v = .error f

namespace ReadsWithin

variable {n : Nat} {fields : Entries}

/-- What is refused as malformed whatever it holds. -/
theorem of_refused {v : Value} {f : Fault} (h : ofValueWithin n v = .error f) (hf : f.kind = .malformed)
    (hdescribes : ∀ c, ¬ Describes v c) (hstrays : ∀ f, ¬ StraysWith v f) : ReadsWithin n v where
  ok := iff_of_false (by rw [h]; nofun) (hdescribes _)
  error := by
    rw [h]
    rintro _ ⟨⟩
    exact Or.inl hf
  strays hs := absurd hs (hstrays _)

theorem leaf (kind : fields.get "kind" = .text "card") : ReadsWithin (n + 1) (.map fields) where
  ok {c} := by
    rw [ofValueWithin_leaf kind, mapError_eq_ok, map_eq_ok]
    constructor
    · rintro ⟨⟨name, count, comparison, place⟩, hl, rfl⟩
      obtain ⟨v, hv, rfl, hcount, hcomparison, hplace⟩ := leafOfFields_eq_ok.1 hl
      exact .leaf kind hv hcount hcomparison hplace
    · intro h
      cases h with
      | leaf _ named counted compared placed =>
          exact ⟨_, leafOfFields_eq_ok.2 ⟨_, named, rfl, counted, compared, placed⟩, rfl⟩
      | joint kind' => exact absurd (kind.symm.trans kind') (by decide +kernel)
  error {f} h := by
    rw [ofValueWithin_leaf kind] at h
    rcases mapError_wrapped_eq_error h with hf | ⟨h, hvalue, hkey⟩
    · exact Or.inl hf
    · exact Or.inr (straysWith_of_leafOfFields kind (map_eq_error.1 h) hvalue hkey)
  strays {f} h := by
    rw [ofValueWithin_leaf kind]
    refine h.mapError_wrapped (map_eq_error.2 ?_)
    have hleaf : ∀ {name count : Value}, fields.get? "cardName" = some name → fields.get? "cardCount" = some count →
        count.toWhole = .error f → leafOfFields fields = .error f := by
      intro name count named counted h
      refine bind_eq_error.2 (Or.inr ⟨name, Value.require_eq_ok.2 named, bind_eq_error.2 (Or.inl ?_)⟩)
      rwa [counted]
    cases h with
    | infinite _ named counted infinite => exact hleaf named counted (Value.toWhole_of_isInfinite infinite)
    | uncounted _ named counted unwhole finite =>
        exact hleaf named counted (Value.toWhole_of_holdsWhole_eq_false unwhole finite)
    | left kind' | right kind' | unmarked kind' => exact absurd (kind.symm.trans kind') (by decide +kernel)

theorem joint (kind : fields.get "kind" = .text "logic")
    (sides : ∀ {key v}, fields.get? key = some v → ReadsWithin n v) : ReadsWithin (n + 1) (.map fields) where
  ok {c} := by
    rw [ofValueWithin_joint kind, mapError_eq_ok, jointOfFields_eq_ok]
    constructor
    · rintro ⟨j, va, vb, a, b, grouped, typed, left, ha, right, hb, marked, rfl⟩
      exact .joint kind typed left ((sides left).ok.1 ha) right ((sides right).ok.1 hb) marked
    · intro h
      cases h with
      | leaf kind' => exact absurd (kind.symm.trans kind') (by decide +kernel)
      | joint _ typed left hleft right hright marked =>
          exact ⟨_, _, _, _, _, _, typed, left, (sides left).ok.2 hleft, right, (sides right).ok.2 hright, marked, rfl⟩
  error {f} h := by
    rw [ofValueWithin_joint kind] at h
    rcases mapError_wrapped_eq_error h with hf | ⟨h, hvalue, hkey⟩
    · exact Or.inl hf
    obtain ⟨j, va, typed, left, h⟩ := jointOfFields_eq_error h hvalue hkey
    have hside : ∀ {key v}, fields.get? key = some v → ofValueWithin n v = .error f → StraysWith v f := by
      intro key v hv h
      rcases (sides hv).error h with hf | hf
      · rw [Fault.isValue, hf] at hvalue
        cases hvalue
      · exact hf
    right
    rcases h with ha | ⟨a, vb, ha, right, hb | ⟨b, hb, h⟩⟩
    · exact .left kind typed left (hside left ha)
    · exact .right kind typed left ((sides left).ok.1 ha) right (hside right hb)
    · obtain ⟨htruthy, hunmarked, rfl⟩ := groupedOfFields_eq_error.1 h
      exact .unmarked kind typed left ((sides left).ok.1 ha) right ((sides right).ok.1 hb) htruthy hunmarked
  strays {f} h := by
    rw [ofValueWithin_joint kind]
    refine h.mapError_wrapped ?_
    cases h with
    | infinite kind' | uncounted kind' => exact absurd (kind.symm.trans kind') (by decide +kernel)
    | left _ typed left hleft =>
        rw [jointOfFields_eq typed left, (sides left).strays hleft]
        rfl
    | right _ typed left hleft right hright =>
        rw [jointOfFields_eq typed left, (sides left).ok.2 hleft, Value.require_eq_ok.2 right]
        simp only [bind, Except.bind, (sides right).strays hright]
    | unmarked _ typed left hleft right hright truthy unmarked =>
        rw [jointOfFields_eq typed left, (sides left).ok.2 hleft, Value.require_eq_ok.2 right,
          groupedOfFields_eq_error.2 ⟨truthy, unmarked, rfl⟩]
        simp only [bind, Except.bind, (sides right).ok.2 hright]

end ReadsWithin

/-- A bound that is at least the depth of a JSON value is enough. -/
theorem readsWithin {n : Nat} {v : Value} (hv : v.IsJson) (hn : v.depth ≤ n) : ReadsWithin n v := by
  induction n generalizing v with
  | zero => exact absurd hn (Nat.not_le_of_lt v.depth_pos)
  | succ n ih =>
      cases v with
      | map fields =>
          by_cases hcard : Entries.get fields "kind" = .text "card"
          · exact .leaf hcard
          · by_cases hlogic : Entries.get fields "kind" = .text "logic"
            · exact .joint hlogic fun hget =>
                ih (hv.get? hget) (Nat.le_of_lt_succ ((hv.depth_lt hget).trans_le hn))
            · have hrefused : ofValueWithin (n + 1) (.map fields) =
                  .error (.unknownConditionKind (Entries.get fields "kind")) := by
                rw [ofValueWithin, if_neg hcard, if_neg hlogic]
              refine .of_refused hrefused rfl ?_ ?_
              · rintro c (kind | kind)
                · exact hcard kind
                · exact hlogic kind
              · rintro f (kind | kind | kind | kind | kind)
                · exact hcard kind
                · exact hcard kind
                all_goals exact hlogic kind
      | _ => exact .of_refused rfl rfl nofun nofun

/-- **What a JSON value is read as.** A condition comes out exactly if the value describes it. Any other value is refused
as malformed, at whatever depth its flaw lies, unless the reading strays on it; and then it is refused with one of three
other faults. -/
theorem ofValue_of_isJson {v : Value} (hv : v.IsJson) :
    (∀ c, ofValue v = .ok c ↔ Describes v c) ∧
    (∀ f, ofValue v = .error f → f.kind = .malformed ∨ StraysWith v f) ∧
    ∀ f, StraysWith v f → ofValue v = .error f ∧ (f = .tooLarge ∨ f = .wrongKind ∨ f = .noField) :=
  have h := readsWithin hv (Nat.le_refl v.depth)
  ⟨fun _ => h.ok, fun _ => h.error, fun _ hs => ⟨h.strays hs, hs.cases_fault⟩⟩

/-- A leaf with this value for its count. -/
def leafCounting (count : Value) : Value :=
  .record [("kind", .text "card"), ("cardName", .text "A"), ("cardCount", count)]

/-- A joint of these sides, with this value for its mark. -/
def jointMarked (a b render : Value) : Value :=
  .record [("kind", .text "logic"), ("type", .text "AND"), ("conditionA", a), ("conditionB", b), ("render", render)]

theorem isJson_leafCounting {count : Value} (h : count.IsJson) : (leafCounting count).IsJson :=
  .map (by simp) (by simp [h, Value.IsJson.text])

theorem isJson_jointMarked {a b render : Value} (ha : a.IsJson) (hb : b.IsJson) (hrender : render.IsJson) :
    (jointMarked a b render).IsJson :=
  .map (by simp) (by simp [ha, hb, hrender, Value.IsJson.text])

/-- A leaf whose count is a text is read; the list in place of the other count stops the reading of the joint. -/
theorem ofValue_of_isJson_joint :
    let left := leafCounting (.text "2")
    let right := leafCounting (.list [])
    left.IsJson ∧ right.IsJson ∧ ofValue left = .ok (.leaf ⟨"A", 2, .atLeast, .hand⟩) ∧
      ofValue (jointMarked left right .null) = .error .wrongKind := by
  have hleft : (leafCounting (.text "2")).IsJson := isJson_leafCounting (.text _)
  have hright : (leafCounting (.list [])).IsJson := isJson_leafCounting (.list (by simp))
  have hread : ofValue (leafCounting (.text "2")) = .ok (.leaf ⟨"A", 2, .atLeast, .hand⟩) := by decide +kernel
  have hdescribes := ((ofValue_of_isJson hleft).1 _).1 hread
  have hstrays : StraysWith (leafCounting (.list [])) .wrongKind := .uncounted rfl rfl rfl rfl rfl
  refine ⟨hleft, hright, hread, ?_⟩
  exact ((ofValue_of_isJson (isJson_jointMarked hleft hright .null)).2.2 _
    (@StraysWith.right _ .and _ _ _ _ rfl rfl rfl hdescribes rfl hstrays)).1

/-- **A JSON value may be refused as if the reader had failed**: with the empty value for a count, with an infinite
count inside a joint, and with a list for the mark of a joint. None of these faults says that the condition is
malformed. -/
theorem ofValue_strays :
    let leaf := leafCounting (.int 1)
    let infinite := leafCounting (.float (.infinite false))
    ((leafCounting .null).IsJson ∧ ofValue (leafCounting .null) = .error .wrongKind) ∧
      ((jointMarked leaf infinite .null).IsJson ∧ ofValue (jointMarked leaf infinite .null) = .error .tooLarge) ∧
      ((jointMarked leaf leaf (.list [.int 1])).IsJson ∧
        ofValue (jointMarked leaf leaf (.list [.int 1])) = .error .noField) ∧
      Fault.wrongKind.kind ≠ .malformed ∧ Fault.tooLarge.kind ≠ .malformed ∧ Fault.noField.kind ≠ .malformed := by
  have hleaf : (leafCounting (.int 1)).IsJson := isJson_leafCounting (.int 1)
  refine ⟨⟨isJson_leafCounting .null, by decide +kernel⟩, ⟨isJson_jointMarked hleaf ?_ .null, by decide +kernel⟩,
    ⟨isJson_jointMarked hleaf hleaf ?_, by decide +kernel⟩, by decide, by decide, by decide⟩
  · exact isJson_leafCounting (.float trivial)
  · exact .list (by simp [Value.IsJson.int])

end Condition

end OpeningHand
