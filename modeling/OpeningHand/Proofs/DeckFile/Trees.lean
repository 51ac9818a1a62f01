import OpeningHand.Proofs.Condition.Documents
import OpeningHand.Proofs.DeckFile.Json
import Mathlib.Data.Set.List

/-!
# Conditions written as trees and read back

Conditions can be written in JSON as trees, whatever they came in as: texts, mappings, or nodes that no text can write,
with negative counts, right sides that stand in no parentheses, or names of any characters. Each tree is read as the
condition it was written from, with its mark of parentheses and with all that a leaf asks for
(`DeckFile.conditionsToJson_reads`).

The document of a condition is a value of JSON (`Condition.isJson_toValue`). Its texts are the names of the leaves and
words of the format, so it reads back unless a name holds a pair of halves (`Condition.hasPair_of_mem_texts`).
-/

namespace OpeningHand

/-! ### The tree of a condition -/

theorem Draft.ofCondition_injective : Function.Injective Draft.ofCondition := by
  intro a b h
  simpa using congrArg Draft.toCondition? h

namespace Condition

theorem toValue_ofCondition (c : Condition) : (Draft.ofCondition c).toValue = .ok c.toValue := by
  induction c with
  | leaf l => rfl
  | joint j a b grouped iha ihb =>
      rw [Draft.ofCondition, Draft.toValue, iha, ihb]
      rfl

/-- **The tree of a condition can be written in JSON.** -/
theorem isJson_toValue (c : Condition) : c.toValue.IsJson := by
  induction c with
  | leaf l =>
      have hfields := (((Value.JsonFields.single "kind" (.text "card")).append
        (.single "cardName" (.text l.name))).append (.single "cardCount" (.int l.count))).append
          ((Value.JsonFields.single "operator" (.text l.comparison.word)).append
            (.single "location" (.text l.place.word)))
      exact hfields.isJson (by decide)
  | joint j a b grouped iha ihb =>
      have hmark : (Value.record [("hasParentheses", .bool true)]).IsJson :=
        (Value.JsonFields.single "hasParentheses" (.bool true)).isJson (by decide)
      have hfields := ((Value.JsonFields.single "kind" (.text "logic")).append
        (.single "type" (.text j.word))).append ((Value.JsonFields.single "conditionA" iha).append
          (.single "conditionB" ihb))
      cases grouped with
      | false => exact hfields.isJson (by decide)
      | true => exact (hfields.append (.single "render" hmark)).isJson (by decide)

/-- The words that trees are told in. -/
def treeWords : List String :=
  ["kind", "card", "cardName", "cardCount", "operator", "location", "logic", "type", "conditionA", "conditionB",
    "render", "hasParentheses", "AT_LEAST", "EXACTLY", "NO_MORE", "HAND", "DECK", "AND", "OR"]

/-- What is said of these words and of the names of the leaves is said of all texts of a tree. -/
theorem forall_texts_toValue {P : String → Prop} (hwords : ∀ s ∈ treeWords, P s) {c : Condition}
    (hnames : ∀ l ∈ c.leaves, P l.name) : ∀ s ∈ c.toValue.texts, P s := by
  simp only [treeWords, List.forall_mem_cons] at hwords
  induction c with
  | leaf l =>
      have hcomparison : P l.comparison.word := by cases l.comparison <;> simp [Comparison.word, hwords]
      have hplace : P l.place.word := by cases l.place <;> simp [Place.word, hwords]
      have hname := hnames l (List.mem_singleton.2 rfl)
      exact Value.forall_texts_record (by simp [Value.texts, hwords, hname, hcomparison, hplace])
  | joint j a b grouped iha ihb =>
      have hjoint : P j.word := by cases j <;> simp [Joint.word, hwords]
      have ha := iha fun l hl => hnames l (List.mem_append_left _ hl)
      have hb := ihb fun l hl => hnames l (List.mem_append_right _ hl)
      have hmark : ∀ s ∈ (Value.record [("hasParentheses", .bool true)]).texts, P s :=
        Value.forall_texts_record (by simp [Value.texts, hwords])
      refine Value.forall_texts_record ?_
      cases grouped with
      | false => simpa [Value.texts, hwords, hjoint] using ⟨ha, hb⟩
      | true => simpa [Value.texts, hwords, hjoint] using ⟨ha, hb, hmark⟩

end Condition

/-! ### Conditions that come in -/

/-- A condition as it may come in: a text, a mapping, or a node without faults. -/
inductive Given.IsCondition : Given → Prop
  | text (s : String) : IsCondition (.document (.text s))
  | mapping (fields : Entries) : IsCondition (.document (.map fields))
  | node (c : Condition) : IsCondition (.node (.ofCondition c))

namespace Given

theorem IsCondition.exists_ofCondition {g : Given} {d : Draft} (hg : g.IsCondition) (h : g.toDraft = .ok d) :
    ∃ c, Draft.ofCondition c = d := by
  cases hg with
  | text | mapping =>
      obtain ⟨c, -, hc⟩ := map_eq_ok.1 h
      exact ⟨c, hc⟩
  | node c => exact ⟨c, Except.ok.inj h⟩

/-- What is made of conditions that come in are conditions. -/
theorem exists_conditions {given : List Given} {drafts : List Draft} (hgiven : ∀ g ∈ given, g.IsCondition)
    (h : toDrafts given = .ok drafts) : ∃ conditions : List Condition, conditions.map Draft.ofCondition = drafts := by
  have hdrafts : ∀ d ∈ drafts, ∃ c, Draft.ofCondition c = d := by
    intro d hd
    obtain ⟨g, hg, hread⟩ := exists_of_mem_mapM h d hd
    exact (hgiven g hg).exists_ofCondition hread
  exact (Set.range_list_map Draft.ofCondition).ge hdrafts

theorem toDrafts_toValue (conditions : List Condition) :
    toDrafts ((conditions.map Condition.toValue).map .document) = .ok (conditions.map Draft.ofCondition) := by
  rw [toDrafts, List.map_map, List.mapM_map]
  exact mapM_eq_ok fun c _ => (Condition.toDraft_of_ofValue (Condition.ofValue_toValue c)).1

end Given

namespace DeckFile

/-- **Conditions come back from their trees.** Conditions that come in as texts, mappings or nodes, none of them refused,
are written in JSON as trees. The trees are read as the same conditions, mark by mark and name by name. If JSON is read
as it was written, the trees are what is read of the text; and so it is if no name holds a pair of halves. -/
theorem conditionsToJson_reads {given : List Given} {drafts : List Draft} (hgiven : ∀ g ∈ given, g.IsCondition)
    (h : Given.toDrafts given = .ok drafts) :
    ∃ (conditions : List Condition) (trees : List Value) (text : String),
      drafts = conditions.map Draft.ofCondition ∧ Given.trees given = .ok trees ∧ conditionsToJson given = .ok text ∧
      Given.toDrafts (trees.map .document) = .ok drafts ∧
      (Json.ReadsBack (.list trees) → Json.read? text = some (.list trees)) ∧
      ((∀ c ∈ conditions, ∀ l ∈ c.leaves, Text.hasPair l.name.toList = false) → Json.ReadsBack (.list trees)) := by
  obtain ⟨conditions, rfl⟩ := Given.exists_conditions hgiven h
  have hjson : (Value.list (conditions.map Condition.toValue)).IsJson := by
    refine .list fun v hv => ?_
    obtain ⟨c, -, rfl⟩ := List.mem_map.1 hv
    exact c.isJson_toValue
  have htrees : Given.trees given = .ok (conditions.map Condition.toValue) := by
    refine bind_eq_ok.2 ⟨_, h, ?_⟩
    rw [List.mapM_map]
    exact mapM_eq_ok fun c _ => c.toValue_ofCondition
  obtain ⟨text, htext⟩ := Json.exists_write hjson
  refine ⟨conditions, _, text, rfl, htrees, bind_eq_ok.2 ⟨_, htrees, htext⟩, Given.toDrafts_toValue conditions,
    fun hback => hback text htext, fun hnames => Json.readsBack hjson (Value.forall_texts_list fun v hv => ?_)⟩
  obtain ⟨c, hc, rfl⟩ := List.mem_map.1 hv
  exact Condition.forall_texts_toValue (by decide) (hnames c hc)

/-- Conditions that no text writes: a name with a quote and signs beyond the first plane, a negative count, and a right
side that stands in no parentheses while the whole does. -/
def strange : List Condition :=
  [.joint .or (.leaf ⟨"A", 2, .atLeast, .hand⟩) (.leaf ⟨"B", 1, .atLeast, .deck⟩) false,
    .leaf ⟨"7", 1, .atLeast, .hand⟩,
    .joint .and (.leaf ⟨" \"🃏", -3, .exactly, .deck⟩)
      (.joint .or (.leaf ⟨"", 0, .atMost, .hand⟩) (.leaf ⟨"AND", 1, .atMost, .hand⟩) false) true]

/-- As what they came in: a text, a mapping that leaves most fields out, and a node. -/
def strangeGiven : List Given :=
  [.document (.text "2+ A OR (B IN deck)"),
    .document (.map (Entries.named [("kind", .text "card"), ("cardName", .int 7)])),
    .node (.ofCondition (.joint .and (.leaf ⟨" \"🃏", -3, .exactly, .deck⟩)
      (.joint .or (.leaf ⟨"", 0, .atMost, .hand⟩) (.leaf ⟨"AND", 1, .atMost, .hand⟩) false) true))]

theorem conditionsToJson_reads_strange :
    ∃ trees text, conditionsToJson strangeGiven = .ok text ∧ Json.read? text = some (.list trees) ∧
      Given.toDrafts (trees.map .document) = .ok (strange.map Draft.ofCondition) := by
  have hgiven : ∀ g ∈ strangeGiven, g.IsCondition := by
    simp only [strangeGiven, List.forall_mem_cons]
    exact ⟨.text _, .mapping _, .node _, nofun⟩
  have h : Given.toDrafts strangeGiven = .ok (strange.map Draft.ofCondition) := by decide +kernel
  obtain ⟨conditions, trees, text, hdrafts, -, htext, hread, hback, hnames⟩ := conditionsToJson_reads hgiven h
  obtain rfl : strange = conditions := List.map_injective_iff.2 Draft.ofCondition_injective hdrafts
  exact ⟨trees, text, htext, hback (hnames (by decide +kernel)), hread⟩

end DeckFile

end OpeningHand
