import OpeningHand.DeckFile.Basic
import Mathlib.Tactic.Common

/-!
# Conditions that come in as documents

The document of a condition describes that condition, whatever its shape (`Condition.ofValue_toValue`); a document that
describes a condition is used as that condition, and is written as its text where a text is asked for
(`Condition.toDraft_of_ofValue`).

The reader goes as deep as the document is. A side of a joint is less deep than the joint, so it is read with a bound to
spare (`Condition.ofValueWithin_toValue`).
-/

namespace OpeningHand.Condition

theorem opened_toValue (c : Condition) : c.toValue.opened = c.toValue := by
  cases c <;> rfl

/-- A bound that is at least the depth of the document is enough. -/
theorem ofValueWithin_toValue (c : Condition) {n : Nat} (h : c.toValue.depth ≤ n) :
    ofValueWithin n c.toValue = .ok c := by
  induction c generalizing n with
  | leaf l =>
      obtain ⟨name, count, comparison, place⟩ := l
      cases n with
      | zero => simp [toValue, Value.record, Value.depth] at h
      | succ n => cases comparison <;> cases place <;> rfl
  | joint j a b grouped iha ihb =>
      cases n with
      | zero => simp [toValue, Value.record, Value.depth] at h
      | succ n =>
          have hsides : a.toValue.depth ≤ n ∧ b.toValue.depth ≤ n := by
            cases grouped <;>
              simp [toValue, Value.record, Value.depth, Value.depth.depthEntries] at h <;> omega
          rw [toValue, Value.record, ofValueWithin]
          -- whether there is a field for the parentheses does not matter to the others
          generalize hfields : List.map _ _ = fields
          have hkind : Entries.get fields "kind" = .text "logic" := by
            rw [← hfields]
            cases grouped <;> rfl
          have htype : Value.require fields "type" = .ok (.text j.word) := by
            rw [← hfields]
            cases grouped <;> rfl
          have hleft : Value.require fields "conditionA" = .ok a.toValue.opened := by
            rw [← hfields]
            cases grouped <;> rfl
          have hright : Value.require fields "conditionB" = .ok b.toValue.opened := by
            rw [← hfields]
            cases grouped <;> rfl
          have hgrouped : groupedOfFields fields = .ok grouped := by
            rw [← hfields]
            cases grouped <;> rfl
          have hjoint : Value.choice Joint.ofWord? "LogicType" (.text j.word) = .ok j := by
            cases j <;> rfl
          have hnot : Value.text "logic" ≠ .text "card" := by decide +kernel
          rw [hkind, if_neg hnot, if_pos rfl, htype, hleft, hright, hgrouped, opened_toValue, opened_toValue]
          simp only [bind, Except.bind, hjoint, iha hsides.1, ihb hsides.2]
          rfl

/-- **The document of a condition describes that condition.** -/
theorem ofValue_toValue (c : Condition) : ofValue c.toValue = .ok c := ofValueWithin_toValue c (Nat.le_refl _)

theorem text_ofCondition (c : Condition) : (Draft.ofCondition c).text = .ok c.text := by
  induction c with
  | leaf l => rfl
  | joint j a b g iha ihb =>
      rw [Draft.ofCondition, Draft.text, iha, ihb]
      rfl

/-- A document that describes a condition is used as that condition, and written as its text. -/
theorem toDraft_of_ofValue {v : Value} {c : Condition} (h : ofValue v = .ok c) :
    (Given.document v).toDraft = .ok (.ofCondition c) ∧ (Given.document v).asText = .ok (.text c.text) ∧
      Given.texts [.document v] = .ok [c.text] := by
  cases v with
  | map fields =>
      have hdraft : (Given.document (.map fields)).toDraft = .ok (.ofCondition c) := map_eq_ok.2 ⟨c, h, rfl⟩
      refine ⟨hdraft, ?_, ?_⟩
      · simp only [Given.asText, bind, Except.bind, hdraft, text_ofCondition]
        rfl
      · simp only [Given.texts, Given.toDrafts, List.mapM_cons, List.mapM_nil, bind, Except.bind, hdraft,
          text_ofCondition, pure, Except.pure]
  | _ => cases h

end OpeningHand.Condition
