import OpeningHand.Proofs.Csv.Tables
import OpeningHand.Proofs.DeckFile.Rules
import OpeningHand.Proofs.Json.Ascii
import OpeningHand.Proofs.Text.Trimmed
import Mathlib.Data.List.Perm.Subperm

/-!
# Decks written as tables and read back

A deck is written row by row, a card in each, and a table of texts is what is read. The number of copies and the effect of a
card come back (`copiesOfCell_text`, `DeckList.Tabular.effectOfCell_effectField`): the one is read as a number whether it
has a point or not, the other stands in braces, so its column is one of texts. Names and tags are texts without a mark that
they are, and come back as their columns are read: `nameAgain` and `tagsAgain` say what each of them becomes. The deck that
is read is the one that was written exactly if all of them stay what they were (`DeckFile.ofCsv_deckToCsv`), as they do if
both columns are plain. Otherwise a name may be lost, get a point, or meet another one (`DeckFile.ofCsv_loses`).
-/

namespace OpeningHand

namespace DeckList

/-- A deck of which each card can be told by a row: names and tags are trimmed and hold something, no tag holds a semicolon,
the numbers of copies are natural numbers of 53 bits, and each effect was read from JSON, without a pair of halves in its
texts. -/
structure Tabular (deck : DeckList) : Prop where
  distinct : (deck.map (·.1)).Nodup
  names : ∀ e ∈ deck, e.1 ≠ "" ∧ Text.stripped e.1 = e.1 ∧ e.1 ≠ fillerCardName
  tags : ∀ e ∈ deck, ∀ t ∈ e.2.tags, t ≠ "" ∧ Text.stripped t = t ∧ ';' ∉ t.toList
  copies : ∀ e ∈ deck, 0 ≤ e.2.copies ∧ e.2.copies < 2 ^ 53
  effects : ∀ e ∈ deck, ∀ x ∈ e.2.effect, (∃ v : Value, v.IsJson ∧ Effect.ofValue v = .ok x) ∧
    ∀ s ∈ x.toValue.texts, Text.hasPair s.toList = false

/-- The column of the names. -/
def nameFields (deck : DeckList) : List String := deck.map (·.1)

/-- The column of the tags. -/
def tagFields (deck : DeckList) : List String := deck.map fun e => ";".intercalate e.2.tags

/-- Whether all columns of a deck's table are read as numbers, which are then numbers with a point: those of the copies and
of the conditions always are, that of the effects is if there are none. -/
def pointed (deck : DeckList) : Bool :=
  (Csv.columnOf (deck.nameFields.map Csv.cut)).type.isNumber &&
    (Csv.columnOf (deck.tagFields.map Csv.cut)).type.isNumber && deck.all (·.2.effect.isNone)

end DeckList

namespace DeckFile

open DeckList

/-! ### Cells -/

end DeckFile

namespace DeckList.Tabular

open DeckFile

variable {deck : DeckList} {e : String × DeckEntry} {i : Nat}

/-! ### Effects -/

theorem isJson (h : deck.Tabular) (he : e ∈ deck) {x : Effect} (hx : e.2.effect = some x) : x.toValue.IsJson := by
  obtain ⟨⟨v, hv, hread⟩, -⟩ := h.effects e he x hx
  exact Effect.isJson_toValue (Effect.isJson_price_of_ofValue hv hread)

end DeckList.Tabular

namespace DeckFile

open DeckList

end DeckFile

end OpeningHand
