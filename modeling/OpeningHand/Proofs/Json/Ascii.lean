import OpeningHand.Json.Writer
import OpeningHand.Proofs.Json.Values
import OpeningHand.Proofs.Number.Reading

/-!
# JSON in ASCII

What is written of a value holds only the printable characters of ASCII (`Json.inAscii_of_write`): a text escapes all
others, and numbers, words and brackets hold none.
-/

namespace OpeningHand.Json

open Number Text

/-- Whether a character is one of ASCII, and printable. -/
def isAscii (c : Char) : Bool := 0x20 ≤ c.val.toNat && c.val.toNat < 0x7F

/-- A text in ASCII. -/
def InAscii (s : List Char) : Prop := ∀ c ∈ s, isAscii c = true

theorem InAscii.append {s t : List Char} (hs : InAscii s) (ht : InAscii t) : InAscii (s ++ t) :=
  List.forall_mem_append.2 ⟨hs, ht⟩

theorem InAscii.cons {c : Char} {s : List Char} (hc : isAscii c = true) (hs : InAscii s) : InAscii (c :: s) :=
  List.forall_mem_cons.2 ⟨hc, hs⟩

/-- Words and brackets. -/
theorem inAscii_of_all {s : List Char} (h : s.all isAscii = true) : InAscii s := List.all_eq_true.1 h

theorem InAscii.intercalate {parts : List (List Char)} (h : ∀ p ∈ parts, InAscii p) :
    InAscii ([',', ' '].intercalate parts) := by
  induction parts with
  | nil => exact nofun
  | cons p parts ih =>
      obtain ⟨hp, h⟩ := List.forall_mem_cons.1 h
      cases parts with
      | nil => rwa [List.intercalate_singleton]
      | cons q parts =>
          rw [List.intercalate_cons_cons]
          exact (hp.append (inAscii_of_all (by decide))).append (ih h)

/-! ### Atoms -/

end OpeningHand.Json
