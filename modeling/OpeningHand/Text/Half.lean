/-!
# Halves of surrogate pairs

UTF-16 writes a character beyond the code 0xFFFF as a pair, and escapes can name the halves of such a pair.
A half alone is no character, but a text may hold one: it stands there as a private character, one of
U+10D800 to U+10DFFF, from which its own code can be told. These private characters are therefore always
read as halves: a text that holds one of them as itself is not told from a text that holds the half.
-/

namespace OpeningHand.Text

/-- The distance from the code of a half to the private character that stands for it. -/
def halfShift : Nat := 0x100000

/-- The character of a code; a half of a pair becomes its private character, the same as that of the
code `halfShift` higher. -/
def ofCode (n : Nat) : Char := if n.isValidChar then Char.ofNat n else Char.ofNat (halfShift + n)

/-- Whether a character stands for a half of a pair; no character in this range stands for itself. -/
def isHalf (c : Char) : Bool :=
  0x10D800 ≤ c.val.toNat && c.val.toNat < 0x10E000

/-- The code of a character or a half. -/
def codeOf (c : Char) : Nat := if isHalf c then c.val.toNat - halfShift else c.val.toNat

theorem isHalf_iff {c : Char} :
    isHalf c = true ↔ 0x10D800 ≤ c.val.toNat ∧ c.val.toNat < 0x10E000 := by
  simp only [isHalf, Bool.and_eq_true, decide_eq_true_eq]

example : codeOf (ofCode 0xD83D) = 0xD83D ∧ isHalf (ofCode 0xD83D) = true := by decide

end OpeningHand.Text
