import OpeningHand.Json.Reader
import OpeningHand.Json.Writer
import Mathlib.Algebra.Group.Nat.Defs

/-!
# Texts in JSON

What is written of a text is read as the text, with one exception: a text may hold the two halves of a
pair of surrogates as characters of their own, side by side, and what is written of these is the escape
of the one character that they make together. `hasPair` tells the texts in which this happens.

A character is written in one of four ways, and read in the same four (`EscapedAs`): after a backslash, by
itself, as one code unit, or as two.
-/

namespace OpeningHand

namespace Text

/-- Whether a character stands for the first half of a pair. -/
def isHighHalf (c : Char) : Bool := 0xD800 ≤ codeOf c && codeOf c < 0xDC00

/-- Whether a character stands for the second half of a pair. -/
def isLowHalf (c : Char) : Bool := 0xDC00 ≤ codeOf c && codeOf c < 0xE000

/-- Whether the two halves of a pair stand side by side. -/
def hasPair : List Char → Bool
  | c :: d :: r => (isHighHalf c && isLowHalf d) || hasPair (d :: r)
  | _ => false

/-- A character or a half can be told from its code. -/
theorem ofCode_codeOf (c : Char) : ofCode (codeOf c) = c := by
  have hs : halfShift = 0x100000 := rfl
  unfold codeOf
  split
  · rename_i hc
    obtain ⟨hlow, hhigh⟩ := isHalf_iff.1 hc
    have hnot : ¬(c.val.toNat - halfShift).isValidChar := by
      unfold Nat.isValidChar
      omega
    rw [ofCode, if_neg hnot, Nat.add_sub_cancel' (by omega)]
    exact Char.ofNat_toNat c
  · rw [ofCode, if_pos c.valid]
    exact Char.ofNat_toNat c

theorem codeOf_lt (c : Char) : codeOf c < 0x110000 := by
  have hvalid : c.val.toNat.isValidChar := c.valid
  unfold Nat.isValidChar at hvalid
  unfold codeOf
  split <;> omega

end Text

namespace Json

open Text

/-! ### Code units -/

theorem hexNumber?_add (a b acc : Nat) (s : List Char) :
    hexNumber? (a + b) acc s = (hexNumber? a acc s).bind fun p => hexNumber? b p.1 p.2 := by
  induction a generalizing acc s with
  | zero => simp [hexNumber?]
  | succ a ih =>
      rw [Nat.succ_add]
      cases s with
      | nil => rfl
      | cons c r =>
          rw [hexNumber?, hexNumber?]
          cases hexValue? c with
          | none => rfl
          | some d => exact ih _ _

theorem hexValue?_digitChar : ∀ d < 16, hexValue? (Nat.digitChar d) = some d := by decide

theorem hexNumber?_hex (w n acc : Nat) (r : List Char) :
    hexNumber? w acc (hex w n ++ r) = some (16 ^ w * acc + n % 16 ^ w, r) := by
  induction w generalizing n r with
  | zero => simp [hexNumber?, hex, Nat.mod_one]
  | succ w ih =>
      rw [hexNumber?_add, hex, List.append_assoc, ih, Option.bind_some, List.singleton_append, hexNumber?,
        hexValue?_digitChar _ (Nat.mod_lt _ (by decide)), Option.bind_some, hexNumber?, Nat.pow_succ,
        Nat.mul_comm (16 ^ w) 16, Nat.mod_mul]
      congr 2
      dsimp only
      rw [Nat.mul_add, Nat.mul_assoc, Nat.add_assoc, Nat.add_comm (16 * _) (n % 16)]

theorem hexNumber?_four {n : Nat} (hn : n < 0x10000) (r : List Char) :
    hexNumber? 4 0 (hex 4 n ++ r) = some (n, r) := by
  have hmod : n % 16 ^ 4 = n := Nat.mod_eq_of_lt hn
  rw [hexNumber?_hex, Nat.mul_zero, Nat.zero_add, hmod]

/-- Whether a text goes on with the escape of a second half. -/
def GoesOnWithLow (t : List Char) : Prop :=
  ∃ low r, (dropPrefix? ['\\', 'u'] t).bind (hexNumber? 4 0) = some (low, r) ∧ 0xDC00 ≤ low ∧ low < 0xE000

theorem dropPrefix?_unitEscape (n : Nat) (t : List Char) :
    dropPrefix? ['\\', 'u'] (unitEscape n ++ t) = some (hex 4 n ++ t) := rfl

/-- **A code unit is read as its character**, unless it is a first half before a second one. -/
theorem unicodeEscape?_unit {n : Nat} (hn : n < 0x10000) {t : List Char}
    (ht : 0xD800 ≤ n → n < 0xDC00 → ¬GoesOnWithLow t) :
    unicodeEscape? (hex 4 n ++ t) = some (ofCode n, t) := by
  rw [unicodeEscape?, hexNumber?_four hn, Option.map_some]
  dsimp only
  split
  · rename_i hhigh
    simp only [Bool.and_eq_true, decide_eq_true_eq] at hhigh
    split
    · rename_i low r hlow
      split
      · rename_i hrange
        simp only [Bool.and_eq_true, decide_eq_true_eq] at hrange
        exact absurd ⟨low, r, hlow, hrange⟩ (ht hhigh.1 hhigh.2)
      · rfl
    · rfl
  · rfl

/-- **Two code units are read as one character.** -/
theorem unicodeEscape?_pair {n : Nat} (hn : 0x10000 ≤ n) (hn' : n < 0x110000) (t : List Char) :
    unicodeEscape? (hex 4 (0xD800 + (n - 0x10000) / 0x400) ++
      (unitEscape (0xDC00 + (n - 0x10000) % 0x400) ++ t)) = some (Char.ofNat n, t) := by
  have hhigh : 0xD800 + (n - 0x10000) / 0x400 < 0x10000 := by omega
  have hlow : 0xDC00 + (n - 0x10000) % 0x400 < 0x10000 := by omega
  rw [unicodeEscape?, hexNumber?_four hhigh, Option.map_some]
  dsimp only
  rw [dropPrefix?_unitEscape, Option.bind_some, hexNumber?_four hlow, if_pos (by simp; omega)]
  dsimp only
  rw [if_pos (by simp; omega)]
  have hcode : 0x10000 + (0xD800 + (n - 0x10000) / 0x400 - 0xD800) * 0x400 +
      (0xDC00 + (n - 0x10000) % 0x400 - 0xDC00) = n := by omega
  rw [hcode]

/-! ### Characters -/

/-- How a character stands in a text. -/
inductive EscapedAs (c : Char) : List Char → Prop
  /-- A letter after a backslash. -/
  | simple {y : Char} (hu : y ≠ 'u') (hy : simpleEscape? y = some c) : EscapedAs c ['\\', y]
  /-- The character itself. -/
  | plain (hquote : c ≠ '"') (hslash : c ≠ '\\') (hcontrol : ¬c.val < 0x20) : EscapedAs c [c]
  /-- One code unit. -/
  | unit (hn : codeOf c < 0x10000) : EscapedAs c (unitEscape (codeOf c))
  /-- Two code units. -/
  | pair (hn : 0x10000 ≤ codeOf c) :
      EscapedAs c (unitEscape (0xD800 + (codeOf c - 0x10000) / 0x400) ++
        unitEscape (0xDC00 + (codeOf c - 0x10000) % 0x400))

theorem escapedAs_escapeChar (c : Char) : EscapedAs c (escapeChar c) := by
  unfold escapeChar
  split
  all_goals first | exact .simple (by decide) rfl | skip
  dsimp only
  split
  · rename_i hquote hslash _ _ _ _ _ hprintable
    refine .plain hquote hslash ?_
    simp only [Bool.and_eq_true, decide_eq_true_eq] at hprintable
    have hval : 0x20 ≤ c.val.toNat := by
      unfold codeOf at hprintable
      split at hprintable <;> omega
    simpa [UInt32.lt_iff_toNat_lt] using hval
  · split
    · rename_i hn
      exact .unit hn
    · rename_i hn
      exact .pair (Nat.le_of_not_lt hn)

theorem textBody_slash {y : Char} (hu : y ≠ 'u') (k : Nat) (acc t : List Char) :
    textBody (k + 1) acc ('\\' :: y :: t) = (simpleEscape? y).bind fun x => textBody k (x :: acc) t := by
  rw [textBody.eq_def]
  dsimp only
  rw [if_neg (by decide), if_pos (by decide)]
  split
  · rename_i heq
    exact absurd (List.cons.inj heq).1 hu
  · rename_i heq
    obtain ⟨rfl, rfl⟩ := List.cons.inj heq
    rfl
  · rename_i heq
    cases heq

theorem textBody_unitEscape (k n : Nat) (acc t : List Char) :
    textBody (k + 1) acc (unitEscape n ++ t) =
      (unicodeEscape? (hex 4 n ++ t)).bind fun p => textBody k (p.1 :: acc) p.2 := rfl

theorem textBody_plain {c : Char} (hquote : c ≠ '"') (hslash : c ≠ '\\') (hcontrol : ¬c.val < 0x20)
    (k : Nat) (acc t : List Char) : textBody (k + 1) acc (c :: t) = textBody k (c :: acc) t := by
  rw [textBody.eq_def]
  dsimp only
  rw [if_neg (by simpa using hquote), if_neg (by simpa using hslash), if_neg hcontrol]

/-- **One character is read from its escape.** -/
theorem textBody_escapeChar {c : Char} {t : List Char} (ht : isHighHalf c = true → ¬GoesOnWithLow t)
    (k : Nat) (acc : List Char) :
    textBody (k + 1) acc (escapeChar c ++ t) = textBody k (c :: acc) t := by
  have hescaped := escapedAs_escapeChar c
  generalize escapeChar c = e at hescaped ⊢
  cases hescaped with
  | simple hu hy =>
      rw [List.cons_append, List.singleton_append, textBody_slash hu, hy]
      rfl
  | plain hquote hslash hcontrol => exact textBody_plain hquote hslash hcontrol k acc t
  | unit hn =>
      rw [textBody_unitEscape, unicodeEscape?_unit hn, ofCode_codeOf]
      · rfl
      · intro hlow hhigh
        exact ht (by simp [isHighHalf, hlow, hhigh])
  | pair hn =>
      have hvalid : (codeOf c).isValidChar := .inr ⟨by omega, codeOf_lt c⟩
      have hval : Char.ofNat (codeOf c) = c := by
        have hback := ofCode_codeOf c
        rwa [ofCode, if_pos hvalid] at hback
      rw [List.append_assoc, textBody_unitEscape, unicodeEscape?_pair hn (codeOf_lt c), hval]
      rfl

/-- What follows a first half goes on with a second half only if the next character is one. -/
theorem not_goesOnWithLow {s r : List Char} (h : ∀ c ∈ s.head?, isLowHalf c = false) :
    ¬GoesOnWithLow (s.flatMap escapeChar ++ '"' :: r) := by
  rintro ⟨low, r', hread, hlow, hhigh⟩
  cases s with
  | nil => cases hread
  | cons c s =>
      have hc := h c rfl
      rw [List.flatMap_cons, List.append_assoc] at hread
      have hescaped := escapedAs_escapeChar c
      generalize escapeChar c = e at hescaped hread
      cases hescaped with
      | simple hu hy => simp [dropPrefix?, Ne.symm hu] at hread
      | plain hquote hslash hcontrol => simp [dropPrefix?, Ne.symm hslash] at hread
      | unit hn =>
          rw [dropPrefix?_unitEscape, Option.bind_some, hexNumber?_four hn] at hread
          obtain ⟨rfl, -⟩ := Prod.mk.inj (Option.some.inj hread)
          simp [isLowHalf, hlow, hhigh] at hc
      | pair hn =>
          have hlt := codeOf_lt c
          have hunit : 0xD800 + (codeOf c - 0x10000) / 0x400 < 0x10000 := by omega
          rw [List.append_assoc, dropPrefix?_unitEscape, Option.bind_some, hexNumber?_four hunit] at hread
          have heq := (Prod.mk.inj (Option.some.inj hread)).1
          omega

theorem hasPair_cons {c : Char} {s : List Char} (h : hasPair (c :: s) = false) :
    hasPair s = false ∧ (isHighHalf c = true → ∀ d ∈ s.head?, isLowHalf d = false) := by
  cases s with
  | nil => exact ⟨rfl, fun _ d hd => nomatch hd⟩
  | cons d s =>
      simp only [hasPair, Bool.or_eq_false_iff, Bool.and_eq_false_iff] at h
      refine ⟨h.2, fun hc d' hd' => ?_⟩
      obtain rfl := Option.some.inj hd'
      exact h.1.resolve_left (by simp [hc])

/-- **The body of a text is read back.** -/
theorem textBody_flatMap {s : List Char} (hs : hasPair s = false) {k : Nat} (hk : s.length < k)
    (acc r : List Char) :
    textBody k acc (s.flatMap escapeChar ++ '"' :: r) = some (String.ofList (acc.reverse ++ s), r) := by
  obtain ⟨k, rfl⟩ := Nat.exists_eq_add_one_of_ne_zero (Nat.ne_of_gt (Nat.zero_lt_of_lt hk))
  induction s generalizing k acc with
  | nil => simp [textBody]
  | cons c s ih =>
      obtain ⟨hs', hnext⟩ := hasPair_cons hs
      obtain ⟨k, rfl⟩ := Nat.exists_eq_add_one_of_ne_zero (Nat.ne_of_gt (Nat.zero_lt_of_lt
        (Nat.lt_of_succ_lt_succ hk)))
      rw [List.flatMap_cons, List.append_assoc,
        textBody_escapeChar (fun hc => not_goesOnWithLow (hnext hc)),
        ih hs' _ k (Nat.lt_of_succ_lt_succ hk), List.reverse_cons, List.append_assoc, List.singleton_append]

theorem writeText_toList (s : String) (r : List Char) :
    (writeText s).toList ++ r = '"' :: (s.toList.flatMap escapeChar ++ '"' :: r) := by
  rw [writeText, String.toList_ofList]
  simp

theorem length_le_flatMap (s : List Char) : s.length ≤ (s.flatMap escapeChar).length := by
  induction s with
  | nil => exact Nat.le_refl _
  | cons c s ih =>
      have hc : 1 ≤ (escapeChar c).length := by
        have hescaped := escapedAs_escapeChar c
        generalize escapeChar c = e at hescaped
        cases hescaped <;> simp [unitEscape]
      rw [List.flatMap_cons, List.length_append, List.length_cons]
      omega

/-- **A text is read back from between its quotes.** -/
theorem textBody_writeText {s : String} (hs : hasPair s.toList = false) (r : List Char) :
    textBody ((s.toList.flatMap escapeChar ++ '"' :: r).length + 1) []
      (s.toList.flatMap escapeChar ++ '"' :: r) = some (s, r) := by
  have hlong := length_le_flatMap s.toList
  have hbound : s.toList.length < (s.toList.flatMap escapeChar ++ '"' :: r).length + 1 := by
    rw [List.length_append]
    omega
  rw [textBody_flatMap hs hbound, List.reverse_nil, List.nil_append, String.ofList_toList]

end Json

end OpeningHand
