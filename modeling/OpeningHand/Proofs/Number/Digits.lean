import OpeningHand.Number.Digits
import OpeningHand.Number.Whole
import OpeningHand.Proofs.Text.Spaced

/-!
# Whole numbers written and read

Digits, of whatever scripts, are read as the number they write (`whole?_of_isDigit`), and the digits of a
natural number write that number (`ofDigits_digits`).
-/

namespace OpeningHand.Number

open Text

theorem digitValue?_of_isDigit {c : Char} (h : c.isDigit = true) :
    digitValue? c = some (c.toNat - '0'.toNat) := by
  have hc : 48 ≤ c.val.toNat ∧ c.val.toNat ≤ 57 := by
    simpa [Char.isDigit, UInt32.le_iff_toNat_le] using h
  simp only [digitValue?]
  rw [if_pos (by omega), if_pos (by simpa only [Bool.and_eq_true, decide_eq_true_eq] using hc)]
  rfl

theorem isDigit_of_mem_digits {n : Nat} {c : Char} (h : c ∈ digits n) : Char.isDigit c = true :=
  Nat.isDigit_of_mem_toDigits (by omega) (by omega) h

theorem digits_isDigit {n : Nat} {c : Char} (h : c ∈ digits n) : isDigit c = true := by
  rw [isDigit, digitValue?_of_isDigit (isDigit_of_mem_digits h), Option.isSome_some]

theorem digits_ne_nil (n : Nat) : digits n ≠ [] := Nat.toDigits_ne_nil

@[simp]
theorem ofDigits_digits (n : Nat) : ofDigits (digits n) = n := by
  have hfold : ∀ (ds : List Char), (∀ c ∈ ds, c.isDigit = true) → ∀ m,
      ds.foldl (fun n c => 10 * n + (digitValue? c).getD 0) m = Nat.ofDigitChars 10 ds m := by
    intro ds hds
    induction ds with
    | nil => intro m; rfl
    | cons c ds ih =>
        intro m
        rw [List.foldl_cons, Nat.ofDigitChars_cons, digitValue?_of_isDigit (hds c (by simp)),
          ih fun d hd => hds d (by simp [hd])]
        rfl
  rw [ofDigits, hfold _ fun c hc => isDigit_of_mem_digits hc]
  exact Nat.ofDigitChars_ten_toDigits

/-! ### Reading digits -/

/-- The signs, the underscore and the point are no digits. -/
theorem ne_of_isDigit {c d : Char} (h : isDigit c = true) (hd : isDigit d = false) : c ≠ d := by
  rintro rfl
  rw [hd] at h
  exact Bool.false_ne_true h

/-- Digits up to where no digit and no underscore follows. -/
theorem spanDigits_append {ds t : List Char} (h : ∀ c ∈ ds, isDigit c = true)
    (ht : ∀ c ∈ t.head?, isDigit c = false ∧ c ≠ '_') : spanDigits (ds ++ t) = (ds, t) := by
  induction ds with
  | nil =>
      cases t with
      | nil => rfl
      | cons c t =>
          obtain ⟨hc, -⟩ := ht c rfl
          rw [List.nil_append, spanDigits.eq_def]
          split <;> simp_all
  | cons c ds ih =>
      have hc := h c (by simp)
      have hds : ∀ d ∈ ds, isDigit d = true := fun d hd => h d (by simp [hd])
      have hnext : ∀ d ∈ (ds ++ t).head?, d ≠ '_' := by
        intro d hd
        cases ds with
        | nil => exact (ht d hd).2
        | cons d' ds =>
            obtain rfl := Option.some.inj hd
            exact ne_of_isDigit (hds d' (by simp)) (by decide)
      have hspan : spanDigits (c :: (ds ++ t)) = (c :: (spanDigits (ds ++ t)).1, (spanDigits (ds ++ t)).2) := by
        rw [spanDigits.eq_def]
        split
        · simp at *
        · rename_i heq
          rw [(List.cons.inj heq).2] at hnext
          exact absurd rfl (hnext '_' rfl)
        · rename_i heq
          obtain ⟨rfl, rfl⟩ := List.cons.inj heq
          rw [if_pos hc]
      rw [List.cons_append, hspan, ih hds]

/-- Digits up to the end of a text. -/
theorem spanDigits_of_isDigit {ds : List Char} (h : ∀ c ∈ ds, isDigit c = true) :
    spanDigits ds = (ds, []) := by
  simpa using spanDigits_append h (t := []) (by simp)

theorem spanSign_of_isDigit {ds : List Char} (h : ∀ c ∈ ds.head?, isDigit c = true) :
    spanSign ds = (false, ds) := by
  unfold spanSign
  split
  · exact absurd (h '-' rfl) (by decide)
  · exact absurd (h '+' rfl) (by decide)
  · rfl

theorem trimmed_eq_self {s : List Char} (h : ∀ c ∈ s, isMargin c = false) : trimmed s = s := by
  have hdrop : ∀ l : List Char, (∀ c ∈ l, isMargin c = false) → l.dropWhile isMargin = l := by
    intro l hl
    cases l with
    | nil => rfl
    | cons c l => rw [List.dropWhile_cons_of_neg (by simp [hl c (by simp)])]
  rw [trimmed, hdrop s h, hdrop s.reverse (by simpa using h), List.reverse_reverse]

theorem isMargin_of_isDigit {c : Char} (h : isDigit c = true) : isMargin c = false := by
  cases hb : isBlank c with
  | false => simp [isMargin, hb]
  | true => exact absurd h (by simp [isDigit_of_isBlank hb])

theorem trimmed_of_isDigit {ds : List Char} (h : ∀ c ∈ ds, isDigit c = true) : trimmed ds = ds :=
  trimmed_eq_self fun c hc => isMargin_of_isDigit (h c hc)

/-- **Digits are read as the number they write.** -/
theorem whole?_of_isDigit {ds : List Char} (hne : ds ≠ []) (h : ∀ c ∈ ds, isDigit c = true) :
    whole? ds = some (ofDigits ds : Int) := by
  have hsign : spanSign (trimmed ds) = (false, ds) := by
    rw [trimmed_of_isDigit h]
    exact spanSign_of_isDigit fun c hc => h c (List.mem_of_mem_head? hc)
  obtain ⟨d, ds, rfl⟩ := List.exists_cons_of_ne_nil hne
  simp only [whole?, hsign, spanDigits_of_isDigit h]
  rfl

end OpeningHand.Number
