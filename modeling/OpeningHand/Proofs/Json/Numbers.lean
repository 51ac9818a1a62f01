import OpeningHand.Json.Writer
import OpeningHand.Json.Reader
import OpeningHand.Proofs.Number.Digits
import OpeningHand.Proofs.Number.Shortest
import Mathlib.Data.List.TakeWhile

/-!
# Numbers in JSON

What is read of the numbers that are written. The reader takes a number apart into a sign, a whole part, a
fraction and an exponent, and each part is read by a lemma of its own (`number?_append`, `numberOf_ends`,
`numberOf_point`, `numberOf_exponent`, `numberOf_point_exponent`). The writer lays the digits of a decimal
out in one of four ways, and in each the parts make up the same decimal again (`number?_layOut`). Together
with the shortest decimals being rounded back this gives `number?_shortest`.
-/

namespace OpeningHand.Json

open Number Text

/-! ### The parts of a number -/

/-- Whether a number has ended before a text: no digit, point or exponent follows. -/
def NumberEnds (r : List Char) : Prop := ∀ c ∈ r.head?, c.isDigit = false ∧ c ≠ '.' ∧ c ≠ 'e' ∧ c ≠ 'E'

/-- Only ASCII digits. -/
def AllDigits (ds : List Char) : Prop := ∀ c ∈ ds, c.isDigit = true

theorem AllDigits.append {ds es : List Char} (h : AllDigits ds) (h' : AllDigits es) :
    AllDigits (ds ++ es) := fun c hc => (List.mem_append.1 hc).elim (h c) (h' c)

theorem allDigits_digits (n : Nat) : AllDigits (digits n) := fun _ hc => isDigit_of_mem_digits hc

theorem allDigits_zeros (n : Nat) : AllDigits (List.replicate n '0') := fun c hc => by
  rw [List.eq_of_mem_replicate hc]
  rfl

theorem asciiDigits_append {ds t : List Char} (hds : AllDigits ds) (ht : ∀ c ∈ t.head?, c.isDigit = false) :
    asciiDigits (ds ++ t) = (ds, t) := by
  unfold asciiDigits
  rw [List.span_eq_takeWhile_dropWhile, takeWhile_append_of_head hds ht, dropWhile_append_of_head hds ht]

theorem NumberEnds.fraction {r : List Char} (h : NumberEnds r) : fraction r = ([], r) := by
  unfold Json.fraction
  split
  · exact absurd rfl (h '.' rfl).2.1
  · rfl

theorem NumberEnds.exponent? {r : List Char} (h : NumberEnds r) : exponent? r = none := by
  unfold Json.exponent?
  split
  · rename_i c r'
    obtain ⟨-, -, he, hE⟩ := h c rfl
    simp [he, hE]
  · rfl

theorem fraction_point (s : List Char) :
    fraction ('.' :: s) = match asciiDigits s with
      | ([], _) => ([], '.' :: s)
      | p => p := rfl

theorem fraction_append {part r : List Char} (hne : part ≠ []) (hpart : AllDigits part)
    (hr : ∀ c ∈ r.head?, c.isDigit = false) : fraction ('.' :: (part ++ r)) = (part, r) := by
  obtain ⟨d, ds, rfl⟩ := List.exists_cons_of_ne_nil hne
  rw [fraction_point, asciiDigits_append hpart hr]

theorem exponent?_mark (negative : Bool) (s : List Char) :
    exponent? ('e' :: (if negative then '-' else '+') :: s) =
      match asciiDigits s with
      | ([], _) => none
      | (es, t) => some (if negative then -(ofDigits es : Int) else ofDigits es, t) := by
  cases negative <;> rfl

theorem exponent?_append (negative : Bool) {es r : List Char} (hne : es ≠ []) (hes : AllDigits es)
    (hr : ∀ c ∈ r.head?, c.isDigit = false) :
    exponent? ('e' :: (if negative then '-' else '+') :: (es ++ r)) =
      some (if negative then -(ofDigits es : Int) else ofDigits es, r) := by
  obtain ⟨d, ds, rfl⟩ := List.exists_cons_of_ne_nil hne
  rw [exponent?_mark, asciiDigits_append hes hr]

/-! ### Numbers -/

/-- The whole part of a number and what follows: a zero, or the digits in front. -/
def wholeDigits (s : List Char) : List Char × List Char :=
  match s with
  | '0' :: t => (['0'], t)
  | _ => asciiDigits s

/-- The number of a sign and a whole part in front of a text. -/
def numberOf (negative : Bool) (whole t : List Char) : Option (Value × List Char) :=
  match exponent? (fraction t).2 with
  | none =>
    if (fraction t).1.isEmpty then
      some (.int (if negative then -(ofDigits (whole ++ (fraction t).1) : Int)
        else ofDigits (whole ++ (fraction t).1)), (fraction t).2)
    else some (.float (Binary64.ofDecimal negative (ofDigits (whole ++ (fraction t).1))
      (-((fraction t).1.length : Int))), (fraction t).2)
  | some (e, r) => some (.float (Binary64.ofDecimal negative (ofDigits (whole ++ (fraction t).1))
      (e - (fraction t).1.length)), r)

theorem number?_minus (s : List Char) :
    number? ('-' :: s) = if (wholeDigits s).1.isEmpty then none
      else numberOf true (wholeDigits s).1 (wholeDigits s).2 := rfl

theorem number?_cons {d : Char} (h : d ≠ '-') (s : List Char) :
    number? (d :: s) = if (wholeDigits (d :: s)).1.isEmpty then none
      else numberOf false (wholeDigits (d :: s)).1 (wholeDigits (d :: s)).2 := by
  unfold number?
  split
  rename_i heq
  split at heq
  · rename_i h'
    exact absurd (List.cons.inj h').1 h
  · obtain ⟨rfl, rfl⟩ := Prod.mk.inj heq
    rfl

/-- The digits of a whole part, without leading zeros. -/
structure WholePart (ds : List Char) : Prop where
  digits : AllDigits ds
  lead : ds = ['0'] ∨ ∃ d t, ds = d :: t ∧ d ≠ '0'

theorem WholePart.exists_cons {ds : List Char} (h : WholePart ds) :
    ∃ d t, ds = d :: t ∧ d.isDigit = true := by
  rcases h.lead with rfl | ⟨d, t, rfl, -⟩
  · exact ⟨'0', [], rfl, rfl⟩
  · exact ⟨d, t, rfl, h.digits d (.head _)⟩

theorem wholeDigits_append {ds t : List Char} (hds : WholePart ds)
    (ht : ∀ c ∈ t.head?, c.isDigit = false) : wholeDigits (ds ++ t) = (ds, t) := by
  rcases hds.lead with rfl | ⟨d, t', rfl, hne⟩
  · rfl
  · rw [← asciiDigits_append hds.digits ht]
    unfold wholeDigits
    split
    · rename_i heq
      exact absurd (List.cons.inj heq).1 hne
    · rfl

/-- A sign as it is written. -/
def signChars (negative : Bool) : List Char := if negative then ['-'] else []

/-- **A number is its sign, its whole part, and what follows.** -/
theorem number?_append (negative : Bool) {ds t : List Char} (hds : WholePart ds)
    (ht : ∀ c ∈ t.head?, c.isDigit = false) :
    number? (signChars negative ++ (ds ++ t)) = numberOf negative ds t := by
  obtain ⟨d, t', hcons, hd⟩ := hds.exists_cons
  have hne : d ≠ '-' := by rintro rfl; cases hd
  have hempty : ds.isEmpty = false := by rw [hcons]; rfl
  have hplain : number? (ds ++ t) = if (wholeDigits (ds ++ t)).1.isEmpty then none
      else numberOf false (wholeDigits (ds ++ t)).1 (wholeDigits (ds ++ t)).2 := by
    rw [hcons]
    exact number?_cons hne _
  cases negative
  · rw [signChars, if_neg (by simp), List.nil_append, hplain, wholeDigits_append hds ht,
      if_neg (by simp [hempty])]
  · rw [signChars, if_pos rfl, List.singleton_append, number?_minus, wholeDigits_append hds ht,
      if_neg (by simp [hempty])]

section NumberOf

variable (negative : Bool) (whole : List Char) {part es r : List Char}

theorem numberOf_ends (hr : NumberEnds r) :
    numberOf negative whole r =
      some (.int (if negative then -(ofDigits whole : Int) else ofDigits whole), r) := by
  simp only [numberOf, hr.fraction, hr.exponent?, List.isEmpty_nil, if_true, List.append_nil]

theorem numberOf_point (hne : part ≠ []) (hpart : AllDigits part) (hr : NumberEnds r) :
    numberOf negative whole ('.' :: (part ++ r)) =
      some (.float (Binary64.ofDecimal negative (ofDigits (whole ++ part)) (-(part.length : Int))), r) := by
  have hempty : part.isEmpty = false := by simpa using hne
  simp only [numberOf, fraction_append hne hpart fun c hc => (hr c hc).1, hr.exponent?, hempty]
  rfl

variable (below : Bool)

theorem numberOf_exponent (hes : es ≠ []) (hdigits : AllDigits es) (hr : NumberEnds r) :
    numberOf negative whole ('e' :: (if below then '-' else '+') :: (es ++ r)) =
      some (.float (Binary64.ofDecimal negative (ofDigits whole)
        (if below then -(ofDigits es : Int) else ofDigits es)), r) := by
  have hexponent := exponent?_append below hes hdigits fun c hc => (hr c hc).1
  have hnone (t : List Char) : fraction ('e' :: t) = ([], 'e' :: t) := rfl
  simp only [numberOf, hnone, hexponent, List.append_nil, List.length_nil, Nat.cast_zero, sub_zero]

theorem numberOf_point_exponent (hne : part ≠ []) (hpart : AllDigits part) (hes : es ≠ [])
    (hdigits : AllDigits es) (hr : NumberEnds r) :
    numberOf negative whole ('.' :: (part ++ 'e' :: (if below then '-' else '+') :: (es ++ r))) =
      some (.float (Binary64.ofDecimal negative (ofDigits (whole ++ part))
        ((if below then -(ofDigits es : Int) else ofDigits es) - part.length)), r) := by
  have hexponent := exponent?_append below hes hdigits fun c hc => (hr c hc).1
  have hmark : ∀ c ∈ ('e' :: (if below then '-' else '+') :: (es ++ r)).head?, c.isDigit = false := by
    simp
  simp only [numberOf, fraction_append hne hpart hmark, hexponent]

end NumberOf

/-! ### Decimals as they are laid out -/

theorem ofDigits_append (ds es : List Char) :
    ofDigits (ds ++ es) = ofDigits ds * 10 ^ es.length + ofDigits es := by
  have hfold : ∀ (es : List Char) (n : Nat),
      es.foldl (fun n c => 10 * n + (digitValue? c).getD 0) n
        = n * 10 ^ es.length + es.foldl (fun n c => 10 * n + (digitValue? c).getD 0) 0 := by
    intro es
    induction es with
    | nil => simp
    | cons c es ih =>
        intro n
        rw [List.foldl_cons, ih, List.foldl_cons, ih (10 * 0 + _), List.length_cons]
        ring
  rw [ofDigits, List.foldl_append, hfold, ofDigits, ofDigits]

theorem ofDigits_zeros (n : Nat) : ofDigits (List.replicate n '0') = 0 := by
  induction n with
  | zero => rfl
  | succ n ih =>
      rw [List.replicate_succ', ofDigits_append, ih]
      rfl

/-- Digits without a leading zero. -/
structure Significant (ds : List Char) : Prop where
  digits : AllDigits ds
  lead : ∃ d t, ds = d :: t ∧ d ≠ '0'

theorem Significant.wholePart {ds es : List Char} (h : Significant ds) (hes : AllDigits es) :
    WholePart (ds ++ es) := by
  obtain ⟨d, t, rfl, hd⟩ := h.lead
  exact ⟨h.digits.append hes, .inr ⟨d, t ++ es, rfl, hd⟩⟩

theorem allDigits_padded (width n : Nat) : AllDigits (padded width n) :=
  (allDigits_zeros _).append (allDigits_digits n)

theorem ofDigits_padded (width n : Nat) : ofDigits (padded width n) = n := by
  rw [padded, ofDigits_append, ofDigits_zeros, ofDigits_digits, Nat.zero_mul, Nat.zero_add]

theorem padded_ne_nil (width n : Nat) : padded width n ≠ [] := by
  simp [padded, digits_ne_nil]

/-- The exponent `e`, written with its mark. -/
theorem exponent_padded (e : Int) :
    (if decide (e < 0) then -(ofDigits (padded 2 e.natAbs) : Int)
      else ofDigits (padded 2 e.natAbs)) = e := by
  rw [ofDigits_padded]
  split <;> rename_i h <;> rw [decide_eq_true_eq] at h <;> omega

theorem layOut_begins {ds : List Char} (hds : Significant ds) (p : Int) :
    ∃ d t, layOut ds p = d :: t ∧ d.isDigit = true := by
  obtain ⟨d, t, rfl, -⟩ := hds.lead
  have hd := hds.digits d (.head _)
  unfold layOut
  split
  · split
    · exact ⟨'0', _, rfl, rfl⟩
    · split
      · exact ⟨d, _, rfl, hd⟩
      · obtain ⟨n, hn⟩ : ∃ n, p.toNat = n + 1 := ⟨p.toNat - 1, by omega⟩
        rw [hn]
        exact ⟨d, _, rfl, hd⟩
  · cases t <;> exact ⟨d, _, rfl, hd⟩

/-- **Digits that are laid out are read as the decimal they write.** -/
theorem number?_layOut (negative : Bool) {ds r : List Char} (hds : Significant ds) (p : Int)
    (hr : NumberEnds r) :
    ∃ c k, number? (signChars negative ++ (layOut ds p ++ r)) =
        some (.float (Binary64.ofDecimal negative c k), r) ∧
      (c : ℚ) * 10 ^ k = ofDigits ds * 10 ^ (p - ds.length) ∧ (k = p - ds.length ∨ k = -1) := by
  have hten : (10 : ℚ) ≠ 0 := by norm_num
  have hne : ds ≠ [] := by
    obtain ⟨d, t, rfl, -⟩ := hds.lead
    simp
  have hpoint (t : List Char) : ∀ c ∈ ('.' :: t).head?, c.isDigit = false := by simp
  unfold layOut
  split
  · split
    · -- a point in front of all digits
      rename_i hp
      have hzero : WholePart ['0'] := ⟨by simp [AllDigits], .inl rfl⟩
      have hpart : AllDigits (List.replicate (-p).toNat '0' ++ ds) := (allDigits_zeros _).append hds.digits
      have hread := number?_append negative hzero (hpoint (List.replicate (-p).toNat '0' ++ ds ++ r))
      rw [numberOf_point negative _ (by simp [hne]) hpart hr] at hread
      have hk : -((List.replicate (-p).toNat '0' ++ ds).length : Int) = p - ds.length := by
        rw [List.length_append, List.length_replicate]
        omega
      refine ⟨_, _, hread, ?_, .inl hk⟩
      rw [hk, ofDigits_append, ofDigits_append, ofDigits_zeros]
      simp [show ofDigits ['0'] = 0 from rfl]
    · split
      · -- zeros and a point behind all digits
        rename_i hp hlen
        have hzeros : AllDigits (List.replicate (p.toNat - ds.length) '0') := allDigits_zeros _
        have hread := number?_append negative (hds.wholePart hzeros) (hpoint (['0'] ++ r))
        rw [numberOf_point negative _ (by simp) (by simp [AllDigits]) hr] at hread
        refine ⟨_, _, by simpa using hread, ?_, .inr rfl⟩
        have hplace : p - ds.length = ((p.toNat - ds.length : Nat) : Int) := by omega
        have hc : ofDigits (ds ++ (List.replicate (p.toNat - ds.length) '0' ++ ['0'])) =
            ofDigits ds * 10 ^ (p.toNat - ds.length) * 10 := by
          rw [← List.append_assoc, ofDigits_append, ofDigits_append, ofDigits_zeros]
          simp [show ofDigits ['0'] = 0 from rfl]
        rw [hplace, hc, zpow_natCast]
        push_cast
        field_simp
      · -- a point between the digits
        rename_i hp hlen
        have hwhole : WholePart (ds.take p.toNat) := by
          obtain ⟨d, t, rfl, hd⟩ := hds.lead
          obtain ⟨n, hn⟩ : ∃ n, p.toNat = n + 1 := ⟨p.toNat - 1, by omega⟩
          rw [hn]
          exact ⟨fun c hc => hds.digits c (List.mem_of_mem_take hc), .inr ⟨d, t.take n, rfl, hd⟩⟩
        have hpart : AllDigits (ds.drop p.toNat) := fun c hc => hds.digits c (List.mem_of_mem_drop hc)
        have hread := number?_append negative hwhole (hpoint (ds.drop p.toNat ++ r))
        rw [numberOf_point negative _ (by simp; omega) hpart hr, List.take_append_drop,
          List.length_drop] at hread
        have hk : -((ds.length - p.toNat : Nat) : Int) = p - ds.length := by omega
        rw [hk] at hread
        exact ⟨_, _, by simpa using hread, rfl, .inl rfl⟩
  · -- a point behind the first digit, and an exponent
    have hexponent := exponent_padded (p - 1)
    have hmark : (if p - 1 < 0 then '-' else '+') = if decide (p - 1 < 0) then '-' else '+' := by simp
    have hes := allDigits_padded 2 (p - 1).natAbs
    have hesne := padded_ne_nil 2 (p - 1).natAbs
    have hletter (t : List Char) : ∀ c ∈ ('e' :: t).head?, c.isDigit = false := by simp
    obtain ⟨d, t, rfl, hd⟩ := hds.lead
    have hfirst : WholePart [d] := ⟨fun c hc => hds.digits c (by simp_all), .inr ⟨d, [], rfl, hd⟩⟩
    dsimp only
    rw [hmark]
    cases t with
    | nil =>
        have hread := number?_append negative hfirst (hletter
          ((if decide (p - 1 < 0) then '-' else '+') :: (padded 2 (p - 1).natAbs ++ r)))
        rw [numberOf_exponent negative _ _ hesne hes hr, hexponent] at hread
        exact ⟨_, _, by simpa using hread, rfl, .inl rfl⟩
    | cons d' t =>
        have hpart : AllDigits (d' :: t) := fun c hc => hds.digits c (.tail _ hc)
        have hread := number?_append negative hfirst (hpoint (d' :: t ++ 'e' ::
          (if decide (p - 1 < 0) then '-' else '+') :: (padded 2 (p - 1).natAbs ++ r)))
        rw [numberOf_point_exponent negative _ _ (by simp) hpart hesne hes hr, hexponent] at hread
        have hk : p - 1 - ((d' :: t).length : Int) = p - (d :: d' :: t).length := by
          push_cast [List.length_cons]
          ring
        rw [hk] at hread
        exact ⟨_, _, by simpa using hread, rfl, .inl rfl⟩

/-! ### Numbers as they are written -/

/-- The digits of a positive number have no leading zero. -/
theorem significant_digits {n : Nat} (hn : 0 < n) : Significant (digits n) := by
  refine ⟨allDigits_digits n, ?_⟩
  induction n using Nat.strongRecOn with
  | ind n ih =>
      rcases Nat.lt_or_ge n 10 with hlt | hge
      · refine ⟨n.digitChar, [], Nat.toDigits_of_lt_base hlt, ?_⟩
        interval_cases n <;> decide
      · obtain ⟨d, t, heq, hd⟩ := ih (n / 10) (by omega) (by omega)
        refine ⟨d, t ++ [(n % 10).digitChar], ?_, hd⟩
        rw [digits, Nat.toDigits_of_base_le (by decide) hge, ← digits, heq, List.cons_append]

theorem exists_dropZeros (ds : List Char) : ∃ n, ds = dropZeros ds ++ List.replicate n '0' := by
  refine ⟨(ds.reverse.takeWhile (· == '0')).length, ?_⟩
  have hzeros : ds.reverse.takeWhile (· == '0') =
      List.replicate (ds.reverse.takeWhile (· == '0')).length '0' :=
    List.eq_replicate_of_mem fun c hc => by simpa using List.mem_takeWhile_imp hc
  rw [dropZeros, ← List.reverse_replicate, ← hzeros, ← List.reverse_append, List.takeWhile_append_dropWhile,
    List.reverse_reverse]

/-- Without its zeros at the end a positive number still begins with its first digit. -/
theorem significant_dropZeros {n : Nat} (hn : 0 < n) : Significant (dropZeros (digits n)) := by
  obtain ⟨k, hk⟩ := exists_dropZeros (digits n)
  obtain ⟨hdigits, d, t, heq, hd⟩ := significant_digits hn
  refine ⟨fun c hc => hdigits c (hk ▸ List.mem_append_left _ hc), ?_⟩
  cases hdrop : dropZeros (digits n) with
  | nil =>
      rw [hdrop, List.nil_append] at hk
      have hzero := ofDigits_digits n
      rw [hk, ofDigits_zeros] at hzero
      omega
  | cons d' t' =>
      rw [hdrop, heq, List.cons_append] at hk
      exact ⟨d', t', rfl, (List.cons.inj hk).1 ▸ hd⟩

/-- The text of a magnitude. -/
def magnitudeText (m : Nat) (e : Int) : List Char :=
  if m = 0 then ['0', '.', '0']
  else layOut (dropZeros (digits (shortestDigits m e).1)) (shortestDigits m e).2

theorem toList_shortest (negative : Bool) (m : Nat) (e : Int) :
    (shortest (.finite negative m e)).toList = signChars negative ++ magnitudeText m e := by
  rw [shortest, String.toList_ofList]
  cases negative <;> rfl

theorem magnitudeText_begins {m : Nat} {e : Int} (hform : Binary64.InForm m e) :
    ∃ d t, magnitudeText m e = d :: t ∧ d.isDigit = true := by
  unfold magnitudeText
  split
  · exact ⟨'0', _, rfl, rfl⟩
  · rename_i hm
    exact layOut_begins (significant_dropZeros (near_shortestDigits (Nat.pos_of_ne_zero hm) hform).1) _

/-- **A number with a point is read back from its shortest decimal.** -/
theorem number?_shortest (negative : Bool) {m : Nat} {e : Int} (hform : Binary64.InForm m e) {r : List Char}
    (hr : NumberEnds r) :
    number? (signChars negative ++ (magnitudeText m e ++ r)) = some (.float (.finite negative m e), r) := by
  unfold magnitudeText
  split
  · rename_i hm
    have hzero : WholePart ['0'] := ⟨by simp [AllDigits], .inl rfl⟩
    have hread := number?_append negative hzero (t := '.' :: (['0'] ++ r)) (by simp)
    rw [numberOf_point negative _ (by simp) (by simp [AllDigits]) hr] at hread
    have he : e = -1074 := hform.full.resolve_right (by omega)
    rw [hm, he]
    exact hread
  · rename_i hm
    obtain ⟨hd, hlen, hplace, hplace', hnear⟩ := near_shortestDigits (Nat.pos_of_ne_zero hm) hform
    generalize (shortestDigits m e).1 = d at *
    generalize (shortestDigits m e).2 = p at *
    obtain ⟨c, k, hread, hvalue, hk⟩ := number?_layOut negative (significant_dropZeros hd) p hr
    obtain ⟨n, hn⟩ := exists_dropZeros (digits d)
    have hlength : (digits d).length = (dropZeros (digits d)).length + n := by
      conv_lhs => rw [hn, List.length_append, List.length_replicate]
    have hdigits : (d : ℚ) = ofDigits (dropZeros (digits d)) * 10 ^ n := by
      have hnat := ofDigits_digits d
      rw [hn, ofDigits_append, ofDigits_zeros, List.length_replicate, Nat.add_zero] at hnat
      exact_mod_cast hnat.symm
    have hsame : (c : ℚ) * 10 ^ k = d * 10 ^ (p - (digits d).length) := by
      rw [hvalue, hdigits, mul_assoc, ← zpow_natCast, ← zpow_add₀ (by norm_num), hlength]
      congr 2
      push_cast
      ring
    have hc : 0 < c := by
      have hpos : (0 : ℚ) < c * 10 ^ k := by
        have hdq : (0 : ℚ) < d := mod_cast hd
        rw [hsame]
        exact mul_pos hdq (zpow_ten_pos _)
      refine Nat.pos_of_ne_zero fun h0 => ?_
      rw [h0, Nat.cast_zero, zero_mul] at hpos
      exact lt_irrefl _ hpos
    have hbounds : -400 ≤ k ∧ k ≤ 400 := by rcases hk with rfl | rfl <;> omega
    rw [hread, Binary64.ofDecimal_of_near negative hc (Nat.pos_of_ne_zero hm) hform hbounds.1 hbounds.2
      (hsame ▸ hnear)]

end OpeningHand.Json
