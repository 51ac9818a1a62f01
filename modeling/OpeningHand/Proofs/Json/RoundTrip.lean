import OpeningHand.Proofs.Json.Numbers
import OpeningHand.Proofs.Json.Texts
import OpeningHand.Proofs.Json.Values

/-!
# JSON is read as it was written

Every value of JSON is read back from what is written of it (`Json.readsBack`), unless one of its texts
holds the two halves of a pair of surrogates as neighbours.

The proof follows the value. `Reads v t` says that `t` is read as `v` in front of everything that cannot
belong to a number, and that a reader that looks for a value at `t` neither skips its beginning nor takes
it for the end of a list. The words and the numbers are read by themselves (`reads_int`, `reads_float`),
the texts between their quotes (`reads_text`), and a list or a mapping when its members are
(`reads_list`, `reads_map`). The length of the text bounds the depth and the number of members, so the
bound of the reader is never met.
-/

namespace OpeningHand

namespace Value

/-- All texts in a value, keys among them. -/
def texts : Value → List String
  | .text s => [s]
  | .list l => ofItems l
  | .map l => ofEntries l
  | _ => []
where
  /-- The texts in the items of a list. -/
  ofItems : List Value → List String
    | [] => []
    | x :: xs => texts x ++ ofItems xs
  /-- The texts in the keys and values of a mapping. -/
  ofEntries : List (Value × Value) → List String
    | [] => []
    | (k, v) :: xs => texts k ++ texts v ++ ofEntries xs

theorem mem_texts_list {l : List Value} {v : Value} (hv : v ∈ l) {s : String} (hs : s ∈ v.texts) :
    s ∈ (Value.list l).texts := by
  rw [texts]
  induction l with
  | nil => cases hv
  | cons w l ih =>
      rw [texts.ofItems, List.mem_append]
      rcases List.mem_cons.1 hv with rfl | hv
      · exact .inl hs
      · exact .inr (ih hv)

/-- What is said of the texts in the items is said of those in the list. -/
theorem forall_texts_list {P : String → Prop} {l : List Value} (h : ∀ v ∈ l, ∀ s ∈ v.texts, P s) :
    ∀ s ∈ (Value.list l).texts, P s := by
  rw [texts]
  induction l with
  | nil => nofun
  | cons v l ih =>
      obtain ⟨hv, hl⟩ := List.forall_mem_cons.1 h
      rw [texts.ofItems, List.forall_mem_append]
      exact ⟨hv, ih hl⟩

/-- What is said of the keys and of the texts in the values is said of those in the mapping. -/
theorem forall_texts_record {P : String → Prop} {fields : List (String × Value)}
    (h : ∀ f ∈ fields, P f.1 ∧ ∀ s ∈ f.2.texts, P s) : ∀ s ∈ (Value.record fields).texts, P s := by
  rw [record, texts]
  induction fields with
  | nil => nofun
  | cons f fields ih =>
      obtain ⟨⟨hkey, hvalue⟩, hfields⟩ := List.forall_mem_cons.1 h
      rw [List.map_cons, texts.ofEntries, texts, List.append_assoc, List.forall_mem_append, List.forall_mem_append]
      exact ⟨List.forall_mem_singleton.2 hkey, hvalue, ih hfields⟩

theorem mem_texts_map {fields : List (String × Value)} {f : String × Value} (hf : f ∈ fields) {s : String}
    (hs : s = f.1 ∨ s ∈ f.2.texts) : s ∈ (Value.map (Entries.named fields)).texts := by
  rw [texts]
  induction fields with
  | nil => cases hf
  | cons g fields ih =>
      rw [Entries.named, List.map_cons, texts.ofEntries, texts, List.singleton_append, List.cons_append,
        List.mem_cons, List.mem_append]
      rcases List.mem_cons.1 hf with rfl | hf
      · exact hs.imp_right .inl
      · exact .inr (.inr (ih hf))

end Value

namespace Json

open Number Text

/-! ### Words and numbers -/

/-- What begins with a digit is no word. -/
theorem atom?_digit (negative : Bool) {d : Char} (hd : d.isDigit = true) (t : List Char) :
    atom? (signChars negative ++ d :: t) = number? (signChars negative ++ d :: t) := by
  have hne : ∀ c : Char, c.isDigit = false → (c == d) = false := by
    intro c hc
    rw [beq_eq_false_iff_ne]
    rintro rfl
    rw [hd] at hc
    cases hc
  cases negative <;> simp [atom?, words, signChars, dropPrefix?, hne]

/-- **A word is read as its value.** -/
theorem atom?_word {w : String × Value} (hw : w ∈ words) (r : List Char) :
    atom? (w.1.toList ++ r) = some (w.2, r) := by
  simp only [words, List.mem_cons, List.not_mem_nil, or_false] at hw
  rcases hw with rfl | rfl | rfl | rfl | rfl | rfl <;> simp [atom?, words, dropPrefix?]

/-! ### What is read of a value -/

/-- Whether a text begins as values do: not with white space, and not with the end of a list or mapping. -/
def Begins (t : List Char) : Prop := ∃ c t', t = c :: t' ∧ c ∉ [' ', '\t', '\n', '\r', ']', '}']

/-- A text that is read as a value, whatever follows that cannot belong to a number. -/
structure Reads (v : Value) (t : List Char) : Prop where
  begins : Begins t
  read : ∀ {n r}, t.length ≤ n → NumberEnds r → value? n (t ++ r) = some (v, r)

theorem Begins.skip {t : List Char} (h : Begins t) (r : List Char) : skip (t ++ r) = t ++ r := by
  obtain ⟨c, t', rfl, hc⟩ := h
  simp only [List.mem_cons, List.not_mem_nil, or_false, not_or] at hc
  rw [Json.skip, List.cons_append, List.dropWhile_cons_of_neg (by simp [hc])]

/-- After a separator the space is skipped. -/
theorem Begins.skip_space {t : List Char} (h : Begins t) (r : List Char) :
    Json.skip (' ' :: (t ++ r)) = t ++ r := by
  have hspace : Json.skip (' ' :: (t ++ r)) = Json.skip (t ++ r) := List.dropWhile_cons_of_pos rfl
  rw [hspace, h.skip]

theorem Begins.intercalate {t : List Char} (h : Begins t) (sep : List Char) (ts : List (List Char)) :
    Begins (sep.intercalate (t :: ts)) := by
  obtain ⟨c, t', rfl, hc⟩ := h
  exact ⟨c, sep.intercalate (t' :: ts), List.intercalate_cons_cons_left, hc⟩

theorem value?_succ_of_ne {c : Char} (hc : c ∉ ['"', '[', '{']) (n : Nat) (t : List Char) :
    value? (n + 1) (c :: t) = atom? (c :: t) := by
  simp only [List.mem_cons, List.not_mem_nil, or_false, not_or] at hc
  rw [value?.eq_def]
  dsimp only
  split
  · exact absurd (List.cons.inj ‹_›).1 hc.1
  · exact absurd (List.cons.inj ‹_›).1 hc.2.1
  · exact absurd (List.cons.inj ‹_›).1 hc.2.2
  · rfl

theorem value?_quote (n : Nat) (r : List Char) :
    value? (n + 1) ('"' :: r) = (textBody (r.length + 1) [] r).map fun p => (.text p.1, p.2) := by
  rw [value?]

/-- Words and numbers. -/
theorem Reads.atom {v : Value} {c : Char} {t : List Char}
    (hc : c ∉ [' ', '\t', '\n', '\r', ']', '}', '"', '[', '{'])
    (h : ∀ {r}, NumberEnds r → atom? (c :: t ++ r) = some (v, r)) : Reads v (c :: t) := by
  refine ⟨⟨c, t, rfl, fun hin => hc ?_⟩, fun {n r} hn hr => ?_⟩
  · simp only [List.mem_cons, List.not_mem_nil, or_false] at hin ⊢
    tauto
  · obtain ⟨n, rfl⟩ : ∃ k, n = k + 1 := ⟨n - 1, by simp at hn; omega⟩
    rw [List.cons_append, value?_succ_of_ne (fun hin => hc ?_), ← List.cons_append, h hr]
    simp only [List.mem_cons, List.not_mem_nil, or_false] at hin ⊢
    tauto

theorem Reads.word {w : String × Value} (hw : w ∈ words) : Reads w.2 w.1.toList := by
  obtain ⟨c, t, hcons, hc⟩ : ∃ c t, w.1.toList = c :: t ∧
      c ∉ [' ', '\t', '\n', '\r', ']', '}', '"', '[', '{'] := by
    simp only [words, List.mem_cons, List.not_mem_nil, or_false] at hw
    rcases hw with rfl | rfl | rfl | rfl | rfl | rfl <;> exact ⟨_, _, rfl, by decide⟩
  have hread := atom?_word hw
  rw [hcons] at hread ⊢
  exact .atom hc fun _ => hread _

/-- A sign and what begins with a digit, if it is read as a number. -/
theorem Reads.number {v : Value} (negative : Bool) {d : Char} (hd : d.isDigit = true) {t : List Char}
    (h : ∀ {r}, NumberEnds r → number? (signChars negative ++ (d :: t ++ r)) = some (v, r)) :
    Reads v (signChars negative ++ d :: t) := by
  have hatom : ∀ {r}, NumberEnds r → atom? (signChars negative ++ (d :: t ++ r)) = some (v, r) := by
    intro r hr
    rw [List.cons_append, atom?_digit negative hd, ← List.cons_append, h hr]
  cases negative
  · refine .atom (fun hin => ?_) hatom
    simp only [List.mem_cons, List.not_mem_nil, or_false] at hin
    rcases hin with rfl | rfl | rfl | rfl | rfl | rfl | rfl | rfl | rfl <;> cases hd
  · exact .atom (by decide) hatom

theorem wholePart_digits (n : Nat) : WholePart (digits n) := by
  rcases Nat.eq_zero_or_pos n with rfl | hn
  · exact ⟨allDigits_digits 0, .inl rfl⟩
  · exact ⟨allDigits_digits n, .inr (significant_digits hn).lead⟩

theorem reads_int (i : Int) : Reads (.int i) (Number.text i).toList := by
  have htext : (Number.text i).toList = signChars (decide (i < 0)) ++ digits i.natAbs := by
    rw [Number.text, String.toList_ofList, signed, signChars]
    by_cases hi : i < 0 <;> simp [hi]
  have hwhole := wholePart_digits i.natAbs
  obtain ⟨d, t, hcons, hd⟩ := hwhole.exists_cons
  rw [htext, hcons]
  refine .number _ hd fun hr => ?_
  rw [← hcons, number?_append _ hwhole fun c hc => (hr c hc).1, numberOf_ends _ _ hr, ofDigits_digits]
  congr 3
  split <;> rename_i hi <;> rw [decide_eq_true_eq] at hi <;> omega

theorem reads_float {x : Binary64} (hx : x.Canonical) : Reads (.float x) (writeFloat x).toList := by
  cases x with
  | nan => exact .word (w := ("NaN", .float .nan)) (by simp [words])
  | infinite negative =>
      cases negative
      · exact .word (w := ("Infinity", .float (.infinite false))) (by simp [words])
      · exact .word (w := ("-Infinity", .float (.infinite true))) (by simp [words])
  | finite negative m e =>
      obtain ⟨d, t, hcons, hd⟩ := magnitudeText_begins hx
      rw [writeFloat, toList_shortest, hcons]
      · refine .number _ hd fun hr => ?_
        rw [← hcons]
        exact number?_shortest negative hx hr
      · simp
      · simp

/-- A text without a pair of halves. -/
theorem reads_text {s : String} (hs : hasPair s.toList = false) : Reads (.text s) (writeText s).toList := by
  have htext := writeText_toList s []
  rw [List.append_nil] at htext
  refine ⟨⟨'"', _, htext, by decide⟩, fun {n r} hn _ => ?_⟩
  have hlength : 0 < (writeText s).toList.length := by rw [htext]; simp
  obtain ⟨n, rfl⟩ : ∃ k, n = k + 1 := ⟨n - 1, by omega⟩
  rw [writeText_toList, value?_quote, textBody_writeText hs, Option.map_some]

/-! ### Lists and mappings -/

theorem numberEnds_cons {c : Char} (hc : c ∈ [',', ']', '}']) (t : List Char) : NumberEnds (c :: t) := by
  intro d hd
  obtain rfl := Option.some.inj hd
  simp only [List.mem_cons, List.not_mem_nil, or_false] at hc
  rcases hc with rfl | rfl | rfl <;> decide

section Members

variable {n : Nat} {s r : List Char} {v : Value}

theorem items?_more (acc : List Value) (h : value? n s = some (v, ',' :: r)) :
    items? (n + 1) acc s = items? n (v :: acc) (skip r) := by
  rw [items?, h]
  rfl

theorem items?_last (acc : List Value) (h : value? n s = some (v, ']' :: r)) :
    items? (n + 1) acc s = some ((v :: acc).reverse, r) := by
  rw [items?, h]
  rfl

/-- Items with commas between them are read one after the other. -/
theorem items?_intercalate {l : List Value} {ts : List (List Char)} (h : List.Forall₂ Reads l ts)
    (hne : l ≠ []) (hn : ([',', ' '].intercalate ts).length < n) (acc : List Value) (r : List Char) :
    items? n acc ([',', ' '].intercalate ts ++ ']' :: r) = some (acc.reverse ++ l, r) := by
  induction h generalizing n acc with
  | nil => exact absurd rfl hne
  | @cons v t l ts hvt hrest ih =>
      obtain ⟨n, rfl⟩ : ∃ k, n = k + 1 := ⟨n - 1, by omega⟩
      cases hrest with
      | nil =>
          rw [List.intercalate_singleton] at hn ⊢
          rw [items?_last acc (hvt.read (by omega) (numberEnds_cons (by decide) r)), List.reverse_cons]
      | @cons v' t' l ts hvt' hrest =>
          have hbegins := hvt'.begins.intercalate [',', ' '] ts
          rw [List.intercalate_cons_cons] at hn ⊢
          simp only [List.length_append, List.length_cons, List.length_nil] at hn
          have hfirst : value? n (t ++ ',' :: ' ' :: ([',', ' '].intercalate (t' :: ts) ++ ']' :: r)) = _ :=
            hvt.read (by omega) (numberEnds_cons (by decide) _)
          rw [List.append_assoc, List.append_assoc, List.cons_append, List.cons_append, List.nil_append,
            items?_more acc hfirst, hbegins.skip_space, ih (by simp) (by omega), List.reverse_cons,
            List.append_assoc, List.singleton_append]

/-- The entry of a mapping: a key in quotes, a colon, and a value. -/
inductive ReadsEntry : String × Value → List Char → Prop
  | mk {key : String} {v : Value} {t : List Char} (hkey : hasPair key.toList = false) (hv : Reads v t) :
      ReadsEntry (key, v) ((writeText key).toList ++ ':' :: ' ' :: t)

theorem members?_key {key : String} (hkey : hasPair key.toList = false) (acc : Entries) (s : List Char) :
    members? (n + 1) acc ((writeText key).toList ++ ':' :: s) =
      match value? n (skip s) with
      | none => none
      | some (v, r) =>
        match skip r with
        | ',' :: r => members? n (acc.insert (.text key) v) (skip r)
        | '}' :: r => some (acc.insert (.text key) v, r)
        | _ => none := by
  rw [writeText_toList, members?, textBody_writeText hkey]
  rfl

theorem members?_more {f : String × Value} {m : List Char} (h : ReadsEntry f m) (acc : Entries)
    (hn : m.length ≤ n) (r : List Char) :
    members? (n + 1) acc (m ++ ',' :: r) = members? n (acc.insert (.text f.1) f.2) (skip r) := by
  obtain ⟨hkey, hv⟩ := h
  rw [List.length_append, List.length_cons, List.length_cons] at hn
  rw [List.append_assoc, List.cons_append, List.cons_append, members?_key hkey, hv.begins.skip_space,
    hv.read (by omega) (numberEnds_cons (by decide) r)]
  rfl

theorem members?_last {f : String × Value} {m : List Char} (h : ReadsEntry f m) (acc : Entries)
    (hn : m.length ≤ n) (r : List Char) :
    members? (n + 1) acc (m ++ '}' :: r) = some (acc.insert (.text f.1) f.2, r) := by
  obtain ⟨hkey, hv⟩ := h
  rw [List.length_append, List.length_cons, List.length_cons] at hn
  rw [List.append_assoc, List.cons_append, List.cons_append, members?_key hkey, hv.begins.skip_space,
    hv.read (by omega) (numberEnds_cons (by decide) r)]
  rfl

theorem ReadsEntry.begins {f : String × Value} {m : List Char} (h : ReadsEntry f m) : Begins m := by
  obtain ⟨hkey, -⟩ := h
  exact ⟨'"', _, writeText_toList _ _, by decide⟩

/-- Entries with commas between them join the entries that were read before, in order, if all keys
differ. -/
theorem members?_intercalate {fields : List (String × Value)} {ms : List (List Char)}
    (h : List.Forall₂ ReadsEntry fields ms) (hne : fields ≠ [])
    (hn : ([',', ' '].intercalate ms).length < n)
    {given : List (String × Value)} (hnodup : ((given ++ fields).map (·.1)).Nodup) (r : List Char) :
    members? n (Entries.named given) ([',', ' '].intercalate ms ++ '}' :: r) =
      some (Entries.named (given ++ fields), r) := by
  induction h generalizing n given with
  | nil => exact absurd rfl hne
  | @cons f m fields ms hfm hrest ih =>
      obtain ⟨n, rfl⟩ : ∃ k, n = k + 1 := ⟨n - 1, by omega⟩
      rw [List.append_cons] at hnodup
      have hinsert : (Entries.named given).insert (.text f.1) f.2 = Entries.named (given ++ [f]) := by
        have hnew : f.1 ∉ given.map (·.1) := by
          rw [List.map_append, List.map_append] at hnodup
          exact fun hin => (List.nodup_append.1 (List.nodup_append.1 hnodup).1).2.2 _ hin _ (.head _) rfl
        rw [Entries.insert_named, put_of_notMem hnew]
      cases hrest with
      | nil =>
          rw [List.intercalate_singleton] at hn ⊢
          rw [members?_last hfm _ (by omega), hinsert]
      | @cons f' m' fields ms hfm' hrest =>
          have hbegins := hfm'.begins.intercalate [',', ' '] ms
          rw [List.intercalate_cons_cons] at hn ⊢
          simp only [List.length_append, List.length_cons, List.length_nil] at hn
          rw [List.append_assoc, List.append_assoc, List.cons_append, List.cons_append, List.nil_append,
            members?_more hfm _ (by omega), hinsert, hbegins.skip_space, ih (by simp) (by omega) hnodup,
            List.append_assoc, List.singleton_append]

end Members

theorem value?_list {t : List Char} (h : Begins t) (n : Nat) (r : List Char) :
    value? (n + 1) ('[' :: (t ++ r)) = (items? n [] (t ++ r)).map fun p => (.list p.1, p.2) := by
  rw [value?, h.skip]
  obtain ⟨c, t', rfl, hc⟩ := h
  simp only [List.mem_cons, List.not_mem_nil, or_false, not_or] at hc
  split
  · exact absurd (List.cons.inj ‹_›).1 hc.2.2.2.2.1
  · rfl

theorem value?_map {t : List Char} (h : Begins t) (n : Nat) (r : List Char) :
    value? (n + 1) ('{' :: (t ++ r)) = (members? n [] (t ++ r)).map fun p => (.map p.1, p.2) := by
  rw [value?, h.skip]
  obtain ⟨c, t', rfl, hc⟩ := h
  simp only [List.mem_cons, List.not_mem_nil, or_false, not_or] at hc
  split
  · exact absurd (List.cons.inj ‹_›).1 hc.2.2.2.2.2
  · rfl

/-- **A list is read when its items are.** -/
theorem reads_list {l : List Value} {ts : List (List Char)} (h : List.Forall₂ Reads l ts) :
    Reads (.list l) ('[' :: ([',', ' '].intercalate ts ++ [']'])) := by
  refine ⟨⟨'[', _, rfl, by decide⟩, fun {n r} hn _ => ?_⟩
  obtain ⟨n, rfl⟩ : ∃ k, n = k + 1 := ⟨n - 1, by simp at hn; omega⟩
  rw [List.length_cons, List.length_append, List.length_singleton] at hn
  rw [List.cons_append, List.append_assoc, List.singleton_append]
  cases h with
  | nil => rw [value?]; rfl
  | cons hv hrest =>
      rw [value?_list (hv.begins.intercalate _ _), items?_intercalate (.cons hv hrest) (by simp) (by omega)]
      rfl

/-- **A mapping is read when its entries are.** -/
theorem reads_map {fields : List (String × Value)} {ms : List (List Char)}
    (h : List.Forall₂ ReadsEntry fields ms) (hnodup : (fields.map (·.1)).Nodup) :
    Reads (.map (Entries.named fields)) ('{' :: ([',', ' '].intercalate ms ++ ['}'])) := by
  refine ⟨⟨'{', _, rfl, by decide⟩, fun {n r} hn _ => ?_⟩
  obtain ⟨n, rfl⟩ : ∃ k, n = k + 1 := ⟨n - 1, by simp at hn; omega⟩
  rw [List.length_cons, List.length_append, List.length_singleton] at hn
  rw [List.cons_append, List.append_assoc, List.singleton_append]
  cases h with
  | nil => rw [value?]; rfl
  | cons hf hrest =>
      have hmembers : members? n (Entries.named []) (_ ++ '}' :: r) = some (Entries.named (_ :: _), r) :=
        members?_intercalate (.cons hf hrest) (by simp) (by omega) hnodup r
      rw [value?_map (hf.begins.intercalate _ _)]
      exact congrArg (Option.map fun p : Entries × List Char => (Value.map p.1, p.2)) hmembers

/-! ### What is written -/

theorem forall₂_of_writeItems {l : List Value} {ts : List String} (hts : write.writeItems l = .ok ts)
    (h : ∀ v ∈ l, ∀ t, write v = .ok t → Reads v t.toList) :
    List.Forall₂ Reads l (ts.map String.toList) := by
  induction l generalizing ts with
  | nil =>
      obtain rfl := Except.ok.inj hts
      exact .nil
  | cons v l ih =>
      rw [write.writeItems] at hts
      obtain ⟨t, ht, hts⟩ := bind_eq_ok.1 hts
      obtain ⟨ts, hrest, hts⟩ := bind_eq_ok.1 hts
      obtain rfl := Except.ok.inj hts
      exact .cons (h v (.head _) t ht) (ih hrest fun v hv => h v (.tail _ hv))

theorem forall₂_of_writeMembers {fields : List (String × Value)} {ts : List String}
    (hts : write.writeMembers (Entries.named fields) = .ok ts)
    (hkeys : ∀ f ∈ fields, hasPair f.1.toList = false)
    (h : ∀ f ∈ fields, ∀ t, write f.2 = .ok t → Reads f.2 t.toList) :
    List.Forall₂ ReadsEntry fields (ts.map String.toList) := by
  induction fields generalizing ts with
  | nil =>
      obtain rfl := Except.ok.inj hts
      exact .nil
  | cons f fields ih =>
      rw [Entries.named, List.map_cons, write.writeMembers] at hts
      obtain ⟨key, hkey, hts⟩ := bind_eq_ok.1 hts
      obtain rfl := Except.ok.inj hkey
      obtain ⟨t, ht, hts⟩ := bind_eq_ok.1 hts
      obtain ⟨ts, hrest, hts⟩ := bind_eq_ok.1 hts
      obtain rfl := Except.ok.inj hts
      have hfirst : ReadsEntry f (writeText f.1 ++ ": " ++ t).toList := by
        have hmember := ReadsEntry.mk (hkeys f (.head _)) (h f (.head _) t ht)
        simpa using hmember
      exact .cons hfirst (ih hrest (fun f hf => hkeys f (.tail _ hf)) fun f hf => h f (.tail _ hf))

/-- **What is written of a value is read as the value**, whatever follows that cannot belong to a number. -/
theorem reads_of_write {v : Value} (hv : v.IsJson) (hs : ∀ s ∈ v.texts, hasPair s.toList = false)
    {t : String} (ht : write v = .ok t) : Reads v t.toList := by
  induction hv generalizing t with
  | null =>
      obtain rfl := Except.ok.inj ht
      exact .word (w := ("null", .null)) (by simp [words])
  | bool b =>
      obtain rfl := Except.ok.inj ht
      cases b
      · exact .word (w := ("false", .bool false)) (by simp [words])
      · exact .word (w := ("true", .bool true)) (by simp [words])
  | int i =>
      obtain rfl := Except.ok.inj ht
      exact reads_int i
  | float hx =>
      obtain rfl := Except.ok.inj ht
      exact reads_float hx
  | text s =>
      obtain rfl := Except.ok.inj ht
      exact reads_text (hs s (.head _))
  | list _ ih =>
      rw [write] at ht
      obtain ⟨ts, hts, rfl⟩ := map_eq_ok.1 ht
      have hitems := forall₂_of_writeItems hts fun v hv t ht =>
        ih v hv (fun s hin => hs s (Value.mem_texts_list hv hin)) ht
      simpa [String.toList_intercalate] using reads_list hitems
  | map hdistinct _ ih =>
      rw [write] at ht
      obtain ⟨ts, hts, rfl⟩ := map_eq_ok.1 ht
      have hmembers := forall₂_of_writeMembers hts (fun f hf => hs _ (Value.mem_texts_map hf (.inl rfl)))
        fun f hf t ht => ih f hf (fun s hin => hs s (Value.mem_texts_map hf (.inr hin))) ht
      simpa [String.toList_intercalate] using reads_map hmembers hdistinct

/-- The text of a value reads as the value. -/
def ReadsBack (v : Value) : Prop := ∀ text, write v = .ok text → read? text = some v

/-- **The reader inverts the writer** on values of JSON without a pair of halves in their texts. -/
theorem readsBack {v : Value} (hv : v.IsJson) (hs : ∀ s ∈ v.texts, hasPair s.toList = false) :
    ReadsBack v := by
  intro text ht
  have hreads := reads_of_write hv hs ht
  have hskip : skip text.toList = text.toList := by simpa using hreads.begins.skip []
  have hvalue : value? (text.toList.length + 1) text.toList = some (v, []) := by
    simpa using hreads.read (n := text.toList.length + 1) (r := []) (by omega) (by simp [NumberEnds])
  rw [read?, hskip, hvalue]
  rfl

-- Two halves side by side come back as one character.
example : ¬ReadsBack (.text (String.ofList [ofCode 0xD83D, ofCode 0xDE00])) := by
  intro h
  have hback := h _ rfl
  revert hback
  decide +kernel

end Json

end OpeningHand
