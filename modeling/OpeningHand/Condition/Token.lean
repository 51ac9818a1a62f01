import OpeningHand.Fault
import OpeningHand.Text.Blank
import OpeningHand.Text.Word
import OpeningHand.Text.Digit

/-!
# Tokens of a condition text

A text is cut into lexemes from the left, blanks between them being skipped:

| kind | lexeme | value |
| --- | --- | --- |
| `paren` | one parenthesis | the parenthesis |
| `operator` | `AND` or `OR` before a blank, a parenthesis or the end | the word |
| `number` | digits and an optional sign, before a blank | the digits and the sign |
| `location` | `IN`, blanks, and `hand` or `deck` in any case, as a whole word | the word in capitals |
| `name` | name characters and blanks, up to a stop word | the words with single spaces |

The first kind that fits wins, and right after a number neither a second number nor a location is
tried, so `2+ 7 IN deck` asks for a card named `7`. A name stops before a blank that an operator or
a location follows.
-/

namespace OpeningHand

open Text

/-- The kinds of tokens. Tokens that were not cut from a text may be of other kinds, by a word. -/
inductive TokenKind where
  | paren
  | operator
  | number
  | name
  | location
  | other (word : String)
deriving DecidableEq, Repr

/-- The word for a kind of token. -/
def TokenKind.word : TokenKind → String
  | .paren => "paren"
  | .operator => "operator"
  | .number => "number"
  | .name => "name"
  | .location => "location"
  | .other w => w

/-- The kind of token of a word. -/
def TokenKind.ofWord (s : String) : TokenKind :=
  ([TokenKind.paren, .operator, .number, .name, .location].find? (·.word == s)).getD (.other s)

/-- A token: its kind, its value, and where its lexeme begins. -/
structure Token where
  kind : TokenKind
  value : String
  position : Int
deriving DecidableEq, Repr

/-- The characters of a card name, blanks apart. -/
def isNameChar (c : Char) : Bool := c.isAlphanum || "-',.&:!?\"".toList.contains c

/-- A lexeme at the front of a text: its kind, its characters, and what follows. -/
abbrev Lexeme := TokenKind × List Char × List Char

namespace Lexeme

/-- A parenthesis. -/
def paren? : List Char → Option Lexeme
  | c :: r => if c == '(' || c == ')' then some (.paren, [c], r) else none
  | [] => none

/-- Whether an operator that ends here really ends. -/
def operatorEnds : List Char → Bool
  | [] => true
  | c :: _ => isBlank c || c == '(' || c == ')'

/-- One of the two operators. -/
def operator? : List Char → Option Lexeme
  | 'A' :: 'N' :: 'D' :: r => if operatorEnds r then some (.operator, ['A', 'N', 'D'], r) else none
  | 'O' :: 'R' :: r => if operatorEnds r then some (.operator, ['O', 'R'], r) else none
  | _ => none

/-- Whether a blank comes next. -/
def blankNext : List Char → Bool
  | [] => false
  | c :: _ => isBlank c

/-- A count: digits and an optional sign, before a blank. -/
def number? (s : List Char) : Option Lexeme :=
  let ds := s.takeWhile isDigit
  let r := s.dropWhile isDigit
  if ds.isEmpty then none
  else match r with
    | [] => none
    | c :: t =>
      if (c == '+' || c == '-') && blankNext t then some (.number, ds ++ [c], t)
      else if isBlank c then some (.number, ds, r)
      else none

/-- Whether a character is a given small letter in any case; the Kelvin sign is a capital `k`. -/
def foldsTo (l c : Char) : Bool :=
  c == l || c == l.toUpper || (l == 'k' && c == '\u212A')

/-- A word of the letters given, in any case, and what follows. -/
def spanFolded : List Char → List Char → Option (List Char × List Char)
  | [], r => some ([], r)
  | _ :: _, [] => none
  | l :: ls, c :: r => if foldsTo l c then (spanFolded ls r).map fun p => (c :: p.1, p.2) else none

/-- The word for a place, in any case, as a whole word. -/
def placeWord? (s : List Char) : Option (List Char × List Char) :=
  match (spanFolded "hand".toList s).or (spanFolded "deck".toList s) with
  | some (w, r) => if wordEnds r then some (w, r) else none
  | none => none

/-- A location: `IN`, blanks, and the word for a place. -/
def location? : List Char → Option Lexeme
  | 'I' :: 'N' :: r =>
    let gap := r.takeWhile isBlank
    if gap.isEmpty then none
    else (placeWord? (r.dropWhile isBlank)).map fun p => (.location, 'I' :: 'N' :: gap ++ p.1, p.2)
  | _ => none

/-- Whether an operator or a location begins here, at which a name stops. -/
def stopsName (s : List Char) : Bool := (operator? s).isSome || (location? s).isSome

/-- The characters of a name, and what follows. -/
def spanName : List Char → List Char × List Char
  | [] => ([], [])
  | c :: r =>
    if isBlank c then
      if stopsName r then ([], c :: r) else let p := spanName r; (c :: p.1, p.2)
    else if isNameChar c then let p := spanName r; (c :: p.1, p.2)
    else ([], c :: r)

/-- A name: it begins with a name character. -/
def name? : List Char → Option Lexeme
  | [] => none
  | c :: r =>
    if isNameChar c then let p := spanName (c :: r); some (.name, p.1, p.2) else none

/-- The first kind of lexeme that fits. -/
def first? (afterNumber : Bool) (s : List Char) : Option Lexeme :=
  (paren? s).or <| (operator? s).or <|
    (if afterNumber then none else (number? s).or (location? s)).or (name? s)

/-- The value of a lexeme: a name with single spaces, the place of a location in capitals, any other
as it stands. -/
def value : TokenKind → List Char → String
  | .name, s => String.ofList (trim (collapse s))
  | .location, s => String.ofList ((s.drop 2).dropWhile isBlank |>.map Char.toUpper)
  | _, s => String.ofList s

end Lexeme

namespace Lexeme

theorem paren?_eq {s lex r : List Char} {k : TokenKind} (h : paren? s = some (k, lex, r)) :
    s = lex ++ r ∧ lex ≠ [] := by
  cases s with
  | nil => simp [paren?] at h
  | cons c t =>
    simp only [paren?] at h
    split at h
    · obtain ⟨rfl, rfl, rfl⟩ := by simpa using h
      simp
    · simp at h

theorem operator?_eq {s lex r : List Char} {k : TokenKind} (h : operator? s = some (k, lex, r)) :
    s = lex ++ r ∧ lex ≠ [] := by
  unfold operator? at h
  split at h
  · split at h
    · obtain ⟨rfl, rfl, rfl⟩ := by simpa using h
      simp
    · simp at h
  · split at h
    · obtain ⟨rfl, rfl, rfl⟩ := by simpa using h
      simp
    · simp at h
  · simp at h

theorem number?_eq {s lex r : List Char} {k : TokenKind} (h : number? s = some (k, lex, r)) :
    s = lex ++ r ∧ lex ≠ [] := by
  have hs : s = s.takeWhile isDigit ++ s.dropWhile isDigit := List.takeWhile_append_dropWhile.symm
  simp only [number?] at h
  split at h
  · simp at h
  · rename_i hne
    have hne' : s.takeWhile isDigit ≠ [] := by simpa using hne
    split at h
    · simp at h
    · rename_i c t heq
      rw [heq] at hs
      split at h
      · obtain ⟨rfl, rfl, rfl⟩ := by simpa using h
        exact ⟨by simpa using hs, by simp⟩
      · split at h
        · simp only [Option.some.injEq, Prod.mk.injEq] at h
          obtain ⟨rfl, rfl, rfl⟩ := h
          exact ⟨by rw [heq]; exact hs, hne'⟩
        · simp at h

theorem spanFolded_eq {ls s w r : List Char} (h : spanFolded ls s = some (w, r)) : s = w ++ r := by
  induction ls generalizing s w r with
  | nil => simp only [spanFolded, Option.some.injEq, Prod.mk.injEq] at h; simp [← h.1, ← h.2]
  | cons l ls ih =>
    cases s with
    | nil => simp [spanFolded] at h
    | cons c t =>
      simp only [spanFolded] at h
      split at h
      · obtain ⟨p, hp, hq⟩ := Option.map_eq_some_iff.1 h
        simp only [Prod.mk.injEq] at hq
        obtain ⟨rfl, rfl⟩ := hq
        simp [ih hp]
      · simp at h

theorem placeWord?_eq {s w r : List Char} (h : placeWord? s = some (w, r)) : s = w ++ r := by
  unfold placeWord? at h
  split at h
  · rename_i w' r' hw
    split at h
    · obtain ⟨rfl, rfl⟩ := by simpa using h
      rcases Option.or_eq_some_iff.1 hw with h1 | ⟨_, h1⟩ <;> exact spanFolded_eq h1
    · simp at h
  · simp at h

theorem location?_eq {s lex r : List Char} {k : TokenKind} (h : location? s = some (k, lex, r)) :
    s = lex ++ r ∧ lex ≠ [] := by
  unfold location? at h
  split at h
  · rename_i t
    simp only at h
    split at h
    · simp at h
    · obtain ⟨p, hp, hq⟩ := Option.map_eq_some_iff.1 h
      simp only [Prod.mk.injEq] at hq
      obtain ⟨rfl, rfl, rfl⟩ := hq
      have h1 := placeWord?_eq hp
      have h2 : t = t.takeWhile isBlank ++ t.dropWhile isBlank :=
        List.takeWhile_append_dropWhile.symm
      refine ⟨?_, by simp⟩
      simp only [List.cons_append, List.append_assoc, ← h1]
      rw [← h2]
  · simp at h

theorem spanName_eq (s : List Char) : s = (spanName s).1 ++ (spanName s).2 := by
  induction s with
  | nil => rfl
  | cons c r ih =>
    simp only [spanName]
    split
    · split
      · rfl
      · simpa using ih
    · split
      · simpa using ih
      · rfl

/-- A name character is no blank. -/
theorem isBlank_of_isNameChar {c : Char} (h : isNameChar c = true) : isBlank c = false := by
  delta isNameChar Char.isAlphanum Char.isAlpha Char.isUpper Char.isLower Char.isDigit at h
  simp only [Bool.or_eq_true, Bool.and_eq_true, decide_eq_true_eq] at h
  rcases h with ((h | h) | h) | h
  · have h1 := UInt32.le_iff_toNat_le.1 h.1
    have h2 := UInt32.le_iff_toNat_le.1 h.2
    simp only [isBlank]
    simp at h1 h2 ⊢
    omega
  · have h1 := UInt32.le_iff_toNat_le.1 h.1
    have h2 := UInt32.le_iff_toNat_le.1 h.2
    simp only [isBlank]
    simp at h1 h2 ⊢
    omega
  · have h1 := UInt32.le_iff_toNat_le.1 h.1
    have h2 := UInt32.le_iff_toNat_le.1 h.2
    simp only [isBlank]
    simp at h1 h2 ⊢
    omega
  · simp at h
    rcases h with rfl | rfl | rfl | rfl | rfl | rfl | rfl | rfl | rfl <;> decide

theorem name?_eq {s lex r : List Char} {k : TokenKind} (h : name? s = some (k, lex, r)) :
    s = lex ++ r ∧ lex ≠ [] := by
  cases s with
  | nil => simp [name?] at h
  | cons c t =>
    simp only [name?] at h
    split at h
    · rename_i hc
      simp only [Option.some.injEq, Prod.mk.injEq] at h
      obtain ⟨rfl, rfl, rfl⟩ := h
      refine ⟨spanName_eq _, ?_⟩
      simp [spanName, hc, isBlank_of_isNameChar hc]
    · simp at h

/-- A lexeme and what follows it make up the text, and no lexeme is empty. -/
theorem first?_eq {b : Bool} {s lex r : List Char} {k : TokenKind}
    (h : first? b s = some (k, lex, r)) : s = lex ++ r ∧ lex ≠ [] := by
  unfold first? at h
  rcases Option.or_eq_some_iff.1 h with h | ⟨_, h⟩
  · exact paren?_eq h
  rcases Option.or_eq_some_iff.1 h with h | ⟨_, h⟩
  · exact operator?_eq h
  rcases Option.or_eq_some_iff.1 h with h | ⟨_, h⟩
  · split at h
    · simp at h
    · rcases Option.or_eq_some_iff.1 h with h | ⟨_, h⟩
      · exact number?_eq h
      · exact location?_eq h
  · exact name?_eq h

theorem length_first? {b : Bool} {s lex r : List Char} {k : TokenKind}
    (h : first? b s = some (k, lex, r)) : r.length < s.length := by
  obtain ⟨rfl, hne⟩ := first?_eq h
  have := List.length_pos_iff.2 hne
  simp
  omega

end Lexeme

namespace Token

/-- The tokens of a text that begins at a position, right after a number or not. -/
def scan (afterNumber : Bool) (position : Nat) (s : List Char) : Except Fault (List Token) :=
  match s with
  | [] => .ok []
  | c :: r =>
    if isBlank c then scan afterNumber (position + 1) r
    else
      match _h : Lexeme.first? afterNumber (c :: r) with
      | none => .error (.illegalCharacter c position)
      | some (k, lex, rest) =>
        (scan (k == .number) (position + lex.length) rest).map
          (⟨k, Lexeme.value k lex, position⟩ :: ·)
termination_by s.length
decreasing_by
  · simp
  · exact Lexeme.length_first? _h

theorem scan_nil (b : Bool) (p : Nat) : scan b p [] = .ok [] := by
  unfold scan
  rfl

theorem scan_blank {c : Char} (hc : isBlank c = true) (b : Bool) (p : Nat) (s : List Char) :
    scan b p (c :: s) = scan b (p + 1) s := by
  conv =>
    lhs
    unfold scan
  simp only [hc, if_true]

theorem scan_none {b : Bool} {c : Char} {s : List Char} (hc : isBlank c = false)
    (h : Lexeme.first? b (c :: s) = none) (p : Nat) :
    scan b p (c :: s) = .error (.illegalCharacter c p) := by
  unfold scan
  simp only [hc]
  rw [if_neg Bool.false_ne_true]
  split
  · rfl
  · simp_all

theorem scan_some {b : Bool} {c : Char} {s : List Char} (hc : isBlank c = false) {k : TokenKind}
    {lex r : List Char} (h : Lexeme.first? b (c :: s) = some (k, lex, r)) (p : Nat) :
    scan b p (c :: s)
      = (scan (k == .number) (p + lex.length) r).map (⟨k, Lexeme.value k lex, p⟩ :: ·) := by
  conv =>
    lhs
    unfold scan
  simp only [hc]
  rw [if_neg Bool.false_ne_true]
  split
  · simp_all
  · simp_all

/-- The tokens of a text. -/
def ofText (text : String) : Except Fault (List Token) := scan false 0 text.toList

example : (ofText "2+ Pot of  Greed IN Deck").toOption = some
    [⟨.number, "2+", 0⟩, ⟨.name, "Pot of Greed", 3⟩, ⟨.location, "DECK", 17⟩] := by decide +kernel

end Token

end OpeningHand
