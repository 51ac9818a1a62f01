import OpeningHand.Play.Usable
import OpeningHand.Proofs.Card.Choosing

/-!
# Picking cards by name

`pickNamed` goes through the names and takes for each the first card of the pool that answers and is still
there. What it takes are different cards of the pool, one for each name (`Answers`). It may find nothing
although there are such cards: a card that answers to two names may be taken for the one that others could
have served, and which card comes first depends on the order of the pool.

The order does not matter if the names are clear (`ClearNames`): two names that some card answers to
alike are answered by the same cards. Then picking succeeds exactly if each name is answered by as many cards
as it has names of its kind (`isSome_pickNamed_iff`).
-/

namespace OpeningHand

/-- One card for each name, in turn. -/
def Answers (cards : List Card) (names : List Value) : Prop :=
  List.Forall₂ (fun c n => c.answersToValue n = true) cards names

instance (cards : List Card) (names : List Value) : Decidable (Answers cards names) :=
  inferInstanceAs (Decidable (List.Forall₂ _ cards names))

/-- Two names for the same cards of a pool. -/
def SameCards (pool : List Card) (m n : Value) : Prop :=
  ∀ c ∈ pool, c.answersToValue m = c.answersToValue n

instance (pool : List Card) (m n : Value) : Decidable (SameCards pool m n) :=
  inferInstanceAs (Decidable (∀ c ∈ pool, _))

/-- No card answers to two of the names, unless these are names for the same cards. -/
def ClearNames (pool : List Card) (names : List Value) : Prop :=
  ∀ m ∈ names, ∀ n ∈ names, ∀ c ∈ pool,
    c.answersToValue m = true → c.answersToValue n = true → SameCards pool m n

instance (pool : List Card) (names : List Value) : Decidable (ClearNames pool names) :=
  inferInstanceAs (Decidable (∀ m ∈ names, ∀ n ∈ names, ∀ c ∈ pool, _))

/-- How many of the names are names for the same cards as a given one. -/
def kindred (pool : List Card) (names : List Value) (n : Value) : Nat :=
  names.countP fun m => decide (SameCards pool m n)

/-- How many cards answer to a name. -/
def answerers (cards : List Card) (n : Value) : Nat := cards.countP (·.answersToValue n)

section

variable {pool pool' taken cards : List Card} {names : List Value}

/-! ### What is picked -/

/-- **What is picked:** different cards of the pool, none of them taken before, one for each name. -/
theorem pickNamed_eq_some (h : pickNamed pool taken names = some cards) :
    ∃ picked, cards = taken ++ picked ∧ Answers picked names ∧ picked ⊆ pool ∧
      (AllDifferent taken → AllDifferent (taken ++ picked)) := by
  induction names generalizing taken with
  | nil =>
      obtain rfl := Option.some.inj h
      exact ⟨[], by simp, List.Forall₂.nil, List.nil_subset _, by simp⟩
  | cons name names ih =>
      rw [pickNamed] at h
      split at h
      · rename_i c hfind
        have hc := List.find?_some hfind
        have hpool := List.mem_of_find?_eq_some hfind
        rw [Bool.and_eq_true, Bool.not_eq_true'] at hc
        obtain ⟨hanswers, hnew⟩ := hc
        obtain ⟨picked, rfl, hnames, hsub, hdifferent⟩ := ih h
        refine ⟨c :: picked, by simp, List.Forall₂.cons hanswers hnames, ?_, fun htaken => ?_⟩
        · exact List.cons_subset.2 ⟨hpool, hsub⟩
        · have hall := hdifferent (htaken.concat hnew)
          rwa [List.append_assoc, List.singleton_append] at hall
      · cases h

/-! ### When picking succeeds -/

theorem sameCards_perm (h : pool.Perm pool') {m n : Value} :
    SameCards pool m n ↔ SameCards pool' m n :=
  ⟨fun hs c hc => hs c (h.mem_iff.2 hc), fun hs c hc => hs c (h.mem_iff.1 hc)⟩

theorem kindred_perm (h : pool.Perm pool') (names : List Value) (n : Value) :
    kindred pool names n = kindred pool' names n :=
  List.countP_congr fun m _ => by simp [sameCards_perm h]

theorem clearNames_perm (h : pool.Perm pool') : ClearNames pool names ↔ ClearNames pool' names := by
  simp only [ClearNames, h.mem_iff, sameCards_perm h]

theorem ClearNames.mono {names' : List Value} (h : ClearNames pool names) (hpool : pool' ⊆ pool)
    (hnames : names' ⊆ names) : ClearNames pool' names' := fun m hm n hn c hc hcm hcn d hd =>
  h m (hnames hm) n (hnames hn) c (hpool hc) hcm hcn d (hpool hd)

theorem answerers_append (a b : List Card) (n : Value) :
    answerers (a ++ b) n = answerers a n + answerers b n := List.countP_append

/-- Cards for the names serve a name as often as there are names of its kind. -/
theorem Answers.kindred_le (h : Answers cards names) (hsub : cards ⊆ pool) (n : Value) :
    kindred pool names n ≤ answerers cards n := by
  induction h with
  | nil => exact Nat.le_refl _
  | @cons c m cards names hc _ ih =>
      rw [List.cons_subset] at hsub
      have hrest := ih hsub.2
      by_cases hsame : SameCards pool m n
      · have hn : c.answersToValue n = true := by rw [← hsame c hsub.1, hc]
        simpa [kindred, answerers, hsame, hn] using hrest
      · have hmore : answerers cards n ≤ answerers (c :: cards) n :=
          (List.sublist_cons_self c cards).countP_le
        have hless : kindred pool (m :: names) n = kindred pool names n := by
          simp [kindred, hsame]
        rw [hless]
        exact Nat.le_trans hrest hmore

/-- A name that more cards of the pool answer to than were taken is answered by one that was not. -/
theorem exists_answerer (hpool : AllDifferent pool) (htaken : taken ⊆ pool) {name : Value}
    (h : answerers taken name < answerers pool name) :
    ∃ c ∈ pool, c.answersToValue name = true ∧ c.isIn taken = false := by
  by_contra hno
  push Not at hno
  -- all cards that answer have been taken, so there are no more of them
  have hsub : pool.filter (·.answersToValue name) ⊆ taken.filter (·.answersToValue name) := by
    intro c hc
    obtain ⟨hc, hanswers⟩ := List.mem_filter.1 hc
    have hin : c.isIn taken = true := by simpa using hno c hc hanswers
    obtain ⟨d, hd, hid⟩ := List.mem_map.1 (Card.isIn_iff.1 hin)
    obtain rfl := hpool.eq_of_id_eq (htaken hd) hc hid
    exact List.mem_filter.2 ⟨hd, hanswers⟩
  have hle := (List.subperm_of_subset (hpool.nodup.filter _) hsub).length_le
  rw [← List.countP_eq_length_filter, ← List.countP_eq_length_filter] at hle
  exact Nat.not_lt.2 hle h

/-- Picking goes on as long as each name is answered by as many cards as have been taken for it and are
still to be. -/
theorem isSome_pickNamed_of_le (hpool : AllDifferent pool) (htaken : taken ⊆ pool)
    (hclear : ClearNames pool names)
    (hle : ∀ n ∈ names, answerers taken n + kindred pool names n ≤ answerers pool n) :
    (pickNamed pool taken names).isSome = true := by
  induction names generalizing taken with
  | nil => rfl
  | cons name names ih =>
      have hself : kindred pool (name :: names) name = kindred pool names name + 1 := by
        simp [kindred, SameCards]
      have hmore : answerers taken name < answerers pool name := by
        have hname := hle name List.mem_cons_self
        omega
      obtain ⟨d, hd, hanswers, hnew⟩ := exists_answerer hpool htaken hmore
      have hfind : (pool.find? fun c => c.answersToValue name && !c.isIn taken).isSome :=
        List.find?_isSome.2 ⟨d, hd, by rw [hanswers, hnew]; rfl⟩
      obtain ⟨c, hc⟩ := Option.isSome_iff_exists.1 hfind
      have hcpool := List.mem_of_find?_eq_some hc
      have hcname : c.answersToValue name = true := by
        have hboth := List.find?_some hc
        rw [Bool.and_eq_true] at hboth
        exact hboth.1
      rw [pickNamed, hc]
      refine ih ?_ ?_ ?_
      · exact List.append_subset.2 ⟨htaken, List.cons_subset.2 ⟨hcpool, List.nil_subset _⟩⟩
      · exact hclear.mono (List.Subset.refl _) (List.subset_cons_self _ _)
      · intro n hn
        have hn' := hle n (List.mem_cons_of_mem _ hn)
        rw [answerers_append]
        by_cases hcn : c.answersToValue n = true
        · -- the card just taken served a name of the same kind
          have hsame : SameCards pool name n :=
            hclear name List.mem_cons_self n (List.mem_cons_of_mem _ hn) c hcpool hcname hcn
          have hone : kindred pool (name :: names) n = kindred pool names n + 1 := by
            simp [kindred, hsame]
          have htwo : answerers [c] n = 1 := by simp [answerers, hcn]
          omega
        · have hnone : answerers [c] n = 0 := by simp [answerers, hcn]
          have hmono : kindred pool names n ≤ kindred pool (name :: names) n :=
            (List.sublist_cons_self name names).countP_le
          omega

/-- **Clear names can be picked exactly if each is answered by as many cards as there are names of its
kind**, in whatever order the cards lie. -/
theorem isSome_pickNamed_iff (hpool : AllDifferent pool) (hclear : ClearNames pool names) :
    (pickNamed pool [] names).isSome = true ↔
      ∀ n ∈ names, kindred pool names n ≤ answerers pool n := by
  constructor
  · intro h n hn
    obtain ⟨cards, hcards⟩ := Option.isSome_iff_exists.1 h
    obtain ⟨picked, -, hnames, hsub, hdifferent⟩ := pickNamed_eq_some hcards
    have hpicked : AllDifferent ([] ++ picked) := hdifferent List.nodup_nil
    have hle := (List.subperm_of_subset hpicked.nodup hsub).countP_le (·.answersToValue n)
    exact Nat.le_trans (hnames.kindred_le hsub n) hle
  · intro h
    refine isSome_pickNamed_of_le hpool (List.nil_subset _) hclear fun n hn => ?_
    have hn := h n hn
    simpa [answerers] using hn

/-- The order of the cards does not matter for clear names. -/
theorem isSome_pickNamed_perm (h : pool.Perm pool') (hpool : AllDifferent pool)
    (hclear : ClearNames pool names) :
    (pickNamed pool [] names).isSome = (pickNamed pool' [] names).isSome := by
  rw [Bool.eq_iff_iff, isSome_pickNamed_iff hpool hclear,
    isSome_pickNamed_iff (hpool.perm h) ((clearNames_perm h).1 hclear)]
  simp only [kindred_perm h, answerers, h.countP_eq]

end

end OpeningHand
