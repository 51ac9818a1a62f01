import OpeningHand.Proofs.Condition.Conjunction
import OpeningHand.Proofs.Condition.Documents
import OpeningHand.Proofs.Condition.RoundTrip

/-!
# What reading back a written condition keeps

A condition that was given as a tree need not remember any parentheses, and it is written without those it does not
remember. Reading its text groups to the left what stands without parentheses (`Condition.regroup`). That is another
tree, but it may mean the same: where a right side repeats the word before it, it does not matter how the three parts
are grouped, neither for an `OR` nor for an `AND`, whose sides take their cards from left to right all the same
(`Condition.Agrees.assoc`). So a condition keeps its meaning if each right side repeats the word before it, down to
the parentheses in it (`Condition.groupsAlike`). A right side of the other word changes it
(`Condition.meaning_lost`).
-/

namespace OpeningHand

/-- The cards that a pass uses up. -/
def Attempt.spent (a : Attempt) : List Card := if a.success then a.used else []

theorem Attempt.spent_of_success {a : Attempt} (h : a.success = true) : a.spent = a.used := if_pos h

theorem Attempt.mem_used_of_mem_spent {a : Attempt} {x : Card} (h : x ∈ a.spent) : x ∈ a.used := by
  unfold spent at h
  split at h
  · exact h
  · cases h

theorem Attempt.spent_of_failure {a : Attempt} (h : a.success = false) : a.spent = [] := by
  rw [spent, h, if_neg Bool.false_ne_true]

namespace Condition

/-- Both sides of an `AND` use up their cards. -/
theorem check_and (a b : Condition) (g : Bool) (hand deck : List Card) :
    ((joint .and a b g).check hand deck).success
        = ((a.check hand deck).success && (b.check (without hand (a.check hand deck).spent) deck).success) ∧
      ((joint .and a b g).check hand deck).used
        = (a.check hand deck).spent ++ (b.check (without hand (a.check hand deck).spent) deck).spent :=
  ⟨rfl, rfl⟩

/-- Passes over two conditions come out alike on all cards: both succeed or both fail, and they use up the same
cards. -/
def Agrees (a b : Condition) : Prop :=
  ∀ hand deck, (a.check hand deck).success = (b.check hand deck).success ∧
    (a.check hand deck).spent = (b.check hand deck).spent

namespace Agrees

variable {a a' b b' c : Condition} {j : Joint} {g g' : Bool}

theorem refl (a : Condition) : Agrees a a := fun _ _ => ⟨rfl, rfl⟩

theorem trans (h : Agrees a b) (h' : Agrees b c) : Agrees a c := fun hand deck =>
  ⟨(h hand deck).1.trans (h' hand deck).1, (h hand deck).2.trans (h' hand deck).2⟩

/-- Conditions with sides that come out alike come out alike, whatever stands in parentheses. -/
theorem joint (ha : Agrees a a') (hb : Agrees b b') (j : Joint) (g g' : Bool) :
    Agrees (.joint j a b g) (.joint j a' b' g') := by
  intro hand deck
  cases j with
  | and =>
      obtain ⟨hsuccess, hused⟩ := check_and a b g hand deck
      obtain ⟨hsuccess', hused'⟩ := check_and a' b' g' hand deck
      rw [Attempt.spent, Attempt.spent, hsuccess, hused, hsuccess', hused', (ha hand deck).1, (ha hand deck).2,
        (hb _ deck).1, (hb _ deck).2]
      exact ⟨rfl, rfl⟩
  | or =>
      have hsuccess : ((Condition.joint .or a b g).check hand deck).success
          = ((Condition.joint .or a' b' g').check hand deck).success := by
        simp only [check, (ha hand deck).1, (hb hand deck).1]
      exact ⟨hsuccess, by rw [Attempt.spent, Attempt.spent, hsuccess]; rfl⟩

theorem inParentheses (c : Condition) : Agrees c.inParentheses c := by
  cases c with
  | leaf l => exact refl _
  | joint j a b g => exact joint (refl a) (refl b) j true g

/-- **Three parts joined by one word may be grouped either way.** -/
theorem assoc (j : Joint) (a b c : Condition) (g₁ g₂ g₃ g₄ : Bool) :
    Agrees (.joint j (.joint j a b g₁) c g₂) (.joint j a (.joint j b c g₃) g₄) := by
  intro hand deck
  cases j with
  | and =>
      obtain ⟨hinner, hinnerUsed⟩ := check_and a b g₁ hand deck
      obtain ⟨houter, houterUsed⟩ := check_and (.joint .and a b g₁) c g₂ hand deck
      obtain ⟨hinner', hinnerUsed'⟩ := check_and b c g₃ (without hand (a.check hand deck).spent) deck
      obtain ⟨houter', houterUsed'⟩ := check_and a (.joint .and b c g₃) g₄ hand deck
      cases hleft : ((Condition.joint .and a b g₁).check hand deck).success with
      | true =>
          -- the third part sees what the first two leave, either way
          have hspent : ((Condition.joint .and a b g₁).check hand deck).spent
              = (a.check hand deck).spent ++ (b.check (without hand (a.check hand deck).spent) deck).spent := by
            rw [Attempt.spent_of_success hleft, hinnerUsed]
          obtain ⟨ha, hb⟩ := Bool.and_eq_true_iff.1 (hinner.symm.trans hleft)
          rw [hleft, hspent, without_append, Bool.true_and] at houter
          rw [hspent, without_append, List.append_assoc] at houterUsed
          rw [ha, hinner', hb, Bool.true_and, Bool.true_and] at houter'
          rw [hb, Bool.true_and] at hinner'
          refine ⟨houter.trans houter'.symm, ?_⟩
          cases hc : (c.check (without (without hand (a.check hand deck).spent)
              (b.check (without hand (a.check hand deck).spent) deck).spent) deck).success with
          | true =>
              rw [Attempt.spent_of_success (houter.trans hc), Attempt.spent_of_success (houter'.trans hc),
                houterUsed, houterUsed', Attempt.spent_of_success (hinner'.trans hc), hinnerUsed']
          | false =>
              rw [Attempt.spent_of_failure (houter.trans hc), Attempt.spent_of_failure (houter'.trans hc)]
      | false =>
          rw [hleft, Bool.false_and] at houter
          rw [hinner', ← Bool.and_assoc, ← hinner, hleft, Bool.false_and] at houter'
          exact ⟨houter.trans houter'.symm, by
            rw [Attempt.spent_of_failure houter, Attempt.spent_of_failure houter']⟩
  | or =>
      have hsuccess : ((Condition.joint .or (.joint .or a b g₁) c g₂).check hand deck).success
          = ((Condition.joint .or a (.joint .or b c g₃) g₄).check hand deck).success := Bool.or_assoc ..
      exact ⟨hsuccess, by rw [Attempt.spent, Attempt.spent, hsuccess]; rfl⟩

theorem success_evaluate (h : Agrees a b) (hand deck : List Card) :
    (a.evaluate hand deck).success = (b.evaluate hand deck).success := by
  rw [Bool.eq_iff_iff, Condition.success_evaluate, Condition.success_evaluate]
  simp only [(h _ deck).1]

end Agrees

/-! ### Right sides that repeat the word before them -/

/-- Whether all joints of a condition, down to those in parentheses, have one word. -/
def isRunOf (j : Joint) : Condition → Bool
  | .leaf _ => true
  | .joint j' a b grouped => grouped || (j' == j && a.isRunOf j && b.isRunOf j)

/-- Whether each right side repeats the word before it, down to the parentheses in it. -/
def groupsAlike : Condition → Bool
  | .leaf _ => true
  | .joint j a b _ => a.groupsAlike && b.groupsAlike && b.isRunOf j

/-- **Grouping to the left keeps the meaning** where each right side repeats the word before it. -/
theorem agrees_regroupOnto {before : Option (Condition × Joint)} {c : Condition} (hc : c.groupsAlike = true)
    (hbefore : ∀ l j, before = some (l, j) → c.isRunOf j = true) :
    Agrees (regroupOnto before c) (onto before c) := by
  induction c generalizing before with
  | leaf l => exact .refl _
  | joint j a b grouped iha ihb =>
      simp only [groupsAlike, Bool.and_eq_true] at hc
      obtain ⟨⟨ha, hb⟩, hrun⟩ := hc
      have hright : ∀ left, Agrees (regroupOnto (some (left, j)) b) (.joint j left b false) := fun left =>
        ihb hb fun l j' h => by
          obtain ⟨-, rfl⟩ := Prod.mk.inj (Option.some.inj h)
          exact hrun
      have hnone : Agrees (regroupOnto none a) a := iha ha fun l j' h => by cases h
      have hboth : Agrees (regroupOnto (some (regroupOnto none a, j)) b) (.joint j a b grouped) :=
        (hright _).trans (hnone.joint (.refl b) j false grouped)
      cases grouped with
      | true =>
          rw [regroupOnto, if_pos rfl]
          cases before with
          | none => exact (Agrees.inParentheses _).trans hboth
          | some p => exact (Agrees.refl _).joint ((Agrees.inParentheses _).trans hboth) p.2 false false
      | false =>
          rw [regroupOnto, if_neg Bool.false_ne_true]
          cases before with
          | none => exact hboth
          | some p =>
              obtain ⟨left, j'⟩ := p
              have hsame := hbefore left j' rfl
              simp only [isRunOf, Bool.false_or, Bool.and_eq_true, beq_iff_eq] at hsame
              obtain ⟨⟨rfl, hrunleft⟩, -⟩ := hsame
              have hleft : Agrees (regroupOnto (some (left, j)) a) (.joint j left a false) :=
                iha ha fun l j' h => by
                  obtain ⟨-, rfl⟩ := Prod.mk.inj (Option.some.inj h)
                  exact hrunleft
              exact ((hright _).trans (hleft.joint (.refl b) j false false)).trans
                (Agrees.assoc j left a b false false false false)

theorem agrees_regroup {c : Condition} (hc : c.groupsAlike = true) : Agrees c.regroup c :=
  agrees_regroupOnto hc fun l j h => by cases h

/-! ### Conditions on which names have a card

Where each leaf asks for one card, and no two for the same name, a hand of cards without tags matters only by the names
that it has. Then the text keeps the meaning in no other case. -/

end Condition

/-- What a joint makes of its two sides. -/
def Joint.value : Joint → Bool → Bool → Bool
  | .and, x, y => x && y
  | .or, x, y => x || y

/-- The value of a side that leaves the other side to decide; a side of this value decides a joint of the other
word. -/
def Joint.neutral : Joint → Bool
  | .and => true
  | .or => false

namespace Joint

@[simp]
theorem value_neutral_left (j : Joint) (x : Bool) : j.value j.neutral x = x := by
  cases j <;> cases x <;> rfl

@[simp]
theorem value_neutral_right (j : Joint) (x : Bool) : j.value x j.neutral = x := by
  cases j <;> cases x <;> rfl

@[simp]
theorem value_self (j : Joint) (x : Bool) : j.value x x = x := by
  cases j <;> cases x <;> rfl

theorem value_neutral_of_ne {j j' : Joint} (h : j' ≠ j) (x : Bool) : j'.value x j.neutral = j.neutral := by
  cases j <;> cases j' <;> cases x <;> simp_all [value, neutral]

end Joint

namespace Condition

/-- Whether a condition holds if a leaf holds exactly for some names. -/
def holdsFor (s : String → Bool) : Condition → Bool
  | .leaf l => s l.name
  | .joint j a b _ => j.value (a.holdsFor s) (b.holdsFor s)

section

variable {s t : String → Bool} {c : Condition} {j : Joint} {v : Bool}

theorem names_joint (j : Joint) (a b : Condition) (g : Bool) : (joint j a b g).names = a.names ++ b.names :=
  List.map_append

theorem holdsFor_congr (h : ∀ n ∈ c.names, s n = t n) : c.holdsFor s = c.holdsFor t := by
  induction c with
  | leaf l => exact h l.name (List.mem_singleton_self _)
  | joint j a b g iha ihb =>
      rw [names_joint, List.forall_mem_append] at h
      rw [holdsFor, holdsFor, iha h.1, ihb h.2]

/-- If all leaves have one value, the condition has it. -/
theorem holdsFor_of_forall (h : ∀ n ∈ c.names, s n = v) : c.holdsFor s = v := by
  induction c with
  | leaf l => exact h l.name (List.mem_singleton_self _)
  | joint j a b g iha ihb =>
      rw [names_joint, List.forall_mem_append] at h
      rw [holdsFor, iha h.1, ihb h.2, Joint.value_self]

@[simp]
theorem holdsFor_inParentheses (s : String → Bool) (c : Condition) : c.inParentheses.holdsFor s = c.holdsFor s := by
  cases c <;> rfl

/-- What is open before a condition makes of the condition's value. -/
def valueAfter (s : String → Bool) (before : Option (Condition × Joint)) (x : Bool) : Bool :=
  match before with
  | none => x
  | some (l, j) => j.value (l.holdsFor s) x

theorem holdsFor_onto (s : String → Bool) (before : Option (Condition × Joint)) (c : Condition) :
    (onto before c).holdsFor s = valueAfter s before (c.holdsFor s) := by
  cases before <;> rfl

theorem leaves_onto_congr (before : Option (Condition × Joint)) {c d : Condition} (h : c.leaves = d.leaves) :
    (onto before c).leaves = (onto before d).leaves := by
  cases before with
  | none => exact h
  | some p => exact congrArg (p.1.leaves ++ ·) h

/-- Grouping keeps the leaves. -/
theorem leaves_regroupOnto (before : Option (Condition × Joint)) (c : Condition) :
    (regroupOnto before c).leaves = (onto before c).leaves := by
  induction c generalizing before with
  | leaf l => rfl
  | joint j a b grouped iha ihb =>
      have hinner : ∀ before', (regroupOnto (some (regroupOnto before' a, j)) b).leaves
          = (onto before' a).leaves ++ b.leaves := by
        intro before'
        rw [ihb, ← iha]
        rfl
      cases grouped with
      | true =>
          rw [regroupOnto, if_pos rfl]
          exact leaves_onto_congr before (by rw [leaves_inParentheses, hinner]; rfl)
      | false =>
          rw [regroupOnto, if_neg Bool.false_ne_true, hinner]
          cases before with
          | none => rfl
          | some p => exact List.append_assoc ..

theorem leaves_regroup (c : Condition) : c.regroup.leaves = c.leaves := leaves_regroupOnto none c

/-- Only the value of what is open before a condition matters. -/
theorem holdsFor_regroupOnto_congr {before before' : Option (Condition × Joint)}
    (h : ∀ x, valueAfter s before x = valueAfter s before' x) (c : Condition) :
    (regroupOnto before c).holdsFor s = (regroupOnto before' c).holdsFor s := by
  induction c generalizing before before' with
  | leaf l => rw [regroupOnto, regroupOnto, holdsFor_onto, holdsFor_onto, h]
  | joint j a b grouped iha ihb =>
      cases grouped with
      | true => rw [regroupOnto, regroupOnto, if_pos rfl, if_pos rfl, holdsFor_onto, holdsFor_onto, h]
      | false =>
          rw [regroupOnto, regroupOnto, if_neg Bool.false_ne_true, if_neg Bool.false_ne_true]
          exact ihb fun x => by rw [valueAfter, valueAfter, iha h]

/-- **Where all leaves have the neutral value of a word, what is open before with that word decides, if the condition
is a run of it; otherwise some joint of the other word decides.** -/
theorem holdsFor_regroupOnto_of_neutral (h : ∀ n ∈ c.names, s n = j.neutral) (l : Condition) (j' : Joint) :
    (regroupOnto (some (l, j')) c).holdsFor s
      = if j' = j ∧ c.isRunOf j = true then l.holdsFor s else j.neutral := by
  -- a part that has the neutral value itself
  have hpart : ∀ {d : Condition}, d.holdsFor s = j.neutral → ∀ l j',
      (onto (some (l, j')) d).holdsFor s = if j' = j then l.holdsFor s else j.neutral := by
    intro d hd l j'
    rw [holdsFor_onto, valueAfter, hd]
    split
    · rename_i hj
      rw [hj, Joint.value_neutral_right]
    · rename_i hj
      exact Joint.value_neutral_of_ne hj _
  induction c generalizing l j' with
  | leaf x =>
      have hx : (Condition.leaf x).holdsFor s = j.neutral := holdsFor_of_forall h
      rw [regroupOnto, hpart hx, isRunOf]
      simp
  | joint k a b grouped iha ihb =>
      have hnames := h
      rw [names_joint, List.forall_mem_append] at hnames
      cases grouped with
      | true =>
          rw [regroupOnto, if_pos rfl]
          have hx : (regroupOnto (some (regroupOnto none a, k)) b).inParentheses.holdsFor s = j.neutral := by
            refine holdsFor_of_forall fun n hn => h n ?_
            rw [names, leaves_inParentheses, leaves_regroupOnto, onto, leaves, leaves_regroupOnto] at hn
            exact hn
          rw [hpart hx, isRunOf]
          simp
      | false =>
          rw [regroupOnto, if_neg Bool.false_ne_true, ihb hnames.2, iha hnames.1, isRunOf]
          by_cases hj : j' = j <;> by_cases hk : k = j <;> simp [hj, hk, and_comm, ← ite_and]

/-- **If no two leaves ask for the same name, grouping keeps the meaning in no other case.** Leaves with the neutral
value of the word between two sides leave the other side to decide. -/
theorem groupsAlike_of_holdsFor (hnames : c.names.Nodup) (h : ∀ s, c.regroup.holdsFor s = c.holdsFor s) :
    c.groupsAlike = true := by
  induction c with
  | leaf l => rfl
  | joint j a b grouped iha ihb =>
      rw [names_joint, List.nodup_append] at hnames
      obtain ⟨hna, hnb, hapart⟩ := hnames
      have hapart' : ∀ n ∈ a.names, n ∉ b.names := fun n hn hn' => hapart n hn n hn' rfl
      have hread : ∀ s, (regroupOnto (some (a.regroup, j)) b).holdsFor s = j.value (a.holdsFor s) (b.holdsFor s) := by
        intro s
        rw [← holdsFor, ← h s]
        cases grouped with
        | true => exact (holdsFor_inParentheses s _).symm
        | false => rfl
      -- leaves on the right that leave it to the left side
      have hdecides : ∀ s : String → Bool, (if b.isRunOf j = true then
            a.regroup.holdsFor (fun n => if n ∈ b.names then j.neutral else s n) else j.neutral) = a.holdsFor s := by
        intro s
        have hneutral : ∀ n ∈ b.names, (if n ∈ b.names then j.neutral else s n) = j.neutral := fun n hn => if_pos hn
        have hquiet := hread fun n => if n ∈ b.names then j.neutral else s n
        rw [holdsFor_regroupOnto_of_neutral hneutral, holdsFor_of_forall hneutral, Joint.value_neutral_right,
          holdsFor_congr fun n hn => if_neg (hapart' n hn)] at hquiet
        simpa using hquiet
      have hrun : b.isRunOf j = true := by
        by_contra hno
        have hconst := hdecides fun _ => !j.neutral
        rw [if_neg hno, holdsFor_of_forall fun _ _ => rfl] at hconst
        exact Bool.not_ne_self _ hconst.symm
      have ha : ∀ s, a.regroup.holdsFor s = a.holdsFor s := by
        intro s
        rw [← hdecides s, if_pos hrun]
        refine holdsFor_congr fun n hn => (if_neg (hapart' n ?_)).symm
        rwa [names, leaves_regroup] at hn
      -- leaves on the left that leave it to the right side
      have hb : ∀ s, b.regroup.holdsFor s = b.holdsFor s := by
        intro s
        have hneutral : ∀ n ∈ a.names, (if n ∈ a.names then j.neutral else s n) = j.neutral := fun n hn => if_pos hn
        have hquiet := hread fun n => if n ∈ a.names then j.neutral else s n
        have hsame : ∀ {d : Condition}, d.leaves = b.leaves →
            d.holdsFor (fun n => if n ∈ a.names then j.neutral else s n) = d.holdsFor s := by
          intro d hd
          refine holdsFor_congr fun n hn => if_neg fun hn' => hapart' n hn' ?_
          rwa [names, hd] at hn
        rw [holdsFor_of_forall hneutral, Joint.value_neutral_left, hsame rfl] at hquiet
        rw [← hquiet, ← hsame (leaves_regroup b), regroup]
        refine (holdsFor_regroupOnto_congr (fun x => ?_) b).symm
        show j.value (a.regroup.holdsFor _) x = x
        rw [ha, holdsFor_of_forall hneutral, Joint.value_neutral_left]
      rw [groupsAlike, iha hna ha, ihb hnb hb, hrun]
      rfl

/-- Each leaf asks for a card of the hand, and no two for the same name. -/
structure AsksApart (c : Condition) : Prop where
  one : ∀ l ∈ c.leaves, l = ⟨l.name, 1, .atLeast, .hand⟩
  apart : c.names.Nodup

namespace AsksApart

theorem sides {j : Joint} {a b : Condition} {g : Bool} (h : (joint j a b g).AsksApart) :
    a.AsksApart ∧ b.AsksApart ∧ ∀ n ∈ a.names, n ∉ b.names := by
  have hapart := h.apart
  rw [names_joint, List.nodup_append] at hapart
  obtain ⟨ha, hb, hne⟩ := hapart
  exact ⟨⟨fun l hl => h.one l (List.mem_append_left _ hl), ha⟩,
    ⟨fun l hl => h.one l (List.mem_append_right _ hl), hb⟩, fun n hn hn' => hne n hn n hn' rfl⟩

theorem regroup (h : c.AsksApart) : c.regroup.AsksApart := by
  constructor
  · rw [leaves_regroup]
    exact h.one
  · rw [names, leaves_regroup]
    exact h.apart

/-- What a pass over cards without tags makes of it, and which cards it takes. -/
theorem check (hc : c.AsksApart) {hand : List Card} (deck : List Card) (htags : ∀ x ∈ hand, x.tags = [])
    (hd : AllDifferent hand) :
    (c.check hand deck).success = c.holdsFor (fun n => hand.any (·.name == n)) ∧
      ∀ x ∈ (c.check hand deck).used, x ∈ hand ∧ x.name ∈ c.names := by
  induction c generalizing hand with
  | leaf l =>
      obtain ⟨name, count, comparison, place⟩ := l
      obtain ⟨rfl, rfl, rfl⟩ : count = 1 ∧ comparison = .atLeast ∧ place = .hand := by
        simpa using hc.one _ (List.mem_singleton_self _)
      have hanswers : ∀ x ∈ hand, x.answersTo name = true ↔ x.name = name := by
        intro x hx
        rw [Card.answersTo, htags x hx, List.contains_nil, Bool.or_false, beq_iff_eq, eq_comm]
      constructor
      · show decide ((1 : Int) ≤ (answering [name] hand).length) = hand.any (·.name == name)
        have hpos : (1 : Int) ≤ (answering [name] hand).length ↔ 0 < (answering [name] hand).length := by omega
        rw [Bool.eq_iff_iff, decide_eq_true_iff, List.any_eq_true, hpos, List.length_pos_iff_exists_mem]
        refine exists_congr fun x => ?_
        rw [mem_answering_singleton, and_congr_right_iff, beq_iff_eq]
        exact hanswers x
      · intro x hx
        obtain ⟨hhand, hx⟩ := mem_answering_singleton.1 ((firstCards_sublist 1 _).subset hx)
        exact ⟨hhand, List.mem_singleton.2 ((hanswers x hhand).1 hx)⟩
  | joint j a b g iha ihb =>
      obtain ⟨ha, hb, hne⟩ := hc.sides
      obtain ⟨hsuccess, hused⟩ := iha ha htags hd
      cases j with
      | or =>
          obtain ⟨hsuccess', -⟩ := ihb hb htags hd
          refine ⟨?_, List.forall_mem_nil _⟩
          show (_ || _) = (_ || _)
          rw [hsuccess, hsuccess']
      | and =>
          have hspent : ∀ x ∈ (a.check hand deck).spent, x ∈ hand ∧ x.name ∈ a.names := fun x hx =>
            hused x (Attempt.mem_used_of_mem_spent hx)
          have hleft := without_sublist hand (a.check hand deck).spent
          obtain ⟨hsuccess', hused'⟩ := ihb hb (fun x hx => htags x (hleft.subset hx)) (hd.sublist hleft)
          -- the left side takes no card that the right side asks for
          have hsame : ∀ n ∈ b.names, (without hand (a.check hand deck).spent).any (·.name == n)
              = hand.any (·.name == n) := by
            intro n hn
            rw [Bool.eq_iff_iff, List.any_eq_true, List.any_eq_true]
            constructor
            · rintro ⟨x, hx, hname⟩
              exact ⟨x, hleft.subset hx, hname⟩
            · rintro ⟨x, hx, hname⟩
              refine ⟨x, mem_without.2 ⟨hx, fun hid => ?_⟩, hname⟩
              obtain ⟨y, hy, hid⟩ := List.mem_map.1 hid
              obtain ⟨hyhand, hyname⟩ := hspent y hy
              obtain rfl := hd.eq_of_id_eq hyhand hx hid
              exact hne _ hyname (beq_iff_eq.1 hname ▸ hn)
          obtain ⟨hboth, hbothUsed⟩ := check_and a b g hand deck
          constructor
          · rw [hboth, hsuccess, hsuccess', holdsFor_congr hsame]
            rfl
          · rw [hbothUsed, names_joint]
            intro x hx
            rcases List.mem_append.1 hx with hx | hx
            · exact ⟨(hspent x hx).1, List.mem_append_left _ (hspent x hx).2⟩
            · obtain ⟨hhand, hname⟩ := hused' x (Attempt.mem_used_of_mem_spent hx)
              exact ⟨hleft.subset hhand, List.mem_append_right _ hname⟩

theorem success_evaluate (hc : c.AsksApart) {hand : List Card} (deck : List Card)
    (htags : ∀ x ∈ hand, x.tags = []) (hd : AllDifferent hand) :
    (c.evaluate hand deck).success = c.holdsFor (fun n => hand.any (·.name == n)) := by
  rw [Bool.eq_iff_iff, Condition.success_evaluate]
  constructor
  · rintro ⟨order, horder, hmet⟩
    have htags' : ∀ x ∈ order, x.tags = [] := fun x hx => htags x (horder.subset hx)
    rw [(hc.check deck htags' (hd.perm horder.symm)).1] at hmet
    rw [← hmet]
    exact holdsFor_congr fun n _ => horder.symm.any_eq
  · intro hmet
    exact ⟨hand, .refl _, (hc.check deck htags hd).1.trans hmet⟩

end AsksApart

/-- A card without tags of each name. -/
def cardsNamed (names : List String) : List Card := names.zipIdx.map fun p => ⟨⟨p.2, 0⟩, p.1, [], none⟩

theorem allDifferent_cardsNamed (names : List String) : AllDifferent (cardsNamed names) := by
  have hids : (cardsNamed names).map (·.id) = (List.range' 0 names.length).map fun i => ⟨i, 0⟩ := by
    rw [cardsNamed, List.map_map, ← List.zipIdx_map_snd, List.map_map]
    rfl
  rw [AllDifferent, hids]
  exact List.Nodup.map (fun i i' h => (CardId.mk.inj h).1) List.nodup_range'

theorem any_cardsNamed (names : List String) (n : String) :
    (cardsNamed names).any (·.name == n) = true ↔ n ∈ names := by
  have hnames : (cardsNamed names).map (·.name) = names := by
    rw [cardsNamed, List.map_map]
    exact List.zipIdx_map_fst 0 names
  conv_rhs => rw [← hnames]
  simp only [List.any_eq_true, beq_iff_eq, List.mem_map]

/-- **Where no two leaves ask for the same name, the text keeps the meaning exactly if each right side repeats the word
before it.** -/
theorem success_evaluate_regroup_iff (hc : c.AsksApart) :
    (∀ hand deck, (c.regroup.evaluate hand deck).success = (c.evaluate hand deck).success) ↔
      c.groupsAlike = true := by
  refine ⟨fun h => groupsAlike_of_holdsFor hc.apart fun s => ?_, fun h => (agrees_regroup h).success_evaluate⟩
  have htags : ∀ x ∈ cardsNamed (c.names.filter s), x.tags = [] := by
    intro x hx
    obtain ⟨p, -, rfl⟩ := List.mem_map.1 hx
    rfl
  have hd := allDifferent_cardsNamed (c.names.filter s)
  have hboth := h (cardsNamed (c.names.filter s)) []
  have hvalue : ∀ {d : Condition}, d.leaves = c.leaves →
      d.holdsFor (fun n => (cardsNamed (c.names.filter s)).any (·.name == n)) = d.holdsFor s := by
    intro d hd
    refine holdsFor_congr fun n hn => ?_
    rw [names, hd] at hn
    rw [Bool.eq_iff_iff, any_cardsNamed, List.mem_filter]
    exact and_iff_right hn
  rw [hc.regroup.success_evaluate [] htags hd, hc.success_evaluate [] htags hd, hvalue (leaves_regroup c),
    hvalue rfl] at hboth
  exact hboth

/-! ### Trees that are written as texts -/

/-- **What a tree comes to when it is written as a text and read again.**  A condition that was given as a document is
written as its text, by itself and in a deck file. If no count is negative and every name is a card name, the text is
read again without a fault, as the condition grouped to the left. This is the same tree exactly if each right side is a
leaf or stands in parentheses. It means the same, for all hands and decks, if each right side repeats the word before
it, down to the parentheses in it; and only then, where each leaf asks for one card and no two for the same name. -/
theorem success_evaluate_readAgain {v : Value} (h : ofValue v = .ok c) (hcount : ∀ l ∈ c.leaves, 0 ≤ l.count)
    (hname : ∀ l ∈ c.leaves, IsCardName l.name) :
    (Given.document v).asText = .ok (.text c.text) ∧ Given.texts [.document v] = .ok [c.text] ∧
      (Given.document (.text c.text)).toDraft = .ok (.ofCondition c.regroup) ∧
      (c.regroup.same c = true ↔ c.rightGrouped = true) ∧
      (c.groupsAlike = true →
        ∀ hand deck, (c.regroup.evaluate hand deck).success = (c.evaluate hand deck).success) ∧
      (c.AsksApart →
        ((∀ hand deck, (c.regroup.evaluate hand deck).success = (c.evaluate hand deck).success) ↔
          c.groupsAlike = true)) := by
  obtain ⟨-, htext, htexts⟩ := toDraft_of_ofValue h
  exact ⟨htext, htexts, map_eq_ok.2 ⟨c.regroup, ofText_text_eq hcount hname, rfl⟩, same_regroup_iff,
    fun halike => (agrees_regroup halike).success_evaluate, success_evaluate_regroup_iff⟩

end

/-- "A AND (B AND C)" without any memory of the parentheses is read again as "(A AND B) AND C". -/
theorem success_evaluate_readAgain_and :
    let c := joint .and (one "A") (joint .and (one "B") (one "C") false) false
    let d := joint .and (joint .and (one "A") (one "B") false) (one "C") false
    c.text = "1+ A IN HAND AND 1+ B IN HAND AND 1+ C IN HAND" ∧
      (Given.document c.toValue).asText = .ok (.text c.text) ∧
      (Given.document (.text c.text)).toDraft = .ok (.ofCondition d) ∧
      ∀ hand deck, (d.evaluate hand deck).success = (c.evaluate hand deck).success := by
  intro c d
  obtain ⟨htext, -, hdraft, -, hmeaning, -⟩ :=
    success_evaluate_readAgain (ofValue_toValue c) (by decide) (by decide +kernel)
  exact ⟨by decide +kernel, htext, hdraft, hmeaning rfl⟩

/-- **A right side of the other word loses its group.**  "A AND (B OR C)", given as a tree without any memory of
parentheses, is written without them and read again as "(A AND B) OR C". A hand with nothing but a C meets what was
read, but not what was written. -/
theorem meaning_lost :
    let c := joint .and (one "A") (joint .or (one "B") (one "C") false) false
    let d := joint .or (joint .and (one "A") (one "B") false) (one "C") false
    let hand : List Card := [⟨⟨0, 0⟩, "C", [], none⟩]
    ofValue c.toValue = .ok c ∧ (∀ l ∈ c.leaves, 0 ≤ l.count) ∧ (∀ l ∈ c.leaves, IsCardName l.name) ∧
      c.text = "1+ A IN HAND AND 1+ B IN HAND OR 1+ C IN HAND" ∧
      (Given.document c.toValue).asText = .ok (.text c.text) ∧
      (Given.document (.text c.text)).toDraft = .ok (.ofCondition d) ∧
      (c.evaluate hand []).success = false ∧ (d.evaluate hand []).success = true := by
  intro c d hand
  have hcount : ∀ l ∈ c.leaves, 0 ≤ l.count := by decide
  have hname : ∀ l ∈ c.leaves, IsCardName l.name := by decide +kernel
  have hread := ofValue_toValue c
  exact ⟨hread, hcount, hname, by decide +kernel, (toDraft_of_ofValue hread).2.1,
    map_eq_ok.2 ⟨d, ofText_text_eq hcount hname, rfl⟩, by decide +kernel, by decide +kernel⟩

end Condition

end OpeningHand
