/-!
# Ledgers

A ledger is a list of keys with a value for each, in the order in which the keys first came.
-/

namespace OpeningHand

/-- Keys with their values, in order of first appearance. -/
abbrev Ledger (α β : Type) := List (α × β)

namespace Ledger

variable {α β : Type} [DecidableEq α]

/-- The value of a key. -/
def find? (l : Ledger α β) (key : α) : Option β := (List.find? (fun e => e.1 = key) l).map (·.2)

/-- Changes the value of a key; a new key goes to the end and starts from a value given. -/
def adjust (key : α) (start : β) (f : β → β) : Ledger α β → Ledger α β
  | [] => [(key, f start)]
  | (k, v) :: r => if k = key then (k, f v) :: r else (k, v) :: adjust key start f r

/-- One more for a key. -/
def credit (key : α) (l : Ledger α Nat) : Ledger α Nat := adjust key 0 (· + 1) l

/-- The sum of all counts. -/
def total (l : Ledger α Nat) : Nat := l.foldr (fun e n => e.2 + n) 0

@[simp]
theorem find?_adjust (l : Ledger α β) (key other : α) (start : β) (f : β → β) :
    find? (adjust key start f l) other =
      if other = key then some (f ((find? l key).getD start)) else find? l other := by
  induction l with
  | nil => by_cases h : key = other <;> simp [adjust, find?, h, eq_comm]
  | cons e r ih =>
    obtain ⟨k, v⟩ := e
    simp only [adjust]
    by_cases hk : k = key
    · subst hk
      by_cases h : k = other
      · subst h; simp [find?]
      · simp [find?, h, Ne.symm h]
    · simp only [hk, ↓reduceIte]
      by_cases h : k = other
      · subst h; simp [find?, hk]
      · have h1 : ∀ x, find? ((k, v) :: r) x = if k = x then some v else find? r x := by
          intro x
          by_cases hx : k = x <;> simp [find?, hx]
        have h2 : find? ((k, v) :: adjust key start f r) other =
            find? (adjust key start f r) other := by
          simp [find?, h]
        rw [h2, ih, h1, h1]
        simp [h, hk]

/-- A key that is already there keeps its place, and a new one goes to the end. -/
theorem keys_adjust (l : Ledger α β) (key : α) (start : β) (f : β → β) :
    (adjust key start f l).map Prod.fst =
      if key ∈ l.map Prod.fst then l.map Prod.fst else l.map Prod.fst ++ [key] := by
  induction l with
  | nil => simp [adjust]
  | cons e r ih =>
    obtain ⟨k, v⟩ := e
    by_cases hk : k = key
    · simp [adjust, hk]
    · simp only [adjust, hk, ↓reduceIte, List.map_cons, ih, List.mem_cons, Ne.symm hk, false_or]
      split <;> simp

theorem mem_keys_adjust (l : Ledger α β) (key other : α) (start : β) (f : β → β) :
    other ∈ (adjust key start f l).map Prod.fst ↔ other ∈ l.map Prod.fst ∨ other = key := by
  rw [keys_adjust]
  split
  · rename_i hkey
    exact ⟨Or.inl, fun h => h.elim id fun heq => heq ▸ hkey⟩
  · rw [List.mem_append, List.mem_singleton]

/-- No key comes twice. -/
theorem nodup_keys_adjust {l : Ledger α β} (h : (l.map Prod.fst).Nodup) (key : α) (start : β)
    (f : β → β) : ((adjust key start f l).map Prod.fst).Nodup := by
  rw [keys_adjust]
  split
  · exact h
  · rename_i hnew
    refine List.nodup_append.2 ⟨h, List.nodup_cons.2 ⟨List.not_mem_nil, List.nodup_nil⟩, ?_⟩
    rintro k hk _ hkey rfl
    exact hnew (List.mem_singleton.1 hkey ▸ hk)

/-- One more for a key is one more in all. -/
theorem total_credit (key : α) (l : Ledger α Nat) : (credit key l).total = l.total + 1 := by
  induction l with
  | nil => rfl
  | cons e r ih =>
    obtain ⟨k, v⟩ := e
    simp only [credit, total, adjust, List.foldr_cons] at ih ⊢
    split
    · exact Nat.add_right_comm v 1 _
    · rw [List.foldr_cons, ih, Nat.add_assoc]

end Ledger

end OpeningHand
