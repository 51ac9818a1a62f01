import OpeningHand.Card.DeckList

/-!
# Fields by name

Mappings with text keys and deck lists are both lists of named things, and both grow by the same
operation: a name that is there keeps its place and takes the new thing, any other goes to the end. `put`
is this operation. It never repeats a name (`nodup_put`), and names that do not repeat come out in the
order in which they went in (`foldl_put`).
-/

namespace OpeningHand

section Put

variable {α : Type} {name : String} {a : α} {l : List (String × α)}

/-- Puts a thing under a name. -/
def put (name : String) (a : α) : List (String × α) → List (String × α)
  | [] => [(name, a)]
  | (n, b) :: r => if n = name then (n, a) :: r else (n, b) :: put name a r

theorem put_of_notMem (h : name ∉ l.map (·.1)) : put name a l = l ++ [(name, a)] := by
  induction l with
  | nil => rfl
  | cons e l ih =>
      rw [List.map_cons, List.mem_cons, not_or] at h
      rw [put, if_neg (Ne.symm h.1), ih h.2, List.cons_append]

/-- Under a name that is there, `put` changes no name. -/
theorem names_put_of_mem (h : name ∈ l.map (·.1)) : (put name a l).map (·.1) = l.map (·.1) := by
  induction l with
  | nil => simp at h
  | cons e l ih =>
      unfold put
      split
      · rfl
      · rename_i hne
        rw [List.map_cons, List.map_cons, ih ((List.mem_cons.1 h).resolve_left (Ne.symm hne))]

theorem nodup_put (h : (l.map (·.1)).Nodup) : ((put name a l).map (·.1)).Nodup := by
  by_cases hmem : name ∈ l.map (·.1)
  · rwa [names_put_of_mem hmem]
  · rw [put_of_notMem hmem, List.map_append]
    refine List.nodup_append.2 ⟨h, by simp, fun x hx y hy => ?_⟩
    rintro rfl
    obtain rfl := List.mem_singleton.1 hy
    exact hmem hx

theorem mem_put {e : String × α} (h : e ∈ put name a l) : e = (name, a) ∨ e ∈ l := by
  induction l with
  | nil => exact .inl (List.mem_singleton.1 h)
  | cons e' l ih =>
      unfold put at h
      split at h
      · rename_i heq
        exact (List.mem_cons.1 h).imp (fun he => he.trans (by rw [heq])) (.tail _)
      · rcases List.mem_cons.1 h with rfl | h
        · exact .inr (.head _)
        · exact (ih h).imp_right (.tail _)

/-- **Names that do not repeat stay as they came.** -/
theorem foldl_put {given : List (String × α)} (h : ((given ++ l).map (·.1)).Nodup) :
    l.foldl (fun d e => put e.1 e.2 d) given = given ++ l := by
  induction l generalizing given with
  | nil => simp
  | cons e l ih =>
      rw [List.append_cons] at h
      have hnew : e.1 ∉ given.map (·.1) := by
        rw [List.map_append, List.map_append] at h
        exact fun he => (List.nodup_append.1 (List.nodup_append.1 h).1).2.2 _ he _ (.head _) rfl
      rw [List.foldl_cons, put_of_notMem hnew, ih h, List.append_assoc, List.singleton_append]

theorem nodup_foldl_put {given : List (String × α)} (h : (given.map (·.1)).Nodup) :
    ((l.foldl (fun d e => put e.1 e.2 d) given).map (·.1)).Nodup := by
  induction l generalizing given with
  | nil => exact h
  | cons e l ih => exact ih (nodup_put h)

theorem mem_foldl_put {given : List (String × α)} {e : String × α}
    (h : e ∈ l.foldl (fun d e => put e.1 e.2 d) given) : e ∈ given ∨ e ∈ l := by
  induction l generalizing given with
  | nil => exact .inl h
  | cons e' l ih =>
      rcases ih h with h | h
      · rcases mem_put h with rfl | h
        · exact .inr (.head _)
        · exact .inl h
      · exact .inr (.tail _ h)

end Put

theorem lookup_cons {α : Type} (name key : String) (a : α) (l : List (String × α)) :
    ((name, a) :: l).lookup key = if key = name then some a else l.lookup key := by
  by_cases h : key = name
  · simp [h]
  · rw [List.lookup_cons, beq_false_of_ne h, if_neg h]

/-! ### Mappings -/

namespace Entries

/-- The entries of a mapping with text keys. -/
def named (fields : List (String × Value)) : Entries := fields.map fun f => (.text f.1, f.2)

/-- What is under a text key is found by the key's name. -/
theorem get?_named (fields : List (String × Value)) (key : String) :
    (named fields).get? key = (fields.lookup key).map Value.opened := by
  induction fields with
  | nil => rfl
  | cons f fields ih =>
      rw [lookup_cons]
      by_cases h : key = f.1
      · simp [named, get?, h]
      · rw [if_neg h, ← ih]
        simp [named, get?, Ne.symm h]

theorem get_named (fields : List (String × Value)) (key : String) :
    (named fields).get key = ((fields.lookup key).map Value.opened).getD .null := by
  rw [get, get?_named]

theorem insert_named (key : String) (v : Value) (fields : List (String × Value)) :
    (named fields).insert (.text key) v = named (put key v fields) := by
  induction fields with
  | nil => rfl
  | cons f fields ih =>
      have hone : oneKey (.text f.1) (.text key) = decide (f.1 = key) := by
        by_cases h : f.1 = key <;> simp [oneKey, Value.same, h]
      simp only [named, List.map_cons, insert, hone, decide_eq_true_eq, put] at ih ⊢
      split
      · rfl
      · rw [ih, List.map_cons]

end Entries

/-! ### Deck lists -/

namespace DeckList

theorem insert_eq_put (name : String) (entry : DeckEntry) (deck : DeckList) :
    insert name entry deck = put name entry deck := by
  induction deck with
  | nil => rfl
  | cons e deck ih => rw [insert, put, ih]

theorem ofList_eq_foldl (l : List (String × DeckEntry)) :
    ofList l = l.foldl (fun d e => put e.1 e.2 d) [] := by
  simp only [ofList, insert_eq_put]

theorem nodup_ofList (l : List (String × DeckEntry)) : ((ofList l).map (·.1)).Nodup := by
  rw [ofList_eq_foldl]
  exact nodup_foldl_put List.nodup_nil

theorem mem_of_mem_ofList {l : List (String × DeckEntry)} {e : String × DeckEntry}
    (h : e ∈ ofList l) : e ∈ l := by
  rw [ofList_eq_foldl] at h
  exact (mem_foldl_put h).resolve_left List.not_mem_nil

theorem ofList_eq_self {l : List (String × DeckEntry)} (h : (l.map (·.1)).Nodup) : ofList l = l := by
  rw [ofList_eq_foldl, foldl_put (by simpa using h), List.nil_append]

end DeckList

end OpeningHand
