import OpeningHand.Chance.Twister

/-!
# Shuffling

From the last place to the second, each place swaps its content with that of a place drawn among the
ones up to it.

Main statement: `shuffle_perm`, a shuffle only reorders.
-/

namespace OpeningHand

/-- Swaps the places from `i` down to 1 with places drawn among the ones up to them. -/
def shuffleFrom {α : Type} : (i : Nat) → Array α → Twister → Array α × Twister
  | 0, a, t => (a, t)
  | i + 1, a, t =>
    let (j, t) := t.below (i + 2)
    shuffleFrom i (a.swapIfInBounds (i + 1) j) t

/-- A list in a random order. -/
def shuffle {α : Type} (l : List α) (t : Twister) : List α × Twister :=
  let (a, t) := shuffleFrom (l.length - 1) l.toArray t
  (a.toList, t)

theorem shuffleFrom_perm {α : Type} (i : Nat) (a : Array α) (t : Twister) :
    (shuffleFrom i a t).1.toList.Perm a.toList := by
  induction i generalizing a t with
  | zero => exact .refl _
  | succ i ih =>
    simp only [shuffleFrom]
    refine (ih _ _).trans ?_
    rw [Array.swapIfInBounds_def]
    split
    · split
      · exact (Array.swap_perm _ _).toList
      · exact .refl _
    · exact .refl _

/-- **A shuffle only reorders.** -/
theorem shuffle_perm {α : Type} (l : List α) (t : Twister) : (shuffle l t).1.Perm l := by
  simpa [shuffle] using shuffleFrom_perm (l.length - 1) l.toArray t

end OpeningHand
