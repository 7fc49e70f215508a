import Mathlib.Data.List.Lex
import Mathlib.Data.List.Sort

/-! Stable sorting by a key: what is sorted stays, and lists of the same elements sort to one list
where the key tells the elements apart. -/
namespace Lib
variable {α β κ : Type*} [LinearOrder κ] {key : α → κ} {xs ys : List α}

/-- `sorted(xs, key=key)`. -/
def sortBy (key : α → κ) (xs : List α) : List α := xs.mergeSort fun a b => decide (key a ≤ key b)

theorem sortBy_perm (key : α → κ) (xs : List α) : (sortBy key xs).Perm xs :=
  List.mergeSort_perm xs _

@[simp] theorem mem_sortBy {a : α} : a ∈ sortBy key xs ↔ a ∈ xs := (sortBy_perm key xs).mem_iff

@[simp] theorem length_sortBy (key : α → κ) (xs : List α) : (sortBy key xs).length = xs.length :=
  (sortBy_perm key xs).length_eq

theorem sortBy_pairwise (key : α → κ) (xs : List α) :
    (sortBy key xs).Pairwise fun a b => key a ≤ key b := by
  have hsorted : (sortBy key xs).Pairwise fun a b => decide (key a ≤ key b) = true := by
    apply List.pairwise_mergeSort
    · intro a b c hab hbc
      rw [decide_eq_true_eq] at hab hbc ⊢
      exact hab.trans hbc
    · intro a b
      rw [Bool.or_eq_true, decide_eq_true_eq, decide_eq_true_eq]
      exact le_total _ _
  exact hsorted.imp fun h => of_decide_eq_true h

theorem sortBy_of_pairwise (h : xs.Pairwise fun a b => key a ≤ key b) : sortBy key xs = xs :=
  List.mergeSort_of_pairwise (h.imp fun h => decide_eq_true h)

@[simp] theorem sortBy_sortBy (key : α → κ) (xs : List α) :
    sortBy key (sortBy key xs) = sortBy key xs :=
  sortBy_of_pairwise (sortBy_pairwise key xs)

/-- Rearranged elements sort to the same list, where equal keys mean equal elements. -/
theorem sortBy_eq_of_perm (hkey : ∀ a ∈ xs, ∀ b ∈ xs, key a = key b → a = b) (h : xs.Perm ys) :
    sortBy key xs = sortBy key ys := by
  apply List.Perm.eq_of_pairwise _ (sortBy_pairwise key xs) (sortBy_pairwise key ys)
    ((sortBy_perm key xs).trans (h.trans (sortBy_perm key ys).symm))
  intro a b ha hb hab hba
  rw [mem_sortBy] at ha hb
  exact hkey a ha b (h.mem_iff.mpr hb) (le_antisymm hab hba)

theorem map_sortBy {f : α → β} {key' : β → κ} (h : ∀ a ∈ xs, key' (f a) = key a) :
    (sortBy key xs).map f = sortBy key' (xs.map f) := by
  apply List.map_mergeSort
  intro a ha b hb
  rw [h a ha, h b hb]

end Lib
