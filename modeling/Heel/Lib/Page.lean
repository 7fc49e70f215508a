import Mathlib.Data.List.Nodup
import Mathlib.Data.List.Sort

/-! Reading rows in the order of a key, a page at a time, past the key that was read last. -/
namespace Lib.Page
variable {ρ κ : Type*} [LinearOrder κ]

/-- Does the key come after the cursor? Without a cursor every key does. -/
def past (cursor : Option κ) (k : κ) : Bool := cursor.all fun c => c < k

/-- `SELECT .. WHERE key>cursor ORDER BY key LIMIT n`. -/
def page (key : ρ → κ) (cursor : Option κ) (n : ℕ) (rows : List ρ) : List ρ :=
  ((rows.filter fun r => past cursor (key r)).insertionSort fun a b => key a ≤ key b).take n

variable {key : ρ → κ} {cursor : Option κ} {n k : ℕ} {rows : List ρ} {r c : ρ}

@[simp] theorem past_none (k : κ) : past none k = true := rfl

@[simp] theorem past_some (c k : κ) : past (some c) k = true ↔ c < k := by
  simp [past]

theorem mem_page (h : r ∈ page key cursor n rows) : r ∈ rows ∧ past cursor (key r) = true := by
  have hsorted := List.mem_of_mem_take h
  rwa [List.mem_insertionSort, List.mem_filter] at hsorted

theorem mem_of_short (h : (page key cursor n rows).length < n) (hr : r ∈ rows)
    (hp : past cursor (key r) = true) : r ∈ page key cursor n rows := by
  have hall : r ∈ (rows.filter fun r => past cursor (key r)).insertionSort
      fun a b => key a ≤ key b := by
    rw [List.mem_insertionSort, List.mem_filter]
    exact ⟨hr, hp⟩
  unfold page at h ⊢
  rw [List.length_take] at h
  rwa [List.take_of_length_le (by omega)]

/-- What a page leaves out comes after all of its rows, and after those of a part of it. -/
theorem mem_of_le (hkeys : (rows.map key).Nodup) (hc : c ∈ (page key cursor n rows).take k)
    (hr : r ∈ rows) (hp : past cursor (key r) = true) (hle : key r ≤ key c) :
    r ∈ (page key cursor n rows).take k := by
  have hall : r ∈ (rows.filter fun r => past cursor (key r)).insertionSort
      fun a b => key a ≤ key b := by
    rw [List.mem_insertionSort, List.mem_filter]
    exact ⟨hr, hp⟩
  have hcrow : c ∈ rows := (mem_page (List.mem_of_mem_take hc)).1
  have hsorted := List.pairwise_insertionSort (fun a b : ρ => key a ≤ key b)
    (rows.filter fun r => past cursor (key r))
  unfold page at hc ⊢
  rw [List.take_take] at hc ⊢
  generalize (rows.filter fun r => past cursor (key r)).insertionSort
    (fun a b : ρ => key a ≤ key b) = sorted at *
  rw [← List.take_append_drop (min k n) sorted] at hall hsorted
  rcases List.mem_append.mp hall with hin | hout
  · exact hin
  · -- a row that is left out has the key of `c` only if it is `c`
    have hge : key c ≤ key r := (List.pairwise_append.mp hsorted).2.2 c hc r hout
    have hsame : r = c := List.inj_on_of_nodup_map hkeys hr hcrow (le_antisymm hle hge)
    rwa [hsame]

/-- The rows that a page of all rows leaves out, in the order of the key. -/
theorem insertionSort_rest (hkeys : (rows.map key).Nodup) {left : ρ → Bool}
    (hleft : ∀ r ∈ rows, left r = true ↔
      r ∉ (rows.insertionSort fun a b => key a ≤ key b).take n) :
    (rows.filter left).insertionSort (fun a b => key a ≤ key b) =
      (rows.insertionSort fun a b => key a ≤ key b).drop n := by
  have hsorted := List.pairwise_insertionSort (fun a b : ρ => key a ≤ key b) rows
  have hperm := List.perm_insertionSort (fun a b : ρ => key a ≤ key b) rows
  have hnodup : (rows.insertionSort fun a b => key a ≤ key b).Nodup :=
    hperm.nodup_iff.mpr (hkeys.of_map key)
  -- the first `n` rows are not left, and the others are
  have hsplit : (rows.insertionSort fun a b => key a ≤ key b).filter left =
      (rows.insertionSort fun a b => key a ≤ key b).drop n := by
    generalize (rows.insertionSort fun a b : ρ => key a ≤ key b) = sorted at *
    have hdisjoint := List.disjoint_take_drop hnodup (Nat.le_refl n)
    conv_lhs => rw [← List.take_append_drop n sorted]
    rw [List.filter_append, List.filter_eq_nil_iff.mpr, List.nil_append, List.filter_eq_self.mpr]
    · intro r hr
      exact (hleft r (hperm.mem_iff.mp (List.mem_of_mem_drop hr))).mpr fun hin => hdisjoint hin hr
    · intro r hr hout
      exact (hleft r (hperm.mem_iff.mp (List.mem_of_mem_take hr))).mp hout hr
  apply List.Perm.eq_of_pairwise _ (List.pairwise_insertionSort _ _) (hsorted.drop)
  · exact ((List.perm_insertionSort _ _).trans (hperm.symm.filter left)).trans (by rw [hsplit])
  · intro a b ha hb hab hba
    rw [List.mem_insertionSort] at ha
    exact List.inj_on_of_nodup_map hkeys (List.mem_of_mem_filter ha)
      (hperm.mem_iff.mp (List.mem_of_mem_drop hb)) (le_antisymm hab hba)

end Lib.Page
