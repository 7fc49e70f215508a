import Mathlib.Data.List.Nodup
import Mathlib.Algebra.BigOperators.Group.List.Basic
import Mathlib.Algebra.Order.Ring.Int

/-! Tables as lists of rows: the conditional update of rows, and what it leaves alone. -/
namespace Lib.Table
variable {ρ κ : Type*} {p q : ρ → Bool} {f : ρ → ρ} {rows : List ρ} {r : ρ}

/-- `UPDATE .. SET f WHERE p`. -/
def update (p : ρ → Bool) (f : ρ → ρ) (rows : List ρ) : List ρ :=
  rows.map fun r => if p r then f r else r

theorem mem_update : r ∈ update p f rows ↔ ∃ o ∈ rows, r = if p o then f o else o := by
  rw [update, List.mem_map]
  exact ⟨fun ⟨o, ho, h⟩ => ⟨o, ho, h.symm⟩, fun ⟨o, ho, h⟩ => ⟨o, ho, h.symm⟩⟩

/-- A reflexive relation that the change of a row respects holds between a row and its update. -/
theorem update_rel {K : ρ → ρ → Prop} (hrefl : ∀ r, K r r)
    (h : ∀ r ∈ rows, p r = true → K r (f r)) (hr : r ∈ rows) : K r (if p r then f r else r) := by
  split
  · exact h r hr ‹_›
  · exact hrefl r

theorem forall₂_update {K : ρ → ρ → Prop} (hrefl : ∀ r, K r r)
    (h : ∀ r ∈ rows, p r = true → K r (f r)) : List.Forall₂ K rows (update p f rows) := by
  induction rows with
  | nil => exact .nil
  | cons r rest ih =>
    exact .cons (update_rel hrefl h List.mem_cons_self) (ih fun o ho => h o (.tail _ ho))

theorem exists_right {τ : Type*} {K : ρ → τ → Prop} {xs : List ρ} {ys : List τ}
    (h : List.Forall₂ K xs ys) {x : ρ} (hx : x ∈ xs) : ∃ y ∈ ys, K x y := by
  induction h with
  | nil => cases hx
  | cons hk _ ih =>
    cases hx with
    | head => exact ⟨_, List.mem_cons_self, hk⟩
    | tail _ hx =>
      obtain ⟨y, hy, hk'⟩ := ih hx
      exact ⟨y, List.mem_cons_of_mem _ hy, hk'⟩

theorem exists_left {τ : Type*} {K : ρ → τ → Prop} {xs : List ρ} {ys : List τ}
    (h : List.Forall₂ K xs ys) {y : τ} (hy : y ∈ ys) : ∃ x ∈ xs, K x y := by
  have hflip : List.Forall₂ (flip K) ys xs := List.Forall₂.flip h
  exact exists_right hflip hy

theorem map_eq_of_forall₂ {K : ρ → ρ → Prop} {g : ρ → κ} {xs ys : List ρ}
    (h : List.Forall₂ K xs ys) (hg : ∀ x y, K x y → g y = g x) : ys.map g = xs.map g := by
  induction h with
  | nil => rfl
  | cons hk _ ih => rw [List.map_cons, List.map_cons, hg _ _ hk, ih]

/-- A column that the update keeps is the same over the whole table. -/
theorem map_update {g : ρ → κ} (h : ∀ r, p r = true → g (f r) = g r) :
    (update p f rows).map g = rows.map g := by
  simp only [update, List.map_map]
  apply List.map_congr_left
  intro r _
  simp only [Function.comp]
  split
  · exact h r ‹_›
  · rfl

/-- A selection by a column that the update keeps is updated in place. -/
theorem filter_update (h : ∀ r, p r = true → q (f r) = q r) :
    (update p f rows).filter q = update p f (rows.filter q) := by
  induction rows with
  | nil => rfl
  | cons r rest ih =>
    have hhead : q (if p r then f r else r) = q r := by
      split
      · exact h r ‹_›
      · rfl
    simp only [update, List.map_cons, List.filter_cons, hhead] at ih ⊢
    split
    · rw [List.map_cons, ih]
    · exact ih

theorem filter_update_le (h : ∀ r, p r = true → q (f r) = true → q r = true) :
    ((update p f rows).filter q).length ≤ (rows.filter q).length := by
  induction rows with
  | nil => exact Nat.le_refl 0
  | cons r rest ih =>
    have hhead : q (if p r then f r else r) = true → q r = true := by
      split
      · exact h r ‹_›
      · exact id
    simp only [update, List.map_cons, List.filter_cons] at ih ⊢
    by_cases hq : q (if p r then f r else r) = true
    · rw [if_pos hq, if_pos (hhead hq)]
      exact Nat.succ_le_succ ih
    · rw [if_neg hq]
      refine Nat.le_trans ih ?_
      split
      · exact Nat.le_succ _
      · exact Nat.le_refl _

theorem filter_update_out (h : ∀ r, p r = true → q (f r) = false) :
    (update p f rows).filter q = (rows.filter q).filter fun r => !p r := by
  induction rows with
  | nil => rfl
  | cons r rest ih =>
    simp only [update, List.map_cons, List.filter_cons] at ih ⊢
    by_cases hp : p r = true
    · rw [if_pos hp, h r hp, if_neg (by simp), ih]
      split
      · rw [List.filter_cons_of_neg (by simp [hp])]
      · rfl
    · rw [if_neg hp, ih]
      split
      · rw [List.filter_cons_of_pos (by simpa using hp)]
      · rfl

theorem eq_of_one (h : (rows.filter q).length ≤ 1) {a b : ρ} (ha : a ∈ rows) (hb : b ∈ rows)
    (hqa : q a = true) (hqb : q b = true) : a = b := by
  have hina : a ∈ rows.filter q := List.mem_filter.mpr ⟨ha, hqa⟩
  have hinb : b ∈ rows.filter q := List.mem_filter.mpr ⟨hb, hqb⟩
  match hrows : rows.filter q, h with
  | [], _ =>
    rw [hrows] at hina
    cases hina
  | [c], _ =>
    rw [hrows, List.mem_singleton] at hina hinb
    rw [hina, hinb]

theorem filter_not_eq_erase [DecidableEq ρ] (h : (rows.filter q).length = 1) (hr : r ∈ rows)
    (hq : q r = true) : (rows.filter fun o => ¬ q o) = rows.erase r := by
  obtain ⟨before, after, rfl, hfresh⟩ := List.eq_append_cons_of_mem hr
  rw [List.filter_append, List.filter_cons_of_pos hq, List.length_append, List.length_cons] at h
  have hbefore : before.filter q = [] := List.length_eq_zero_iff.mp (by omega)
  have hafter : after.filter q = [] := List.length_eq_zero_iff.mp (by omega)
  rw [List.filter_eq_nil_iff] at hbefore hafter
  rw [List.erase_append_right _ hfresh, List.erase_cons_head, List.filter_append,
    List.filter_cons_of_neg (by simpa using hq), List.filter_eq_self.mpr (by simpa using hbefore),
    List.filter_eq_self.mpr (by simpa using hafter)]

/-- Rows with distinct keys, a selection of which holds no two different rows. -/
theorem filter_le_one {g : ρ → κ} (h : (rows.map g).Nodup)
    (hone : ∀ a ∈ rows, ∀ b ∈ rows, q a = true → q b = true → a = b) :
    (rows.filter q).length ≤ 1 := by
  have hnodup : (rows.filter q).Nodup := (h.of_map g).filter q
  have hsel : ∀ r ∈ rows.filter q, r ∈ rows ∧ q r = true := fun r hr => List.mem_filter.mp hr
  match hrows : rows.filter q with
  | [] => exact Nat.zero_le 1
  | [a] => exact Nat.le_refl 1
  | a :: b :: rest =>
    rw [hrows] at hnodup hsel
    obtain ⟨ha, hqa⟩ := hsel a List.mem_cons_self
    obtain ⟨hb, hqb⟩ := hsel b (List.mem_cons_of_mem _ List.mem_cons_self)
    rw [hone a ha b hb hqa hqb, List.nodup_cons] at hnodup
    exact absurd List.mem_cons_self hnodup.1

theorem sum_remove [DecidableEq κ] {g : ρ → κ} (h : (rows.map g).Nodup) (hr : r ∈ rows)
    (hq : q r = true) (w : ρ → ℤ) :
    ((rows.filter q).map w).sum =
      w r + ((rows.filter fun o => q o && decide (g o ≠ g r)).map w).sum := by
  obtain ⟨before, after, rfl⟩ := List.append_of_mem hr
  rw [List.map_append, List.map_cons, List.nodup_append] at h
  obtain ⟨-, hafter, hbefore⟩ := h
  rw [List.nodup_cons] at hafter
  have h1 : (before.filter fun o => q o && decide (g o ≠ g r)) = before.filter q := by
    refine List.filter_congr fun o ho => ?_
    have hne : g o ≠ g r := hbefore _ (List.mem_map_of_mem ho) _ (by simp)
    simp [hne]
  have h2 : (after.filter fun o => q o && decide (g o ≠ g r)) = after.filter q := by
    refine List.filter_congr fun o ho => ?_
    have hne : g o ≠ g r := fun hsame => hafter.1 (hsame ▸ List.mem_map_of_mem ho)
    simp [hne]
  rw [List.filter_append, List.filter_append, h1, List.filter_cons_of_pos hq,
    List.filter_cons_of_neg (by simp), h2]
  simp only [List.map_append, List.map_cons, List.sum_append, List.sum_cons]
  omega

theorem update_none (h : ∀ r ∈ rows, p r = false) : update p f rows = rows := by
  unfold update
  rw [List.map_congr_left (g := id)]
  · simp
  · intro r hr
    simp [h r hr]

theorem eq_of_key {g : ρ → κ} (h : (rows.map g).Nodup) {a b : ρ} (ha : a ∈ rows) (hb : b ∈ rows)
    (hab : g a = g b) : a = b :=
  List.inj_on_of_nodup_map h ha hb hab

theorem find_key [DecidableEq κ] {g : ρ → κ} (h : (rows.map g).Nodup) (hr : r ∈ rows) :
    rows.find? (fun o => g o = g r) = some r := by
  cases hfind : rows.find? (fun o => g o = g r) with
  | none =>
    rw [List.find?_eq_none] at hfind
    simpa using hfind r hr
  | some o =>
    have ho := List.find?_some hfind
    simp only [decide_eq_true_eq] at ho
    rw [eq_of_key h (List.mem_of_find?_eq_some hfind) hr ho]

theorem find_only (hr : r ∈ rows) (hp : p r = true) (honly : ∀ o ∈ rows, p o = true → o = r) :
    rows.find? p = some r := by
  cases hfind : rows.find? p with
  | none =>
    rw [List.find?_eq_none] at hfind
    exact absurd hp (hfind r hr)
  | some o => rw [honly o (List.mem_of_find?_eq_some hfind) (List.find?_some hfind)]

/-- A selection that one key answers holds the row of that key, once. -/
theorem filter_key {g : ρ → κ} (h : (rows.map g).Nodup) (hr : r ∈ rows) (hp : p r = true)
    (honly : ∀ o, p o = true → g o = g r) : rows.filter p = [r] := by
  obtain ⟨before, after, rfl⟩ := List.append_of_mem hr
  rw [List.map_append, List.map_cons, List.nodup_append] at h
  obtain ⟨-, hafter, hbefore⟩ := h
  rw [List.nodup_cons] at hafter
  have h1 : before.filter p = [] := by
    rw [List.filter_eq_nil_iff]
    intro o ho hpo
    exact hbefore _ (List.mem_map_of_mem ho) _ (by simp) (honly o hpo)
  have h2 : after.filter p = [] := by
    rw [List.filter_eq_nil_iff]
    intro o ho hpo
    exact hafter.1 (honly o hpo ▸ List.mem_map_of_mem ho)
  rw [List.filter_append, List.filter_cons_of_pos hp, h1, h2, List.nil_append]

theorem find_any (h : (rows.find? p).any q = true) : ∃ r ∈ rows, p r = true ∧ q r = true := by
  cases hfind : rows.find? p with
  | none =>
    rw [hfind] at h
    cases h
  | some r =>
    rw [hfind] at h
    exact ⟨r, List.mem_of_find?_eq_some hfind, List.find?_some hfind, h⟩

theorem update_one {g : ρ → κ} (h : (rows.map g).Nodup) (hr : r ∈ rows)
    (hp : ∀ o, p o = true ↔ g o = g r) :
    ∃ before after, rows = before ++ r :: after ∧ update p f rows = before ++ f r :: after := by
  obtain ⟨before, after, rfl⟩ := List.append_of_mem hr
  refine ⟨before, after, rfl, ?_⟩
  rw [List.map_append, List.map_cons, List.nodup_append] at h
  obtain ⟨-, hafter, hbefore⟩ := h
  rw [List.nodup_cons] at hafter
  have h1 : update p f before = before := by
    refine update_none fun o ho => ?_
    rw [← Bool.not_eq_true, hp]
    exact hbefore _ (List.mem_map_of_mem ho) _ (by simp)
  have h2 : update p f after = after := by
    refine update_none fun o ho => ?_
    rw [← Bool.not_eq_true, hp]
    intro hkey
    exact hafter.1 (hkey ▸ List.mem_map_of_mem ho)
  have hself : p r = true := (hp r).mpr rfl
  have hsplit : update p f (before ++ r :: after) =
      update p f before ++ (if p r then f r else r) :: update p f after := by
    simp [update]
  rw [hsplit, h1, h2, if_pos hself]

/-- `INSERT new ON CONFLICT DO UPDATE SET f`, where `p` tells the row of the key. -/
def upsert (p : ρ → Bool) (f : ρ → ρ) (new : ρ) (rows : List ρ) : List ρ :=
  if rows.any p then update p f rows else rows ++ [new]

theorem find_update (h : ∀ r, p r = true → p (f r) = true) :
    (update p f rows).find? p = (rows.find? p).map f := by
  induction rows with
  | nil => rfl
  | cons r rows ih =>
    rw [update, List.map_cons]
    by_cases hr : p r = true
    · rw [if_pos hr, List.find?_cons_of_pos (h r hr), List.find?_cons_of_pos hr]
      rfl
    · rw [if_neg hr, List.find?_cons_of_neg hr, List.find?_cons_of_neg hr]
      exact ih

theorem find_update_other (h : ∀ r, p r = true → q (f r) = false ∧ q r = false) :
    (update p f rows).find? q = rows.find? q := by
  induction rows with
  | nil => rfl
  | cons r rows ih =>
    rw [update, List.map_cons]
    by_cases hr : p r = true
    · obtain ⟨hnew, hold⟩ := h r hr
      rw [if_pos hr, List.find?_cons_of_neg (by rw [hnew]; decide),
        List.find?_cons_of_neg (by rw [hold]; decide)]
      exact ih
    · rw [if_neg hr, List.find?_cons, List.find?_cons]
      split
      · rfl
      · exact ih

theorem find_upsert {new : ρ} (h : ∀ r, p r = true → p (f r) = true) (hnew : p new = true) :
    (upsert p f new rows).find? p = some ((rows.find? p).elim new f) := by
  unfold upsert
  by_cases hany : rows.any p = true
  · rw [if_pos hany, find_update h]
    obtain ⟨r, hr⟩ := Option.isSome_iff_exists.mp (List.find?_isSome.mpr (List.any_eq_true.mp hany))
    rw [hr]
    rfl
  · have hnone : rows.find? p = none := by
      rw [List.find?_eq_none]
      exact fun r hr hp => hany (List.any_eq_true.mpr ⟨r, hr, hp⟩)
    rw [if_neg hany, List.find?_append, hnone, List.find?_cons_of_pos hnew]
    rfl

theorem find_upsert_other {new : ρ} (h : ∀ r, p r = true → q (f r) = false ∧ q r = false)
    (hnew : q new = false) : (upsert p f new rows).find? q = rows.find? q := by
  unfold upsert
  split
  · exact find_update_other h
  · rw [List.find?_append, List.find?_cons_of_neg (by rw [hnew]; decide), List.find?_nil,
      Option.or_none]

end Lib.Table
