import Mathlib.Data.List.Basic
import Mathlib.Data.List.Infix
import Mathlib.Data.List.Induction

/-! The pieces of a list between its separators: what the first, the last and each piece is of the
list. -/
namespace Lib
variable {α : Type*} [DecidableEq α] {c : α} {xs : List α}

theorem splitOn_first (h : c ∈ xs) : ∃ first rest, xs = first ++ c :: rest ∧
    xs.splitOn c = first :: rest.splitOn c := by
  obtain ⟨first, rest, rfl, hnot⟩ := List.eq_append_cons_of_mem h
  exact ⟨first, rest, rfl, List.splitOn_append_cons_self_of_not_mem hnot rest⟩

theorem splitOn_last (h : c ∈ xs) : ∃ before last, xs = before ++ c :: last ∧
    xs.splitOn c = before.splitOn c ++ [last] := by
  obtain ⟨last, before, hreverse, hnot⟩ := List.eq_append_cons_of_mem (List.mem_reverse.mpr h)
  have hxs : xs = before.reverse ++ c :: last.reverse := by
    have hback := congrArg List.reverse hreverse
    simpa using hback
  refine ⟨before.reverse, last.reverse, hxs, ?_⟩
  have hlast : c ∉ last.reverse := by rwa [List.mem_reverse]
  rw [hxs, List.splitOn_append_cons_self, List.splitOn_eq_singleton hlast]

theorem mem_of_splitOn (h : 2 ≤ (xs.splitOn c).length) : c ∈ xs := by
  by_contra hnot
  rw [List.splitOn_eq_singleton hnot, List.length_singleton] at h
  omega

theorem of_mem_piece {piece : List α} {x : α} (hpiece : piece ∈ xs.splitOn c) (hx : x ∈ piece) :
    x ∈ xs ∧ x ≠ c := by
  induction xs generalizing piece with
  | nil =>
    rw [List.splitOn_nil, List.mem_singleton] at hpiece
    subst hpiece
    cases hx
  | cons y ys ih =>
    rw [List.splitOn_cons_eq_if_modifyHead] at hpiece
    split at hpiece
    · rcases List.mem_cons.mp hpiece with rfl | hpiece
      · cases hx
      · exact (ih hpiece hx).imp_left (List.mem_cons_of_mem y)
    · next hy =>
      have hne : y ≠ c := by simpa using hy
      cases hsplit : ys.splitOn c with
      | nil => exact absurd hsplit (List.splitOn_ne_nil c ys)
      | cons first rest =>
        rw [hsplit, List.modifyHead_cons, List.mem_cons] at hpiece
        rcases hpiece with rfl | hpiece
        · rcases List.mem_cons.mp hx with rfl | hx
          · exact ⟨List.mem_cons_self, hne⟩
          · exact (ih (hsplit ▸ List.mem_cons_self) hx).imp_left (List.mem_cons_of_mem y)
        · exact (ih (hsplit ▸ List.mem_cons_of_mem _ hpiece) hx).imp_left (List.mem_cons_of_mem y)

omit [DecidableEq α] in
theorem suffix_piece {before last suffix : List α} (hnot : c ∉ suffix)
    (h : suffix <:+ before ++ c :: last) : suffix <:+ last := by
  have hlast : last <:+ before ++ c :: last := ⟨before ++ [c], by simp⟩
  have hdotted : c :: last <:+ before ++ c :: last := ⟨before, rfl⟩
  rcases List.suffix_or_suffix_of_suffix h hdotted with hshort | hlong
  · rcases List.suffix_cons_iff.mp hshort with rfl | hshort
    · exact absurd List.mem_cons_self hnot
    · exact hshort
  · exact absurd (hlong.subset List.mem_cons_self) hnot

omit [DecidableEq α] in
theorem first_unique {xs' ys ys' : List α} (h : c ∉ xs) (h' : c ∉ xs')
    (heq : xs ++ c :: ys = xs' ++ c :: ys') : xs = xs' ∧ ys = ys' := by
  induction xs generalizing xs' with
  | nil =>
    cases xs' with
    | nil => exact ⟨rfl, (List.cons.inj heq).2⟩
    | cons x xs' => exact absurd ((List.cons.inj heq).1 ▸ List.mem_cons_self) h'
  | cons x xs ih =>
    cases xs' with
    | nil => exact absurd ((List.cons.inj heq).1 ▸ List.mem_cons_self) h
    | cons x' xs' =>
      obtain ⟨rfl, hrest⟩ := List.cons.inj heq
      obtain ⟨rfl, hys⟩ := ih (fun hc => h (List.mem_cons_of_mem _ hc))
        (fun hc => h' (List.mem_cons_of_mem _ hc)) hrest
      exact ⟨rfl, hys⟩

omit [DecidableEq α] in
theorem of_mem_intercalate {sep : List α} {texts : List (List α)} {x : α}
    (h : x ∈ sep.intercalate texts) : x ∈ sep ∨ ∃ t ∈ texts, x ∈ t := by
  induction texts with
  | nil => simp at h
  | cons t texts ih =>
    cases texts with
    | nil =>
      rw [List.intercalate_singleton] at h
      exact .inr ⟨t, List.mem_cons_self, h⟩
    | cons t' texts =>
      rw [List.intercalate_cons_cons, List.mem_append, List.mem_append] at h
      rcases h with (h | h) | h
      · exact .inr ⟨t, List.mem_cons_self, h⟩
      · exact .inl h
      · exact (ih h).imp_right fun ⟨u, hu, hx⟩ => ⟨u, List.mem_cons_of_mem _ hu, hx⟩

omit [DecidableEq α] in
/-- Texts that are joined are told apart, when none is empty or has the first element of the
separator. -/
theorem joined_unique {rest : List α} {texts texts' : List (List α)}
    (h : ∀ t ∈ texts, t ≠ [] ∧ c ∉ t) (h' : ∀ t ∈ texts', t ≠ [] ∧ c ∉ t)
    (heq : (c :: rest).intercalate texts = (c :: rest).intercalate texts') : texts = texts' := by
  have hhead : ∀ {t : List α} {more : List (List α)}, t ≠ [] →
      (c :: rest).intercalate (t :: more) ≠ [] := by
    intro t more hne
    cases more with
    | nil => rwa [List.intercalate_singleton]
    | cons u more => simp [List.intercalate_cons_cons]
  have hlonely : ∀ {t u v : List α} {more : List (List α)}, c ∉ t →
      t ≠ (c :: rest).intercalate (u :: v :: more) := by
    intro t u v more hnot hsame
    rw [List.intercalate_cons_cons] at hsame
    exact hnot (hsame ▸ by simp)
  induction texts generalizing texts' with
  | nil =>
    cases texts' with
    | nil => rfl
    | cons t texts' => exact absurd heq.symm (hhead (h' t List.mem_cons_self).1)
  | cons t texts ih =>
    obtain ⟨hne, hnot⟩ := h t List.mem_cons_self
    have hrest := fun t ht => h t (List.mem_cons_of_mem _ ht)
    cases texts' with
    | nil => exact absurd heq (hhead hne)
    | cons t' texts' =>
      obtain ⟨hne', hnot'⟩ := h' t' List.mem_cons_self
      have hrest' := fun t ht => h' t (List.mem_cons_of_mem _ ht)
      match texts, texts' with
      | [], [] => rw [List.intercalate_singleton, List.intercalate_singleton] at heq; rw [heq]
      | [], u :: more =>
        rw [List.intercalate_singleton] at heq
        exact absurd heq (hlonely hnot)
      | u :: more, [] =>
        rw [List.intercalate_singleton] at heq
        exact absurd heq.symm (hlonely hnot')
      | u :: more, u' :: more' =>
        rw [List.intercalate_cons_cons, List.intercalate_cons_cons, List.append_assoc,
          List.append_assoc, List.cons_append, List.cons_append] at heq
        obtain ⟨rfl, htail⟩ := first_unique hnot hnot' heq
        rw [List.append_cancel_left_eq] at htail
        rw [ih hrest hrest' htail]

end Lib
