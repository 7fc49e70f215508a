import Mathlib.Tactic.Linarith
import Mathlib.Algebra.Group.Action.Defs
import Mathlib.Algebra.Order.BigOperators.Group.List
import Heel.Contracts.Json

/-! Values that `_normalize` leaves as they are, and how long their canonical encoding gets. -/
namespace Heel
open Lib.Checks

/-- Text that `_normalize` returns unchanged. -/
structure PlainText (P : Platform) (s : String) : Prop where
  noControl : s.toList.all (fun c => !Json.isControl c) = true
  nfc : P.nfc s = s
  size : byteSize s.toList ≤ 4096

namespace Json
variable {P : Platform} {depth : Nat}

theorem normalizeText_plain {s : String} (h : PlainText P s) : normalizeText P s = .ok s := by
  simp only [normalizeText, bind_ok, require_ok, exists_const, pure, Except.pure, h.nfc,
    and_true]
  exact ⟨h.noControl, h.size⟩

theorem normalize_null (hd : depth ≤ 16) : normalize P depth .null = .ok .null := by
  simp [normalize, hd, pure, Except.pure]

theorem normalize_int {n : Int} (hd : depth ≤ 16) (h0 : 0 ≤ n) (h1 : n ≤ safeInt) :
    normalize P depth (.int n) = .ok (.int n) := by
  simp [normalize, hd, h0, h1, pure, Except.pure]

theorem normalize_str {s : String} (hd : depth ≤ 16) (h : PlainText P s) :
    normalize P depth (.str s) = .ok (.str s) := by
  simp [normalize, hd, normalizeText_plain h, pure, Except.pure]

theorem normalize_optional {α : Type} {f : α → Json} {o : Option α} (hd : depth ≤ 16)
    (h : ∀ a, o = some a → normalize P depth (f a) = .ok (f a)) :
    normalize P depth (optional f o) = .ok (optional f o) := by
  cases o with
  | none => exact normalize_null hd
  | some a => exact h a rfl

theorem normalizeFields_fixed {done fields : List (String × Json)} (hd : depth ≤ 16)
    (hkeys : ∀ p ∈ fields, PlainText P p.1)
    (hvalues : ∀ p ∈ fields, normalize P depth p.2 = .ok p.2)
    (hnodup : ((done ++ fields).map Prod.fst).Nodup) :
    normalizeFields P depth done fields = .ok (done ++ fields) := by
  induction fields generalizing done with
  | nil => simp [normalizeFields, pure, Except.pure]
  | cons p rest ih =>
    obtain ⟨key, value⟩ := p
    have hnew : key ∉ done.map Prod.fst := by
      intro hmem
      rw [List.map_append, List.map_cons] at hnodup
      exact List.disjoint_of_nodup_append hnodup hmem (by simp)
    have hrest : normalizeFields P depth (done ++ [(key, value)]) rest =
        .ok (done ++ [(key, value)] ++ rest) := ih
      (fun q hq => hkeys q (List.mem_cons_of_mem _ hq))
      (fun q hq => hvalues q (List.mem_cons_of_mem _ hq))
      (by simpa using hnodup)
    simp only [normalizeFields, bind_ok, require_ok, exists_const,
      normalizeText_plain (hkeys (key, value) (by simp)), hvalues (key, value) (by simp),
      Except.ok.injEq, exists_eq_left']
    exact ⟨hd, hnew, by simpa using hrest⟩

theorem normalize_obj {fields : List (String × Json)} (hd : depth + 1 ≤ 16)
    (hkeys : ∀ p ∈ fields, PlainText P p.1)
    (hvalues : ∀ p ∈ fields, normalize P (depth+1) p.2 = .ok p.2)
    (hnodup : (fields.map Prod.fst).Nodup) :
    normalize P depth (.obj fields) = .ok (.obj fields) := by
  have hfields : normalizeFields P (depth+1) [] fields = .ok ([] ++ fields) :=
    normalizeFields_fixed hd hkeys hvalues (by simpa using hnodup)
  have hd' : depth ≤ 16 := by omega
  simpa [normalize, hd', pure, Except.pure] using hfields

theorem canonicalBytes_fixed {value : Json} (h : normalize P 0 value = .ok value) :
    canonicalBytes P value = .ok (dumps value) := by
  simp [canonicalBytes, h]

end Json

theorem byteSize_append (a b : List Char) : byteSize (a ++ b) = byteSize a + byteSize b := by
  simp [byteSize]

theorem byteSize_cons (c : Char) (a : List Char) :
    byteSize (c :: a) = c.utf8Size + byteSize a := by
  simp [byteSize]

theorem byteSize_le_length (a : List Char) : byteSize a ≤ 4 * a.length := by
  induction a with
  | nil => simp [byteSize]
  | cons c a ih =>
    have := c.utf8Size_le_four
    rw [byteSize_cons, List.length_cons]
    omega

theorem byteSize_intercalate (xs : List (List Char)) :
    byteSize ([','].intercalate xs) ≤ (xs.map fun x => byteSize x + 1).sum := by
  induction xs with
  | nil => simp [byteSize]
  | cons x xs ih =>
    cases xs with
    | nil => simp
    | cons y ys =>
      have hcomma : ','.utf8Size = 1 := by decide
      rw [List.intercalate_cons_cons, byteSize_append, byteSize_append, List.map_cons,
        List.sum_cons]
      have : byteSize [','] = 1 := by decide
      omega

namespace Json

theorem byteSize_escapeChar (c : Char) : byteSize (escapeChar c) ≤ 6 * c.utf8Size := by
  have hpos := c.utf8Size_pos
  have hhex : ∀ n, (hexDigit n).utf8Size = 1 := by
    intro n
    have hall : ∀ m < 16, (hexDigit m).utf8Size = 1 := by decide
    rcases Nat.lt_or_ge n 16 with h | h
    · exact hall n h
    · have hlen : "0123456789abcdef".toList.length = 16 := by decide
      rw [hexDigit, List.getD_eq_getElem?_getD, List.getElem?_eq_none (by rw [hlen]; exact h)]
      decide
  have hb : '\\'.utf8Size = 1 := by decide
  have hsmall : '"'.utf8Size = 1 ∧ 'n'.utf8Size = 1 ∧ 'r'.utf8Size = 1 ∧ 't'.utf8Size = 1 ∧
      'f'.utf8Size = 1 ∧ 'b'.utf8Size = 1 ∧ 'u'.utf8Size = 1 ∧ '0'.utf8Size = 1 := by decide
  obtain ⟨h1, h2, h3, h4, h5, h6, h7, h8⟩ := hsmall
  unfold escapeChar
  iterate 8
    refine iteInduction (motive := fun text => byteSize text ≤ 6 * c.utf8Size)
      (fun _ => by simp [byteSize, hhex, hb, h1, h2, h3, h4, h5, h6, h7, h8]; omega) fun _ => ?_
  simp [byteSize]
  omega

theorem byteSize_quote (s : String) : byteSize (quote s) ≤ 2 + 6 * byteSize s.toList := by
  have hq : '"'.utf8Size = 1 := by decide
  have hbody : byteSize (s.toList.flatMap escapeChar) ≤ 6 * byteSize s.toList := by
    induction s.toList with
    | nil => simp [byteSize]
    | cons c cs ih =>
      have := byteSize_escapeChar c
      rw [List.flatMap_cons, byteSize_append, byteSize_cons]
      omega
  have hlast : byteSize ['"'] = 1 := by decide
  rw [quote, byteSize_cons, byteSize_append]
  omega

theorem byteSize_int {n : Int} (h0 : 0 ≤ n) (h1 : n ≤ safeInt) : byteSize (intChars n) ≤ 64 := by
  obtain ⟨m, rfl⟩ := Int.eq_ofNat_of_zero_le h0
  have hm : m < 10^16 := by
    have : (m : Int) ≤ 2^53 - 1 := h1
    omega
  have hlen := (Nat.length_toDigits_le_iff (b := 10) (k := 16) (n := m) (by omega)
    (by omega)).mpr hm
  have := byteSize_le_length (Nat.toDigits 10 m)
  show byteSize (Nat.toDigits 10 m) ≤ 64
  omega

/-- Sorting does not change how long the encoding of an object is. -/
theorem byteSize_obj (fields : List (String × Json)) :
    byteSize (dumps (.obj fields)) ≤
      2 + (fields.map fun p => byteSize (quote p.1) + byteSize (dumps p.2) + 2).sum := by
  have hopen : '{'.utf8Size = 1 ∧ byteSize ['}'] = 1 ∧ ':'.utf8Size = 1 := by decide
  obtain ⟨h1, h2, h3⟩ := hopen
  have hperm := (dumpsFields fields).perm_insertionSort keyLe
  have hsum := (hperm.map fun p => byteSize (quote p.1 ++ ':' :: p.2) + 1).sum_eq
  have hinter := byteSize_intercalate
    (((dumpsFields fields).insertionSort keyLe).map fun p => quote p.1 ++ ':' :: p.2)
  rw [List.map_map] at hinter
  have heq : ((dumpsFields fields).map fun p => byteSize (quote p.1 ++ ':' :: p.2) + 1).sum =
      (fields.map fun p => byteSize (quote p.1) + byteSize (dumps p.2) + 2).sum := by
    rw [dumpsFields_map, List.map_map]
    congr 1
    apply List.map_congr_left
    intro p _
    simp only [Function.comp, byteSize_append, byteSize_cons, h3]
    omega
  simp only [Function.comp_def] at hinter
  rw [hsum, heq] at hinter
  rw [dumps, byteSize_cons, byteSize_append]
  omega

/-- An object whose keys and values are bounded in size has a bounded encoding. -/
theorem byteSize_obj_le {fields : List (String × Json)} {k m : Nat}
    (hkeys : ∀ p ∈ fields, byteSize p.1.toList ≤ k)
    (hvalues : ∀ p ∈ fields, byteSize (dumps p.2) ≤ m) :
    byteSize (dumps (.obj fields)) ≤ 2 + fields.length * (6 * k + m + 4) := by
  have hfield : ∀ x ∈ fields.map (fun p => byteSize (quote p.1) + byteSize (dumps p.2) + 2),
      x ≤ 6 * k + m + 4 := by
    intro x hx
    obtain ⟨p, hp, rfl⟩ := List.mem_map.mp hx
    have h1 := byteSize_quote p.1
    have h2 := hkeys p hp
    have h3 := hvalues p hp
    omega
  have hsum := List.sum_le_card_nsmul _ _ hfield
  rw [List.length_map, smul_eq_mul] at hsum
  exact (byteSize_obj fields).trans (Nat.add_le_add_left hsum 2)

theorem byteSize_members {fields : List (String × Json)} (k : Nat) (bounds : List Nat)
    (hkeys : ∀ p ∈ fields, byteSize p.1.toList ≤ k)
    (hvalues : List.Forall₂ (fun p m => byteSize (dumps p.2) ≤ m) fields bounds) :
    byteSize (dumps (.obj fields)) ≤ 2 + (bounds.map fun m => 6 * k + m + 4).sum := by
  refine (byteSize_obj fields).trans (Nat.add_le_add_left ?_ 2)
  induction hvalues with
  | nil => exact Nat.le_refl 0
  | @cons p m fields bounds hvalue _ ih =>
    have hquote := byteSize_quote p.1
    have hkey := hkeys p (by simp)
    have hrest := ih fun q hq => hkeys q (List.mem_cons_of_mem _ hq)
    simp only [List.map_cons, List.sum_cons]
    omega

end Json
end Heel
