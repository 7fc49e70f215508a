import Heel.Lib.JsonDump

/-! The size of a canonical JSON text in UTF-8: bounds of an object and of an array by those of
their parts, and the exact size of a text without escapes. -/
namespace Lib.JsonText

def byteLength (t : Text) : ℕ :=
  (t.map fun c => if c < 0x80 then 1 else if c < 0x800 then 2 else if c < 0x10000 then 3 else 4).sum

def isPlain (t : Text) : Bool :=
  t.all fun c => 0x20 ≤ c && c < 0x80 && c ≠ quoteMark && c ≠ backslash

@[simp] theorem byteLength_nil : byteLength [] = 0 := rfl

theorem byteLength_append (s t : Text) : byteLength (s ++ t) = byteLength s + byteLength t := by
  rw [byteLength, byteLength, byteLength, List.map_append, List.sum_append]

theorem byteLength_cons {c : ℕ} (hc : c < 0x80) (t : Text) :
    byteLength (c :: t) = byteLength t + 1 := by
  rw [byteLength, List.map_cons, List.sum_cons, if_pos hc, Nat.add_comm]
  rfl

theorem isPlain_cons {c : ℕ} {t : Text} : isPlain (c :: t) = true ↔
    (0x20 ≤ c ∧ c < 0x80 ∧ c ≠ quoteMark ∧ c ≠ backslash) ∧ isPlain t = true := by
  simp [isPlain, and_assoc]

theorem isPlain_append {s t : Text} :
    isPlain (s ++ t) = true ↔ isPlain s = true ∧ isPlain t = true := by
  simp [isPlain, List.all_append]

theorem escaped_plain {c : ℕ} (h : 0x20 ≤ c ∧ c < 0x80 ∧ c ≠ quoteMark ∧ c ≠ backslash) :
    escaped c = [c] := by
  obtain ⟨hlow, -, hquote, hslash⟩ := h
  unfold escaped
  rw [if_neg hquote, if_neg hslash, if_neg (by omega), if_neg (by omega), if_neg (by omega),
    if_neg (by omega), if_neg (by omega), if_neg (by omega)]

/-- A text without escapes takes a byte for each character and two for its quotes. -/
theorem byteLength_quoted {t : Text} (h : isPlain t = true) :
    byteLength (quoted t) = t.length + 2 := by
  have hbody : byteLength (t.flatMap escaped) = t.length := by
    induction t with
    | nil => rfl
    | cons c t ih =>
      rw [isPlain_cons] at h
      rw [List.flatMap_cons, escaped_plain h.1, List.singleton_append, byteLength_cons h.1.2.1,
        ih h.2, List.length_cons]
  rw [quoted, byteLength_cons (by decide), byteLength_append, hbody]
  rfl

theorem byteLength_intercalate (ts : List Text) :
    byteLength ([comma].intercalate ts) ≤ (ts.map fun t => byteLength t + 1).sum := by
  induction ts with
  | nil => simp
  | cons t ts ih =>
    cases ts with
    | nil => simp [List.intercalate]
    | cons u ts =>
      have hcons : [comma].intercalate (t :: u :: ts) = t ++ comma :: [comma].intercalate
          (u :: ts) := by
        simp [List.intercalate]
      rw [hcons, byteLength_append, byteLength_cons (by decide), List.map_cons, List.sum_cons]
      omega

theorem byteLength_arr (float : Binary64 → Text) (items : List Value) :
    byteLength (dumps float (.arr items)) ≤
      2 + (items.map fun v => byteLength (dumps float v) + 1).sum := by
  have hparts := byteLength_intercalate (items.map (dumps float))
  rw [List.map_map] at hparts
  rw [dumps, dumpsItems_map, byteLength_cons (by decide), byteLength_append,
    byteLength_cons (by decide), byteLength_nil]
  simp only [Function.comp_def] at hparts
  omega

/-- An object: its braces, and each member with a colon and a comma. -/
theorem byteLength_obj (float : Binary64 → Text) (fields : List (Text × Value)) :
    byteLength (dumps float (.obj fields)) ≤
      2 + (fields.map fun p => byteLength (quoted p.1) + byteLength (dumps float p.2) + 2).sum := by
  have hparts := byteLength_intercalate
    ((sortBy Prod.fst (dumpsFields float fields)).map memberText)
  have hperm : ((sortBy Prod.fst (dumpsFields float fields)).map fun p =>
      byteLength (memberText p) + 1).sum =
      (fields.map fun p => byteLength (quoted p.1) + byteLength (dumps float p.2) + 2).sum := by
    rw [((sortBy_perm Prod.fst _).map _).sum_eq, dumpsFields_map, List.map_map]
    apply congrArg
    apply List.map_congr_left
    intro p _
    rw [Function.comp_apply, memberText, byteLength_append, byteLength_cons (by decide)]
    dsimp only
    omega
  rw [List.map_map] at hparts
  rw [dumps, byteLength_cons (by decide), byteLength_append, byteLength_cons (by decide),
    byteLength_nil]
  simp only [Function.comp_def] at hparts
  omega

theorem byteLength_bool (float : Binary64 → Text) (b : Bool) :
    byteLength (dumps float (.bool b)) ≤ 5 := by
  rw [dumps_bool]
  cases b <;> decide

end Lib.JsonText
