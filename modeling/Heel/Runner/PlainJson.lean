import Heel.Runner.ProjectionTotal

/-! Plain values, whose encoding by the canonical form is sure to succeed and bounded in size: a
check that a given document passes by evaluation. -/
namespace Heel.Json
open Lib Lib.Checks Containment
open Literal (chars toList_eq)

variable {P : Platform}

def plainText (s : String) : Bool :=
  (chars s).all (fun c => c.toNat < 128) && (chars s).all (fun c => !isControl c) &&
    decide (byteSize (chars s) ≤ 128)

mutual
/-- Plain texts, portable integers and distinct keys, in at most 16 levels. -/
def isPlain (depth : ℕ) : Json → Bool
  | .null => decide (depth ≤ 16)
  | .bool _ => false
  | .int n => decide (depth ≤ 16) && decide (0 ≤ n ∧ n ≤ safeInt)
  | .str s => decide (depth ≤ 16) && plainText s
  | .arr items => decide (depth ≤ 16) && plainItems (depth + 1) items
  | .obj fields => decide (depth < 16) && decide (fields.map Prod.fst).Nodup &&
    plainFields (depth + 1) fields

def plainItems (depth : ℕ) : List Json → Bool
  | [] => true
  | item :: rest => isPlain depth item && plainItems depth rest

def plainFields (depth : ℕ) : List (String × Json) → Bool
  | [] => true
  | (key, item) :: rest => plainText key && isPlain depth item && plainFields depth rest
end

mutual
/-- Bytes enough for the encoding of a value without negative integers. -/
def room : Json → ℕ
  | .null => 4
  | .bool _ => 5
  | .int _ => 64
  | .str s => 2 + 6 * byteSize (chars s)
  | .arr items => 2 + roomItems items
  | .obj fields => 2 + roomFields fields

def roomItems : List Json → ℕ
  | [] => 0
  | item :: rest => room item + 1 + roomItems rest

def roomFields : List (String × Json) → ℕ
  | [] => 0
  | (key, item) :: rest => 2 + 6 * byteSize (chars key) + room item + 2 + roomFields rest
end

theorem plainText_eq (s : String) : plainText s = isPlainAscii s := (isPlainAscii_chars s).symm

theorem plainText_plain (hP : ∀ s, isAscii s = true → P.nfc s = s) {s : String}
    (h : plainText s = true) : PlainText P s := by
  simp only [plainText_eq, isPlainAscii, Bool.and_eq_true, decide_eq_true_eq] at h
  exact ⟨h.1.2, hP s h.1.1, h.2.trans (by decide)⟩

theorem plainItems_iff {depth : ℕ} {items : List Json} :
    plainItems depth items = true ↔ ∀ item ∈ items, isPlain depth item = true := by
  induction items with
  | nil => simp [plainItems]
  | cons item rest ih => rw [plainItems, Bool.and_eq_true, ih, List.forall_mem_cons]

theorem plainFields_iff {depth : ℕ} {fields : List (String × Json)} :
    plainFields depth fields = true ↔
      ∀ p ∈ fields, plainText p.1 = true ∧ isPlain depth p.2 = true := by
  induction fields with
  | nil => simp [plainFields]
  | cons p rest ih =>
    rw [plainFields, Bool.and_eq_true, Bool.and_eq_true, ih, List.forall_mem_cons]

theorem sizeOf_member {fields : List (String × Json)} {p : String × Json} (hp : p ∈ fields) :
    sizeOf p.2 < 1 + sizeOf fields := by
  have hsize := List.sizeOf_lt_of_mem hp
  have hpair : sizeOf p = 1 + sizeOf p.1 + sizeOf p.2 := rfl
  omega

theorem normalize_plain (hP : ∀ s, isAscii s = true → P.nfc s = s) : ∀ {depth : ℕ} (v : Json),
    isPlain depth v = true → normalize P depth v = .ok v
  | _, .null, h => normalize_null (of_decide_eq_true h)
  | _, .bool _, h => by simp [isPlain] at h
  | _, .int n, h => by
    simp only [isPlain, Bool.and_eq_true, decide_eq_true_eq] at h
    exact normalize_int h.1 h.2.1 h.2.2
  | _, .str s, h => by
    simp only [isPlain, Bool.and_eq_true, decide_eq_true_eq] at h
    exact normalize_str h.1 (plainText_plain hP h.2)
  | depth, .arr items, h => by
    simp only [isPlain, Bool.and_eq_true, decide_eq_true_eq, plainItems_iff] at h
    exact normalize_arr h.1 fun item hitem => normalize_plain hP item (h.2 item hitem)
  | depth, .obj fields, h => by
    simp only [isPlain, Bool.and_eq_true, decide_eq_true_eq, plainFields_iff] at h
    refine normalize_obj h.1.1 (fun p hp => plainText_plain hP (h.2 p hp).1) (fun p hp => ?_) h.1.2
    have hsmall := sizeOf_member hp
    exact normalize_plain hP p.2 (h.2 p hp).2
termination_by _ v => sizeOf v

theorem roomItems_eq (items : List Json) :
    roomItems items = (items.map fun item => room item + 1).sum := by
  induction items with
  | nil => rfl
  | cons item rest ih => rw [roomItems, ih, List.map_cons, List.sum_cons]

theorem roomFields_eq (fields : List (String × Json)) :
    roomFields fields =
      (fields.map fun p => 2 + 6 * byteSize (chars p.1) + room p.2 + 2).sum := by
  induction fields with
  | nil => rfl
  | cons p rest ih => rw [roomFields, ih, List.map_cons, List.sum_cons]

theorem byteSize_arr (items : List Json) :
    byteSize (dumps (.arr items)) ≤ 2 + (items.map fun item => byteSize (dumps item) + 1).sum := by
  have hopen : '['.utf8Size = 1 ∧ byteSize [']'] = 1 := by decide
  have hinter := byteSize_intercalate (dumpsItems items)
  rw [dumpsItems_map, List.map_map] at hinter
  rw [dumps, dumpsItems_map, byteSize_cons, byteSize_append]
  simp only [Function.comp_def] at hinter
  omega

theorem byteSize_plain : ∀ {depth : ℕ} (v : Json), isPlain depth v = true →
    byteSize (dumps v) ≤ room v
  | _, .null, _ => by decide
  | _, .bool _, h => by simp [isPlain] at h
  | _, .int n, h => by
    simp only [isPlain, Bool.and_eq_true, decide_eq_true_eq] at h
    exact byteSize_int h.2.1 h.2.2
  | _, .str s, _ => by
    rw [dumps, room, ← toList_eq]
    exact byteSize_quote s
  | depth, .arr items, h => by
    simp only [isPlain, Bool.and_eq_true, decide_eq_true_eq, plainItems_iff] at h
    rw [room, roomItems_eq]
    refine (byteSize_arr items).trans (Nat.add_le_add_left (List.sum_le_sum fun item hitem => ?_) 2)
    exact Nat.add_le_add_right (byteSize_plain item (h.2 item hitem)) 1
  | depth, .obj fields, h => by
    simp only [isPlain, Bool.and_eq_true, decide_eq_true_eq, plainFields_iff] at h
    rw [room, roomFields_eq]
    refine (byteSize_obj fields).trans (Nat.add_le_add_left (List.sum_le_sum fun p hp => ?_) 2)
    have hkey := byteSize_quote p.1
    have hsmall := sizeOf_member hp
    have hvalue := byteSize_plain p.2 (h.2 p hp).2
    rw [toList_eq] at hkey
    omega
termination_by _ v => sizeOf v

theorem canonicalBytes_plain (hP : ∀ s, isAscii s = true → P.nfc s = s) {v : Json}
    (h : isPlain 0 v = true) : canonicalBytes P v = .ok (dumps v) :=
  canonicalBytes_fixed (normalize_plain hP v h)

end Heel.Json
