import Heel.Contracts.ParseJson
import Heel.Lib.Table

/-! What `_normalize` answers, and that values of one canonical text are the same value. -/
namespace Heel
open Lib Lib.Checks
namespace Json

mutual
/-- What `_normalize` answers at a depth. -/
def Normal (P : Platform) (depth : Nat) : Json → Prop
  | .null => depth ≤ 16
  | .bool _ => False
  | .int n => depth ≤ 16 ∧ 0 ≤ n ∧ n ≤ safeInt
  | .str s => depth ≤ 16 ∧ PlainText P s
  | .arr items => depth ≤ 16 ∧ NormalItems P (depth + 1) items
  | .obj fields => depth ≤ 16 ∧ (fields.map Prod.fst).Nodup ∧ NormalFields P (depth + 1) fields

def NormalItems (P : Platform) (depth : Nat) : List Json → Prop
  | [] => True
  | item :: rest => Normal P depth item ∧ NormalItems P depth rest

def NormalFields (P : Platform) (depth : Nat) : List (String × Json) → Prop
  | [] => True
  | (key, item) :: rest =>
    (depth ≤ 16 ∧ PlainText P key ∧ Normal P depth item) ∧ NormalFields P depth rest
end

variable {P : Platform} {depth : Nat}

theorem normalFields_iff {fields : List (String × Json)} : NormalFields P depth fields ↔
    ∀ p ∈ fields, depth ≤ 16 ∧ PlainText P p.1 ∧ Normal P depth p.2 := by
  induction fields with
  | nil => simp [NormalFields]
  | cons field rest ih => rw [NormalFields, List.forall_mem_cons, ih]

/-- What is assumed of NFC: it is idempotent and brings in no control character. -/
structure NfcLawful (P : Platform) : Prop where
  idempotent : ∀ s, P.nfc (P.nfc s) = P.nfc s
  noControl : ∀ s : String, s.toList.all (fun c => !isControl c) = true →
    (P.nfc s).toList.all (fun c => !isControl c) = true

theorem normalizeText_ok (hP : NfcLawful P) {s t : String} (h : normalizeText P s = .ok t) :
    PlainText P t := by
  simp only [normalizeText, bind_ok, require_ok, exists_const, pure, Except.pure,
    Except.ok.injEq] at h
  obtain ⟨hcontrol, hsize, rfl⟩ := h
  exact ⟨hP.noControl s hcontrol, hP.idempotent s, hsize⟩

mutual
theorem normalize_normal (hP : NfcLawful P) : ∀ (v : Json) (depth : Nat) (out : Json),
    normalize P depth v = .ok out → Normal P depth out
  | .null, depth, out, h => by
    simp only [normalize, bind_ok, require_ok, exists_const, pure, Except.pure,
      Except.ok.injEq] at h
    obtain ⟨hd, rfl⟩ := h
    exact hd
  | .bool _, depth, out, h => by
    simp only [normalize, bind_ok, reduceCtorEq, and_false, exists_false] at h
  | .int n, depth, out, h => by
    simp only [normalize, bind_ok, require_ok, exists_const, pure, Except.pure,
      Except.ok.injEq] at h
    obtain ⟨hd, hrange, rfl⟩ := h
    exact ⟨hd, hrange⟩
  | .str s, depth, out, h => by
    simp only [normalize, bind_ok, require_ok, exists_const, pure, Except.pure,
      Except.ok.injEq] at h
    obtain ⟨hd, t, ht, rfl⟩ := h
    exact ⟨hd, normalizeText_ok hP ht⟩
  | .arr items, depth, out, h => by
    simp only [normalize, bind_ok, require_ok, exists_const, pure, Except.pure,
      Except.ok.injEq] at h
    obtain ⟨hd, out', hitems, rfl⟩ := h
    exact ⟨hd, normalizeItems_normal hP items (depth + 1) out' hitems⟩
  | .obj fields, depth, out, h => by
    simp only [normalize, bind_ok, require_ok, exists_const, pure, Except.pure,
      Except.ok.injEq] at h
    obtain ⟨hd, out', hfields, rfl⟩ := h
    exact ⟨hd, normalizeFields_nodup (by simp) hfields, normalFields_iff.mpr
      (normalizeFields_normal hP fields (depth + 1) [] out' (by simp) hfields)⟩

theorem normalizeItems_normal (hP : NfcLawful P) : ∀ (items : List Json) (depth : Nat)
    (out : List Json),
    normalizeItems P depth items = .ok out → NormalItems P depth out
  | [], depth, out, h => by
    cases h
    trivial
  | item :: rest, depth, out, h => by
    simp only [normalizeItems, bind_ok] at h
    obtain ⟨head, hhead, tail, htail, h⟩ := h
    cases h
    exact ⟨normalize_normal hP item depth head hhead,
      normalizeItems_normal hP rest depth tail htail⟩

theorem normalizeFields_normal (hP : NfcLawful P) : ∀ (fields : List (String × Json)) (depth : Nat)
    (done out : List (String × Json)),
    (∀ p ∈ done, depth ≤ 16 ∧ PlainText P p.1 ∧ Normal P depth p.2) →
    normalizeFields P depth done fields = .ok out →
    ∀ p ∈ out, depth ≤ 16 ∧ PlainText P p.1 ∧ Normal P depth p.2
  | [], depth, done, out, hdone, h => by
    cases h
    exact hdone
  | (key, item) :: rest, depth, done, out, hdone, h => by
    simp only [normalizeFields, bind_ok, require_ok, exists_const] at h
    obtain ⟨hd, key', hkey, -, value, hvalue, h⟩ := h
    refine normalizeFields_normal hP rest depth _ out (fun p hp => ?_) h
    rcases List.mem_append.mp hp with hp | hp
    · exact hdone p hp
    · rw [List.mem_singleton.mp hp]
      exact ⟨hd, normalizeText_ok hP hkey, normalize_normal hP item depth value hvalue⟩
end

mutual
theorem normalize_of_normal : ∀ (v : Json) (depth : Nat), Normal P depth v →
    normalize P depth v = .ok v
  | .null, depth, h => normalize_null h
  | .bool _, depth, h => h.elim
  | .int n, depth, h => normalize_int h.1 h.2.1 h.2.2
  | .str s, depth, h => normalize_str h.1 h.2
  | .arr items, depth, h => by
    simp only [normalize, normalizeItems_of_normal items (depth + 1) h.2, bind_ok, require_ok,
      exists_const, Except.ok.injEq, exists_eq_left']
    exact ⟨h.1, rfl⟩
  | .obj fields, depth, h => by
    obtain ⟨hd, hnodup, hfields⟩ := h
    have hout := normalizeFields_of_normal fields (depth + 1) [] hfields hnodup
    simp only [normalize, bind_ok, require_ok, exists_const]
    exact ⟨hd, fields, hout, rfl⟩

theorem normalizeItems_of_normal : ∀ (items : List Json) (depth : Nat), NormalItems P depth items →
    normalizeItems P depth items = .ok items
  | [], depth, h => rfl
  | item :: rest, depth, h => by
    simp only [normalizeItems, normalize_of_normal item depth h.1,
      normalizeItems_of_normal rest depth h.2,
      bind_ok, Except.ok.injEq, exists_eq_left']
    rfl

theorem normalizeFields_of_normal : ∀ (fields : List (String × Json)) (depth : Nat)
    (done : List (String × Json)), NormalFields P depth fields →
    ((done ++ fields).map Prod.fst).Nodup →
    normalizeFields P depth done fields = .ok (done ++ fields)
  | [], depth, done, h, hnodup => by
    rw [List.append_nil]
    rfl
  | (key, item) :: rest, depth, done, h, hnodup => by
    obtain ⟨⟨hd, hkey, hitem⟩, hrest⟩ := h
    have hnew : key ∉ done.map Prod.fst := by
      intro hmem
      rw [List.map_append, List.map_cons] at hnodup
      exact List.disjoint_of_nodup_append hnodup hmem (by simp)
    have hout := normalizeFields_of_normal rest depth (done ++ [(key, item)]) hrest
      (by simpa using hnodup)
    simp only [normalizeFields, bind_ok, require_ok, exists_const, normalizeText_plain hkey,
      normalize_of_normal item depth hitem, Except.ok.injEq, exists_eq_left']
    exact ⟨hd, hnew, by simpa using hout⟩
end

theorem find_field {fields : List (String × Json)} (h : (fields.map Prod.fst).Nodup)
    {q : String × Json} (hq : q ∈ fields) : fields.find? (fun o => o.1 = q.1) = some q :=
  Table.find_key h hq

theorem sameFields_iff {fs gs : List (String × Json)} (hgs : (gs.map Prod.fst).Nodup) :
    sameFields fs gs = true ↔ ∀ p ∈ fs, ∃ q ∈ gs, q.1 = p.1 ∧ same p.2 q.2 = true := by
  induction fs with
  | nil => simp [sameFields]
  | cons p fs ih =>
    obtain ⟨key, v⟩ := p
    rw [sameFields, Bool.and_eq_true, ih, List.forall_mem_cons]
    refine and_congr_left fun _ => ?_
    constructor
    · intro h
      cases hfind : gs.find? fun q => q.1 = key with
      | none =>
        rw [hfind] at h
        cases h
      | some q =>
        rw [hfind] at h
        exact ⟨q, List.mem_of_find?_eq_some hfind, by simpa using List.find?_some hfind, h⟩
    · rintro ⟨q, hq, rfl, hsame⟩
      rw [find_field hgs hq]
      exact hsame

instance : Std.Total keyLe := ⟨fun _ _ => le_total (α := List Char) _ _⟩

instance : IsTrans (String × List Char) keyLe := ⟨fun _ _ _ => le_trans (α := List Char)⟩

theorem sortedMembers_perm (fields : List (String × Json)) :
    (sortedMembers fields).Perm (fields.map fun p => (p.1, dumps p.2)) := by
  rw [sortedMembers, dumpsFields_map]
  exact List.perm_insertionSort _ _

theorem sortedMembers_keys {fields : List (String × Json)} (h : (fields.map Prod.fst).Nodup) :
    ((sortedMembers fields).map Prod.fst).Nodup := by
  have hperm := (sortedMembers_perm fields).map Prod.fst
  rw [List.map_map] at hperm
  exact hperm.nodup_iff.mpr h

theorem sortedMembers_length (fields : List (String × Json)) :
    (sortedMembers fields).length = fields.length := by
  rw [(sortedMembers_perm fields).length_eq, List.length_map]

theorem sortedMembers_sorted (fields : List (String × Json)) :
    (sortedMembers fields).Pairwise keyLe :=
  List.pairwise_insertionSort _ _

theorem sortedMembers_congr {fs gs : List (String × Json)} (hfs : (fs.map Prod.fst).Nodup)
    (hgs : (gs.map Prod.fst).Nodup) (hlength : fs.length = gs.length)
    (h : ∀ p ∈ fs, ∃ q ∈ gs, q.1 = p.1 ∧ dumps p.2 = dumps q.2) :
    sortedMembers fs = sortedMembers gs := by
  have hsub : sortedMembers fs ⊆ sortedMembers gs := by
    intro m hm
    obtain ⟨p, hp, rfl⟩ := mem_sortedMembers.mp hm
    obtain ⟨q, hq, hkey, htext⟩ := h p hp
    exact mem_sortedMembers.mpr ⟨q, hq, by rw [hkey, htext]⟩
  have hnodup : (sortedMembers fs).Nodup := (sortedMembers_keys hfs).of_map _
  have hperm : (sortedMembers fs).Perm (sortedMembers gs) := by
    refine (List.subperm_of_subset hnodup hsub).perm_of_length_le ?_
    rw [sortedMembers_length, sortedMembers_length, hlength]
  refine hperm.eq_of_pairwise (fun a b ha hb hab hba => ?_) (sortedMembers_sorted fs)
    (sortedMembers_sorted gs)
  -- members of one key are the same member
  have hkey : a.1 = b.1 := String.toList_inj.mp (le_antisymm hab hba)
  exact Table.eq_of_key (sortedMembers_keys hgs) (hsub ha) hb hkey

/-- Objects have one text exactly when they have the same fields. -/
theorem obj_text_iff {d : Nat} {fs gs : List (String × Json)} (hfs : (fs.map Prod.fst).Nodup)
    (hgs : (gs.map Prod.fst).Nodup) (hnormal : NormalFields P d gs)
    (h : ∀ p ∈ fs, ∀ w, Normal P d w → (dumps p.2 = dumps w ↔ same p.2 w = true)) :
    dumps (.obj fs) = dumps (.obj gs) ↔ same (.obj fs) (.obj gs) = true := by
  have hgsNormal := normalFields_iff.mp hnormal
  rw [same, Bool.and_eq_true, decide_eq_true_eq, sameFields_iff hgs]
  constructor
  · intro htext
    have hmembers := sortedMembers_eq htext
    refine ⟨?_, fun p hp => ?_⟩
    · rw [← sortedMembers_length, hmembers, sortedMembers_length]
    · have hp' : (p.1, dumps p.2) ∈ sortedMembers gs :=
        hmembers ▸ mem_sortedMembers.mpr ⟨p, hp, rfl⟩
      obtain ⟨q, hq, hpair⟩ := mem_sortedMembers.mp hp'
      rw [Prod.mk.injEq] at hpair
      exact ⟨q, hq, hpair.1.symm, (h p hp q.2 (hgsNormal q hq).2.2).mp hpair.2⟩
  · rintro ⟨hlength, hfields⟩
    rw [dumps_obj, dumps_obj, sortedMembers_congr hfs hgs hlength fun p hp => ?_]
    obtain ⟨q, hq, hkey, hsame⟩ := hfields p hp
    exact ⟨q, hq, hkey, (h p hp q.2 (hgsNormal q hq).2.2).mpr hsame⟩

theorem arr_text_iff {xs ys : List Json} :
    dumps (.arr xs) = dumps (.arr ys) ↔ xs.map dumps = ys.map dumps := by
  constructor
  · intro h
    simp only [dumps_arr, List.cons.injEq, true_and] at h
    refine (intercalate_unique id IsText (.inl rfl) (fun a ha => ha.head (by decide)) _ _ [] [] ?_
      ?_ h).1
    · intro x hx
      obtain ⟨item, -, rfl⟩ := List.mem_map.mp hx
      exact ⟨⟨item, rfl⟩, readable item⟩
    · intro y hy
      obtain ⟨item, -, rfl⟩ := List.mem_map.mp hy
      exact ⟨item, rfl⟩
  · intro h
    rw [dumps_arr, dumps_arr, h]

theorem text_kind {v w : Json} (h : dumps v = dumps w) : kind v = kind w :=
  kind_eq (by rw [h] : dumps v ++ [] = dumps w ++ [])

theorem same_kind {v w : Json} (h : same v w = true) : kind v = kind w := by
  cases v <;> cases w <;> first
    | rfl
    | cases h
    | rw [of_decide_eq_true h]

theorem text_iff_of_kind {v w : Json} (h : kind v ≠ kind w) :
    dumps v = dumps w ↔ same v w = true :=
  ⟨fun htext => absurd (text_kind htext) h, fun hsame => absurd (same_kind hsame) h⟩

mutual
/-- Normalised values have one text exactly when they are the same value. -/
theorem text_iff : ∀ (v : Json) (d : Nat), Normal P d v → ∀ w, Normal P d w →
    (dumps v = dumps w ↔ same v w = true)
  | .null, d, hv, w, hw => by
    cases w with
    | null => simp [same]
    | bool b => exact hw.elim
    | _ => exact text_iff_of_kind (by simp [kind])
  | .bool _, d, hv, w, hw => hv.elim
  | .int n, d, hv, w, hw => by
    cases w with
    | int m =>
      rw [same, decide_eq_true_eq, dumps, dumps]
      exact ⟨intChars_inj, fun h => by rw [h]⟩
    | bool b => exact hw.elim
    | _ => exact text_iff_of_kind (by simp [kind])
  | .str s, d, hv, w, hw => by
    cases w with
    | str t =>
      rw [same, decide_eq_true_eq, dumps, dumps]
      exact ⟨fun h => (quote_unique (by rw [h] : quote s ++ [] = quote t ++ [])).1,
        fun h => by rw [h]⟩
    | bool b => exact hw.elim
    | _ => exact text_iff_of_kind (by simp [kind])
  | .arr xs, d, hv, w, hw => by
    cases w with
    | arr ys =>
      rw [arr_text_iff, same]
      exact text_items_iff xs (d + 1) hv.2 ys hw.2
    | bool b => exact hw.elim
    | _ => exact text_iff_of_kind (by simp [kind])
  | .obj fs, d, hv, w, hw => by
    cases w with
    | obj gs => exact obj_text_iff hv.2.1 hw.2.1 hw.2.2 (text_fields_iff fs (d + 1) hv.2.2)
    | bool b => exact hw.elim
    | _ => exact text_iff_of_kind (by simp [kind])

theorem text_items_iff : ∀ (xs : List Json) (d : Nat), NormalItems P d xs →
    ∀ ys, NormalItems P d ys → (xs.map dumps = ys.map dumps ↔ sameItems xs ys = true)
  | [], d, hxs, ys, hys => by
    cases ys with
    | nil => simp [sameItems]
    | cons y ys => simp [sameItems]
  | x :: xs, d, hxs, ys, hys => by
    cases ys with
    | nil => simp [sameItems]
    | cons y ys =>
      rw [sameItems, Bool.and_eq_true, ← text_iff x d hxs.1 y hys.1,
        ← text_items_iff xs d hxs.2 ys hys.2, List.map_cons, List.map_cons, List.cons.injEq]

theorem text_fields_iff : ∀ (fs : List (String × Json)) (d : Nat), NormalFields P d fs →
    ∀ p ∈ fs, ∀ w, Normal P d w → (dumps p.2 = dumps w ↔ same p.2 w = true)
  | [], d, hfs => by simp
  | (key, v) :: fs, d, hfs => by
    intro p hp
    rcases List.mem_cons.mp hp with rfl | hp
    · exact text_iff v d hfs.1.2.2
    · exact text_fields_iff fs d hfs.2 p hp
end

def fieldLe (a b : String × Json) : Prop := a.1.toList ≤ b.1.toList

instance (a b : String × Json) : Decidable (fieldLe a b) :=
  inferInstanceAs (Decidable (a.1.toList ≤ b.1.toList))

mutual
/-- The value with the fields of its objects in the order of its text. -/
def arranged : Json → Json
  | .null => .null
  | .bool b => .bool b
  | .int n => .int n
  | .str s => .str s
  | .arr items => .arr (arrangedItems items)
  | .obj fields => .obj ((arrangedFields fields).insertionSort fieldLe)

def arrangedItems : List Json → List Json
  | [] => []
  | item :: rest => arranged item :: arrangedItems rest

def arrangedFields : List (String × Json) → List (String × Json)
  | [] => []
  | (key, item) :: rest => (key, arranged item) :: arrangedFields rest
end

theorem arrangedItems_map (items : List Json) : arrangedItems items = items.map arranged := by
  induction items with
  | nil => rfl
  | cons item rest ih => rw [arrangedItems, ih, List.map_cons]

theorem arrangedFields_map (fields : List (String × Json)) :
    arrangedFields fields = fields.map fun p => (p.1, arranged p.2) := by
  induction fields with
  | nil => rfl
  | cons field rest ih => rw [arrangedFields, ih, List.map_cons]

theorem arranged_keys (fields : List (String × Json)) :
    (arrangedFields fields).map Prod.fst = fields.map Prod.fst := by
  rw [arrangedFields_map, List.map_map]
  rfl

mutual
theorem arranged_normal : ∀ (v : Json) (d : Nat), Normal P d v → Normal P d (arranged v)
  | .null, d, h => h
  | .bool _, d, h => h
  | .int n, d, h => h
  | .str s, d, h => h
  | .arr items, d, h => ⟨h.1, arrangedItems_normal items (d + 1) h.2⟩
  | .obj fields, d, h => by
    have hperm := List.perm_insertionSort fieldLe (arrangedFields fields)
    refine ⟨h.1, ?_, normalFields_iff.mpr fun p hp => ?_⟩
    · rw [(hperm.map Prod.fst).nodup_iff, arranged_keys]
      exact h.2.1
    · exact normalFields_iff.mp (arrangedFields_normal fields (d + 1) h.2.2) p (hperm.mem_iff.mp hp)

theorem arrangedItems_normal : ∀ (items : List Json) (d : Nat), NormalItems P d items →
    NormalItems P d (arrangedItems items)
  | [], _, _ => trivial
  | item :: rest, d, h => ⟨arranged_normal item d h.1, arrangedItems_normal rest d h.2⟩

theorem arrangedFields_normal : ∀ (fields : List (String × Json)) (d : Nat),
    NormalFields P d fields → NormalFields P d (arrangedFields fields)
  | [], _, _ => trivial
  | (_, item) :: rest, d, h =>
    ⟨⟨h.1.1, h.1.2.1, arranged_normal item d h.1.2.2⟩, arrangedFields_normal rest d h.2⟩
end

theorem sortedMembers_arranged {fields : List (String × Json)}
    (h : ∀ p ∈ fields, dumps (arranged p.2) = dumps p.2) : sortedMembers fields =
      ((arrangedFields fields).insertionSort fieldLe).map fun p => (p.1, dumps p.2) := by
  rw [List.map_insertionSort (r := fieldLe) (s := keyLe) (fun p => (p.1, dumps p.2)) _
    fun a _ b _ => Iff.rfl, sortedMembers, dumpsFields_map, arrangedFields_map, List.map_map]
  refine congrArg (List.insertionSort keyLe) (List.map_congr_left fun p hp => ?_)
  exact Prod.ext rfl (h p hp).symm

theorem sortedMembers_sort {fields : List (String × Json)} :
    sortedMembers (fields.insertionSort fieldLe) = sortedMembers fields := by
  have hmap : (fields.insertionSort fieldLe).map (fun p => (p.1, dumps p.2)) =
      sortedMembers fields := by
    rw [List.map_insertionSort (r := fieldLe) (s := keyLe) (fun p => (p.1, dumps p.2)) _
      fun a _ b _ => Iff.rfl, sortedMembers, dumpsFields_map]
  rw [sortedMembers, dumpsFields_map, hmap]
  exact (sortedMembers_sorted fields).insertionSort_eq

mutual
theorem dumps_arranged : ∀ v : Json, dumps (arranged v) = dumps v
  | .null => rfl
  | .bool _ => rfl
  | .int _ => rfl
  | .str _ => rfl
  | .arr items => by
    rw [arranged, arr_text_iff, arrangedItems_map, List.map_map]
    exact List.map_congr_left (dumpsItems_arranged items)
  | .obj fields => by
    rw [arranged, dumps_obj, dumps_obj, sortedMembers_sort,
      sortedMembers_arranged (dumpsFields_arranged fields), sortedMembers, dumpsFields_map,
      List.map_insertionSort (r := fieldLe) (s := keyLe) (fun p => (p.1, dumps p.2)) _
        fun a _ b _ => Iff.rfl]

theorem dumpsItems_arranged : ∀ items : List Json, ∀ v ∈ items, dumps (arranged v) = dumps v
  | [] => by simp
  | item :: rest => by
    have hitem := dumps_arranged item
    have hrest := dumpsItems_arranged rest
    intro v hv
    rcases List.mem_cons.mp hv with rfl | hv
    · exact hitem
    · exact hrest v hv

theorem dumpsFields_arranged : ∀ fields : List (String × Json),
    ∀ p ∈ fields, dumps (arranged p.2) = dumps p.2
  | [] => by simp
  | (_, item) :: rest => by
    intro p hp
    rcases List.mem_cons.mp hp with rfl | hp
    · exact dumps_arranged item
    · exact dumpsFields_arranged rest p hp
end

theorem arranged_same {v : Json} (h : Normal P depth v) : same (arranged v) v = true :=
  (text_iff _ depth (arranged_normal v depth h) v h).mp (dumps_arranged v)

end Json
end Heel
