import Heel.Lib.JsonOrder
import Mathlib.Data.List.Forall2

/-! Equality of JSON values with exact types, objects compared as dictionaries are: what lies at a
path, and what is lost with the order of keys. -/
namespace Lib.JsonText

def lookup (fields : List (Text × Value)) (name : Text) : Option Value :=
  (fields.find? fun p => p.1 = name).map Prod.snd

def sameKeys (fields fields' : List (Text × Value)) : Bool :=
  fields.all (fun p => (lookup fields' p.1).isSome) &&
    fields'.all fun p => (lookup fields p.1).isSome

mutual
def same (v : Value) : Value → Bool
  | .null => match v with | .null => true | _ => false
  | .bool b => match v with | .bool b' => b' == b | _ => false
  | .int n => match v with | .int n' => n' == n | _ => false
  | .float x => match v with | .float x' => decide (x' = x ∧ x ≠ .nan) | _ => false
  | .str s => match v with | .str s' => s' == s | _ => false
  | .arr items => match v with | .arr items' => sameItems items' items | _ => false
  | .obj fields =>
    match v with
    | .obj fields' => sameKeys fields' fields && sameFields fields' fields
    | _ => false

def sameItems (items' : List Value) : List Value → Bool
  | [] => items'.isEmpty
  | item :: rest =>
    match items' with
    | item' :: rest' => same item' item && sameItems rest' rest
    | [] => false

def sameFields (fields' : List (Text × Value)) : List (Text × Value) → Bool
  | [] => true
  | (key, item) :: rest =>
    (match lookup fields' key with
      | some item' => same item' item
      | none => false) && sameFields fields' rest
end

example : same (.int 1) (.bool true) = false := by simp [same]

theorem lookup_some {fields : List (Text × Value)} {name : Text} {v : Value}
    (h : lookup fields name = some v) : (name, v) ∈ fields := by
  rw [lookup, Option.map_eq_some_iff] at h
  obtain ⟨p, hp, rfl⟩ := h
  have hkey := List.find?_some hp
  rw [decide_eq_true_eq] at hkey
  exact hkey ▸ List.mem_of_find?_eq_some hp

theorem lookup_isSome {fields : List (Text × Value)} {name : Text} :
    (lookup fields name).isSome ↔ ∃ v, (name, v) ∈ fields := by
  rw [lookup, Option.isSome_map, List.find?_isSome]
  constructor
  · rintro ⟨p, hp, hkey⟩
    rw [decide_eq_true_eq] at hkey
    exact ⟨p.2, hkey ▸ hp⟩
  · rintro ⟨v, hv⟩
    exact ⟨(name, v), hv, decide_eq_true rfl⟩

theorem lookup_of_mem {fields : List (Text × Value)} (h : (fields.map Prod.fst).Nodup)
    {name : Text} {v : Value} (hv : (name, v) ∈ fields) : lookup fields name = some v := by
  obtain ⟨w, hw⟩ := Option.isSome_iff_exists.mp (lookup_isSome.mpr ⟨v, hv⟩)
  have hsame := List.inj_on_of_nodup_map h (lookup_some hw) hv rfl
  rw [hw, (Prod.mk.inj hsame).2]

@[simp] theorem same_null {v : Value} : same v .null = true ↔ v = .null := by
  cases v <;> simp [same]

@[simp] theorem same_bool {v : Value} {b : Bool} : same v (.bool b) = true ↔ v = .bool b := by
  cases v <;> simp [same]

@[simp] theorem same_int {v : Value} {n : ℤ} : same v (.int n) = true ↔ v = .int n := by
  cases v <;> simp [same]

@[simp] theorem same_str {v : Value} {s : Text} : same v (.str s) = true ↔ v = .str s := by
  cases v <;> simp [same]

theorem same_float {v : Value} {x : Binary64} (h : same v (.float x) = true) : v = .float x := by
  cases v <;> simp_all [same]

theorem sameItems_iff {items' items : List Value} : sameItems items' items = true ↔
    List.Forall₂ (fun v e => same v e = true) items' items := by
  induction items generalizing items' with
  | nil => simp [sameItems]
  | cons item rest ih =>
    cases items' with
    | nil => simp [sameItems]
    | cons item' rest' => simp [sameItems, ih]

theorem sameFields_iff {fields' fields : List (Text × Value)} : sameFields fields' fields = true ↔
    ∀ p ∈ fields, ∃ w, lookup fields' p.1 = some w ∧ same w p.2 = true := by
  induction fields with
  | nil => simp [sameFields]
  | cons p rest ih =>
    obtain ⟨key, item⟩ := p
    rw [sameFields, Bool.and_eq_true, ih, List.forall_mem_cons]
    cases lookup fields' key <;> simp

theorem same_arr {v : Value} {items : List Value} : same v (.arr items) = true ↔
    ∃ items', v = .arr items' ∧ List.Forall₂ (fun v e => same v e = true) items' items := by
  cases v <;> simp [same, sameItems_iff]

theorem same_obj {v : Value} {fields : List (Text × Value)} : same v (.obj fields) = true ↔
    ∃ fields', v = .obj fields' ∧ sameKeys fields' fields = true ∧
      ∀ p ∈ fields, ∃ w, lookup fields' p.1 = some w ∧ same w p.2 = true := by
  cases v <;> simp [same, sameFields_iff]

theorem same_texts {v : Value} {texts : List Text} :
    same v (.arr (texts.map .str)) = true ↔ v = .arr (texts.map .str) := by
  have hitems : ∀ items : List Value,
      List.Forall₂ (fun v e => same v e = true) items (texts.map .str) ↔
      items = texts.map .str := by
    induction texts with
    | nil => simp
    | cons s rest ih =>
      intro items
      cases items with
      | nil => simp
      | cons item items => simp [ih]
  rw [same_arr]
  constructor
  · rintro ⟨items, rfl, h⟩
    rw [(hitems items).mp h]
  · rintro rfl
    exact ⟨_, rfl, (hitems _).mpr rfl⟩

inductive PathStep where
  | key (name : Text)
  | index (i : ℕ)

def part (v : Value) : PathStep → Option Value
  | .key name => match v with | .obj fields => lookup fields name | _ => none
  | .index i => match v with | .arr items => items[i]? | _ => none

def at? (v : Value) : List PathStep → Option Value
  | [] => some v
  | step :: rest => (part v step).bind fun w => at? w rest

theorem same_part {v e p : Value} (h : same v e = true) {step : PathStep}
    (hp : part e step = some p) : ∃ w, part v step = some w ∧ same w p = true := by
  cases step with
  | key name =>
    cases e with
    | obj fields =>
      obtain ⟨fields', rfl, -, hfields⟩ := same_obj.mp h
      exact hfields _ (lookup_some hp)
    | _ => cases hp
  | index i =>
    cases e with
    | arr items =>
      obtain ⟨items', rfl, hitems⟩ := same_arr.mp h
      obtain ⟨hi, rfl⟩ := List.getElem?_eq_some_iff.mp hp
      have hi' : i < items'.length := hitems.length_eq ▸ hi
      exact ⟨_, List.getElem?_eq_getElem hi', hitems.get hi' hi⟩
    | _ => cases hp

theorem same_at {path : List PathStep} {v e p : Value} (h : same v e = true)
    (hp : at? e path = some p) : ∃ w, at? v path = some w ∧ same w p = true := by
  induction path generalizing v e with
  | nil =>
    cases hp
    exact ⟨v, rfl, h⟩
  | cons step rest ih =>
    obtain ⟨q, hq, hp⟩ := Option.bind_eq_some_iff.mp hp
    obtain ⟨w, hw, hsame⟩ := same_part h hq
    obtain ⟨u, hu, hsame⟩ := ih hsame hp
    exact ⟨u, by rw [at?, hw]; exact hu, hsame⟩

/-- The same dictionaries differ in the order of their keys only. -/
theorem same_arranged {v e : Value} (hv : Keyed v) (he : Keyed e) (h : same v e = true) :
    arranged v = arranged e := by
  cases e with
  | null => rw [same_null.mp h]
  | bool b => rw [same_bool.mp h]
  | int n => rw [same_int.mp h]
  | float x => rw [same_float h]
  | str s => rw [same_str.mp h]
  | arr items =>
    obtain ⟨items', rfl, hitems⟩ := same_arr.mp h
    rw [arranged, arranged, arrangedItems_map, arrangedItems_map]
    rw [Keyed, keyedItems_iff] at hv he
    congr 1
    refine List.ext_getElem (by simpa using hitems.length_eq) fun i hi hi' => ?_
    rw [List.length_map] at hi hi'
    have hmem : items[i] ∈ items := List.getElem_mem hi'
    have hlt : sizeOf items[i] < sizeOf items := List.sizeOf_lt_of_mem hmem
    rw [List.getElem_map, List.getElem_map]
    exact same_arranged (hv _ (List.getElem_mem hi)) (he _ hmem) (hitems.get hi hi')
  | obj fields =>
    obtain ⟨fields', rfl, hkeys, hfields⟩ := same_obj.mp h
    rw [Keyed, keyedFields_iff] at hv he
    have hpart : ∀ p ∈ fields, ∃ w, (p.1, w) ∈ fields' ∧ arranged w = arranged p.2 := by
      intro p hp
      obtain ⟨w, hw, hsame⟩ := hfields p hp
      have hlt : sizeOf p.2 < sizeOf fields := by
        have hmem := List.sizeOf_lt_of_mem hp
        have hsnd : sizeOf p.2 < sizeOf p := by
          cases p
          simp only [Prod.mk.sizeOf_spec]
          omega
        omega
      exact ⟨w, lookup_some hw, same_arranged (hv.2 _ (lookup_some hw)) (he.2 p hp) hsame⟩
    have hperm : (fields'.map arrangedField).Perm (fields.map arrangedField) := by
      have hnodup' : (fields'.map arrangedField).Nodup :=
        List.Nodup.of_map Prod.fst (by rw [arranged_keys]; exact hv.1)
      have hnodup : (fields.map arrangedField).Nodup :=
        List.Nodup.of_map Prod.fst (by rw [arranged_keys]; exact he.1)
      rw [List.perm_ext_iff_of_nodup hnodup' hnodup]
      intro q
      simp only [List.mem_map]
      constructor
      · rintro ⟨p', hp', rfl⟩
        rw [sameKeys, Bool.and_eq_true, List.all_eq_true] at hkeys
        obtain ⟨e, he'⟩ := lookup_isSome.mp (hkeys.1 p' hp')
        obtain ⟨w, hw, hsame⟩ := hpart _ he'
        have hone := List.inj_on_of_nodup_map hv.1 hw hp' rfl
        refine ⟨_, he', ?_⟩
        rw [arrangedField, arrangedField, ← hsame, ← hone]
      · rintro ⟨p, hp, rfl⟩
        obtain ⟨w, hw, hsame⟩ := hpart p hp
        exact ⟨_, hw, by rw [arrangedField, arrangedField, hsame]⟩
    rw [arranged, arranged, arrangedFields_map, arrangedFields_map]
    apply congrArg Value.obj
    refine sortBy_eq_of_perm (fun a ha b hb hab => ?_) hperm
    have hkeyed := hv.1
    rw [← arranged_keys] at hkeyed
    exact List.inj_on_of_nodup_map hkeyed ha hb hab
termination_by sizeOf e
decreasing_by
  all_goals
    subst_vars
    simp_wf
    omega

end Lib.JsonText
