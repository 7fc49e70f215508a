import Heel.Lib.JsonText
import Heel.Lib.Sorting

/-! JSON values up to the order of keys: a value is arranged by sorting the keys of all
its objects. -/
namespace Lib.JsonText

mutual
/-- The value with the keys of its objects in order. -/
def arranged : Value → Value
  | .arr items => .arr (arrangedItems items)
  | .obj fields => .obj (sortBy Prod.fst (arrangedFields fields))
  | .null => .null
  | .bool b => .bool b
  | .int n => .int n
  | .float x => .float x
  | .str s => .str s

def arrangedItems : List Value → List Value
  | [] => []
  | item :: rest => arranged item :: arrangedItems rest

def arrangedFields : List (Text × Value) → List (Text × Value)
  | [] => []
  | (key, item) :: rest => (key, arranged item) :: arrangedFields rest
end

mutual
/-- The keys of each object are distinct, as those of a dictionary are. -/
def Keyed : Value → Prop
  | .arr items => KeyedItems items
  | .obj fields => (fields.map Prod.fst).Nodup ∧ KeyedFields fields
  | .null => True
  | .bool _ => True
  | .int _ => True
  | .float _ => True
  | .str _ => True

def KeyedItems : List Value → Prop
  | [] => True
  | item :: rest => Keyed item ∧ KeyedItems rest

def KeyedFields : List (Text × Value) → Prop
  | [] => True
  | (_, item) :: rest => Keyed item ∧ KeyedFields rest
end

def arrangedField (p : Text × Value) : Text × Value := (p.1, arranged p.2)

example : arranged (.arr [.obj [], .null]) = .arr [.obj [], .null] := by
  simp [arranged, arrangedItems, arrangedFields, sortBy]

example : Keyed (.arr [.obj [([], .null)]]) := by
  simp [Keyed, KeyedItems, KeyedFields]

theorem arrangedItems_map (items : List Value) : arrangedItems items = items.map arranged := by
  induction items with
  | nil => rfl
  | cons item rest ih => rw [arrangedItems, ih, List.map_cons]

theorem arrangedFields_map (fields : List (Text × Value)) :
    arrangedFields fields = fields.map arrangedField := by
  induction fields with
  | nil => rfl
  | cons p rest ih => rw [arrangedFields, ih, List.map_cons, arrangedField]

theorem keyedItems_iff {items : List Value} : KeyedItems items ↔ ∀ v ∈ items, Keyed v := by
  induction items with
  | nil => simp [KeyedItems]
  | cons item rest ih => rw [KeyedItems, ih, List.forall_mem_cons]

theorem keyedFields_iff {fields : List (Text × Value)} :
    KeyedFields fields ↔ ∀ p ∈ fields, Keyed p.2 := by
  induction fields with
  | nil => simp [KeyedFields]
  | cons p rest ih => rw [KeyedFields, ih, List.forall_mem_cons]

theorem arranged_keys (fields : List (Text × Value)) :
    (fields.map arrangedField).map Prod.fst = fields.map Prod.fst := by
  rw [List.map_map]
  rfl

/-- Objects are arranged alike when their members are, in any order. -/
theorem arranged_obj {fields fields' : List (Text × Value)}
    (h : arranged (.obj fields) = arranged (.obj fields')) :
    (fields.map arrangedField).Perm (fields'.map arrangedField) := by
  rw [arranged, arranged, Value.obj.injEq, arrangedFields_map, arrangedFields_map] at h
  exact (sortBy_perm Prod.fst _).symm.trans (h ▸ sortBy_perm Prod.fst _)

theorem obj_of_arranged {v : Value} {fields : List (Text × Value)}
    (h : arranged (.obj fields) = arranged v) : ∃ fields', v = .obj fields' := by
  cases v <;> simp [arranged] at h
  exact ⟨_, rfl⟩

def IsLeaf (v : Value) : Prop := ∀ w, arranged w = v ↔ w = v

theorem str_leaf (s : Text) : IsLeaf (.str s) := by
  intro w
  cases w <;> simp [arranged]

theorem bool_leaf (b : Bool) : IsLeaf (.bool b) := by
  intro w
  cases w <;> simp [arranged]

end Lib.JsonText
