import Heel.Runner.PlanVerdict

/-! Bounded redaction of values at the runner's serialization boundaries (`redaction.py`):
`_safe_json` over a redactor of texts. -/
namespace Heel.Redaction
open Lib Lib.JsonText Lib.Checks Heel.Content Heel.PlanDifferential

def maxJsonDepth : ℕ := 16
def maxJsonNodes : ℕ := 1024
def maxItems : ℕ := 256
def maxSafeInteger : ℤ := 2 ^ 53 - 1

def marker : Text := points "[REDACTED:secret]"

inductive Raised where
  | valueError (reason : String)
  | typeError (reason : String)
  deriving DecidableEq, Repr

/-- A safe value, with the redactions made so far and the nodes visited so far. -/
structure Safe (α : Type) where
  value : α
  count : ℕ
  visited : ℕ

/-- `sorted(value)` of an object: its fields in the order of their keys. -/
def sortedFields (fields : List (Text × Value)) : List (Text × Value) :=
  fields.mergeSort fun a b => decide (a.1 ≤ b.1)

section
variable (W : Words) (plain : Text → Except Raised (Text × ℕ))

/-- One field of an object; `safe` is the call on its value. -/
def safeField (safe : ℕ → Value → Except Raised (Safe Value)) (done : Safe (List (Text × Value)))
    (field : Text × Value) : Except Raised (Safe (List (Text × Value))) :=
  if secretKey W field.1 then
    .ok ⟨done.value ++ [(field.1, .str marker)], done.count + 1, done.visited⟩
  else do
    let item ← safe done.visited field.2
    return ⟨done.value ++ [(field.1, item.value)], done.count + item.count, item.visited⟩

def safeItem (safe : ℕ → Value → Except Raised (Safe Value)) (done : Safe (List Value))
    (value : Value) : Except Raised (Safe (List Value)) := do
  let item ← safe done.visited value
  return ⟨done.value ++ [item.value], done.count + item.count, item.visited⟩

/-- `_safe_json`; `levels` is how much deeper the value may go, `visited` the state of the call. -/
def safeJson : ℕ → ℕ → Value → Except Raised (Safe Value)
  | 0, _, _ => .error (.valueError "safe JSON depth exceeds bound")
  | levels + 1, visited, value => do
    require (visited + 1 ≤ maxJsonNodes) (Raised.valueError "safe JSON node count exceeds bound")
    match value with
    | .null => return ⟨.null, 0, visited + 1⟩
    | .bool b => return ⟨.bool b, 0, visited + 1⟩
    | .int n => do
      require (0 ≤ n ∧ n ≤ maxSafeInteger) (Raised.valueError "safe JSON integer exceeds bound")
      return ⟨.int n, 0, visited + 1⟩
    | .float _ => .error (.typeError "safe JSON accepts bounded integers, not floats")
    | .str s => do
      let (text, count) ← plain s
      return ⟨.str text, count, visited + 1⟩
    | .obj fields => do
      require (fields.length ≤ maxItems) (Raised.valueError "safe JSON object exceeds bound")
      let done ← (sortedFields fields).foldlM (safeField W (safeJson levels)) ⟨[], 0, visited + 1⟩
      return ⟨.obj done.value, done.count, done.visited⟩
    | .arr items => do
      require (items.length ≤ maxItems) (Raised.valueError "safe JSON array exceeds bound")
      let done ← items.foldlM (safeItem (safeJson levels)) ⟨[], 0, visited + 1⟩
      return ⟨.arr done.value, done.count, done.visited⟩

end

variable {W : Words} {plain : Text → Except Raised (Text × ℕ)}

theorem mem_sortedFields {fields : List (Text × Value)} {field : Text × Value} :
    field ∈ sortedFields fields ↔ field ∈ fields := List.mem_mergeSort

/-- What an object becomes: each key with the marker or with the safe value of its own. -/
theorem safeFields_ok {safe : ℕ → Value → Except Raised (Safe Value)}
    {fields : List (Text × Value)} {done out : Safe (List (Text × Value))}
    (h : fields.foldlM (safeField W safe) done = .ok out) :
    ∃ more, out.value = done.value ++ more ∧ List.Forall₂ (fun field new => new.1 = field.1 ∧
      if secretKey W field.1 then new.2 = .str marker
      else ∃ visited item, safe visited field.2 = .ok item ∧ new.2 = item.value) fields more := by
  induction fields generalizing done with
  | nil =>
    cases h
    exact ⟨[], by rw [List.append_nil], .nil⟩
  | cons field rest ih =>
    rw [List.foldlM_cons, bind_ok] at h
    obtain ⟨mid, hmid, hrest⟩ := h
    obtain ⟨more, hmore, hall⟩ := ih hrest
    unfold safeField at hmid
    split at hmid
    · rename_i hsecret
      cases hmid
      refine ⟨(field.1, .str marker) :: more, ?_, .cons ⟨rfl, ?_⟩ hall⟩
      · rw [hmore, List.append_assoc, List.singleton_append]
      · rw [if_pos hsecret]
    · rename_i hsecret
      simp only [bind_ok, pure, Except.pure, Except.ok.injEq] at hmid
      obtain ⟨item, hitem, rfl⟩ := hmid
      refine ⟨(field.1, item.value) :: more, ?_, .cons ⟨rfl, ?_⟩ hall⟩
      · rw [hmore, List.append_assoc, List.singleton_append]
      · rw [if_neg hsecret]
        exact ⟨done.visited, item, hitem, rfl⟩

theorem safeJson_obj {levels visited : ℕ} {fields : List (Text × Value)} {out : Safe Value}
    (h : safeJson W plain (levels + 1) visited (.obj fields) = .ok out) :
    ∃ news, out.value = .obj news ∧ List.Forall₂ (fun field new => new.1 = field.1 ∧
      if secretKey W field.1 then new.2 = .str marker
      else ∃ visited item, safeJson W plain levels visited field.2 = .ok item ∧
        new.2 = item.value) (sortedFields fields) news := by
  simp only [safeJson, bind_ok, require_ok, exists_const, pure, Except.pure, Except.ok.injEq] at h
  obtain ⟨-, -, done, hdone, rfl⟩ := h
  obtain ⟨more, hmore, hall⟩ := safeFields_ok hdone
  rw [List.nil_append] at hmore
  exact ⟨more, congrArg Value.obj hmore, hall⟩

end Heel.Redaction
