import Mathlib.Data.List.Perm.Basic
import Heel.Contracts.ReviewContract
import Heel.Lib.Table

/-! What the validators of a review let through, and that they accept their own answers. -/
namespace Heel.Review
open Lib Lib.JsonText Lib.Checks

variable {H : Sha256} {float : Binary64 → Text}

mutual
/-- What `_normalize_json` lets through. -/
def portable : Value → Bool
  | .null => true
  | .bool _ => true
  | .int n => -jsSafeInteger ≤ n ∧ n ≤ jsSafeInteger
  | .float (.finite _) => true
  | .float _ => false
  | .str s => !s.any isSurrogate
  | .arr items => portableItems items
  | .obj fields => portableFields fields

def portableItems : List Value → Bool
  | [] => true
  | item :: rest => portable item && portableItems rest

def portableFields : Fields → Bool
  | [] => true
  | (key, item) :: rest => !key.any isSurrogate && portable item && portableFields rest
end

theorem points_unicode (s : String) : (points s).any isSurrogate = false := by
  rw [points, List.any_map, List.any_eq_false]
  intro c _
  have hvalid := c.valid
  have hval : c.val.toNat = c.toNat := rfl
  simp only [UInt32.isValidChar, Nat.isValidChar, hval] at hvalid
  simp only [Function.comp_apply, isSurrogate, Bool.and_eq_true, decide_eq_true_eq]
  omega

theorem portableItems_iff {items : List Value} :
    portableItems items = true ↔ ∀ v ∈ items, portable v = true := by
  induction items with
  | nil => simp [portableItems]
  | cons item rest ih => rw [portableItems, Bool.and_eq_true, ih, List.forall_mem_cons]

theorem portableFields_iff {fields : Fields} : portableFields fields = true ↔
    ∀ p ∈ fields, p.1.any isSurrogate = false ∧ portable p.2 = true := by
  induction fields with
  | nil => simp [portableFields]
  | cons p rest ih =>
    rw [portableFields, Bool.and_eq_true, Bool.and_eq_true, ih, List.forall_mem_cons,
      Bool.not_eq_true']

mutual
theorem normalizeJson_ok : ∀ {v w : Value}, normalizeJson v = .ok w ↔ portable v = true ∧ w = v
  | .null, w => by simp [normalizeJson, portable, eq_comm]
  | .bool b, w => by simp [normalizeJson, portable, eq_comm]
  | .int n, w => by
    simp only [normalizeJson, bind_ok, require_ok, exists_const, pure, Except.pure,
      Except.ok.injEq, portable, decide_eq_true_eq]
    exact and_congr_right fun _ => eq_comm
  | .float (.finite x), w => by simp [normalizeJson, portable, eq_comm]
  | .float (.infinity b), w => by simp [normalizeJson, portable]
  | .float .nan, w => by simp [normalizeJson, portable]
  | .str s, w => by
    simp only [normalizeJson, validateUnicode, bind_ok, require_ok, exists_const, pure, Except.pure,
      Except.ok.injEq, portable, Bool.not_eq_true']
    exact and_congr_right fun _ => eq_comm
  | .arr items, w => by
    simp only [normalizeJson, bind_ok, normalizeItems_ok, pure, Except.pure, Except.ok.injEq,
      portable]
    constructor
    · rintro ⟨_, ⟨h, rfl⟩, rfl⟩
      exact ⟨h, rfl⟩
    · rintro ⟨h, rfl⟩
      exact ⟨_, ⟨h, rfl⟩, rfl⟩
  | .obj fields, w => by
    simp only [normalizeJson, bind_ok, normalizeFields_ok, pure, Except.pure, Except.ok.injEq,
      portable]
    constructor
    · rintro ⟨_, ⟨h, rfl⟩, rfl⟩
      exact ⟨h, rfl⟩
    · rintro ⟨h, rfl⟩
      exact ⟨_, ⟨h, rfl⟩, rfl⟩

theorem normalizeItems_ok : ∀ {items out : List Value} {i : ℕ},
    normalizeItems i items = .ok out ↔ portableItems items = true ∧ out = items
  | [], out, i => by simp [normalizeItems, portableItems, eq_comm]
  | item :: rest, out, i => by
    simp only [normalizeItems, bind_ok, within_ok, normalizeJson_ok, normalizeItems_ok, pure,
      Except.pure, Except.ok.injEq, portableItems, Bool.and_eq_true]
    constructor
    · rintro ⟨_, ⟨h, rfl⟩, _, ⟨h', rfl⟩, rfl⟩
      exact ⟨⟨h, h'⟩, rfl⟩
    · rintro ⟨⟨h, h'⟩, rfl⟩
      exact ⟨_, ⟨h, rfl⟩, _, ⟨h', rfl⟩, rfl⟩

theorem normalizeFields_ok : ∀ {fields out : Fields},
    normalizeFields fields = .ok out ↔ portableFields fields = true ∧ out = fields
  | [], out => by simp [normalizeFields, portableFields, eq_comm]
  | (key, item) :: rest, out => by
    simp only [normalizeFields, validateUnicode, bind_ok, require_ok, exists_const, within_ok,
      normalizeJson_ok, normalizeFields_ok, pure, Except.pure, Except.ok.injEq, portableFields,
      Bool.and_eq_true, Bool.not_eq_true']
    constructor
    · rintro ⟨hkey, _, ⟨h, rfl⟩, _, ⟨h', rfl⟩, rfl⟩
      exact ⟨⟨⟨hkey, h⟩, h'⟩, rfl⟩
    · rintro ⟨⟨⟨hkey, h⟩, h'⟩, rfl⟩
      exact ⟨hkey, _, ⟨h, rfl⟩, _, ⟨h', rfl⟩, rfl⟩
end

def Distinct (fields : Fields) : Prop := (fields.map Prod.fst).Nodup

theorem member_mem {fields : Fields} {name : Text} {v : Value} (h : member fields name = .ok v) :
    (name, v) ∈ fields := by
  unfold member at h
  split at h
  · rename_i p hp
    cases h
    have hkey := List.find?_some hp
    rw [decide_eq_true_eq] at hkey
    exact hkey ▸ List.mem_of_find?_eq_some hp
  · cases h

theorem find_of_mem {fields : Fields} (hd : Distinct fields) {p : Text × Value} (h : p ∈ fields) :
    fields.find? (fun q => q.1 = p.1) = some p :=
  Table.find_key (g := Prod.fst) hd h

theorem member_iff {fields : Fields} (hd : Distinct fields) {name : Text} {v : Value} :
    member fields name = .ok v ↔ (name, v) ∈ fields := by
  refine ⟨member_mem, fun h => ?_⟩
  have hfind := find_of_mem hd h
  dsimp only at hfind
  rw [member, hfind]

theorem member_at {fields : Fields} (hd : Distinct fields) (i : ℕ) {name : Text} {v : Value}
    (h : fields[i]? = some (name, v)) : member fields name = .ok v :=
  (member_iff hd).mpr (List.mem_of_getElem? h)

/-- A list of named texts that are not blank. -/
def Texts (names : List Text) (record : Flat) : Prop :=
  List.Forall₂ (fun name p => p.1 = name ∧ ∃ s : Text, p.2 = .text s ∧ s.all isWhitespace = false)
    names record

theorem requireNonemptyString_ok {v : Value} {s : Text} :
    requireNonemptyString v = .ok s ↔ v = .str s ∧ s.all isWhitespace = false := by
  cases v with
  | str t =>
    simp only [requireNonemptyString, bind_ok, require_ok, exists_const, pure, Except.pure,
      Except.ok.injEq, Value.str.injEq]
    constructor
    · rintro ⟨h, rfl⟩
      exact ⟨rfl, h⟩
    · rintro ⟨rfl, h⟩
      exact ⟨h, rfl⟩
  | _ => simp [requireNonemptyString]

theorem requireBoolean_ok {v : Value} {b : Bool} : requireBoolean v = .ok b ↔ v = .bool b := by
  cases v <;> simp [requireBoolean]

theorem textFields_ok {item : Fields} {names : List Text} {record : Flat} :
    textFields item names = .ok record ↔ List.Forall₂ (fun name p => p.1 = name ∧
      ∃ s : Text, p.2 = .text s ∧ s.all isWhitespace = false ∧ member item name = .ok (.str s))
      names record := by
  have heach : ∀ (name : Text) (p : Text × Scalar), (do
      let value ← member item name
      let text ← within (.key name) (requireNonemptyString value)
      return (name, Scalar.text text)) = Except.ok p ↔ p.1 = name ∧
        ∃ s : Text, p.2 = .text s ∧ s.all isWhitespace = false ∧ member item name =
        .ok (.str s) := by
    intro name p
    simp only [bind_ok, within_ok, requireNonemptyString_ok, pure, Except.pure, Except.ok.injEq]
    constructor
    · rintro ⟨_, hm, s, ⟨rfl, hs⟩, rfl⟩
      exact ⟨rfl, s, rfl, hs, hm⟩
    · rintro ⟨rfl, s, hp, hs, hm⟩
      exact ⟨_, hm, s, ⟨rfl, hs⟩, Prod.ext rfl hp.symm⟩
  rw [textFields, mapM_ok]
  simp only [heach]

theorem flagField_ok {item : Fields} {name : Text} {p : Text × Scalar} :
    flagField item name = .ok p ↔ ∃ b, p = (name, .flag b) ∧ member item name = .ok (.bool b) := by
  simp only [flagField, bind_ok, within_ok, requireBoolean_ok, pure, Except.pure, Except.ok.injEq]
  constructor
  · rintro ⟨_, hm, b, rfl, rfl⟩
    exact ⟨b, rfl, hm⟩
  · rintro ⟨b, rfl, hm⟩
    exact ⟨_, hm, b, rfl, rfl⟩

theorem digest_isDigest (t : Text) : isDigest (H.digest t) = true := by
  rw [isDigest, Bool.and_eq_true, List.all_eq_true]
  refine ⟨decide_eq_true (H.length t), fun c hc => ?_⟩
  have h := H.lowerHex t c hc
  simpa [isLowerHex] using h

theorem lowerHex_unicode {s : Text} (h : s.all isLowerHex = true) :
    s.any isSurrogate = false := by
  rw [List.any_eq_false]
  intro c hc
  have hhex := List.all_eq_true.mp h c hc
  simp [isLowerHex, isDigit] at hhex
  simp [isSurrogate]
  omega

theorem isDigest_iff {s : Text} : isDigest s = true ↔ s.length = 64 ∧ s.all isLowerHex = true := by
  rw [isDigest, Bool.and_eq_true, decide_eq_true_eq]

theorem requireOneOf_ok {value : Value} {choices : List Text} {refusal : Raised} {s : Text} :
    requireOneOf value choices refusal = .ok s ↔ value = .str s ∧ s ∈ choices := by
  cases value with
  | str t =>
    simp only [requireOneOf, bind_ok, require_ok, exists_const, pure, Except.pure,
      Except.ok.injEq, Value.str.injEq]
    constructor
    · rintro ⟨h, rfl⟩
      exact ⟨rfl, h⟩
    · rintro ⟨rfl, h⟩
      exact ⟨h, rfl⟩
  | _ => simp [requireOneOf]

theorem validateHash_ok {value : Value} {s : Text} :
    validateHash value = .ok s ↔ value = .str s ∧ isDigest s = true := by
  cases value with
  | str t =>
    simp only [validateHash, bind_ok, require_ok, exists_const, pure, Except.pure,
      Except.ok.injEq, Value.str.injEq]
    constructor
    · rintro ⟨h, rfl⟩
      exact ⟨rfl, h⟩
    · rintro ⟨rfl, h⟩
      exact ⟨h, rfl⟩
  | _ => simp [validateHash]

theorem Texts.of_ok {item : Fields} {names : List Text} {record : Flat}
    (h : textFields item names = .ok record) : Texts names record :=
  (textFields_ok.mp h).imp fun _ _ ⟨hname, s, hs, hblank, _⟩ => ⟨hname, s, hs, hblank⟩

theorem Texts.keys {names : List Text} {record : Flat} (h : Texts names record) :
    record.map Prod.fst = names := by
  induction h with
  | nil => rfl
  | cons hp _ ih => rw [List.map_cons, ih, hp.1]

theorem Texts.read {names : List Text} {record : Flat} {item : Fields} (h : Texts names record)
    (hd : Distinct item) (hmem : ∀ p ∈ record, (p.1, p.2.value) ∈ item) :
    textFields item names = .ok record := by
  rw [textFields_ok]
  induction h with
  | nil => exact .nil
  | cons hp _ ih =>
    obtain ⟨hname, s, hs, hblank⟩ := hp
    refine .cons ⟨hname, s, hs, hblank, ?_⟩ (ih fun q hq => hmem q (.tail _ hq))
    rw [member_iff hd, ← hname]
    have hin := hmem _ (.head _)
    rw [hs] at hin
    exact hin

def flatFields (record : Flat) : Fields := record.map fun p => (p.1, p.2.value)

theorem flatFields_keys (record : Flat) :
    (flatFields record).map Prod.fst = record.map Prod.fst := by
  rw [flatFields, List.map_map]
  rfl

theorem mem_flatFields {record : Flat} {p : Text × Scalar} (h : p ∈ record) :
    (p.1, p.2.value) ∈ flatFields record := List.mem_map_of_mem h

structure ValidEvidence (tail : Flat) : Prop where
  texts : Texts findingEvidenceFields tail
  state : textOf tail evidenceStateKey ∈ evidenceStates
  disposition : textOf tail executionDispositionKey = staticOnly

/-- What `_validate_finding` answers: texts, a flag and the evidence there may be. -/
structure ValidFinding (record front tail : Flat) (reachable : Bool) : Prop where
  parts : record = front ++ [(reachableKey, .flag reachable)] ++ tail
  texts : Texts findingTextFields front
  severity : textOf front severityKey ∈ [warnText, blockText]
  evidence : tail = [] ∨ ValidEvidence tail

/-- What is asked of a question: texts and a flag. -/
structure ValidQuestion (record front : Flat) (required : Bool) : Prop where
  parts : record = front ++ [(requiredKey, .flag required)]
  texts : Texts questionTextFields front

theorem exact_ok {record : Fields} {fields : List Text} :
    requireExactFields record fields = .ok () ↔
      (∀ p ∈ record, p.1 ∈ fields) ∧ ∀ name ∈ fields, ∃ p ∈ record, p.1 = name := by
  rw [requireExactFields, require_ok]

theorem exact_of_keys {record : Fields} {fields : List Text} (h : record.map Prod.fst = fields) :
    requireExactFields record fields = .ok () := by
  rw [exact_ok]
  refine ⟨fun p hp => h ▸ List.mem_map_of_mem hp, fun name hname => ?_⟩
  rw [← h] at hname
  exact List.mem_map.mp hname

theorem Texts.textOf_mem {names : List Text} {record : Flat} (h : Texts names record)
    {name : Text} (hname : name ∈ names) : (name, .text (textOf record name)) ∈ record := by
  obtain ⟨p, hp, hkey, s, hs, -⟩ := Table.exists_right h hname
  cases hfind : record.find? fun q => q.1 = name with
  | none =>
    rw [List.find?_eq_none] at hfind
    exact absurd (decide_eq_true hkey) (hfind p hp)
  | some q =>
    have hq := List.mem_of_find?_eq_some hfind
    have hqname := List.find?_some hfind
    rw [decide_eq_true_eq] at hqname
    obtain ⟨_, -, -, t, ht, -⟩ := Table.exists_left h hq
    have htext : textOf record name = t := by
      rw [textOf, hfind]
      obtain ⟨key, value⟩ := q
      cases ht
      rfl
    rw [htext, ← ht, ← hqname]
    exact hq

example : requiredKey ∉ questionTextFields := by decide +kernel

theorem names_distinct : ∀ names ∈ [regressionFields, questionTextFields ++ [requiredKey],
    findingFields, findingFields ++ findingEvidenceFields], names.Nodup := by
  decide +kernel

theorem evidence_apart : evidenceStateKey ∉ findingFields ∧
    evidenceStateKey ∈ findingEvidenceFields ∧ executionDispositionKey ∈ findingEvidenceFields := by
  decide +kernel

theorem regression_value {record : Flat} (h : Texts regressionFields record) :
    validateRegression (Flat.value record) = .ok record := by
  have hkeys : (flatFields record).map Prod.fst = regressionFields :=
    (flatFields_keys record).trans h.keys
  have hd : Distinct (flatFields record) := by
    rw [Distinct, hkeys]
    exact names_distinct _ (by simp)
  have hread := h.read hd fun p hp => mem_flatFields hp
  simp only [validateRegression, bind_ok]
  exact ⟨flatFields record, rfl, (), exact_of_keys hkeys, hread⟩

theorem regression_ok {v : Value} {record : Flat} (h : validateRegression v = .ok record) :
    Texts regressionFields record := by
  simp only [validateRegression, bind_ok] at h
  obtain ⟨item, -, -, -, h⟩ := h
  exact .of_ok h

theorem question_ok {v : Value} {record : Flat} (h : validateQuestion v = .ok record) :
    ∃ front required, ValidQuestion record front required := by
  simp only [validateQuestion, bind_ok, flagField_ok, pure, Except.pure, Except.ok.injEq] at h
  obtain ⟨item, -, -, -, front, hfront, _, ⟨b, rfl, -⟩, rfl⟩ := h
  exact ⟨front, b, rfl, .of_ok hfront⟩

theorem question_value {record front : Flat} {required : Bool}
    (h : ValidQuestion record front required) :
    validateQuestion (Flat.value record) = .ok record := by
  have hkeys : (flatFields record).map Prod.fst = questionTextFields ++ [requiredKey] := by
    rw [flatFields_keys, h.parts, List.map_append, h.texts.keys]
    rfl
  have hd : Distinct (flatFields record) := by
    rw [Distinct, hkeys]
    exact names_distinct _ (by simp)
  have hfront := h.texts.read hd fun p hp =>
    mem_flatFields (h.parts ▸ List.mem_append_left _ hp)
  have hflag : flagField (flatFields record) requiredKey = .ok (requiredKey, .flag required) := by
    rw [flagField_ok]
    refine ⟨required, rfl, (member_iff hd).mpr ?_⟩
    exact mem_flatFields (p := (requiredKey, .flag required)) (by simp [h.parts])
  simp only [validateQuestion, bind_ok, pure, Except.pure, Except.ok.injEq]
  exact ⟨flatFields record, rfl, (), exact_of_keys hkeys, front, hfront, _, hflag, h.parts.symm⟩

theorem textFields_read {item : Fields} {names : List Text} {record : Flat}
    (h : textFields item names = .ok record) {name : Text} (hname : name ∈ names) :
    member item name = .ok (.str (textOf record name)) := by
  have hmem := (Texts.of_ok h).textOf_mem hname
  obtain ⟨name', -, hkey, s, hs, -, hm⟩ := Table.exists_left (textFields_ok.mp h) hmem
  dsimp only at hkey hs
  rw [Scalar.text.injEq] at hs
  rw [hs]
  exact hkey ▸ hm

theorem evidence_ok {item : Fields} {tail : Flat} : validateEvidence item = .ok tail ↔
    textFields item findingEvidenceFields = .ok tail ∧ ValidEvidence tail := by
  obtain ⟨-, hstateKey, hdispositionKey⟩ := evidence_apart
  simp only [validateEvidence, bind_ok, require_ok, exists_const]
  constructor
  · rintro ⟨state, hstate, known, hknown, rfl, disposition, hdisposition, hstatic, h⟩
    rw [textFields_read h hstateKey, Except.ok.injEq] at hstate
    rw [textFields_read h hdispositionKey, Except.ok.injEq] at hdisposition
    subst hstate hdisposition
    simp only [inSet, Except.ok.injEq, List.contains_iff_mem] at hknown
    simp only [isText, decide_eq_true_eq] at hstatic
    exact ⟨h, .of_ok h, hknown, hstatic⟩
  · rintro ⟨h, hvalid⟩
    refine ⟨_, textFields_read h hstateKey, true, ?_, rfl,
      _, textFields_read h hdispositionKey, ?_, h⟩
    · simp only [inSet, Except.ok.injEq, List.contains_iff_mem]
      exact hvalid.state
    · simp only [isText, decide_eq_true_eq]
      exact hvalid.disposition

theorem finding_ok {v : Value} {record : Flat} (h : validateFinding v = .ok record) :
    ∃ front tail reachable, ValidFinding record front tail reachable := by
  simp only [validateFinding, bind_ok, require_ok, exists_const, flagField_ok, pure, Except.pure,
    Except.ok.injEq] at h
  obtain ⟨item, -, -, -, front, hfront, hseverity, _, ⟨b, rfl, -⟩, tail, htail, rfl⟩ := h
  refine ⟨front, tail, b, rfl, .of_ok hfront, hseverity, ?_⟩
  rw [evidenceOf] at htail
  split at htail
  · exact .inr (evidence_ok.mp htail).2
  · rw [Except.ok.injEq] at htail
    exact .inl htail.symm

theorem finding_value {record front tail : Flat} {reachable : Bool}
    (h : ValidFinding record front tail reachable) :
    validateFinding (Flat.value record) = .ok record := by
  obtain ⟨rfl, htexts, hseverity, hevidence⟩ := h
  have hkeys : (flatFields (front ++ [(reachableKey, .flag reachable)] ++ tail)).map Prod.fst =
      findingFields ++ tail.map Prod.fst := by
    rw [flatFields_keys, List.map_append, List.map_append, htexts.keys]
    rfl
  have htail : tail.map Prod.fst = [] ∨ tail.map Prod.fst = findingEvidenceFields :=
    hevidence.imp (fun h => by rw [h]; rfl) fun h => h.texts.keys
  generalize hrecord : front ++ [(reachableKey, .flag reachable)] ++ tail = record at hkeys ⊢
  have hin : ∀ p, p ∈ front ∨ p = (reachableKey, .flag reachable) ∨ p ∈ tail →
      (p.1, p.2.value) ∈ flatFields record := by
    intro p hp
    apply mem_flatFields
    rw [← hrecord, List.mem_append, List.mem_append, List.mem_singleton]
    tauto
  have hd : Distinct (flatFields record) := by
    rw [Distinct, hkeys]
    cases htail with
    | inl h =>
      rw [h, List.append_nil]
      exact names_distinct _ (by simp)
    | inr h =>
      rw [h]
      exact names_distinct _ (by simp)
  have hfront := htexts.read hd fun p hp => hin p (.inl hp)
  have hflag : flagField (flatFields record) reachableKey =
      .ok (reachableKey, .flag reachable) := by
    rw [flagField_ok]
    exact ⟨reachable, rfl, (member_iff hd).mpr (hin _ (.inr (.inl rfl)))⟩
  -- a record has the evidence key when it has evidence
  have hevident : (flatFields record).any (fun p => p.1 = evidenceStateKey) = true ↔
      evidenceStateKey ∈ findingFields ++ tail.map Prod.fst := by
    rw [← hkeys, List.any_eq_true, List.mem_map]
    simp only [decide_eq_true_eq]
  obtain ⟨hfrontApart, hstateKey, -⟩ := evidence_apart
  simp only [validateFinding, evidenceOf, bind_ok, require_ok, exists_const, pure, Except.pure,
    Except.ok.injEq]
  refine ⟨flatFields record, rfl, (), ?_, front, hfront, hseverity, _, hflag, tail, ?_, hrecord⟩
  · apply exact_of_keys
    rw [hkeys]
    cases htail with
    | inl h =>
      rw [if_neg, h, List.append_nil]
      rwa [hevident, h, List.append_nil]
    | inr h =>
      rw [if_pos, h]
      rw [hevident, h]
      exact List.mem_append_right _ hstateKey
  · cases hevidence with
    | inl h =>
      subst h
      rw [if_neg]
      rwa [hevident, List.map_nil, List.append_nil]
    | inr h =>
      have hkeysTail := h.texts.keys
      rw [if_pos]
      swap
      · rw [hevident, hkeysTail]
        exact List.mem_append_right _ hstateKey
      exact evidence_ok.mpr ⟨h.texts.read hd fun p hp => hin p (.inr (.inr hp)), h⟩

theorem eachItem_ok {α : Type} {f : Value → Except Raised α} {items : List Value} {out : List α}
    {i : ℕ} : eachItem f i items = .ok out ↔ List.Forall₂ (fun v r => f v = .ok r) items out := by
  induction items generalizing i out with
  | nil => simp [eachItem, eq_comm]
  | cons v rest ih =>
    simp only [eachItem, bind_ok, within_ok, pure, Except.pure, Except.ok.injEq, ih,
      List.forall₂_cons_left_iff]
    constructor
    · rintro ⟨r, hr, out, hout, rfl⟩
      exact ⟨r, out, hr, hout, rfl⟩
    · rintro ⟨r, out, hr, hout, rfl⟩
      exact ⟨r, hr, out, hout, rfl⟩

theorem requireArray_ok {v : Value} {items : List Value} :
    requireArray v = .ok items ↔ v = .arr items := by
  cases v <;> simp [requireArray]

theorem requireObject_ok {v : Value} {fields : Fields} :
    requireObject v = .ok fields ↔ v = .obj fields := by
  cases v <;> simp [requireObject]

theorem records_ok {f : Value → Except Raised Flat} {v : Value} {out : List Flat} :
    validateRecords f v = .ok out ↔
      ∃ items, v = .arr items ∧ List.Forall₂ (fun v r => f v = .ok r) items out := by
  simp only [validateRecords, bind_ok, requireArray_ok, eachItem_ok]

theorem records_value {f : Value → Except Raised Flat} {out : List Flat}
    (h : ∀ r ∈ out, f (Flat.value r) = .ok r) :
    validateRecords f (.arr (out.map Flat.value)) = .ok out := by
  rw [records_ok]
  refine ⟨_, rfl, ?_⟩
  rw [List.forall₂_map_left_iff, List.forall₂_same]
  exact h

/-- A validator that accepts its own answers accepts the records it has let through. -/
theorem records_again {f : Value → Except Raised Flat}
    (hf : ∀ v r, f v = .ok r → f (Flat.value r) = .ok r) {v : Value} {out : List Flat}
    (h : validateRecords f v = .ok out) : ∀ r ∈ out, f (Flat.value r) = .ok r := by
  intro r hr
  obtain ⟨items, -, hitems⟩ := records_ok.mp h
  obtain ⟨item, -, hitem⟩ := Table.exists_left hitems hr
  exact hf item r hitem

theorem finding_again (v : Value) (r : Flat) (h : validateFinding v = .ok r) :
    validateFinding (Flat.value r) = .ok r := by
  obtain ⟨_, _, _, h⟩ := finding_ok h
  exact finding_value h

theorem regression_again (v : Value) (r : Flat) (h : validateRegression v = .ok r) :
    validateRegression (Flat.value r) = .ok r := regression_value (regression_ok h)

theorem question_again (v : Value) (r : Flat) (h : validateQuestion v = .ok r) :
    validateQuestion (Flat.value r) = .ok r := by
  obtain ⟨_, _, h⟩ := question_ok h
  exact question_value h

end Heel.Review
