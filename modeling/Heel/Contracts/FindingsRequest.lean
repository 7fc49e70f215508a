import Mathlib.Algebra.Group.Action.Defs
import Mathlib.Algebra.Order.BigOperators.Group.List
import Heel.Contracts.FindingsProjection
import Heel.Lib.Literal

/-! The validator of requests accepts what the producer makes: its complexity, its findings and its
size. -/
namespace Heel.Findings
open Lib Lib.JsonText Lib.Checks
open Literal (points_codes)
open Review (Fields Raised within refuse field Sha256 normalizeJson normalizeJson_ok portable
  portableFields portableFields_iff portableItems_iff member member_mem member_at exact_of_keys
  Distinct flatFields flatFields_keys isText isDigest requireOneOf blockText warnText
  passText)

variable {H : Sha256} {M : Hmac} {float : Binary64 → Text} {key : List UInt8}

/-! ### Complexity -/

mutual
def nodes : Value → ℕ
  | .arr items => 1 + nodesItems items
  | .obj fields => 1 + nodesFields fields
  | .null => 1
  | .bool _ => 1
  | .int _ => 1
  | .float _ => 1
  | .str _ => 1

def nodesItems : List Value → ℕ
  | [] => 0
  | item :: rest => nodes item + nodesItems rest

def nodesFields : Fields → ℕ
  | [] => 0
  | (_, item) :: rest => nodes item + nodesFields rest
end

mutual
/-- A value at a depth, all parts of which are within the limits of the loop. -/
def Fits (maximumItems : ℕ) : ℕ → Value → Prop
  | depth, .arr items => depth ≤ maxJsonDepth ∧ items.length ≤ maximumItems ∧
      FitsItems maximumItems (depth + 1) items
  | depth, .obj fields => depth ≤ maxJsonDepth ∧ fields.length ≤ maximumItems ∧
      (∀ p ∈ fields, p.1.length ≤ maxTextLength) ∧ FitsFields maximumItems (depth + 1) fields
  | depth, .str s => depth ≤ maxJsonDepth ∧ s.length ≤ maxTextLength
  | depth, .int n => depth ≤ maxJsonDepth ∧ -(2 ^ 53 - 1) ≤ n ∧ n ≤ 2 ^ 53 - 1
  | depth, .null => depth ≤ maxJsonDepth
  | depth, .bool _ => depth ≤ maxJsonDepth
  | _, .float _ => False

def FitsItems (maximumItems : ℕ) : ℕ → List Value → Prop
  | _, [] => True
  | depth, item :: rest => Fits maximumItems depth item ∧ FitsItems maximumItems depth rest

def FitsFields (maximumItems : ℕ) : ℕ → Fields → Prop
  | _, [] => True
  | depth, (_, item) :: rest => Fits maximumItems depth item ∧ FitsFields maximumItems depth rest
end

theorem nodesItems_sum (items : List Value) : nodesItems items = (items.map nodes).sum := by
  induction items with
  | nil => rfl
  | cons item rest ih => rw [nodesItems, ih, List.map_cons, List.sum_cons]

theorem nodesFields_sum (fields : Fields) :
    nodesFields fields = (fields.map fun p => nodes p.2).sum := by
  induction fields with
  | nil => rfl
  | cons p rest ih => rw [nodesFields, ih, List.map_cons, List.sum_cons]

theorem fitsItems_iff {m depth : ℕ} {items : List Value} :
    FitsItems m depth items ↔ ∀ v ∈ items, Fits m depth v := by
  induction items with
  | nil => simp [FitsItems]
  | cons item rest ih => rw [FitsItems, ih, List.forall_mem_cons]

theorem fitsFields_iff {m depth : ℕ} {fields : Fields} :
    FitsFields m depth fields ↔ ∀ p ∈ fields, Fits m depth p.2 := by
  induction fields with
  | nil => simp [FitsFields]
  | cons p rest ih => rw [FitsFields, ih, List.forall_mem_cons]

theorem Fits.depth {m depth : ℕ} {v : Value} (h : Fits m depth v) : depth ≤ maxJsonDepth := by
  cases v with
  | null | bool => exact h
  | float => exact h.elim
  | int | str | arr | obj => exact h.1

/-- A value that fits passes the checks of the loop, and its children are its other nodes. -/
theorem preflightNode_ok {m depth : ℕ} {v : Value} (h : Fits m depth v) :
    ∃ children, preflightNode m depth v = .ok children ∧
      (∀ p ∈ children, Fits m p.2 p.1) ∧ (children.map fun p => nodes p.1).sum + 1 = nodes v := by
  cases v with
  | null => exact ⟨[], rfl, by simp, rfl⟩
  | bool b => exact ⟨[], rfl, by simp, rfl⟩
  | float x => exact h.elim
  | int n =>
    refine ⟨[], ?_, by simp, rfl⟩
    simp only [preflightNode, bind_ok, require_ok, exists_const, pure, Except.pure, and_true]
    exact h.2
  | str s =>
    refine ⟨[], ?_, by simp, rfl⟩
    simp only [preflightNode, bind_ok, require_ok, exists_const, pure, Except.pure, and_true]
    exact h.2
  | arr items =>
    refine ⟨items.map fun v => (v, depth + 1), ?_, ?_, ?_⟩
    · simp only [preflightNode, bind_ok, require_ok, exists_const, pure, Except.pure, and_true]
      exact h.2.1
    · rw [List.forall_mem_map]
      exact fitsItems_iff.mp h.2.2
    · rw [List.map_map, nodes, nodesItems_sum, Nat.add_comm]
      rfl
  | obj fields =>
    refine ⟨fields.map fun p => (p.2, depth + 1), ?_, ?_, ?_⟩
    · simp only [preflightNode, bind_ok, require_ok, exists_const, pure, Except.pure, and_true]
      exact ⟨h.2.1, h.2.2.1⟩
    · rw [List.forall_mem_map]
      exact fitsFields_iff.mp h.2.2.2
    · rw [List.map_map, nodes, nodesFields_sum, Nat.add_comm]
      rfl

/-- The loop ends on a stack of values that fit, with as many steps as they have nodes. -/
theorem preflightLoop_ok {m n : ℕ} {stack : List (Value × ℕ)} (hfits : ∀ p ∈ stack, Fits m p.2 p.1)
    (hnodes : (stack.map fun p => nodes p.1).sum ≤ n) : preflightLoop m n stack = .ok () := by
  induction n generalizing stack with
  | zero =>
    cases stack with
    | nil => rfl
    | cons p rest =>
      obtain ⟨children, -, -, hcount⟩ := preflightNode_ok (hfits p List.mem_cons_self)
      rw [List.map_cons, List.sum_cons] at hnodes
      omega
  | succ n ih =>
    cases stack with
    | nil => rfl
    | cons p rest =>
      obtain ⟨v, depth⟩ := p
      rw [List.forall_mem_cons] at hfits
      obtain ⟨children, hchildren, hfit, hcount⟩ := preflightNode_ok hfits.1
      rw [List.map_cons, List.sum_cons] at hnodes
      simp only [preflightLoop, bind_ok, require_ok, exists_const]
      refine ⟨hfits.1.depth, children, hchildren, ih ?_ ?_⟩
      · intro q hq
        rw [List.mem_append, List.mem_reverse] at hq
        exact hq.elim (hfit q) (hfits.2 q)
      · rw [List.map_append, List.sum_append, List.map_reverse, List.sum_reverse]
        dsimp only at hnodes hcount ⊢
        omega

theorem preflight_ok {v : Value} (hfits : Fits maxFindings 0 v) (hnodes : nodes v ≤ maxNodes) :
    preflightJsonGraph v = .ok () := by
  apply preflightLoop_ok
  · simpa using hfits
  · simpa using hnodes

/-! ### Texts without escapes -/

/-- A text without escapes, of bounded length. -/
def Short (n : ℕ) (t : Text) : Prop := isPlain t = true ∧ t.length ≤ n

instance (n : ℕ) (t : Text) : Decidable (Short n t) := inferInstanceAs (Decidable (_ ∧ _))

theorem Short.portable {n : ℕ} {t : Text} (h : Short n t) : Review.portable (.str t) = true := by
  rw [Review.portable, Bool.not_eq_true', List.any_eq_false]
  intro c hc
  have hplain := List.all_eq_true.mp h.1 c hc
  simp only [Bool.and_eq_true, decide_eq_true_eq] at hplain
  simp only [isSurrogate, Bool.and_eq_true, decide_eq_true_eq]
  omega

theorem Short.size (float : Binary64 → Text) {n : ℕ} {t : Text} (h : Short n t) :
    byteLength (dumps float (.str t)) ≤ n + 2 := by
  rw [dumps, byteLength_quoted h.1]
  exact Nat.add_le_add_right h.2 2

theorem Short.fits {n depth : ℕ} {t : Text} (h : Short n t) (hn : n ≤ maxTextLength)
    (hdepth : depth ≤ maxJsonDepth) : Fits maxFindings depth (.str t) := ⟨hdepth, h.2.trans hn⟩

theorem lowerHex_plain {t : Text} (h : t.all isLowerHex = true) : isPlain t = true := by
  rw [isPlain, List.all_eq_true] at *
  intro c hc
  have hhex := h c hc
  simp only [isLowerHex, isDigit, Bool.or_eq_true, Bool.and_eq_true, decide_eq_true_eq] at hhex
  have hquote : quoteMark = 0x22 := rfl
  have hslash : backslash = 0x5c := rfl
  simp only [Bool.and_eq_true, decide_eq_true_eq]
  omega

theorem marked_short {mark digits : Text} (hmark : isPlain mark = true)
    (h : digits.all isLowerHex = true) : Short (mark.length + digits.length) (mark ++ digits) := by
  refine ⟨isPlain_append.mpr ⟨hmark, lowerHex_plain h⟩, ?_⟩
  rw [List.length_append]

theorem isMarked_iff {mark t : Text} {n : ℕ} : isMarked mark n t = true ↔
    ∃ digits, t = mark ++ digits ∧ digits.length = n ∧ digits.all isLowerHex = true := by
  simp only [isMarked, Bool.and_eq_true, decide_eq_true_eq]
  constructor
  · rintro ⟨⟨htake, hlength⟩, hhex⟩
    refine ⟨t.drop mark.length, ?_, hlength, hhex⟩
    calc
      t = t.take mark.length ++ t.drop mark.length := (List.take_append_drop _ _).symm
      _ = mark ++ t.drop mark.length := by rw [htake]
  · rintro ⟨digits, rfl, hlength, hhex⟩
    rw [List.take_left', List.drop_left'] <;> simp [hlength, hhex]

example : isMarked surfaceMark 2 (surfaceMark ++ [zero, zero]) = true := by decide +kernel

theorem contract_short : (Short 21 schemaVersion ∧ Short 5 blockText ∧ Short 5 warnText ∧
    Short 5 passText) ∧ (∀ t ∈ supportedEngineVersions, Short 9 t) ∧
    (∀ t ∈ supportedExecutionModes, Short 15 t) ∧
    ∀ name ∈ requestKeys ++ sourceKeys ++ summaryKeys ++ findingKeys, Short 17 name := by
  simp only [schemaVersion, blockText, warnText, passText, supportedEngineVersions,
    supportedExecutionModes, requestKeys, sourceKeys, summaryKeys, findingKeys, points_codes]
  decide +kernel

theorem contract_marks : (∀ mark ∈ [projectMark, sourceMark, surfaceMark, findingMark],
    isPlain mark = true) ∧ (∀ mark ∈ [surfaceMark, findingMark], mark.length = 6) ∧
    projectMark.length = 4 ∧ sourceMark.length = 5 := by
  decide +kernel

theorem contract_keys : requestKeys.Nodup ∧ sourceKeys.Nodup ∧ summaryKeys.Nodup ∧
    findingKeys.Nodup := by
  decide +kernel

/-- The texts of a finding are short, and its identity is that of its surface and its risk. -/
structure Proper (M : Hmac) (float : Binary64 → Text) (key : List UInt8) (d : Disclosure) :
    Prop where
  findingId : Short 70 d.findingId
  surfaceRef : Short 70 d.surfaceRef
  surfaceType : Short 24 d.surfaceType
  riskCode : Short 48 d.riskCode
  controlCode : Short 48 d.controlCode
  severity : Short 5 d.severity
  marked : isMarked surfaceMark 64 d.surfaceRef = true
  identity : d.findingId = findingMark ++ M.digest key
    (findingMaterial float d.surfaceRef d.riskCode)
  entry : ∃ row ∈ riskCatalog, d.riskCode = row.risk ∧ d.surfaceType ∈ row.surfaces ∧
    (d.severity, d.reachable) ∈ row.states ∧ d.controlCode = row.controlCode

theorem catalog_short : ∀ row ∈ riskCatalog, Short 48 row.risk ∧ Short 48 row.controlCode ∧
    (∀ s ∈ row.surfaces, Short 24 s) ∧ ∀ state ∈ row.states, Short 5 state.1 := by
  simp only [riskCatalog, catalogRow, warnText, blockText, points_codes]
  decide +kernel

theorem disclosure_proper {e : Exposure} (h : Catalogued e) :
    Proper M float key (disclosureOf M float key e) := by
  obtain ⟨row, hrow, hrisk, hsurface, hstate, -⟩ := h
  obtain ⟨hriskShort, hcodeShort, hsurfaces, hstates⟩ := catalog_short row hrow
  have hcode : controlCodeOf e.risk = row.controlCode := hrisk ▸ controlCode_row hrow
  have hmark : ∀ mark ∈ [surfaceMark, findingMark], ∀ t, Short 70 (mark ++ M.digest key t) := by
    intro mark hin t
    have hshort := marked_short (contract_marks.1 mark (by simp_all)) (M.lowerHex key t)
    rwa [contract_marks.2.1 mark hin, M.length] at hshort
  exact {
    findingId := hmark _ (by simp) _
    surfaceRef := hmark _ (by simp) _
    surfaceType := hsurfaces _ hsurface
    riskCode := by
      rw [disclosureOf, ← hrisk]
      exact hriskShort
    controlCode := by
      rw [disclosureOf, hcode]
      exact hcodeShort
    severity := hstates _ hstate
    marked := isMarked_iff.mpr ⟨_, rfl, M.length _ _, M.lowerHex _ _⟩
    identity := rfl
    entry := ⟨row, hrow, hrisk.symm, hsurface, hstate, hcode⟩ }

/-! ### One finding -/

theorem record_keys (d : Disclosure) : (flatFields d.record).map Prod.fst = findingKeys := rfl

theorem record_distinct (d : Disclosure) : Distinct (flatFields d.record) := by
  rw [Distinct, record_keys]
  exact contract_keys.2.2.2

theorem pattern_ok {pattern : Text → Bool} {t : Text} (h : pattern t = true) :
    requirePattern pattern (.str t) = .ok t := by
  simp only [requirePattern, bind_ok, require_ok, exists_const, pure, Except.pure, and_true]
  exact h

theorem syncFinding_ok {d : Disclosure} (h : Proper M float key d) :
    validateSyncFinding M float key (Flat.value d.record) = .ok d := by
  have hd := record_distinct d
  obtain ⟨row, hrow, hrisk, hsurface, hstate, hcode⟩ := h.entry
  have hid : isMarked findingMark 64 d.findingId = true :=
    isMarked_iff.mpr ⟨_, h.identity, M.length _ _, M.lowerHex _ _⟩
  have hentry : catalogEntry (.str d.riskCode) (.str d.surfaceType) (.str d.severity) d.reachable
      .null (.str d.controlCode) = .ok ⟨d.riskCode, d.surfaceType, d.severity, d.controlCode⟩ := by
    rw [catalogEntry_ok]
    refine ⟨row, hrow, by rw [hrisk], ⟨_, hsurface, rfl, _, hstate, rfl, by rw [hrisk, hcode]⟩, rfl,
      ?_⟩
    rw [hcode]
    simp [isTextOrNone, isText]
  simp only [validateSyncFinding, bind_ok, Review.within_ok, require_ok, exists_const, pure,
    Except.pure, Except.ok.injEq]
  exact ⟨flatFields d.record, rfl, (), exact_of_keys (record_keys d), _, member_at hd 0 rfl, _,
    pattern_ok hid, _, member_at hd 1 rfl, _, pattern_ok h.marked, _, member_at hd 6 rfl, _, rfl, _,
    member_at hd 3 rfl, _, member_at hd 2 rfl, _, member_at hd 5 rfl, _, member_at hd 4 rfl, _,
    hentry, _, (findingHmac h.surfaceRef.portable h.riskCode.portable).mpr rfl, h.identity, rfl⟩

theorem syncFindings_ok {ds seen : List Disclosure} {i : ℕ} (hds : ∀ d ∈ ds, Proper M float key d)
    (hseen : ∀ d ∈ seen, Proper M float key d)
    (hnodup : (ds.map Disclosure.findingId).Nodup)
    (hfresh : ∀ d ∈ ds, d.findingId ∉ seen.map Disclosure.findingId) :
    validateSyncFindings M float key i seen (ds.map fun d => Flat.value d.record) = .ok ds := by
  induction ds generalizing seen i with
  | nil => rfl
  | cons d rest ih =>
    rw [List.forall_mem_cons] at hds hfresh
    rw [List.map_cons, List.nodup_cons] at hnodup
    have hrest : validateSyncFindings M float key (i + 1) (d :: seen)
        (rest.map fun d => Flat.value d.record) = .ok rest := by
      refine ih hds.2 ?_ hnodup.2 fun o ho hin => ?_
      · rw [List.forall_mem_cons]
        exact ⟨hds.1, hseen⟩
      · rw [List.map_cons, List.mem_cons] at hin
        cases hin with
        | inl hsame => exact hnodup.1 (hsame ▸ List.mem_map_of_mem ho)
        | inr hin => exact hfresh.2 o ho hin
    simp only [List.map_cons, validateSyncFindings, bind_ok, Review.within_ok, require_ok,
      exists_const, pure, Except.pure, Except.ok.injEq]
    refine ⟨d, syncFinding_ok hds.1, ?_, rest, hrest, rfl⟩
    rintro (hin | hin)
    · exact hfresh.1 hin
    · -- the surface and the risk of a finding give its identity
      obtain ⟨o, ho, hsame⟩ := List.mem_map.mp hin
      rw [Prod.mk.injEq] at hsame
      apply hfresh.1
      rw [List.mem_map]
      exact ⟨o, ho, by rw [(hseen o ho).identity, hds.1.identity, hsame.1, hsame.2]⟩

/-! ### Within the limits -/

theorem key_short {name : Text}
    (h : name ∈ requestKeys ++ sourceKeys ++ summaryKeys ++ findingKeys) : Short 17 name :=
  contract_short.2.2.2 name h

theorem fields_size (float : Binary64 → Text) {fields : Fields}
    (hkeys : ∀ p ∈ fields, Short 17 p.1) :
    byteLength (dumps float (.obj fields)) ≤
      2 + (fields.map fun p => byteLength (dumps float p.2) + 21).sum := by
  have hbound := byteLength_obj float fields
  have hsum : (fields.map fun p => byteLength (quoted p.1) + byteLength (dumps float p.2) + 2).sum ≤
      (fields.map fun p => byteLength (dumps float p.2) + 21).sum := by
    apply List.sum_le_sum
    intro p hp
    have hkey := hkeys p hp
    rw [byteLength_quoted hkey.1]
    have hlength := hkey.2
    omega
  omega

theorem record_short (d : Disclosure) : ∀ p ∈ flatFields d.record, Short 17 p.1 := by
  intro p hp
  apply key_short
  rw [List.mem_append, ← record_keys d]
  exact .inr (List.mem_map_of_mem hp)

theorem record_size {d : Disclosure} (h : Proper M float key d) :
    byteLength (dumps float (Flat.value d.record)) ≤ 431 := by
  have hbound := fields_size float (record_short d)
  have hid := h.findingId.size float
  have hsurface := h.surfaceRef.size float
  have htype := h.surfaceType.size float
  have hrisk := h.riskCode.size float
  have hcode := h.controlCode.size float
  have hseverity := h.severity.size float
  have hreachable := byteLength_bool float d.reachable
  simp only [flatFields, Disclosure.record, List.map_cons, List.map_nil, List.sum_cons,
    List.sum_nil, Scalar.value] at hbound
  exact hbound.trans (by omega)

theorem record_fits {d : Disclosure} (h : Proper M float key d) :
    Fits maxFindings 2 (Flat.value d.record) := by
  refine ⟨by decide, (show 7 ≤ maxFindings by decide), fun p hp => ?_, ?_⟩
  · exact (record_short d p hp).2.trans (by decide)
  · exact ⟨h.findingId.fits (by decide) (by decide), h.surfaceRef.fits (by decide) (by decide),
      h.surfaceType.fits (by decide) (by decide), h.riskCode.fits (by decide) (by decide),
      h.controlCode.fits (by decide) (by decide), h.severity.fits (by decide) (by decide),
      (show 3 ≤ maxJsonDepth by decide), trivial⟩

theorem fields_portable {fields : Fields} (hkeys : ∀ p ∈ fields, Short 17 p.1)
    (h : ∀ p ∈ fields, portable p.2 = true) : portable (.obj fields) = true := by
  rw [portable, portableFields_iff]
  refine fun p hp => ⟨?_, h p hp⟩
  have hkey := (hkeys p hp).portable
  rwa [portable, Bool.not_eq_true'] at hkey

theorem record_portable {d : Disclosure} (h : Proper M float key d) :
    portable (Flat.value d.record) = true := by
  apply fields_portable (record_short d)
  simp only [flatFields, Disclosure.record, List.map_cons, List.map_nil, List.forall_mem_cons,
    Scalar.value]
  exact ⟨h.findingId.portable, h.surfaceRef.portable, h.surfaceType.portable, h.riskCode.portable,
    h.controlCode.portable, h.severity.portable, rfl, by simp⟩

/-- The texts of a request are short, and its findings are proper and few. -/
structure ProperRequest (M : Hmac) (float : Binary64 → Text) (key : List UInt8)
    (projectRef engineVersion executionMode resultRef : Text) (findings : List Disclosure) :
    Prop where
  projectRef : isMarked projectMark 32 projectRef = true
  engineVersion : engineVersion ∈ supportedEngineVersions
  executionMode : executionMode ∈ supportedExecutionModes
  resultRef : isMarked sourceMark 64 resultRef = true
  few : findings.length ≤ maxFindings
  each : ∀ d ∈ findings, Proper M float key d
  sorted : findings = sortBy Disclosure.findingId findings
  distinct : (findings.map Disclosure.findingId).Nodup

theorem gate_short (findings : List Disclosure) : Short 5 (expectedGate findings) := by
  obtain ⟨-, hblock, hwarn, hpass⟩ := contract_short.1
  unfold expectedGate
  split_ifs
  · exact hblock
  · exact hwarn
  · exact hpass

theorem marked_bound {mark t : Text} {n : ℕ} (hmark : isPlain mark = true)
    (h : isMarked mark n t = true) : Short (mark.length + n) t := by
  obtain ⟨digits, rfl, rfl, hhex⟩ := isMarked_iff.mp h
  exact marked_short hmark hhex

theorem digest_short {t : Text} (h : isDigest t = true) : Short 64 t := by
  obtain ⟨hlength, hhex⟩ := Review.isDigest_iff.mp h
  exact ⟨lowerHex_plain hhex, hlength.le⟩

theorem count_size : ∀ n ≤ maxFindings, byteLength (intText n) ≤ 3 := by
  decide +kernel

theorem blockers_le (findings : List Disclosure) : blockersOf findings ≤ findings.length :=
  List.length_filter_le _ _

section Request
variable {projectRef engineVersion executionMode resultRef projectionHash : Text}
  {findings : List Disclosure}

theorem findings_size (h : findings.length ≤ maxFindings)
    (heach : ∀ d ∈ findings, Proper M float key d) :
    byteLength (dumps float (findingsValue findings)) ≤ 2 + maxFindings * 432 := by
  have hbound := byteLength_arr float (findings.map fun d => Flat.value d.record)
  have hsum := List.sum_le_card_nsmul
    ((findings.map fun d => Flat.value d.record).map fun v =>
    byteLength (dumps float v) + 1) 432 (by
      rw [List.map_map, List.forall_mem_map]
      exact fun d hd => Nat.succ_le_succ (record_size (heach d hd)))
  rw [List.length_map, List.length_map, smul_eq_mul] at hsum
  have hmul : findings.length * 432 ≤ maxFindings * 432 := Nat.mul_le_mul_right _ h
  exact hbound.trans (Nat.add_le_add_left (hsum.trans hmul) 2)

theorem summary_short (findings : List Disclosure) : ∀ p ∈ [(points "findings",
    Value.int findings.length), (points "blockers", Value.int (blockersOf findings))],
    Short 17 p.1 := by
  intro p hp
  apply key_short
  rw [List.mem_append, List.mem_append]
  exact .inl (.inr (List.mem_map_of_mem (f := Prod.fst) hp))

theorem summary_size (float : Binary64 → Text) (h : findings.length ≤ maxFindings) :
    byteLength (dumps float (summaryValue findings)) ≤ 50 := by
  have hbound := fields_size float (summary_short findings)
  have hfindings := count_size _ h
  have hblockers := count_size _ ((blockers_le findings).trans h)
  simp only [List.map_cons, List.map_nil, List.sum_cons, List.sum_nil, dumps] at hbound
  exact hbound.trans (by omega)

theorem request_keys (v w : Value) : (requestFields projectRef v w resultRef findings
    projectionHash).map Prod.fst = requestKeys := rfl

theorem request_short (projectRef resultRef projectionHash : Text) (v w : Value)
    (findings : List Disclosure) :
    ∀ p ∈ requestFields projectRef v w resultRef findings projectionHash, Short 17 p.1 := by
  intro p hp
  apply key_short
  rw [List.mem_append, List.mem_append, List.mem_append]
  exact .inl (.inl (.inl (List.mem_map_of_mem (f := Prod.fst) hp)))

theorem source_short (v w u : Value) : ∀ p ∈ [(points "engine_version", v),
    (points "execution_mode", w), (points "result_ref", u)], Short 17 p.1 := by
  intro p hp
  apply key_short
  rw [List.mem_append, List.mem_append, List.mem_append]
  exact .inl (.inl (.inr (List.mem_map_of_mem (f := Prod.fst) hp)))

theorem ProperRequest.project_short
    (h : ProperRequest M float key projectRef engineVersion executionMode resultRef findings) :
    Short 36 projectRef := by
  have hshort := marked_bound (contract_marks.1 projectMark (by simp)) h.projectRef
  rwa [contract_marks.2.2.1] at hshort

theorem ProperRequest.result_short
    (h : ProperRequest M float key projectRef engineVersion executionMode resultRef findings) :
    Short 69 resultRef := by
  have hshort := marked_bound (contract_marks.1 sourceMark (by simp)) h.resultRef
  rwa [contract_marks.2.2.2] at hshort

theorem request_size
    (h : ProperRequest M float key projectRef engineVersion executionMode resultRef findings)
    (hhash : isDigest projectionHash = true) :
    byteLength (dumps float (.obj (requestFields projectRef (.str engineVersion)
      (.str executionMode) resultRef findings projectionHash))) ≤ maxFindingsSyncBytes := by
  have hbound := fields_size float (request_short projectRef resultRef projectionHash
    (.str engineVersion) (.str executionMode) findings)
  have hsource := fields_size float
    (source_short (.str engineVersion) (.str executionMode) (.str resultRef))
  have hengine := (contract_short.2.1 _ h.engineVersion).size float
  have hmode := (contract_short.2.2.1 _ h.executionMode).size float
  have hresult := h.result_short.size float
  have hproject := h.project_short.size float
  have hgate := (gate_short findings).size float
  have hschema := contract_short.1.1.size float
  have hdigest := (digest_short hhash).size float
  have hfindings := findings_size h.few h.each
  have hsummary := summary_size float h.few
  simp only [List.map_cons, List.map_nil, List.sum_cons, List.sum_nil] at hsource
  simp only [requestFields, List.map_cons, List.map_nil, List.sum_cons, List.sum_nil] at hbound
  have hlimits : maxFindings * 432 = 221184 ∧ maxFindingsSyncBytes = 262144 := by decide
  rw [hlimits.1] at hfindings
  rw [hlimits.2]
  exact hbound.trans (by omega)

theorem request_nodes (h : findings.length ≤ maxFindings) :
    nodes (.obj (requestFields projectRef (.str engineVersion)
      (.str executionMode) resultRef findings
      projectionHash)) ≤ maxNodes := by
  have hsum : ∀ ds : List Disclosure,
      (ds.map fun d => nodes (Flat.value d.record)).sum = ds.length * 8 := by
    intro ds
    induction ds with
    | nil => rfl
    | cons d rest ih =>
      rw [List.map_cons, List.sum_cons, ih, List.length_cons, Nat.succ_mul, Nat.add_comm]
      rfl
  have hfindings : nodes (findingsValue findings) = 1 + findings.length * 8 := by
    rw [findingsValue, nodes, nodesItems_sum, List.map_map, ← hsum]
    rfl
  have hlimits : maxFindings = 512 ∧ maxNodes = 10000 := ⟨rfl, rfl⟩
  simp only [requestFields, nodes, nodesFields, summaryValue, hfindings]
  omega

theorem findings_fits (h : findings.length ≤ maxFindings)
    (heach : ∀ d ∈ findings, Proper M float key d) :
    Fits maxFindings 1 (findingsValue findings) := by
  refine ⟨by decide, by rwa [List.length_map], fitsItems_iff.mpr ?_⟩
  rw [List.forall_mem_map]
  exact fun d hd => record_fits (heach d hd)

theorem summary_fits (h : findings.length ≤ maxFindings) :
    Fits maxFindings 1 (summaryValue findings) := by
  have hblockers := blockers_le findings
  have hlimit : maxFindings = 512 := rfl
  refine ⟨by decide, (show 2 ≤ maxFindings by decide), fun p hp => ?_, ?_⟩
  · exact (summary_short findings p hp).2.trans (by decide)
  · exact ⟨⟨by decide, by omega, by omega⟩, ⟨by decide, by omega, by omega⟩, trivial⟩

theorem request_fits
    (h : ProperRequest M float key projectRef engineVersion executionMode resultRef findings)
    (hhash : isDigest projectionHash = true) :
    Fits maxFindings 0 (.obj (requestFields projectRef (.str engineVersion) (.str executionMode)
      resultRef findings projectionHash)) := by
  have hsource : Fits maxFindings 1 (.obj [(points "engine_version", .str engineVersion),
      (points "execution_mode", .str executionMode), (points "result_ref", .str resultRef)]) := by
    refine ⟨by decide, (show 3 ≤ maxFindings by decide), fun p hp => ?_, ?_⟩
    · exact (source_short _ _ _ p hp).2.trans (by decide)
    · exact ⟨(contract_short.2.1 _ h.engineVersion).fits (by decide) (by decide),
        (contract_short.2.2.1 _ h.executionMode).fits (by decide) (by decide),
        h.result_short.fits (by decide) (by decide), trivial⟩
  refine ⟨by decide, (show 7 ≤ maxFindings by decide), fun p hp => ?_, ?_⟩
  · exact (request_short _ _ _ _ _ _ p hp).2.trans (by decide)
  · exact ⟨contract_short.1.1.fits (by decide) (by decide),
      h.project_short.fits (by decide) (by decide),
      hsource, (gate_short findings).fits (by decide) (by decide), summary_fits h.few,
      findings_fits h.few h.each, (digest_short hhash).fits (by decide) (by decide), trivial⟩

theorem findings_portable (heach : ∀ d ∈ findings, Proper M float key d) :
    portable (findingsValue findings) = true := by
  rw [findingsValue, portable, portableItems_iff, List.forall_mem_map]
  exact fun d hd => record_portable (heach d hd)

theorem summary_portable (h : findings.length ≤ maxFindings) :
    portable (summaryValue findings) = true := by
  have hblockers := blockers_le findings
  have hlimit : maxFindings = 512 := rfl
  have hsafe : Review.jsSafeInteger = 9007199254740991 := by decide
  apply fields_portable (summary_short findings)
  simp only [List.forall_mem_cons, portable, decide_eq_true_eq, hsafe]
  exact ⟨by omega, by omega, by simp⟩

theorem material_portable (h : findings.length ≤ maxFindings)
    (heach : ∀ d ∈ findings, Proper M float key d) :
    portable (projectionMaterial findings) = true := by
  have hkeys : ∀ p ∈ [(points "schema_version", Value.str schemaVersion),
      (points "gate_status", .str (expectedGate findings)),
      (points "summary", summaryValue findings),
      (points "findings", findingsValue findings)], Short 17 p.1 := by
    intro p hp
    apply key_short
    have hin : p.1 ∈ requestKeys := by
      have hsub : (["schema_version", "gate_status", "summary", "findings"].map points) ⊆
          requestKeys := List.map_subset _ (by simp)
      exact hsub (List.mem_map_of_mem (f := Prod.fst) hp)
    rw [List.mem_append, List.mem_append, List.mem_append]
    exact .inl (.inl (.inl hin))
  apply fields_portable hkeys
  simp only [List.forall_mem_cons]
  exact ⟨contract_short.1.1.portable, (gate_short findings).portable, summary_portable h,
    findings_portable heach, by simp⟩

theorem materialHash (h : findings.length ≤ maxFindings)
    (heach : ∀ d ∈ findings, Proper M float key d) {digest : Text} :
    stableJsonHash H float (projectionMaterial findings) = .ok digest ↔
      digest = H.digest (dumps float (projectionMaterial findings)) := by
  simp only [stableJsonHash, bind_ok, stableJson_ok, pure, Except.pure, Except.ok.injEq]
  constructor
  · rintro ⟨_, ⟨-, rfl⟩, rfl⟩
    rfl
  · rintro rfl
    exact ⟨_, ⟨material_portable h heach, rfl⟩, rfl⟩

theorem request_portable
    (h : ProperRequest M float key projectRef engineVersion executionMode resultRef findings)
    (hhash : isDigest projectionHash = true) :
    portable (.obj (requestFields projectRef (.str engineVersion) (.str executionMode) resultRef
      findings projectionHash)) = true := by
  have hsource : portable (.obj [(points "engine_version", .str engineVersion),
      (points "execution_mode", .str executionMode),
      (points "result_ref", .str resultRef)]) = true := by
    apply fields_portable (source_short _ _ _)
    simp only [List.forall_mem_cons]
    exact ⟨(contract_short.2.1 _ h.engineVersion).portable,
      (contract_short.2.2.1 _ h.executionMode).portable,
      h.result_short.portable, by simp⟩
  apply fields_portable (request_short _ _ _ _ _ _)
  simp only [requestFields, List.forall_mem_cons]
  exact ⟨contract_short.1.1.portable, h.project_short.portable, hsource,
    (gate_short findings).portable,
    summary_portable h.few, findings_portable h.each, (digest_short hhash).portable, by simp⟩

/-! ### The whole request -/

theorem count_ok {n : ℕ} (h : n ≤ maxFindings) : requireCount (.int n) = .ok (n : ℤ) := by
  simp only [requireCount, bind_ok, require_ok, exists_const, pure, Except.pure, and_true]
  omega

/-- A request of proper findings under the hash of its projection is let through as it is. -/
theorem request_accepted (hkey : key.length = 32)
    (h : ProperRequest M float key projectRef engineVersion executionMode resultRef findings) :
    validateFindingsSyncRequest H M float (.obj (requestFields projectRef (.str engineVersion)
      (.str executionMode) resultRef findings
        (H.digest (dumps float (projectionMaterial findings)))))
        key =
      .ok (.obj (requestFields projectRef (.str engineVersion)
        (.str executionMode) resultRef findings
        (H.digest (dumps float (projectionMaterial findings))))) := by
  have hhash := Review.digest_isDigest (H := H) (dumps float (projectionMaterial findings))
  set projectionHash := H.digest (dumps float (projectionMaterial findings)) with hdef
  set fields := requestFields projectRef (.str engineVersion)
    (.str executionMode) resultRef findings
    projectionHash with hfields
  have hd : Distinct fields := by
    rw [Distinct, hfields, request_keys]
    exact contract_keys.1
  have hsourceDistinct : Distinct [(points "engine_version", Value.str engineVersion),
      (points "execution_mode", .str executionMode), (points "result_ref", .str resultRef)] :=
    contract_keys.2.1
  have hsummaryDistinct : Distinct [(points "findings", Value.int findings.length),
      (points "blockers", .int (blockersOf findings))] := contract_keys.2.2.1
  have hfindings : validateSyncFindings M float key 0 []
      (findings.map fun d => Flat.value d.record) =
      .ok findings :=
    syncFindings_ok h.each (by simp) h.distinct (by simp)
  have hmaterial : stableJsonHash H float (projectionMaterial findings) = .ok projectionHash :=
    (materialHash h.few h.each).mpr rfl
  simp only [validateFindingsSyncRequest, requireNamespaceKey, bind_ok,
    Review.within_ok, require_ok,
    exists_const, Review.requireOneOf_ok, pure, Except.pure, Except.ok.injEq]
  refine ⟨hkey, (), preflight_ok (request_fits h hhash) (request_nodes h.few), fields, rfl, (),
    exact_of_keys (request_keys _ _), _, member_at hd 0 rfl, ?_, _, member_at hd 1 rfl, _,
    pattern_ok h.projectRef, _, member_at hd 2 rfl, _, rfl, (), exact_of_keys rfl, _,
    member_at hsourceDistinct 0 rfl, _, ⟨rfl, h.engineVersion⟩, _,
      member_at hsourceDistinct 1 rfl, _,
    ⟨rfl, h.executionMode⟩, _, member_at hsourceDistinct 2 rfl, _, pattern_ok h.resultRef, _,
    member_at hd 4 rfl, _, rfl, (), exact_of_keys rfl, _, member_at hsummaryDistinct 0 rfl, _,
    count_ok h.few, _, member_at hsummaryDistinct 1 rfl, _,
    count_ok ((blockers_le findings).trans h.few), _, member_at hd 5 rfl, _, rfl, ?_, _, hfindings,
    h.sorted, ⟨rfl, rfl⟩, _, member_at hd 3 rfl, ?_, _, member_at hd 6 rfl, _, pattern_ok hhash, _,
    hmaterial, rfl, _, stableJson_ok.mpr ⟨request_portable h hhash, rfl⟩, request_size h hhash, rfl⟩
  · simp [isText]
  · rw [List.length_map]
    exact h.few
  · simp [isText]

end Request

end Heel.Findings
