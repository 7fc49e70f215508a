import Mathlib.Data.Prod.Lex
import Heel.Lib.Checks
import Heel.Lib.JsonDump

/-! The review contract shared by every client (`review_contract.py`): portable JSON, the records of
a review, the builder of a content-addressed envelope and its validator. A dictionary is the list of
its items in the order of insertion; zero has no sign here. -/
namespace Heel.Review
open Lib Lib.JsonText Lib.Checks

abbrev Fields := List (Text × Value)

inductive Segment where
  | key (name : Text)
  | index (i : ℕ)
  deriving DecidableEq, Repr

/-- An exception; a `ValueError` tells the path of what it refuses, or only why. -/
inductive Raised where
  | valueError (path : List Segment) (reason : String)
  | refusal (reason : String)
  | typeError (reason : String)
  | keyError (key : Text)
  deriving DecidableEq, Repr

def Raised.under (s : Segment) : Raised → Raised
  | .valueError path reason => .valueError (s :: path) reason
  | e => e

/-- The path of a value that is part of another. -/
def within {α : Type} (s : Segment) : Except Raised α → Except Raised α
  | .ok a => .ok a
  | .error e => .error (e.under s)

@[simp] theorem within_ok {α : Type} {s : Segment} {x : Except Raised α} {a : α} :
    within s x = .ok a ↔ x = .ok a := by
  cases x <;> simp [within]

def refuse (reason : String) : Raised := .valueError [] reason

def field (name : String) : Segment := .key (points name)

def jsSafeInteger : ℤ := 2 ^ 53 - 1

def validateUnicode (value : Text) : Except Raised Unit :=
  require (value.any isSurrogate = false) (refuse "contains a lone Unicode surrogate")

mutual
def normalizeJson : Value → Except Raised Value
  | .null => .ok .null
  | .bool b => .ok (.bool b)
  | .int n => do
    require (-jsSafeInteger ≤ n ∧ n ≤ jsSafeInteger)
      (refuse "contains an integer outside the JavaScript-safe range")
    return .int n
  | .float (.finite x) => .ok (.float (.finite x))
  | .float _ => .error (refuse "contains a non-finite float")
  | .str s => do
    validateUnicode s
    return .str s
  | .arr items => do
    let out ← normalizeItems 0 items
    return .arr out
  | .obj fields => do
    let out ← normalizeFields fields
    return .obj out

def normalizeItems : ℕ → List Value → Except Raised (List Value)
  | _, [] => .ok []
  | i, item :: rest => do
    let head ← within (.index i) (normalizeJson item)
    let tail ← normalizeItems (i + 1) rest
    return head :: tail

def normalizeFields : Fields → Except Raised Fields
  | [] => .ok []
  | (key, item) :: rest => do
    validateUnicode key
    let head ← within (.key key) (normalizeJson item)
    let tail ← normalizeFields rest
    return (key, head) :: tail
end

/-- SHA-256 of the UTF-8 encoding of a text, in lowercase hexadecimal. -/
structure Sha256 where
  digest : Text → Text
  length : ∀ t, (digest t).length = 64
  lowerHex : ∀ t, ∀ c ∈ digest t, isDigit c ∨ 0x61 ≤ c ∧ c ≤ 0x66

variable (H : Sha256) (float : Binary64 → Text)

/-- `stable_json_hash` of a value that is normalized already. -/
def stableJsonHash (value : Value) : Text := H.digest (dumps float value)

def requireObject : Value → Except Raised Fields
  | .obj fields => .ok fields
  | _ => .error (refuse "must be a JSON object")

def requireArray : Value → Except Raised (List Value)
  | .arr items => .ok items
  | _ => .error (refuse "must be a JSON array")

def requireNonemptyString : Value → Except Raised Text
  | .str s => do
    require (s.all isWhitespace = false) (refuse "must be a nonempty string")
    return s
  | _ => .error (refuse "must be a nonempty string")

def requireBoolean : Value → Except Raised Bool
  | .bool b => .ok b
  | _ => .error (refuse "must be a boolean")

def requireNonnegativeInteger : Value → Except Raised ℤ
  | .int n => do
    require (0 ≤ n ∧ n ≤ jsSafeInteger) (refuse "must be a nonnegative JavaScript-safe integer")
    return n
  | _ => .error (refuse "must be a nonnegative JavaScript-safe integer")

def requireExactFields (record : Fields) (fields : List Text) : Except Raised Unit :=
  require ((∀ p ∈ record, p.1 ∈ fields) ∧ ∀ name ∈ fields, ∃ p ∈ record, p.1 = name)
    (refuse "must contain exactly the v1 fields")

/-- `record[name]`. -/
def member (record : Fields) (name : Text) : Except Raised Value :=
  match record.find? fun p => p.1 = name with
  | some p => .ok p.2
  | none => .error (.keyError name)

/-- `record.get(name)`. -/
def get (record : Fields) (name : Text) : Value :=
  ((record.find? fun p => p.1 = name).map Prod.snd).getD .null

/-- The named fields of an object, each a nonempty string. -/
def textFields (item : Fields) (names : List Text) : Except Raised Flat :=
  names.mapM fun name => do
    let value ← member item name
    let text ← within (.key name) (requireNonemptyString value)
    return (name, .text text)

def flagField (item : Fields) (name : Text) : Except Raised (Text × Scalar) := do
  let value ← member item name
  let flag ← within (.key name) (requireBoolean value)
  return (name, .flag flag)

def isText (t : Text) : Value → Bool
  | .str s => s = t
  | _ => false

def textOf (record : Flat) (name : Text) : Text :=
  match record.find? fun p => p.1 = name with
  | some (_, .text s) => s
  | _ => []

/-- What validation calls on the items of an array, with their indices. -/
def eachItem {α : Type} (f : Value → Except Raised α) : ℕ → List Value → Except Raised (List α)
  | _, [] => .ok []
  | i, value :: rest => do
    let head ← within (.index i) (f value)
    let tail ← eachItem f (i + 1) rest
    return head :: tail

def severityKey : Text := points "severity"
def warnText : Text := points "warn"
def blockText : Text := points "block"
def passText : Text := points "pass"
def evidenceStateKey : Text := points "evidence_state"
def executionDispositionKey : Text := points "execution_disposition"

/-- `_FINDING_FIELDS[:-1]`. -/
def findingTextFields : List Text :=
  ["surface_type", "surface_id", "risk", "severity", "control", "reason"].map points
def reachableKey : Text := points "reachable"
def findingFields : List Text := findingTextFields ++ [reachableKey]
def findingEvidenceFields : List Text :=
  ["evidence_state", "rule_source", "execution_disposition"].map points
def evidenceStates : List Text := ["unknown", "customer_declared", "inferred"].map points
def staticOnly : Text := points "static_only"
def regressionFields : List Text :=
  ["surface_type", "surface_id", "name", "expected_status", "scenario_hint", "safety"].map points
/-- `_QUESTION_FIELDS[:-1]`. -/
def questionTextFields : List Text := ["id", "field", "surface", "prompt"].map points
def requiredKey : Text := points "required"

/-- `x in {..}` of texts: a list or a dictionary has no hash. -/
def inSet (value : Value) (choices : List Text) : Except Raised Bool :=
  match value with
  | .arr _ => .error (.typeError "unhashable type: 'list'")
  | .obj _ => .error (.typeError "unhashable type: 'dict'")
  | .str s => .ok (choices.contains s)
  | _ => .ok false

def validateEvidence (item : Fields) : Except Raised Flat := do
  let state ← member item evidenceStateKey
  let known ← inSet state evidenceStates
  require (known = true) (.refusal "static review cannot assert observed or verified behavior")
  let disposition ← member item executionDispositionKey
  require (isText staticOnly disposition = true)
    (.refusal "static review cannot assert observed or verified behavior")
  textFields item findingEvidenceFields

/-- The evidence of a finding that carries its state. -/
def evidenceOf (evident : Bool) (item : Fields) : Except Raised Flat :=
  if evident then validateEvidence item else .ok []

def validateFinding (record : Value) : Except Raised Flat := do
  let item ← requireObject record
  let evident := item.any fun p => p.1 = evidenceStateKey
  requireExactFields item
    (if evident then findingFields ++ findingEvidenceFields else findingFields)
  let texts ← textFields item findingTextFields
  require (textOf texts severityKey ∈ [warnText, blockText])
    ((refuse "must be warn or block").under (.key severityKey))
  let reachable ← flagField item reachableKey
  let evidence ← evidenceOf evident item
  return texts ++ [reachable] ++ evidence

def validateRegression (record : Value) : Except Raised Flat := do
  let item ← requireObject record
  requireExactFields item regressionFields
  textFields item regressionFields

def validateQuestion (record : Value) : Except Raised Flat := do
  let item ← requireObject record
  requireExactFields item (questionTextFields ++ [requiredKey])
  let texts ← textFields item questionTextFields
  let required ← flagField item requiredKey
  return texts ++ [required]

/-- `_validate_findings`, `_validate_regressions` and `_validate_questions`: the records of an
array. -/
def validateRecords (f : Value → Except Raised Flat) (records : Value) : Except Raised
    (List Flat) := do
  let items ← requireArray records
  eachItem f 0 items

def modeKey : Text := points "mode"
def safetyFlags : List Text :=
  ["live_probing", "network_calls", "requires_signed_scope_for_live_or_staging_runs",
    "canary_only"].map points

def staticSafety : Flat :=
  [(modeKey, .text (points "static ProductModel diff")), (points "live_probing", .flag false),
    (points "network_calls", .flag false),
    (points "requires_signed_scope_for_live_or_staging_runs", .flag true),
    (points "canary_only", .flag true)]

def validateSafety (value : Value) : Except Raised Flat := do
  let item ← requireObject value
  requireExactFields item (modeKey :: safetyFlags)
  let mode ← textFields item [modeKey]
  let flags ← safetyFlags.mapM (flagField item)
  let validated := mode ++ flags
  staticSafety.forM fun p =>
    require (validated.find? (fun q => q.1 = p.1) = some p)
      ((refuse "contradicts the static v1 contract").under (.key p.1))
  return staticSafety

/-- `[0-9a-f]{64}\Z`. -/
def isDigest (s : Text) : Bool := s.length = 64 && s.all isLowerHex

def validateHash (value : Value) : Except Raised Text :=
  match value with
  | .str s => do
    require (isDigest s = true) (refuse "must be a lowercase 64-character SHA-256 hex digest")
    return s
  | _ => .error (refuse "must be a lowercase 64-character SHA-256 hex digest")

/-- `_validate_hash` with `allow_none`. -/
def validateOptionalHash (value : Value) : Except Raised Value :=
  match value with
  | .null => .ok .null
  | value => do
    let digest ← validateHash value
    return .str digest

def reviewMark : Text := points "review_"

def validateReviewId (value : Value) : Except Raised Text :=
  match value with
  | .str s => do
    require (s.take reviewMark.length = reviewMark ∧ (s.drop reviewMark.length).length = 20 ∧
      (s.drop reviewMark.length).all isLowerHex = true)
      (refuse "review_id must match review_[0-9a-f]{20}")
    return s
  | _ => .error (refuse "review_id must match review_[0-9a-f]{20}")

def reviewSchemaVersion : Text := points "heel.review.v1"
def engineVersion : Text := points "1.3.0rc2"
def supportedEngineVersions : List Text :=
  ["1.1.0", "1.1.1", "1.2.0", "1.3.0rc1", "1.3.0rc2"].map points
def cloudIsolated : Text := points "cloud_isolated"
def executionModes : List Text := ["browser_local", "machine_local", "cloud_isolated"].map points
def gateStatuses : List Text := [passText, warnText, blockText]

def reviewIdKey : Text := points "review_id"
def resultHashKey : Text := points "result_hash"

/-- The fields of an envelope but its identifier and its hash. -/
def bodyFields : List Text :=
  ["schema_version", "engine_version", "product_id", "source_hash", "model_hash", "baseline_hash",
    "execution_mode", "gate_status", "summary", "findings", "recommended_controls",
    "suggested_regressions", "questions", "safety", "privacy"].map points

def envelopeFields : List Text := reviewIdKey :: resultHashKey :: bodyFields
def summaryFields : List Text := ["findings", "blockers", "questions"].map points
def privacyFields : List Text :=
  ["execution", "network_calls", "uploaded", "sync_intent"].map points

def findingSortKey (item : Flat) : ℕ ×ₗ Text ×ₗ Text ×ₗ Text ×ₗ Text :=
  toLex (if textOf item severityKey = blockText then 0 else 1,
    toLex (textOf item (points "surface_type"), toLex (textOf item (points "surface_id"),
      toLex (textOf item (points "risk"), dumps float (Flat.value item)))))

/-- `stable_json` of a record, the key of the other lists. -/
def recordText (item : Flat) : Text := dumps float (Flat.value item)

def isBlocker (item : Flat) : Bool := textOf item severityKey = blockText

def blockersOf (findings : List Flat) : ℕ := (findings.filter isBlocker).length

def expectedGate (findings : List Flat) : Text :=
  if blockersOf findings ≠ 0 then blockText else if findings ≠ [] then warnText else passText

def expectedSummary (findings questions : List Flat) : List (Text × ℤ) :=
  [(points "findings", findings.length), (points "blockers", blockersOf findings),
    (points "questions", questions.length)]

def expectedPrivacy (executionMode : Text) : Flat :=
  [(points "execution", .text executionMode), (points "network_calls", .flag false),
    (points "uploaded", .flag (executionMode = cloudIsolated)),
    (points "sync_intent", .text (if executionMode = cloudIsolated then points "sanitized_model"
      else points "none"))]

def requireOneOf (value : Value) (choices : List Text) (refusal : Raised) : Except Raised Text :=
  match value with
  | .str s => do
    require (s ∈ choices) refusal
    return s
  | _ => .error refusal

def validateSummary (value : Value) : Except Raised (List (Text × ℤ)) := do
  let summary ← requireObject value
  requireExactFields summary summaryFields
  summaryFields.mapM fun name => do
    let value ← member summary name
    let count ← within (.key name) (requireNonnegativeInteger value)
    return (name, count)

def validatePrivacy (value : Value) : Except Raised Flat := do
  let privacy ← requireObject value
  requireExactFields privacy privacyFields
  let execution ← textFields privacy [points "execution"]
  let networkCalls ← flagField privacy (points "network_calls")
  let uploaded ← flagField privacy (points "uploaded")
  let syncIntent ← textFields privacy [points "sync_intent"]
  return execution ++ [networkCalls, uploaded] ++ syncIntent

/-- `value for key, value in item.items() if key not in {"review_id", "result_hash"}`. -/
def bodyOf (item : Fields) : Fields := item.filter fun p => p.1 ∉ [reviewIdKey, resultHashKey]

def validateReviewEnvelope (envelope : Value) : Except Raised Value := do
  let normalized ← within (field "envelope") (normalizeJson envelope)
  let item ← within (field "envelope") (requireObject normalized)
  within (field "envelope") (requireExactFields item envelopeFields)
  let reviewId ← validateReviewId (← member item reviewIdKey)
  let resultHash ← within (field "result_hash") (validateHash (← member item resultHashKey))
  require (isText reviewSchemaVersion (← member item (points "schema_version")) = true)
    (refuse "schema_version must be heel.review.v1")
  let _ ← requireOneOf (← member item (points "engine_version")) supportedEngineVersions
    (refuse "engine_version is not supported")
  let _ ← within (field "product_id") (requireNonemptyString (← member item (points "product_id")))
  let _ ← within (field "source_hash") (validateHash (← member item (points "source_hash")))
  let _ ← within (field "model_hash") (validateHash (← member item (points "model_hash")))
  let _ ← within (field "baseline_hash")
    (validateOptionalHash (← member item (points "baseline_hash")))
  let executionMode ← requireOneOf (← member item (points "execution_mode")) executionModes
    (refuse "unsupported execution_mode")
  let gateStatus ← requireOneOf (← member item (points "gate_status")) gateStatuses
    (refuse "gate_status must be pass, warn, or block")
  let findings ← within (field "findings")
    (validateRecords validateFinding (← member item (points "findings")))
  let controls ← within (field "recommended_controls")
    (validateRecords validateFinding (← member item (points "recommended_controls")))
  let regressions ← within (field "suggested_regressions")
    (validateRecords validateRegression (← member item (points "suggested_regressions")))
  let questions ← within (field "questions")
    (validateRecords validateQuestion (← member item (points "questions")))
  let safety ← within (field "safety") (validateSafety (← member item (points "safety")))
  require (findings = sortBy (findingSortKey float) findings)
    (refuse "findings must use canonical v1 ordering")
  require (controls = sortBy (recordText float) controls)
    (refuse "recommended_controls must use canonical v1 ordering")
  require (regressions = sortBy (recordText float) regressions)
    (refuse "suggested_regressions must use canonical v1 ordering")
  require (questions = sortBy (recordText float) questions)
    (refuse "questions must use canonical v1 ordering")
  require (gateStatus = expectedGate findings)
    (refuse "gate_status must be the expected one for the supplied findings")
  let summary ← within (field "summary") (validateSummary (← member item (points "summary")))
  require (summary = expectedSummary findings questions)
    (refuse "summary does not match the envelope contents")
  let privacy ← within (field "privacy") (validatePrivacy (← member item (points "privacy")))
  require (privacy = expectedPrivacy executionMode)
    (refuse "privacy contradicts the execution_mode v1 contract")
  require (safety.find? (fun p => p.1 = points "network_calls") =
      privacy.find? (fun p => p.1 = points "network_calls"))
    (refuse "safety and privacy network_calls must agree")
  require (resultHash = stableJsonHash H float (.obj (bodyOf item)))
    (refuse "result_hash does not match the review envelope contents")
  require (reviewId = reviewMark ++ (stableJsonHash H float (.obj (bodyOf item))).take 20)
    (refuse "review_id does not match the result_hash")
  return normalized

structure ReviewInput where
  review : Value
  sourceHash : Value
  modelHash : Value
  baselineHash : Value
  executionMode : Value
  questions : Value

/-- The records of an input, as the validators return them. -/
structure ReviewRecords where
  findings : List Flat
  controls : List Flat
  regressions : List Flat
  questions : List Flat
  deriving DecidableEq, Repr

/-- The dictionary that is normalized and hashed; the lists are sorted. -/
def envelopeBody (records : ReviewRecords) (productId sourceHash modelHash : Text)
    (baselineHash : Value) (executionMode gateStatus : Text) (safety : Flat) : Fields :=
  [(points "schema_version", .str reviewSchemaVersion),
    (points "engine_version", .str engineVersion),
    (points "product_id", .str productId), (points "source_hash", .str sourceHash),
    (points "model_hash", .str modelHash), (points "baseline_hash", baselineHash),
    (points "execution_mode", .str executionMode), (points "gate_status", .str gateStatus),
    (points "summary",
      .obj ((expectedSummary records.findings records.questions).map fun p => (p.1, .int p.2))),
    (points "findings", .arr (records.findings.map Flat.value)),
    (points "recommended_controls", .arr (records.controls.map Flat.value)),
    (points "suggested_regressions", .arr (records.regressions.map Flat.value)),
    (points "questions", .arr (records.questions.map Flat.value)),
    (points "safety", Flat.value safety),
    (points "privacy", Flat.value (expectedPrivacy executionMode))]

def ReviewRecords.sorted (records : ReviewRecords) : ReviewRecords where
  findings := sortBy (findingSortKey float) records.findings
  controls := sortBy (recordText float) records.controls
  regressions := sortBy (recordText float) records.regressions
  questions := sortBy (recordText float) records.questions

def buildReviewEnvelope (input : ReviewInput) : Except Raised Value := do
  let executionMode ← requireOneOf input.executionMode executionModes
    (refuse "unsupported execution_mode")
  let review ← within (field "review") (do requireObject (← normalizeJson input.review))
  let productId ← within (field "product_id")
    (requireNonemptyString (get review (points "product_id")))
  let gateStatus ← requireOneOf (get review (points "launch_gate_status")) gateStatuses
    (refuse "launch_gate_status must be pass, warn, or block")
  let findings ← within (field "new_abuse_affordances")
    (validateRecords validateFinding (get review (points "new_abuse_affordances")))
  let controls ← within (field "recommended_controls")
    (validateRecords validateFinding (get review (points "recommended_controls")))
  let regressions ← within (field "suggested_regression_tests")
    (validateRecords validateRegression (get review (points "suggested_regression_tests")))
  let safety ← within (field "safety") (validateSafety (get review (points "safety")))
  let questions ← within (field "questions")
    (do validateRecords validateQuestion (← normalizeJson input.questions))
  require (gateStatus = expectedGate findings)
    (refuse "launch_gate_status must be the expected one for the supplied findings")
  let records := ReviewRecords.sorted float ⟨findings, controls, regressions, questions⟩
  let sourceHash ← within (field "source_hash") (validateHash input.sourceHash)
  let modelHash ← within (field "model_hash") (validateHash input.modelHash)
  let baselineHash ← within (field "baseline_hash") (validateOptionalHash input.baselineHash)
  let envelope ← within (field "envelope") (do
    requireObject (← normalizeJson (.obj (envelopeBody records productId sourceHash modelHash
      baselineHash executionMode gateStatus safety))))
  let resultHash := stableJsonHash H float (.obj envelope)
  return .obj ((reviewIdKey, .str (reviewMark ++ resultHash.take 20)) ::
    (resultHashKey, .str resultHash) :: envelope)

end Heel.Review
