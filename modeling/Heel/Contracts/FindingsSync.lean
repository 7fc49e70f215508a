import Heel.Contracts.ReviewContract
import Heel.Lib.JsonSize

/-! The findings-only projection of a review (`findings_sync.py`): the closed catalog of risks, the
keyed pseudonyms, the producer of a request and its validator. -/
namespace Heel.Findings
open Lib Lib.JsonText Lib.Checks
open Review (Fields Raised within refuse field Sha256 normalizeJson validateReviewEnvelope member
  isText isDigest requireOneOf blockText warnText passText)

/-- HMAC-SHA-256 of the UTF-8 encoding of a text under a key, in lowercase hexadecimal. -/
structure Hmac where
  digest : List UInt8 → Text → Text
  length : ∀ key t, (digest key t).length = 64
  lowerHex : ∀ key t, (digest key t).all isLowerHex = true

variable (H : Sha256) (M : Hmac) (float : Binary64 → Text)

def schemaVersion : Text := points "heel.findings-sync.v1"
def supportedEngineVersions : List Text :=
  ["1.1.0", "1.1.1", "1.2.0", "1.3.0rc1", "1.3.0rc2"].map points
def supportedExecutionModes : List Text :=
  ["browser_local", "machine_local", "cloud_isolated"].map points
def maxFindingsSyncBytes : ℕ := 256 * 1024
def maxFindings : ℕ := 512
def maxJsonDepth : ℕ := 16
def maxTextLength : ℕ := 256
def maxNodes : ℕ := 10000

structure CatalogRow where
  risk : Text
  control : Text
  controlCode : Text
  surfaces : List Text
  states : List (Text × Bool)
  deriving DecidableEq, Repr

def catalogRow (risk control controlCode : String) (surfaces : List String)
    (states : List (Text × Bool)) : CatalogRow :=
  ⟨points risk, points control, points controlCode, surfaces.map points, states⟩

def riskCatalog : List CatalogRow :=
  [catalogRow "export_without_entitlement" "server-side entitlement check"
      "server_side_entitlement_check" ["endpoints_routes", "exports"]
      [(warnText, false), (blockText, true)],
    catalogRow "export_without_tenant_quota" "tenant quota" "tenant_quota"
      ["endpoints_routes", "exports"] [(warnText, false), (blockText, true)],
    catalogRow "endpoint_without_tenant_filter" "tenant filter" "tenant_filter"
      ["endpoints_routes"] [(warnText, false), (blockText, true)],
    catalogRow "ui_backing_endpoint_paid_api_bypass" "shared UI/API entitlement and lookup quota"
      "shared_ui_api_entitlement_and_lookup_quota" ["endpoints_routes"]
      [(warnText, false), (blockText, true)],
    catalogRow "unmetered_billable_resource" "server-side meter accounting and cost ceiling"
      "server_side_meter_accounting_and_cost_ceiling" ["meters", "billing_objects"]
      [(warnText, false), (warnText, true)],
    catalogRow "stackable_coupon_without_redemption_limit"
      "redemption limit and proof of uniqueness"
      "redemption_limit_and_proof_of_uniqueness" ["coupons_promotions"]
      [(warnText, false), (warnText, true), (blockText, true)],
    catalogRow "oauth_scope_overbroad" "OAuth scope minimization and approval"
      "oauth_scope_minimization_and_approval" ["integration_oauth_apps"]
      [(warnText, false), (warnText, true), (blockText, true)],
    catalogRow "admin_action_without_role_or_audit_control" "admin role gate and audit event"
      "admin_role_gate_and_audit_event" ["support_admin_actions"]
      [(warnText, false), (warnText, true), (blockText, true)],
    catalogRow "agent_surface_overscope" "tool scope minimization" "tool_scope_minimization"
      ["agent_tools", "mcp_connectors"] [(blockText, true)],
    catalogRow "feature_flag_plan_mismatch" "server-side feature entitlement check"
      "server_side_feature_entitlement_check" ["features_flags"]
      [(warnText, false), (warnText, true)],
    catalogRow "tenant_or_data_control_change" "tenant/data control review"
      "tenant_data_control_review" ["data_classes", "declared_controls"] [(warnText, false)]]

/-- The texts of a finding that the catalog has let through, and the code of its control. -/
structure Classified where
  risk : Text
  surfaceType : Text
  severity : Text
  controlCode : Text
  deriving DecidableEq, Repr

/-- A text that is expected where there is any value. -/
def isTextOrNone (t : Text) : Value → Bool
  | .null => true
  | v => isText t v

def catalogEntry (risk surfaceType severity : Value) (reachable : Bool)
    (rawControl controlCode : Value) : Except Raised Classified := do
  let risk ← requireOneOf risk (riskCatalog.map CatalogRow.risk)
    (.refusal "finding risk is outside the closed v1 catalog")
  match riskCatalog.find? fun row => row.risk = risk with
  | none => .error (.keyError risk)
  | some row => do
    let surfaceType ← requireOneOf surfaceType row.surfaces
      (.refusal "finding surface is invalid for its risk")
    let severity ← requireOneOf severity
      ((row.states.filter fun state => state.2 = reachable).map Prod.fst)
      (.refusal "finding severity/reachability state is invalid")
    require (isTextOrNone row.control rawControl = true)
      (.refusal "finding control is outside the closed v1 catalog")
    require (isTextOrNone row.controlCode controlCode = true)
      (.refusal "finding control code is invalid for its risk")
    return ⟨risk, surfaceType, severity, row.controlCode⟩

def stableJson (value : Value) : Except Raised Text := do
  let normalized ← within (field "value") (normalizeJson value)
  return dumps float normalized

def stableJsonHash (value : Value) : Except Raised Text := do
  let text ← stableJson float value
  return H.digest text

def taggedHmac (namespaceKey : List UInt8) (tag : String) (values : List Value) :
    Except Raised Text := do
  let material ← stableJson float (.arr (.str schemaVersion :: .str (points tag) :: values))
  return M.digest namespaceKey material

/-- A mark and lowercase hexadecimal digits. -/
def isMarked (mark : Text) (digits : ℕ) (t : Text) : Bool :=
  t.take mark.length = mark && (t.drop mark.length).length = digits &&
    (t.drop mark.length).all isLowerHex

def projectMark : Text := points "prj_"
def sourceMark : Text := points "src1_"
def surfaceMark : Text := points "surf1_"
def findingMark : Text := points "find1_"

def requirePattern (pattern : Text → Bool) : Value → Except Raised Text
  | .str s => do
    require (pattern s = true) (refuse "has invalid syntax")
    return s
  | _ => .error (refuse "has invalid syntax")

def requireNamespaceKey (namespaceKey : List UInt8) : Except Raised Unit :=
  require (namespaceKey.length = 32) (refuse "namespace_key must be exactly 32 bytes")

structure Disclosure where
  findingId : Text
  surfaceRef : Text
  surfaceType : Text
  riskCode : Text
  controlCode : Text
  severity : Text
  reachable : Bool
  deriving DecidableEq, Repr

def Disclosure.record (d : Disclosure) : Flat :=
  [(points "finding_id", .text d.findingId), (points "surface_ref", .text d.surfaceRef),
    (points "surface_type", .text d.surfaceType), (points "risk_code", .text d.riskCode),
    (points "control_code", .text d.controlCode), (points "severity", .text d.severity),
    (points "reachable", .flag d.reachable)]

def blockersOf (findings : List Disclosure) : ℕ :=
  (findings.filter fun d => d.severity = blockText).length

def expectedGate (findings : List Disclosure) : Text :=
  if blockersOf findings ≠ 0 then blockText else if findings ≠ [] then warnText else passText

def summaryValue (findings : List Disclosure) : Value :=
  .obj [(points "findings", .int findings.length), (points "blockers", .int (blockersOf findings))]

def findingsValue (findings : List Disclosure) : Value :=
  .arr (findings.map fun d => Flat.value d.record)

def projectionMaterial (findings : List Disclosure) : Value :=
  .obj [(points "schema_version", .str schemaVersion),
    (points "gate_status", .str (expectedGate findings)),
    (points "summary", summaryValue findings), (points "findings", findingsValue findings)]

def requestFields (projectRef : Text) (engineVersion executionMode : Value) (resultRef : Text)
    (findings : List Disclosure) (projectionHash : Text) : Fields :=
  [(points "schema_version", .str schemaVersion), (points "project_ref", .str projectRef),
    (points "source", .obj [(points "engine_version", engineVersion),
      (points "execution_mode", executionMode), (points "result_ref", .str resultRef)]),
    (points "gate_status", .str (expectedGate findings)), (points "summary", summaryValue findings),
    (points "findings", findingsValue findings), (points "projection_hash", .str projectionHash)]

def complexity : Raised := .refusal "findings sync request exceeds its complexity limit"
def unportable : Raised := .refusal "findings sync request is outside the portable JSON contract"

/-- What the loop does with one value: its checks, and the children it pushes. -/
def preflightNode (maximumItems depth : ℕ) : Value → Except Raised (List (Value × ℕ))
  | .obj fields => do
    require (fields.length ≤ maximumItems) complexity
    require (∀ p ∈ fields, p.1.length ≤ maxTextLength) unportable
    return fields.map fun p => (p.2, depth + 1)
  | .arr items => do
    require (items.length ≤ maximumItems) complexity
    return items.map fun v => (v, depth + 1)
  | .str s => do
    require (s.length ≤ maxTextLength) complexity
    return []
  | .null => .ok []
  | .bool _ => .ok []
  | .int n => do
    require (-(2 ^ 53 - 1) ≤ n ∧ n ≤ 2 ^ 53 - 1) unportable
    return []
  | .float _ => .error unportable

/-- `_preflight_json_graph`: the loop over its stack, with the nodes that it may still see. -/
def preflightLoop (maximumItems : ℕ) : ℕ → List (Value × ℕ) → Except Raised Unit
  | _, [] => .ok ()
  | 0, _ :: _ => .error complexity
  | nodes + 1, (current, depth) :: stack => do
    require (depth ≤ maxJsonDepth) complexity
    let children ← preflightNode maximumItems depth current
    preflightLoop maximumItems nodes (children.reverse ++ stack)

def preflightJsonGraph (value : Value) : Except Raised Unit :=
  preflightLoop maxFindings maxNodes [(value, 0)]

def requireObject : Value → Except Raised Fields
  | .obj fields => .ok fields
  | _ => .error (refuse "must be an object")

def requireCount : Value → Except Raised ℤ
  | .int n => do
    require (0 ≤ n ∧ n ≤ maxFindings) (refuse "must be an integer within the v1 limit")
    return n
  | _ => .error (refuse "must be an integer within the v1 limit")

def requestKeys : List Text :=
  ["schema_version", "project_ref", "source", "gate_status", "summary", "findings",
    "projection_hash"].map points
def sourceKeys : List Text := ["engine_version", "execution_mode", "result_ref"].map points
def summaryKeys : List Text := ["findings", "blockers"].map points
def findingKeys : List Text :=
  ["finding_id", "surface_ref", "surface_type", "risk_code", "control_code", "severity",
    "reachable"].map points

/-- What the validator does with one finding. -/
def validateSyncFinding (namespaceKey : List UInt8) (value : Value) : Except Raised Disclosure := do
  let finding ← requireObject value
  Review.requireExactFields finding findingKeys
  let findingId ← within (field "finding_id")
    (requirePattern (isMarked findingMark 64) (← member finding (points "finding_id")))
  let surfaceRef ← within (field "surface_ref")
    (requirePattern (isMarked surfaceMark 64) (← member finding (points "surface_ref")))
  let reachable ← within (field "reachable")
    (Review.requireBoolean (← member finding (points "reachable")))
  let entry ← catalogEntry (← member finding (points "risk_code"))
    (← member finding (points "surface_type")) (← member finding (points "severity"))
    reachable .null
    (← member finding (points "control_code"))
  let expectedId ← taggedHmac M float namespaceKey "finding" [.str surfaceRef, .str entry.risk]
  require (findingId = findingMark ++ expectedId)
    (.refusal "finding_id does not match its pseudonymous identity")
  return ⟨findingId, surfaceRef, entry.surfaceType, entry.risk, entry.controlCode, entry.severity,
    reachable⟩

/-- The loop over the findings, with those it has seen. -/
def validateSyncFindings (namespaceKey : List UInt8) :
    ℕ → List Disclosure → List Value → Except Raised (List Disclosure)
  | _, _, [] => .ok []
  | index, seen, value :: rest => do
    let finding ← within (field "findings")
      (within (.index index) (validateSyncFinding M float namespaceKey value))
    require (¬ (finding.findingId ∈ seen.map Disclosure.findingId ∨
        (finding.surfaceRef, finding.riskCode) ∈ seen.map fun d => (d.surfaceRef, d.riskCode)))
      (.refusal "request contains a duplicate finding identity")
    let tail ← validateSyncFindings namespaceKey (index + 1) (finding :: seen) rest
    return finding :: tail

def itemsOf : Value → Except Raised (List Value)
  | .arr items => .ok items
  | _ => .error (.refusal "findings must be an array")

def validateFindingsSyncRequest (value : Value) (namespaceKey : List UInt8) :
    Except Raised Value := do
  requireNamespaceKey namespaceKey
  preflightJsonGraph value
  let item ← within (field "request") (requireObject value)
  within (field "request") (Review.requireExactFields item requestKeys)
  require (isText schemaVersion (← member item (points "schema_version")) = true)
    (.refusal "request schema_version is unsupported")
  let projectRef ← within (field "project_ref")
    (requirePattern (isMarked projectMark 32) (← member item (points "project_ref")))
  let source ← within (field "source") (requireObject (← member item (points "source")))
  within (field "source") (Review.requireExactFields source sourceKeys)
  let engineVersion ← requireOneOf (← member source (points "engine_version"))
    supportedEngineVersions (.refusal "source.engine_version is unsupported")
  let executionMode ← requireOneOf (← member source (points "execution_mode"))
    supportedExecutionModes (.refusal "source.execution_mode is unsupported")
  let resultRef ← within (field "source") (within (field "result_ref")
    (requirePattern (isMarked sourceMark 64) (← member source (points "result_ref"))))
  let summary ← within (field "summary") (requireObject (← member item (points "summary")))
  within (field "summary") (Review.requireExactFields summary summaryKeys)
  let findingCount ← within (field "summary") (within (field "findings")
    (requireCount (← member summary (points "findings"))))
  let blockerCount ← within (field "summary") (within (field "blockers")
    (requireCount (← member summary (points "blockers"))))
  let items ← itemsOf (← member item (points "findings"))
  require (items.length ≤ maxFindings) (.refusal "findings exceeds the v1 count limit")
  let findings ← validateSyncFindings M float namespaceKey 0 [] items
  require (findings = sortBy Disclosure.findingId findings)
    (.refusal "findings must use canonical v1 ordering")
  require (findingCount = findings.length ∧ blockerCount = blockersOf findings)
    (.refusal "summary does not match findings")
  require (isText (expectedGate findings) (← member item (points "gate_status")) = true)
    (.refusal "gate_status does not match findings")
  let projectionHash ← within (field "projection_hash")
    (requirePattern isDigest (← member item (points "projection_hash")))
  let normalized := requestFields projectRef (.str engineVersion) (.str executionMode) resultRef
    findings projectionHash
  let expectedProjection ← stableJsonHash H float (projectionMaterial findings)
  require (projectionHash = expectedProjection)
    (.refusal "projection_hash does not match the projection")
  let text ← stableJson float (.obj normalized)
  require (byteLength text ≤ maxFindingsSyncBytes)
    (.refusal "canonical findings sync request exceeds its size limit")
  return .obj normalized

/-- `value[name]`. -/
def subscript : Value → Text → Except Raised Value
  | .obj fields, name => member fields name
  | _, _ => .error (.typeError "object is not subscriptable")

/-- What the producer does with one finding of a validated review. -/
def discloseFinding (namespaceKey : List UInt8) (finding : Value) : Except Raised Disclosure := do
  let risk ← subscript finding (points "risk")
  let surfaceType ← subscript finding (points "surface_type")
  -- the review is validated: this is a boolean
  let reachable ← Review.requireBoolean (← subscript finding (points "reachable"))
  let severity ← subscript finding (points "severity")
  let control ← subscript finding (points "control")
  let entry ← catalogEntry risk surfaceType severity reachable control .null
  let surfaceId ← subscript finding (points "surface_id")
  let surface ← taggedHmac M float namespaceKey "surface" [surfaceType, surfaceId]
  let surfaceRef := surfaceMark ++ surface
  let identity ← taggedHmac M float namespaceKey "finding" [.str surfaceRef, risk]
  return ⟨findingMark ++ identity, surfaceRef, entry.surfaceType, entry.risk, entry.controlCode,
    entry.severity, reachable⟩

/-- The loop over the findings, with the identities it has seen. -/
def discloseFindings (namespaceKey : List UInt8) :
    List Text → List Value → Except Raised (List Disclosure)
  | _, [] => .ok []
  | identities, finding :: rest => do
    let disclosed ← discloseFinding M float namespaceKey finding
    require (disclosed.findingId ∉ identities)
      (.refusal "review contains a duplicate sync finding identity")
    let tail ← discloseFindings namespaceKey (disclosed.findingId :: identities) rest
    return disclosed :: tail

def projectFindingsSync (review projectRef : Value) (namespaceKey : List UInt8) :
    Except Raised Value := do
  requireNamespaceKey namespaceKey
  let project ← within (field "project_ref") (requirePattern (isMarked projectMark 32) projectRef)
  let validated ← validateReviewEnvelope H float review
  let items ← itemsOf (← subscript validated (points "findings"))
  require (items.length ≤ maxFindings) (.refusal "review contains too many findings to sync")
  let disclosed ← discloseFindings M float namespaceKey [] items
  let findings := sortBy Disclosure.findingId disclosed
  let engineVersion ← subscript validated (points "engine_version")
  let executionMode ← subscript validated (points "execution_mode")
  let source ← taggedHmac M float namespaceKey "source"
    [← subscript validated (points "result_hash")]
  let projectionHash ← stableJsonHash H float (projectionMaterial findings)
  validateFindingsSyncRequest H M float (.obj (requestFields project engineVersion executionMode
    (sourceMark ++ source) findings projectionHash)) namespaceKey

end Heel.Findings
