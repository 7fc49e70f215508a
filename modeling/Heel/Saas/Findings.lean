import Heel.Saas.Discovery

/-! The findings projection a runner signs and the disclosure permit a human signs off, with
`validate_canary_findings` and `validate_disclosure_permit` of `heel/canary_contracts.py`. Values
are as `parse_json` returns them: normalised, with the closed field names. -/
namespace Heel.Cloud
open Lib.Checks Json

def findingsSchema : String := "heel.canary-findings-projection.v1"
def permitSchema : String := "heel.disclosure-permit.v1"

inductive AssessmentOutcome where
  | blocked | observed | inconclusive
  deriving DecidableEq, Repr

def AssessmentOutcome.name : AssessmentOutcome → String
  | .blocked => "blocked"
  | .observed => "observed"
  | .inconclusive => "inconclusive"

inductive BodyShape where
  | absent | empty | jsonObject | jsonArray | jsonScalar | text | binary | truncated | invalid
  deriving DecidableEq, Repr

def BodyShape.name : BodyShape → String
  | .absent => "absent"
  | .empty => "empty"
  | .jsonObject => "json_object"
  | .jsonArray => "json_array"
  | .jsonScalar => "json_scalar"
  | .text => "text"
  | .binary => "binary"
  | .truncated => "truncated"
  | .invalid => "invalid"

inductive Confidence where
  | low | medium | high
  deriving DecidableEq, Repr

def Confidence.name : Confidence → String
  | .low => "low"
  | .medium => "medium"
  | .high => "high"

structure Observation where
  semanticRole : String
  statusCode : Int
  bodyShape : BodyShape
  truncated : Bool
  deriving DecidableEq, Repr

structure Finding where
  title : String
  reachabilityRationale : String
  confidence : Confidence
  recommendedControl : String
  regressionSuggestion : String
  deriving DecidableEq, Repr

structure ScenarioResult where
  ordinal : Int
  scenarioId : String
  adapterVersion : String
  assessmentOutcome : AssessmentOutcome
  method : Method
  routeTemplate : String
  observations : List Observation
  finding : Option Finding
  containmentCodes : List Containment.EventCode
  redactionCount : Int
  localEvidenceRefs : List String
  deriving DecidableEq, Repr

structure CanaryFindings where
  projectionId : String
  runId : String
  grantId : String
  workspaceId : String
  projectId : String
  environmentId : String
  manifestDigest : String
  approvalProjectionDigest : String
  grantDigest : String
  engineVersion : String
  adapterVersions : List String
  startedAtMs : Int
  finishedAtMs : Int
  assessmentOutcome : AssessmentOutcome
  scenarioResults : List ScenarioResult
  containmentCodes : List Containment.EventCode
  redactionCount : Int
  projectionDigest : String
  signingKeyId : String
  signature : List UInt8
  deriving DecidableEq, Repr

def Observation.json (o : Observation) : Json :=
  .obj [("semantic_role", .str o.semanticRole), ("status_code", .int o.statusCode),
    ("body_shape", .str o.bodyShape.name),
    ("truncation_state", .str (if o.truncated then "truncated" else "complete"))]

def Finding.json (f : Finding) : Json :=
  .obj [("title", .str f.title), ("reachability_rationale", .str f.reachabilityRationale),
    ("confidence", .str f.confidence.name), ("recommended_control", .str f.recommendedControl),
    ("regression_suggestion", .str f.regressionSuggestion)]

def codesJson (codes : List Containment.EventCode) : Json :=
  .arr (codes.map fun c => .str c.name)

def ScenarioResult.json (s : ScenarioResult) : Json :=
  .obj [("ordinal", .int s.ordinal), ("scenario_id", .str s.scenarioId),
    ("adapter_version", .str s.adapterVersion),
    ("assessment_outcome", .str s.assessmentOutcome.name),
    ("route", .obj [("method", .str s.method.name), ("route_template", .str s.routeTemplate)]),
    ("observations", .arr (s.observations.map Observation.json)),
    ("finding", Json.optional Finding.json s.finding),
    ("containment_codes", codesJson s.containmentCodes),
    ("redaction_count", .int s.redactionCount),
    ("local_evidence_refs", .arr (s.localEvidenceRefs.map .str))]

def signatureText (signature : List UInt8) : Json :=
  .str (String.ofList (Containment.b64encode signature))

namespace CanaryFindings

def unsignedFields (f : CanaryFindings) : List (String × Json) :=
  [("schema_version", .str findingsSchema), ("projection_id", .str f.projectionId),
   ("run_id", .str f.runId), ("grant_id", .str f.grantId), ("workspace_id", .str f.workspaceId),
   ("project_id", .str f.projectId), ("environment_id", .str f.environmentId),
   ("manifest_digest", .str f.manifestDigest),
   ("approval_projection_digest", .str f.approvalProjectionDigest),
   ("grant_digest", .str f.grantDigest), ("engine_version", .str f.engineVersion),
   ("adapter_versions", .arr (f.adapterVersions.map .str)), ("started_at_ms", .int f.startedAtMs),
   ("finished_at_ms", .int f.finishedAtMs), ("assessment_outcome", .str f.assessmentOutcome.name),
   ("scenario_results", .arr (f.scenarioResults.map ScenarioResult.json)),
   ("containment_codes", codesJson f.containmentCodes), ("redaction_count", .int f.redactionCount)]

def unsigned (f : CanaryFindings) : Json := .obj f.unsignedFields

def record (f : CanaryFindings) : Json :=
  .obj (f.unsignedFields ++ [("projection_digest", .str f.projectionDigest),
    ("signing_key_id", .str f.signingKeyId), ("signature_b64", signatureText f.signature)])

def findingCount (f : CanaryFindings) : Int :=
  (f.scenarioResults.filter (·.finding.isSome)).length

end CanaryFindings

/-- `_string(value, limit=..)`. -/
def contractText (value : String) (limit : Nat) : Except Refusal Unit := do
  require (byteSize value.toList ≤ limit) (contractFail "string length exceeded")
  require (value ≠ "") (contractFail "empty string")

/-- `_route`. -/
def contractRoute (route : String) : Except Refusal Unit := do
  contractText route 1024
  require (route.toList.head? = some '/' ∧
      route.toList.all (fun c => !(c.toNat < 0x20 || c.toNat == 0x7f)) ∧
      '?' ∉ route.toList ∧ '#' ∉ route.toList ∧ ¬ ['/', '/'] <:+: route.toList)
    (contractFail "unsafe route")

/-- `_enum_list(codes, _CONTAINMENT)`. -/
def contractCodes (codes : List Containment.EventCode) : Except Refusal Unit := do
  contractSortedUnique (codes.map Containment.EventCode.name)
  require (codes.all Containment.EventCode.operational) (contractFail "invalid enum")

/-- `^ev1_[0-9a-f]{64}$`. -/
def isEvidenceRef (ref : String) : Bool :=
  ref.toList.take 4 = "ev1_".toList ∧ ref.length = 68 ∧
    (ref.toList.drop 4).all Containment.isHexDigit

/-- The observations of one scenario; one record for each role makes the order that of the roles. -/
def validateObservations (observations : List Observation) : Except Refusal Unit := do
  require (observations.length ≤ 20) (contractFail "invalid list")
  observations.forM fun o => do
    contractIdentifier o.semanticRole
    contractInteger o.statusCode 100 599
  require ((observations.map (·.semanticRole)).Nodup) (contractFail "duplicate semantic record")
  require (observations.Pairwise fun a b => a.semanticRole.toList < b.semanticRole.toList)
    (contractFail "records must be sorted and unique")

def Finding.validate (f : Finding) : Except Refusal Unit := do
  contractText f.title 160
  [f.reachabilityRationale, f.recommendedControl, f.regressionSuggestion].forM fun s =>
    contractText s 2000

def ScenarioResult.validate (s : ScenarioResult) : Except Refusal Unit := do
  contractInteger s.ordinal
  [s.scenarioId, s.adapterVersion].forM fun t => contractIdentifier t
  contractRoute s.routeTemplate
  validateObservations s.observations
  s.finding.toList.forM Finding.validate
  contractCodes s.containmentCodes
  contractInteger s.redactionCount
  require (s.localEvidenceRefs.length ≤ 10) (contractFail "invalid list")
  require (s.localEvidenceRefs.Pairwise fun a b => a.toList < b.toList)
    (contractFail "list must be sorted and unique")
  require (s.localEvidenceRefs.all isEvidenceRef) (contractFail "invalid evidence reference")

/-- `validate_canary_findings`. -/
def CanaryFindings.validate (P : Platform) (f : CanaryFindings) : Except Refusal Unit := do
  let bytes ← Json.canonicalBytes P f.record
  require (byteSize bytes ≤ 256 * 1024) (contractFail "contract exceeds size limit")
  [f.projectionId, f.runId, f.grantId, f.workspaceId, f.projectId, f.environmentId,
    f.engineVersion].forM fun s => contractIdentifier s
  [f.manifestDigest, f.approvalProjectionDigest, f.grantDigest].forM fun s => contractHash s
  contractSortedUnique f.adapterVersions
  f.adapterVersions.forM fun s => contractIdentifier s
  contractInteger f.startedAtMs
  contractInteger f.finishedAtMs
  require (f.startedAtMs ≤ f.finishedAtMs) (contractFail "invalid findings timestamps")
  require (f.scenarioResults.length ≤ 4) (contractFail "invalid list")
  require (f.scenarioResults.map (·.ordinal) =
    (List.range f.scenarioResults.length).map Int.ofNat) (contractFail "non-contiguous ordinal")
  require ((f.scenarioResults.map (·.scenarioId)).Nodup) (contractFail "duplicate scenario result")
  f.scenarioResults.forM ScenarioResult.validate
  require ((f.scenarioResults.map (·.observations.length)).sum ≤ 20)
    (contractFail "too many observations")
  contractCodes f.containmentCodes
  contractInteger f.redactionCount
  contractHash f.projectionDigest
  contractIdentifier f.signingKeyId
  require (f.signature.length = 64) (contractFail "invalid base64 length")
  let expected ← Json.canonicalDigest P f.unsigned
  require (f.projectionDigest = expected) (contractFail "digest mismatch")

/-- The metadata of a projection: what the runner declares and the human approves. -/
structure Offer where
  projectionDigest : String
  byteCount : Int
  scenarioCount : Int
  findingCount : Int
  deriving DecidableEq, Repr

structure DisclosurePermit where
  permitId : String
  workspaceId : String
  projectId : String
  runId : String
  grantId : String
  runnerId : String
  runnerKeyId : String
  projection : Offer
  approvedBy : String
  approvedAtMs : Int
  issuedAtMs : Int
  expiresAtMs : Int
  permitNonce : String
  permitDigest : String
  signingKeyId : String
  signature : List UInt8
  deriving DecidableEq, Repr

namespace DisclosurePermit

def unsignedFields (p : DisclosurePermit) : List (String × Json) :=
  [("schema_version", .str permitSchema), ("permit_id", .str p.permitId),
   ("workspace_id", .str p.workspaceId), ("project_id", .str p.projectId),
   ("run_id", .str p.runId), ("grant_id", .str p.grantId),
   ("runner_binding", .obj [("runner_id", .str p.runnerId),
     ("runner_key_id", .str p.runnerKeyId)]),
   ("projection", .obj [("schema_version", .str findingsSchema),
     ("projection_digest", .str p.projection.projectionDigest),
     ("maximum_bytes", .int p.projection.byteCount),
     ("scenario_count", .int p.projection.scenarioCount),
     ("finding_count", .int p.projection.findingCount)]),
   ("approved_by", .str p.approvedBy), ("approved_at_ms", .int p.approvedAtMs),
   ("issued_at_ms", .int p.issuedAtMs), ("expires_at_ms", .int p.expiresAtMs),
   ("permit_nonce", .str p.permitNonce)]

def unsigned (p : DisclosurePermit) : Json := .obj p.unsignedFields

def record (p : DisclosurePermit) : Json :=
  .obj (p.unsignedFields ++ [("permit_digest", .str p.permitDigest),
    ("signing_key_id", .str p.signingKeyId), ("signature_b64", signatureText p.signature)])

/-- `validate_disclosure_permit`. -/
def validate (P : Platform) (p : DisclosurePermit) : Except Refusal Unit := do
  let bytes ← Json.canonicalBytes P p.record
  require (byteSize bytes ≤ 16 * 1024) (contractFail "contract exceeds size limit")
  [p.permitId, p.workspaceId, p.projectId, p.runId, p.grantId, p.approvedBy, p.permitNonce].forM
    fun s => contractIdentifier s
  [p.runnerId, p.runnerKeyId].forM fun s => contractIdentifier s
  contractHash p.projection.projectionDigest
  contractInteger p.projection.byteCount 1 262144
  contractInteger p.projection.scenarioCount 0 4
  contractInteger p.projection.findingCount 0 4
  contractInteger p.approvedAtMs
  contractInteger p.issuedAtMs
  contractInteger p.expiresAtMs
  require (p.issuedAtMs < p.expiresAtMs ∧ p.expiresAtMs ≤ p.issuedAtMs + 600000)
    (contractFail "invalid permit expiry")
  contractHash p.permitDigest
  contractIdentifier p.signingKeyId
  require (p.signature.length = 64) (contractFail "invalid base64 length")
  let expected ← Json.canonicalDigest P p.unsigned
  require (p.permitDigest = expected) (contractFail "digest mismatch")

end DisclosurePermit
end Heel.Cloud
