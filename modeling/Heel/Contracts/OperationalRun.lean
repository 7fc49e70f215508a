import Heel.Runner.Containment

/-! The operational projection a runner reports and `validate_operational_run` of
`heel/canary_contracts.py`. -/
namespace Heel
open Lib.Checks

/-- The `lifecycle_phase` values, which are also the `status` values of a Cloud run. -/
inductive Phase where
  | prepared | awaitingExecutionApproval | approved | claimed | running | stopRequested
  | finalizing | terminal | cancelled | expired
  deriving DecidableEq, Repr

inductive Disposition where
  | completed | incomplete | failed | stopped
  deriving DecidableEq, Repr

/-- `_ERRORS`. -/
inductive ErrorCategory where
  | none | platformFault | runnerFault | targetUnavailable | proofExpired | dnsChanged
  | credentialUnavailable | versionMismatch | budgetExhausted | containmentRejected
  | cloudDisconnected
  deriving DecidableEq, Repr

/-- `_STOPS`. -/
inductive StopReason where
  | none | localEmergencyStop | cloudStop | runnerRevoked | targetRevoked | killSwitch
  deriving DecidableEq, Repr

def Phase.name : Phase → String
  | .prepared => "prepared"
  | .awaitingExecutionApproval => "awaiting_execution_approval"
  | .approved => "approved"
  | .claimed => "claimed"
  | .running => "running"
  | .stopRequested => "stop_requested"
  | .finalizing => "finalizing"
  | .terminal => "terminal"
  | .cancelled => "cancelled"
  | .expired => "expired"

def Disposition.name : Disposition → String
  | .completed => "completed"
  | .incomplete => "incomplete"
  | .failed => "failed"
  | .stopped => "stopped"

def ErrorCategory.name : ErrorCategory → String
  | .none => "none"
  | .platformFault => "platform_fault"
  | .runnerFault => "runner_fault"
  | .targetUnavailable => "target_unavailable"
  | .proofExpired => "proof_expired"
  | .dnsChanged => "dns_changed"
  | .credentialUnavailable => "credential_unavailable"
  | .versionMismatch => "version_mismatch"
  | .budgetExhausted => "budget_exhausted"
  | .containmentRejected => "containment_rejected"
  | .cloudDisconnected => "cloud_disconnected"

def StopReason.name : StopReason → String
  | .none => "none"
  | .localEmergencyStop => "local_emergency_stop"
  | .cloudStop => "cloud_stop"
  | .runnerRevoked => "runner_revoked"
  | .targetRevoked => "target_revoked"
  | .killSwitch => "kill_switch"

structure Timestamps where
  claimedAtMs : Option Int
  startedAtMs : Option Int
  updatedAtMs : Int
  stopRequestedAtMs : Option Int
  stopAcknowledgedAtMs : Option Int
  terminalAtMs : Option Int
  deriving DecidableEq, Repr

/-- The seven counters of a projection: the five of the containment log and what is left. -/
structure RunCounters extends Containment.Counters where
  remainingRequests : Int
  remainingWallMs : Int
  deriving DecidableEq, Repr

structure OperationalRun where
  runId : String
  grantId : String
  workspaceId : String
  projectId : String
  manifestDigest : String
  approvalProjectionDigest : String
  grantDigest : String
  eventSequence : Int
  lifecyclePhase : Phase
  executionDisposition : Option Disposition
  timestamps : Timestamps
  counters : RunCounters
  runnerVersion : String
  engineVersion : String
  adapterVersions : List String
  errorCategory : ErrorCategory
  stopReason : StopReason
  containmentCodes : List Containment.EventCode
  redactionCount : Int
  projectionDigest : String
  signingKeyId : String
  signature : List UInt8
  deriving DecidableEq, Repr

namespace OperationalRun

def schema : String := "heel.operational-run-projection.v1"

def timestampsJson (t : Timestamps) : Json :=
  .obj [("claimed_at_ms", Json.optional .int t.claimedAtMs),
    ("started_at_ms", Json.optional .int t.startedAtMs), ("updated_at_ms", .int t.updatedAtMs),
    ("stop_requested_at_ms", Json.optional .int t.stopRequestedAtMs),
    ("stop_acknowledged_at_ms", Json.optional .int t.stopAcknowledgedAtMs),
    ("terminal_at_ms", Json.optional .int t.terminalAtMs)]

def countersJson (c : RunCounters) : Json :=
  .obj ((Containment.CounterField.all.map fun f => (f.name, Json.int (c.toCounters.get f))) ++
    [("remaining_requests", .int c.remainingRequests),
     ("remaining_wall_ms", .int c.remainingWallMs)])

def unsignedFields (v : OperationalRun) : List (String × Json) :=
  [("schema_version", .str schema), ("run_id", .str v.runId), ("grant_id", .str v.grantId),
   ("workspace_id", .str v.workspaceId), ("project_id", .str v.projectId),
   ("manifest_digest", .str v.manifestDigest),
   ("approval_projection_digest", .str v.approvalProjectionDigest),
   ("grant_digest", .str v.grantDigest), ("event_sequence", .int v.eventSequence),
   ("lifecycle_phase", .str v.lifecyclePhase.name),
   ("execution_disposition", Json.optional (fun d => .str d.name) v.executionDisposition),
   ("timestamps", timestampsJson v.timestamps), ("counters", countersJson v.counters),
   ("versions", .obj [("runner_version", .str v.runnerVersion),
     ("engine_version", .str v.engineVersion),
     ("adapter_versions", .arr (v.adapterVersions.map .str))]),
   ("error_category", .str v.errorCategory.name), ("stop_reason", .str v.stopReason.name),
   ("containment_codes", .arr (v.containmentCodes.map fun c => .str c.name)),
   ("redaction_count", .int v.redactionCount)]

def unsigned (v : OperationalRun) : Json := .obj v.unsignedFields

end OperationalRun

open Json (contractFail)

/-- `_string(value, identifier=True)`. -/
def contractIdentifier (value : String) : Except Refusal Unit := do
  require (byteSize value.toList ≤ 128) (contractFail "string length exceeded")
  require (value ≠ "") (contractFail "empty string")

def contractHash (value : String) : Except Refusal Unit := do
  contractIdentifier value
  require (value.length = 64 ∧ value.toList.all Containment.isHexDigit)
    (contractFail "invalid SHA-256 digest")

def contractInteger (value : Int) (lower : Int := 0) (upper : Int := Json.safeInt) :
    Except Refusal Unit :=
  require (lower ≤ value ∧ value ≤ upper) (contractFail "integer outside permitted range")

/-- `_list(value, maximum=20, sorted_unique=True)`. -/
def contractSortedUnique (values : List String) : Except Refusal Unit := do
  require (values.length ≤ 20) (contractFail "invalid list")
  require (values.Pairwise (fun a b => a.toList < b.toList))
    (contractFail "list must be sorted and unique")

/-- `a is None or a <= b`. -/
def absentOrLe (a : Option Int) (b : Int) : Bool := a.all (fun m => decide (m ≤ b))

/-- `a is None or (b is not None and b <= a)`. -/
def absentOrAfter (a b : Option Int) : Bool := a.all (fun m => b.any (fun n => decide (n ≤ m)))

/-- What each phase demands of the timestamps. -/
def phaseTimestamps (phase : Phase) (t : Timestamps) : Except Refusal Unit :=
  match phase with
  | .prepared | .awaitingExecutionApproval | .approved =>
    require (t.claimedAtMs = none ∧ t.startedAtMs = none ∧ t.stopRequestedAtMs = none ∧
      t.stopAcknowledgedAtMs = none) (contractFail "invalid pre-claim timestamps")
  | .claimed =>
    require (t.claimedAtMs ≠ none ∧ t.startedAtMs = none ∧ t.stopRequestedAtMs = none ∧
      t.stopAcknowledgedAtMs = none) (contractFail "invalid claimed timestamps")
  | .running =>
    require (t.claimedAtMs ≠ none ∧ t.startedAtMs ≠ none ∧ t.stopRequestedAtMs = none ∧
      t.stopAcknowledgedAtMs = none) (contractFail "invalid running timestamps")
  | .stopRequested =>
    require (t.claimedAtMs ≠ none ∧ t.startedAtMs ≠ none ∧ t.stopRequestedAtMs ≠ none)
      (contractFail "invalid stop-request timestamps")
  | .finalizing =>
    require (t.claimedAtMs ≠ none ∧ t.startedAtMs ≠ none)
      (contractFail "invalid finalizing timestamps")
  | .terminal =>
    require (t.claimedAtMs ≠ none ∧ t.startedAtMs ≠ none)
      (contractFail "invalid terminal timestamps")
  | .cancelled | .expired =>
    require (t.claimedAtMs = none ∧ t.startedAtMs = none ∧ t.stopRequestedAtMs = none ∧
      t.stopAcknowledgedAtMs = none ∧ t.terminalAtMs = none)
      (contractFail "invalid pre-claim terminal timestamps")

def Timestamps.events (t : Timestamps) : List (Option Int) :=
  [t.claimedAtMs, t.startedAtMs, t.stopRequestedAtMs, t.stopAcknowledgedAtMs]

def validateTimestamps (phase : Phase) (t : Timestamps) : Except Refusal Unit := do
  (t.updatedAtMs :: (t.events ++ [t.terminalAtMs]).reduceOption).forM fun m => contractInteger m
  require ((phase = .terminal) ↔ t.terminalAtMs ≠ none)
    (contractFail "terminal timestamp consistency")
  require (absentOrAfter t.startedAtMs t.claimedAtMs) (contractFail "invalid claim/start ordering")
  require (absentOrAfter t.stopAcknowledgedAtMs t.stopRequestedAtMs)
    (contractFail "invalid stop ordering")
  require (t.terminalAtMs.all fun m => t.events.all (absentOrLe · m))
    (contractFail "invalid terminal ordering")
  require ((t.events ++ [t.terminalAtMs]).all (absentOrLe · t.updatedAtMs))
    (contractFail "updated timestamp precedes event")
  phaseTimestamps phase t

def RunCounters.values (c : RunCounters) : List Int :=
  Containment.CounterField.all.map c.toCounters.get ++ [c.remainingRequests, c.remainingWallMs]

def validateRunCounters (c : RunCounters) : Except Refusal Unit := do
  c.values.forM fun n => contractInteger n
  require (c.requestsStarted ≤ 20 ∧ c.requestsCompleted ≤ c.requestsStarted ∧
      c.actionsContained ≤ c.requestsStarted ∧ c.actionsContained ≤ 20 ∧ c.retriesUsed ≤ 1 ∧
      c.remainingRequests ≤ 20 ∧ c.requestsStarted + c.remainingRequests ≤ 20 ∧
      c.remainingWallMs ≤ 60000) (contractFail "operational counter ceiling")

namespace OperationalRun

/-- The members of `_CONTAINMENT`, sorted as their names are. -/
def validateContainmentCodes (codes : List Containment.EventCode) : Except Refusal Unit := do
  contractSortedUnique (codes.map Containment.EventCode.name)
  require (codes.all Containment.EventCode.operational) (contractFail "invalid enum")

def record (v : OperationalRun) : Json :=
  .obj (v.unsignedFields ++ [("projection_digest", .str v.projectionDigest),
    ("signing_key_id", .str v.signingKeyId),
    ("signature_b64", .str (String.ofList (Containment.b64encode v.signature)))])

/-- `validate_operational_run`. The closed field names, which keep the forbidden ones out, and
the enumerations are the types of `OperationalRun`. -/
def validate (P : Platform) (v : OperationalRun) : Except Refusal Unit := do
  let bytes ← Json.canonicalBytes P v.record
  require (byteSize bytes ≤ 32 * 1024) (contractFail "contract exceeds size limit")
  [v.runId, v.grantId, v.workspaceId, v.projectId].forM fun s => contractIdentifier s
  [v.manifestDigest, v.approvalProjectionDigest, v.grantDigest].forM fun s => contractHash s
  contractInteger v.eventSequence
  require ((v.lifecyclePhase = .terminal) ↔ v.executionDisposition ≠ none)
    (contractFail "preterminal disposition")
  validateTimestamps v.lifecyclePhase v.timestamps
  validateRunCounters v.counters
  [v.runnerVersion, v.engineVersion].forM fun s => contractIdentifier s
  contractSortedUnique v.adapterVersions
  v.adapterVersions.forM fun s => contractIdentifier s
  validateContainmentCodes v.containmentCodes
  contractInteger v.redactionCount
  contractHash v.projectionDigest
  contractIdentifier v.signingKeyId
  require (v.signature.length = 64) (contractFail "invalid base64 length")
  let expected ← Json.canonicalDigest P v.unsigned
  require (v.projectionDigest = expected) (contractFail "digest mismatch")

end OperationalRun
/-- `_FAILURE_CODES` of the target transport. -/
inductive FailureCode where
  | cancelled | concurrencyExceeded | connectError | dnsChanged | gateRejected | evidenceRejected
  | invalidAuth | invalidOrigin | invalidRoute | peerMismatch | responseRejected
  | responseTooLarge | timeout | tlsError | unsafeDns
  deriving DecidableEq, Repr

def FailureCode.name : FailureCode → String
  | .cancelled => "cancelled"
  | .concurrencyExceeded => "concurrency_exceeded"
  | .connectError => "connect_error"
  | .dnsChanged => "dns_changed"
  | .gateRejected => "gate_rejected"
  | .evidenceRejected => "evidence_rejected"
  | .invalidAuth => "invalid_auth"
  | .invalidOrigin => "invalid_origin"
  | .invalidRoute => "invalid_route"
  | .peerMismatch => "peer_mismatch"
  | .responseRejected => "response_rejected"
  | .responseTooLarge => "response_too_large"
  | .timeout => "timeout"
  | .tlsError => "tls_error"
  | .unsafeDns => "unsafe_dns"

structure Budgets where
  maximumRequests : Int
  wallTimeoutMs : Int
  maximumResponseBytes : Int
  deriving DecidableEq, Repr

structure RetryPolicy where
  maximumRetries : Int
  retryableFailureCodes : List FailureCode
  deriving DecidableEq, Repr

/-- What Cloud reads of an approval, and again of the grant, to judge a projection. -/
structure Limits where
  budgets : Budgets
  retryPolicy : RetryPolicy
  deriving DecidableEq, Repr

end Heel
