import Heel.Contracts.Json

/-! The closed codec of `heel/saas/host_authority.py`: the request a host sends about one
generation, the snapshot that answers it, and the checks both sides make of them. -/
namespace Heel.Host
open Json

def safeInt : Int := 2^53

def maxResponseBytes : Nat := 4096

def isHex (c : Char) : Bool := ('0' ≤ c ∧ c ≤ '9') ∨ ('a' ≤ c ∧ c ≤ 'f')

def isLowerDigit (c : Char) : Bool := ('0' ≤ c ∧ c ≤ '9') ∨ ('a' ≤ c ∧ c ≤ 'z')

/-- `[0-9a-f]{n}`. -/
def hexText (n : Nat) (s : String) : Bool := s.toList.length = n ∧ s.toList.all isHex

/-- A literal head and `[0-9a-f]{n}`. -/
def tagged (tag : String) (n : Nat) (s : String) : Bool :=
  s.toList.take tag.toList.length = tag.toList ∧
    hexText n (String.ofList (s.toList.drop tag.toList.length))

/-- `[A-Za-z0-9_-]{1,128}`. -/
def tokenText (s : String) : Bool :=
  1 ≤ s.toList.length ∧ s.toList.length ≤ 128 ∧
    s.toList.all fun c => isLowerDigit c || ('A' ≤ c ∧ c ≤ 'Z') || c = '_' || c = '-'

/-- `[a-z0-9-]{8,64}`. -/
def epochText (s : String) : Bool :=
  8 ≤ s.toList.length ∧ s.toList.length ≤ 64 ∧ s.toList.all fun c => isLowerDigit c || c = '-'

/-- `[a-z0-9](?:[a-z0-9-]{0,n}[a-z0-9])?`. -/
def labelText (n : Nat) (s : List Char) : Bool :=
  1 ≤ s.length ∧ s.length ≤ n + 2 ∧ s.all (fun c => isLowerDigit c || c = '-') ∧
    s.head?.any isLowerDigit ∧ s.getLast?.any isLowerDigit

/-- The pattern of `egress_hostname`: two labels or more, 253 characters at most. -/
def hostnameText (s : String) : Bool :=
  let labels := s.toList.splitOn '.'
  1 ≤ s.toList.length ∧ s.toList.length ≤ 253 ∧ 2 ≤ labels.length ∧ labels.all (labelText 61)

/-- A request; `schema_version` is constant. -/
structure HostRequest where
  hostBootEpoch : String
  slotId : String
  requestNonce : String
  generationId : String
  workspaceId : String
  projectId : String
  environmentId : String
  verificationRecordDigest : String
  runnerId : String
  runnerKeyId : String
  bindingId : String
  bindingDigest : String
  runId : String
  grantId : String
  grantDigest : String
  sequence : Int
  monotonicMs : Int
  killSwitchGeneration : Int
  deriving DecidableEq, Repr

def HostRequest.document (q : HostRequest) : Json :=
  .obj [("schema_version", .str "heel.host-authority-request.v1"),
    ("host_boot_epoch", .str q.hostBootEpoch), ("slot_id", .str q.slotId),
    ("request_nonce", .str q.requestNonce), ("generation_id", .str q.generationId),
    ("workspace_id", .str q.workspaceId), ("project_id", .str q.projectId),
    ("environment_id", .str q.environmentId),
    ("verification_record_digest", .str q.verificationRecordDigest),
    ("runner_id", .str q.runnerId), ("runner_key_id", .str q.runnerKeyId),
    ("binding_id", .str q.bindingId), ("binding_digest", .str q.bindingDigest),
    ("run_id", .str q.runId), ("grant_id", .str q.grantId), ("grant_digest", .str q.grantDigest),
    ("sequence", .int q.sequence), ("monotonic_ms", .int q.monotonicMs),
    ("kill_switch_generation", .int q.killSwitchGeneration)]

/-- The fields of a request that `validate_request` returns. -/
def HostRequest.valid (q : HostRequest) : Bool :=
  epochText q.hostBootEpoch && labelText 30 q.slotId.toList && hexText 32 q.requestNonce &&
  hexText 32 q.generationId && tagged "ws_" 16 q.workspaceId && tagged "prj_" 32 q.projectId &&
  tagged "env_" 32 q.environmentId && hexText 64 q.verificationRecordDigest &&
  tokenText q.runnerId && tokenText q.runnerKeyId && tagged "rcb_" 32 q.bindingId &&
  hexText 64 q.bindingDigest && tagged "crun_" 32 q.runId && tokenText q.grantId &&
  hexText 64 q.grantDigest && decide (1 ≤ q.sequence ∧ q.sequence ≤ safeInt) &&
  decide (0 ≤ q.monotonicMs ∧ q.monotonicMs ≤ safeInt) &&
  decide (0 ≤ q.killSwitchGeneration ∧ q.killSwitchGeneration ≤ safeInt)

/-- `request_digest`; a request holds ASCII text only, so its escapes are those of `dumps`. -/
def requestDigest (P : Platform) (q : HostRequest) : String := P.sha256 (dumps q.document)

/-- `REASONS`. -/
inductive HostReason where
  | none | workspaceUnknown | projectUnknown | noActiveRun | multipleActiveRuns | runNotActive
  | stopRequested | grantNotClaimed | grantExpired | invalidGrant | proofExpired | proofRevoked
  | verificationDigestReplaced | runnerRevoked | keyRevoked | bindingInactive | bindingExpired
  | killSwitchActive | killSwitchGenerationChanged | tupleMismatch | malformedRequest | cpDraining
  | replayedSequence | clockGap
  deriving DecidableEq, Repr

def HostReason.text : HostReason → String
  | none => "none"
  | workspaceUnknown => "workspace_unknown"
  | projectUnknown => "project_unknown"
  | noActiveRun => "no_active_run"
  | multipleActiveRuns => "multiple_active_runs"
  | runNotActive => "run_not_active"
  | stopRequested => "stop_requested"
  | grantNotClaimed => "grant_not_claimed"
  | grantExpired => "grant_expired"
  | invalidGrant => "invalid_grant"
  | proofExpired => "proof_expired"
  | proofRevoked => "proof_revoked"
  | verificationDigestReplaced => "verification_digest_replaced"
  | runnerRevoked => "runner_revoked"
  | keyRevoked => "key_revoked"
  | bindingInactive => "binding_inactive"
  | bindingExpired => "binding_expired"
  | killSwitchActive => "kill_switch_active"
  | killSwitchGenerationChanged => "kill_switch_generation_changed"
  | tupleMismatch => "tuple_mismatch"
  | malformedRequest => "malformed_request"
  | cpDraining => "cp_draining"
  | replayedSequence => "replayed_sequence"
  | clockGap => "clock_gap"

/-- The members an active reply has besides. -/
structure ActiveFields where
  workspaceId : String
  projectId : String
  environmentId : String
  verificationRecordDigest : String
  runnerId : String
  runnerKeyId : String
  publicKeyDigest : String
  bindingId : String
  bindingDigest : String
  runId : String
  runStatus : String
  stopReason : String
  grantId : String
  grantDigest : String
  egressHostname : String
  egressPort : Int
  proofExpiresAtMs : Int
  bindingExpiresAtMs : Int
  grantExpiresAtMs : Int
  deriving DecidableEq, Repr

/-- A snapshot; the decision is `active` exactly when it has the fields of an active one. -/
structure HostReply where
  reason : HostReason
  sequence : Int
  requestDigest : String
  serverTimeMs : Int
  killSwitchGeneration : Int
  active : Option ActiveFields
  deriving DecidableEq, Repr

def ActiveFields.members (a : ActiveFields) : List (String × Json) :=
  [("workspace_id", .str a.workspaceId), ("project_id", .str a.projectId),
    ("environment_id", .str a.environmentId),
    ("verification_record_digest", .str a.verificationRecordDigest),
    ("runner_id", .str a.runnerId), ("runner_key_id", .str a.runnerKeyId),
    ("public_key_digest", .str a.publicKeyDigest), ("binding_id", .str a.bindingId),
    ("binding_digest", .str a.bindingDigest), ("run_id", .str a.runId),
    ("run_status", .str a.runStatus), ("stop_reason", .str a.stopReason),
    ("grant_id", .str a.grantId), ("grant_digest", .str a.grantDigest),
    ("egress_hostname", .str a.egressHostname), ("egress_port", .int a.egressPort),
    ("proof_expires_at_ms", .int a.proofExpiresAtMs),
    ("binding_expires_at_ms", .int a.bindingExpiresAtMs),
    ("grant_expires_at_ms", .int a.grantExpiresAtMs)]

def HostReply.document (r : HostReply) : Json :=
  .obj ([("schema_version", .str "heel.host-authority-snapshot.v1"),
    ("decision", .str (if r.active.isSome then "active" else "inactive")),
    ("reason", .str r.reason.text), ("sequence", .int r.sequence),
    ("request_digest", .str r.requestDigest), ("server_time_ms", .int r.serverTimeMs),
    ("kill_switch_generation", .int r.killSwitchGeneration)] ++
      (r.active.map ActiveFields.members).getD [])

def portable (n : Int) : Bool := 0 ≤ n ∧ n ≤ safeInt

/-- `_ACTIVE_STRINGS` and `_ACTIVE_INTEGERS`. -/
def ActiveFields.valid (a : ActiveFields) : Bool :=
  tagged "ws_" 16 a.workspaceId && tagged "prj_" 32 a.projectId &&
  tagged "env_" 32 a.environmentId && hexText 64 a.verificationRecordDigest &&
  tokenText a.runnerId && tokenText a.runnerKeyId && hexText 64 a.publicKeyDigest &&
  tagged "rcb_" 32 a.bindingId && hexText 64 a.bindingDigest && tagged "crun_" 32 a.runId &&
  (a.runStatus = "claimed" || a.runStatus = "running") && a.stopReason = "none" &&
  tokenText a.grantId && hexText 64 a.grantDigest && hostnameText a.egressHostname &&
  portable a.proofExpiresAtMs && portable a.bindingExpiresAtMs && portable a.grantExpiresAtMs &&
  a.egressPort = 443

def validateResponse (P : Platform) (r : HostReply) (q : HostRequest) : Bool :=
  decide ((r.reason = .none) ↔ r.active.isSome = true) &&
  decide (r.sequence = q.sequence) && decide (r.requestDigest = requestDigest P q) &&
  portable r.serverTimeMs && portable r.killSwitchGeneration &&
  r.active.all ActiveFields.valid && decide ((dumps r.document).length ≤ maxResponseBytes)

end Heel.Host
