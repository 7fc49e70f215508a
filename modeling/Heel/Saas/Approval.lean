import Heel.Saas.Authorization

/-! `CanaryRunService.approve`: one human approval takes one unit and issues one grant. -/
namespace Heel.Cloud
open Lib Lib.Checks

def recentAuthMs : Int := 15 * 60 * 1000

/-- The arguments of `approve`. -/
structure ApproveRequest where
  workspaceId : String
  projectRef : String
  runId : String
  projectionDigest : String
  actor : String
  role : Role
  reason : String
  exactHostname : String
  recentAuthAtMs : Int
  idempotencyKey : String
  expectedKillSwitchGeneration : Int
  deriving DecidableEq, Repr

/-- What `approve` answers. -/
structure ExecutionApproved where
  runId : String
  grantId : String
  reservationId : String
  grant : IssuedGrant
  deriving DecidableEq, Repr

/-- `value` is a SHA-256 digest in hexadecimal. -/
def isHex64 (value : String) : Bool :=
  value.length = 64 ∧ value.toList.all Containment.isHexDigit

/-- The checks of `approve` on its arguments. -/
def approveArguments (env : CloudEnv) (q : ApproveRequest) : Except Refusal Unit := do
  require (env.identifier q.actor) (canaryRunError "invalid_approval_actor")
  require (isHex64 q.projectionDigest) (canaryRunError "invalid_canary_approval")
  require q.role.authorizes (canaryRunError "owner_admin_required")
  require (env.approvalReason q.reason) (canaryRunError "approval_reason_required")
  require (env.exactHostname q.exactHostname) (canaryRunError "hostname_confirmation_required")
  require (isIdempotencyKey q.idempotencyKey) (canaryRunError "invalid_idempotency_key")
  require (0 ≤ q.expectedKillSwitchGeneration) (canaryRunError "kill_switch_changed")
  require (q.recentAuthAtMs ≤ env.now + 30000 ∧ env.now - q.recentAuthAtMs ≤ recentAuthMs)
    (canaryRunError "recent_auth_required")

namespace CanaryDb

def run (db : CanaryDb) (workspaceId projectRef runId : String) : Option CanaryRun :=
  db.runs.find? fun r => r.workspaceId = workspaceId ∧ r.projectRef = projectRef ∧ r.runId = runId

def approval (db : CanaryDb) (workspaceId projectRef runId : String) : Option ApprovalRequest :=
  db.approvals.find? fun a =>
    a.workspaceId = workspaceId ∧ a.projectRef = projectRef ∧ a.runId = runId

/-- The grant that was issued under an idempotency key. -/
def grantOfKey (db : CanaryDb) (workspaceId key : String) : Option ExecutionGrant :=
  db.grants.find? fun g => g.workspaceId = workspaceId ∧ g.idempotencyKey = key

end CanaryDb

/-- A second `approve` under the same key: it names the same approval or is refused. -/
def replayApproval (q : ApproveRequest) (prior : ExecutionGrant) (db : CanaryDb) :
    Except Refusal ExecutionApproved := do
  require (prior.runId = q.runId) (canaryRunError "idempotency_conflict")
  match prior.grantJson, db.approval q.workspaceId q.projectRef q.runId with
  | none, _ | some _, none => .error (canaryRunError "idempotency_conflict")
  | some grant, some approval => do
    require (approval.approvedBy = some q.actor ∧ approval.reason = some q.reason ∧
      prior.approvalId = approval.approvalId) (canaryRunError "idempotency_conflict")
    require (approval.projectionDigest = q.projectionDigest ∧
      grant.projectionDigest = q.projectionDigest ∧ grant.hostname = q.exactHostname)
      (canaryRunError "idempotency_conflict")
    return ⟨q.runId, prior.grantId, prior.reservationId, grant⟩

/-- The checks of `approve` on the rows, up to the reservation: the approval it takes and the end
of the environment's proof. -/
def approvable (env : CloudEnv) (q : ApproveRequest) (db : CanaryDb) :
    Except Refusal (ApprovalRequest × PendingProjection × Int) :=
  match db.approval q.workspaceId q.projectRef q.runId with
  | none => .error (canaryRunError "approval_state_conflict")
  | some approval => do
    require (approval.status = .awaitingExecutionApproval)
      (canaryRunError "approval_state_conflict")
    require (approval.projectionDigest = q.projectionDigest)
      (canaryRunError "invalid_canary_approval")
    match approval.projectionJson with
    | none => .error (canaryRunError "approval_expired")
    | some projection => do
      require (env.now < approval.expiresAt) (canaryRunError "approval_expired")
      -- defence in depth: discovery rounds are issued only by their authorization
      require (projection.planKind ≠ some .discovery) (canaryRunError "approval_state_conflict")
      require (projection.planKind.isSome → env.planRequestFound)
        (canaryRunError "canary_authority_unavailable")
      require (projection.hostname = q.exactHostname)
        (canaryRunError "hostname_confirmation_mismatch")
      let proofExpiresAtMs ← env.authority
      require (approval.uploadedBy = approval.runnerId → env.binding.isSome)
        (canaryRunError "canary_authority_unavailable")
      env.binding.getD (.ok ())
      require (env.controlGeneration = q.expectedKillSwitchGeneration)
        (canaryRunError "kill_switch_changed")
      require (¬ env.killActive q.workspaceId) (canaryRunError "kill_switch_active")
      return (approval, projection, proofExpiresAtMs)

def ApproveRequest.reserveRequest (q : ApproveRequest) (env : CloudEnv) :
    Ledger.ReserveRequest where
  workspaceId := q.workspaceId
  meter := .canaryRuns
  amount := 1
  period := env.period
  idempotencyKey := some q.idempotencyKey
  ref := some q.runId
  quota := env.quota
  globalCap := env.globalCap
  fresh := env.freshReservation

def ApproveRequest.row (q : ApproveRequest) (env : CloudEnv) (approval : ApprovalRequest)
    (projection : PendingProjection) (reservationId : String) (expiresAt : Int) :
    ExecutionGrant where
  grantId := env.freshGrant
  workspaceId := q.workspaceId
  projectRef := q.projectRef
  approvalId := approval.approvalId
  runId := q.runId
  reservationId := reservationId
  idempotencyKey := q.idempotencyKey
  runnerId := approval.runnerId
  runnerKeyId := approval.runnerKeyId
  grantJson := some ⟨approval.projectionDigest, projection.hostname, env.controlGeneration⟩
  issuedAt := env.now
  expiresAt := expiresAt

def CanaryDb.markApproved (db : CanaryDb) (q : ApproveRequest) : CanaryDb :=
  { db with
    approvals := Table.update
      (fun a : ApprovalRequest => a.workspaceId = q.workspaceId ∧ a.projectRef = q.projectRef ∧
        a.runId = q.runId ∧ a.status = .awaitingExecutionApproval)
      (fun a => { a with status := .approved, approvedBy := some q.actor, reason := some q.reason })
      db.approvals }

/-- The run's row, once its grant is issued. -/
def CanaryDb.assignRun (db : CanaryDb) (env : CloudEnv) (g : ExecutionGrant) : CanaryDb :=
  { db with
    runs := Table.update
      (fun r : CanaryRun =>
        r.workspaceId = g.workspaceId ∧ r.projectRef = g.projectRef ∧ r.runId = g.runId)
      (fun r => { r with
        grantId := some g.grantId, status := .approved, reservationId := some g.reservationId
        quotaState := .reserved, killSwitchGeneration := env.controlGeneration
        updatedAt := env.now }) db.runs }

/-- The reservation, the grant and the updates of `approve`. -/
def issueApproved (env : CloudEnv) (q : ApproveRequest) (db : CanaryDb) :
    Except Refusal (CanaryDb × ExecutionApproved) := do
  let (approval, projection, proofExpiresAtMs) ← approvable env q db
  let (reservationId, ledger) ← db.ledger.reserve (q.reserveRequest env)
  let expiresAt := min (env.now + 600000) proofExpiresAtMs
  require (env.now < expiresAt) (canaryRunError "proof_not_executable")
  let g := q.row env approval projection reservationId expiresAt
  let db ← ({ db with ledger := ledger }.markApproved q).insertGrant g
  return (db.assignRun env g, ⟨q.runId, g.grantId, reservationId,
    ⟨approval.projectionDigest, projection.hostname, env.controlGeneration⟩⟩)

def approve (env : CloudEnv) (q : ApproveRequest) (db : CanaryDb) :
    Except Refusal (CanaryDb × ExecutionApproved) := do
  approveArguments env q
  requireOwnerAdmin env q.workspaceId q.actor q.role (canaryRunError "owner_admin_required")
  match db.run q.workspaceId q.projectRef q.runId with
  | none => .error ⟨.lookupError, "canary run not found"⟩
  | some _ =>
    match db.grantOfKey q.workspaceId q.idempotencyKey with
    | some prior => do
      let answer ← replayApproval q prior db
      return (db, answer)
    | none => issueApproved env q db

end Heel.Cloud
