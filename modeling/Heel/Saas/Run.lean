import Heel.Saas.Ledger
import Heel.Saas.Source

/-! The rows Cloud keeps of one approved run and the helpers of `CanaryRunService` in
`heel/saas/canary_runs.py` that its transactions share: the stops Cloud records by itself, the
validation of a projection, the receipt, the quota unit and the gate. -/
namespace Heel.Cloud
open Lib.Checks

inductive GrantStatus where
  | prepared | approved | issued | claimed | expired | revoked | terminal
  deriving DecidableEq, Repr

inductive QuotaState where
  | unreserved | reserved | consumed | refunded | compensated
  deriving DecidableEq, Repr

inductive RunnerStatus where
  | active | disabled | revoked | replaced
  deriving DecidableEq, Repr

inductive EnvironmentStatus where
  | pending | verified | revoked
  deriving DecidableEq, Repr

inductive AuthorizationState where
  | opened | done | revoked | expired
  deriving DecidableEq, Repr

def stopDeadlineMs : Int := 5000
def operationalRetentionMs : Int := 7 * 24 * 60 * 60 * 1000
def projectionRetentionMs : Int := 24 * 60 * 60 * 1000

/-- The environment an approval and its grant name. -/
structure Target where
  environmentId : String
  verificationRecordDigest : String
  deriving DecidableEq, Repr

/-- What Cloud reads of the stored approval projection. -/
structure Approval where
  workspaceId : String
  projectId : String
  projectionDigest : String
  manifestDigest : String
  runnerId : String
  runnerKeyId : String
  environment : Target
  limits : Limits
  deriving DecidableEq, Repr

/-- What Cloud reads of the stored execution grant. -/
structure Grant where
  grantId : String
  grantDigest : String
  runId : String
  workspaceId : String
  projectId : String
  projectionDigest : String
  manifestDigest : String
  runnerId : String
  runnerKeyId : String
  environment : Target
  limits : Limits
  killSwitchGeneration : Int
  deriving DecidableEq, Repr

/-- The columns that name the run, its grant and its approval; no transaction writes them. -/
structure Binding where
  runId : String
  workspaceId : String
  projectRef : String
  grantId : String
  runnerId : String
  runnerKeyId : String
  grantDigest : String
  approvalProjectionDigest : String
  manifestDigest : String
  /-- NULL for the run of a discovery round; only the unit of a `reserved` run is ever settled. -/
  reservationId : String
  killSwitchGeneration : Int
  createdAt : Int
  /-- `issued_at` of the grant. -/
  issuedAt : Int
  deriving DecidableEq, Repr

/-- `STOP_ACK_WITNESS_COLUMNS`. -/
structure StopAckWitness where
  sourceEventSequence : Option Int := none
  projectionDigest : Option String := none
  runnerLocalAtMs : Option Int := none
  deriving DecidableEq, Repr

/-- A row of `canary_runs`; `binding` holds the columns that are never written again. -/
structure Run where
  binding : Binding
  status : Phase := .approved
  executionDisposition : Option Disposition := none
  errorCategory : ErrorCategory := .none
  stopReason : StopReason := .none
  sourceEventSequence : Int := -1
  sourceProjectionDigest : Option String := none
  cloudEventSequence : Nat := 0
  lastHeartbeatAtMs : Option Int := none
  lastGateAtMs : Option Int := none
  claimedAtMs : Option Int := none
  startedAtMs : Option Int := none
  stopRequestedAtMs : Option Int := none
  stopAcknowledgedAtMs : Option Int := none
  terminalAtMs : Option Int := none
  stopGeneration : Int := 0
  stopDeadlineAtMs : Option Int := none
  stopAckLate : Bool := false
  witness : StopAckWitness := {}
  quotaState : QuotaState := .reserved
  updatedAt : Int
  deriving DecidableEq, Repr

structure GrantRow where
  status : GrantStatus := .issued
  expiresAt : Int
  purgeAt : Int
  grantJson : Option Grant
  nonceConsumed : Bool := false
  deriving DecidableEq, Repr

structure ApprovalRow where
  purgeAt : Int
  projectionJson : Option Approval
  deriving DecidableEq, Repr

/-- A row of `canary_operational_receipts`; a purge empties `receiptJson` only. -/
structure ReceiptRow where
  lifecyclePhase : Phase
  errorCategory : ErrorCategory
  purgeAt : Int
  receiptJson : Option OperationalRun
  deriving DecidableEq, Repr

/-- The rows of one run and the usage ledger. -/
structure RunDb where
  run : Run
  grant : GrantRow
  approval : ApprovalRow
  receipt : Option ReceiptRow := none
  ledger : Ledger
  deriving DecidableEq, Repr

/-- The readings of the clock inside one transaction. -/
inductive Reading where
  | start | authorityStop | received | heartbeat | liveCheck | discoveryStop | gate | gateStop
  deriving DecidableEq, Repr

/-- The discovery authorization of the run's round, while that round is in state `issued`. -/
structure RoundView where
  state : AuthorizationState
  expiresAtMs : Int
  deriving DecidableEq, Repr

/-- What a transaction on a run reads of the rows that others write, and of the clock. -/
structure Env where
  now : Reading → Int
  controlGeneration : Int
  killActive : Bool
  verificationRecordDigest : Option String
  environmentStatus : EnvironmentStatus
  proofRevoked : Bool
  proofExpiresAtMs : Option Int
  runnerStatus : RunnerStatus
  keyActive : Bool
  keyRevoked : Bool
  publicKey : List UInt8
  recordsVerify : Bool
  round : Option RoundView

variable (P : Platform) (env : Env)

/-- The trusted fields of `_server_receipt_time`. -/
def Run.trustedTimes (r : Run) : List Int :=
  r.binding.createdAt :: [r.claimedAtMs, r.lastHeartbeatAtMs, r.lastGateAtMs, r.stopRequestedAtMs,
    r.stopAcknowledgedAtMs, r.terminalAtMs].reduceOption

def serverReceiptTime (now : Int) (r : Run) : Int := r.trustedTimes.foldl max now

/-- The CHECK of `canary_runs` on `updated_at`, where a transaction writes its own clock there. -/
def Binding.checkUpdated (b : Binding) (now : Int) : Except Refusal Unit :=
  require (b.createdAt ≤ now) ⟨.integrityError, "canary_runs"⟩

/-- The CHECKs of the grant and of its approval on `purge_at`. -/
def Binding.checkPurge (b : Binding) (purgeAt : Int) : Except Refusal Unit := do
  require (b.issuedAt < purgeAt) ⟨.integrityError, "canary_execution_grants"⟩
  require (b.createdAt < purgeAt) ⟨.integrityError, "canary_approval_projections"⟩

theorem Binding.checkUpdated_ok {b : Binding} {now : Int} {u : Unit} :
    b.checkUpdated now = .ok u ↔ b.createdAt ≤ now := by
  simp [Binding.checkUpdated]

theorem Binding.checkPurge_ok {b : Binding} {purgeAt : Int} {u : Unit} :
    b.checkPurge purgeAt = .ok u ↔ b.issuedAt < purgeAt ∧ b.createdAt < purgeAt := by
  simp [Binding.checkPurge]

/-- `_append_event`, as far as the run's row shows it. -/
def RunDb.appendEvent (db : RunDb) : RunDb :=
  { db with run := { db.run with cloudEventSequence := db.run.cloudEventSequence + 1 } }

/-- The source columns and the receipt of the run. -/
def RunDb.source (db : RunDb) : Source where
  sourceEventSequence := db.run.sourceEventSequence
  sourceProjectionDigest := db.run.sourceProjectionDigest
  receipt := db.receipt.bind ReceiptRow.receiptJson

def storedOperationalAuthority (db : RunDb) : Except Refusal (Approval × Grant) :=
  match db.approval.projectionJson, db.grant.grantJson with
  | some approval, some grant => do
    let b := db.run.binding
    require (env.recordsVerify ∧
      approval.projectionDigest = b.approvalProjectionDigest ∧
      approval.manifestDigest = b.manifestDigest ∧
      approval.workspaceId = b.workspaceId ∧ approval.projectId = b.projectRef ∧
      approval.runnerId = b.runnerId ∧ approval.runnerKeyId = b.runnerKeyId ∧
      grant.grantId = b.grantId ∧ grant.grantDigest = b.grantDigest ∧ grant.runId = b.runId ∧
      grant.workspaceId = b.workspaceId ∧ grant.projectId = b.projectRef ∧
      grant.projectionDigest = approval.projectionDigest ∧
      grant.manifestDigest = approval.manifestDigest ∧
      grant.runnerId = b.runnerId ∧ grant.runnerKeyId = b.runnerKeyId ∧
      grant.environment = approval.environment ∧ grant.limits = approval.limits)
      (canaryRunError "operational_binding_mismatch")
    return (approval, grant)
  | _, _ => .error (canaryRunError "operational_binding_mismatch")

def verificationDigestMatches (approval : Approval) (grant : Grant) : Bool :=
  decide (env.verificationRecordDigest = some approval.environment.verificationRecordDigest ∧
    env.verificationRecordDigest = some grant.environment.verificationRecordDigest)

/-- The columns a stop of Cloud's own sets. -/
def RunDb.stopped (db : RunDb) (reason : StopReason) (status : Phase) (now : Int) : RunDb :=
  { db with run := { db.run with
      status := status
      stopReason := reason
      stopGeneration := env.controlGeneration
      stopRequestedAtMs := some now
      stopDeadlineAtMs := some (now + stopDeadlineMs)
      updatedAt := now } }

/-- `finalizing` stays, every other status becomes `stop_requested`. -/
def stopStatus (status : Phase) : Phase :=
  if status = .finalizing then .finalizing else .stopRequested

def persistAuthorityStop (reading : Reading) (db : RunDb) : RunDb :=
  if db.run.status ∈ [Phase.terminal, .cancelled, .expired] ∨ db.run.stopReason ≠ .none then db
  else
    let now := serverReceiptTime (env.now reading) db.run
    let db' := db.stopped env .targetRevoked (stopStatus db.run.status) now
    RunDb.appendEvent { db' with run := { db'.run with errorCategory := .versionMismatch } }

def persistDiscoveryStop (now : Int) (db : RunDb) : RunDb :=
  if db.run.stopReason = .none ∧ db.run.status ∈ [Phase.claimed, .running, .finalizing] then
    let now := max now (serverReceiptTime (env.now .discoveryStop) db.run)
    (db.stopped env .cloudStop (stopStatus db.run.status) now).appendEvent
  else db

/-- The part of `_stop_discovery_rounds_in_transaction` that is about this run's round. -/
def stopDiscoveryRound (now : Int) (db : RunDb) : RunDb :=
  if db.run.status = .approved then
    if db.grant.status = .issued then
      RunDb.appendEvent { db with grant := { db.grant with status := .revoked } }
    else db
  else persistDiscoveryStop env now db

/-- `_discovery_live_check_in_transaction`: an authorization found due is closed first. -/
def discoveryLiveCheck (now : Int) (db : RunDb) : RunDb :=
  match env.round with
  | none => db
  | some round =>
    if round.state = .opened ∧ ¬ round.expiresAtMs ≤ now then db
    else stopDiscoveryRound env now db

/-- `_verify_signature` of a projection, under the runner's registered key. -/
def signatureVerifies (v : OperationalRun) : Bool :=
  match Json.canonicalBytes P v.unsigned with
  | .ok bytes => P.verify env.publicKey v.signature bytes
  | .error _ => false

def validateOperational (db : RunDb) (v : OperationalRun) : Except Refusal Unit := do
  require (accepts (v.validate P) ∧ signatureVerifies P env v)
    (canaryRunError "invalid_operational_projection")
  let b := db.run.binding
  require (env.runnerStatus = .active ∧ env.keyActive ∧ ¬ env.keyRevoked ∧
    v.signingKeyId = b.runnerKeyId ∧ v.runId = b.runId ∧ v.grantId = b.grantId ∧
    v.workspaceId = b.workspaceId ∧ v.projectId = b.projectRef ∧ v.grantDigest = b.grantDigest ∧
    v.approvalProjectionDigest = b.approvalProjectionDigest ∧
    v.manifestDigest = b.manifestDigest) (canaryRunError "operational_binding_mismatch")
  let (approval, grant) ← storedOperationalAuthority env db
  require (operationalWithinBudget v approval.limits grant.limits)
    (canaryRunError "invalid_operational_projection")

/-- A witness column triple as `_stop_ack_witness` reads it. -/
def stopAckWitness (r : Run) : Except Refusal (Option (Int × String × Int)) :=
  match r.witness with
  | ⟨none, none, none⟩ => .ok none
  | ⟨some sequence, some digest, some acknowledged⟩ => do
    require (0 ≤ sequence ∧ 0 ≤ acknowledged ∧ digest.length = 64 ∧
      digest.toList.all Containment.isHexDigit) (canaryRunError "stop_conflict")
    return some (sequence, digest, acknowledged)
  | _ => .error (canaryRunError "stop_conflict")

def requireLostAckReconciliation (r : Run) (v : OperationalRun)
    (witness : Option (Int × String × Int)) : Except Refusal Unit :=
  match witness with
  | none => .error (canaryRunError "stop_conflict")
  | some (sequence, _, acknowledged) =>
    require (r.stopAcknowledgedAtMs ≠ none ∧ v.timestamps.stopAcknowledgedAtMs = none ∧
      v.lifecyclePhase = .terminal ∧ v.executionDisposition = some .stopped ∧
      r.stopReason ≠ .none ∧ v.stopReason = r.stopReason ∧ sequence < v.eventSequence ∧
      v.timestamps.terminalAtMs.any (acknowledged ≤ ·)) (canaryRunError "stop_conflict")

def RunDb.storeReceipt (db : RunDb) (v : OperationalRun) (receivedAt : Int) : RunDb :=
  { db with receipt := some {
      lifecyclePhase := v.lifecyclePhase
      errorCategory := v.errorCategory
      purgeAt := receivedAt + operationalRetentionMs
      receiptJson := some v } }

def consumeIfStarted (v : OperationalRun) (db : RunDb) : Except Refusal RunDb :=
  if v.counters.requestsStarted ≤ 0 ∨ db.run.quotaState ≠ .reserved then .ok db
  else do
    let (settled, ledger) ← db.ledger.consume db.run.binding.reservationId
    require (settled = true) (canaryRunError "quota_settlement_conflict")
    return RunDb.appendEvent
      { db with ledger := ledger, run := { db.run with quotaState := .consumed } }

def faultCompensation (e : ErrorCategory) : Bool := e = .platformFault ∨ e = .runnerFault

def settleTerminalQuota (v : OperationalRun) (db : RunDb) : Except Refusal RunDb :=
  if db.run.quotaState = .reserved ∧ v.counters.requestsStarted = 0 then do
    let (settled, ledger) ← db.ledger.settle db.run.binding.reservationId .refund
    require (settled = true) (canaryRunError "quota_settlement_conflict")
    return RunDb.appendEvent
      { db with ledger := ledger, run := { db.run with quotaState := .refunded } }
  else if db.run.quotaState = .consumed ∧ faultCompensation v.errorCategory then do
    let (settled, ledger) ←
      db.ledger.refundConsumed db.run.binding.reservationId v.errorCategory.name
    if settled then
      return RunDb.appendEvent
        { db with ledger := ledger, run := { db.run with quotaState := .compensated } }
    else return db
  else .ok db

inductive ProofState where
  | valid | expired | revoked
  deriving DecidableEq, Repr

structure Gate where
  active : Bool
  runnerState : RunnerStatus
  proofState : ProofState
  proofExpiresAtMs : Int
  killSwitchGeneration : Int
  stopReason : StopReason
  serverTimeMs : Int
  deriving DecidableEq, Repr

/-- The answer of `_gate` on the row it finds after its own stops. -/
def gateAnswer (mismatch : Bool) (db : RunDb) : Gate :=
  let now := env.now .gate
  let runnerState :=
    if env.runnerStatus ∈ [RunnerStatus.active, .revoked, .replaced] then env.runnerStatus
    else .revoked
  let proofState :=
    if mismatch ∨ env.proofRevoked ∨ env.environmentStatus = .revoked then ProofState.revoked
    else if env.proofExpiresAtMs.any (now < ·) then .valid
    else .expired
  let stopReason :=
    if db.run.stopReason ≠ .none then db.run.stopReason
    else if runnerState ≠ .active then .runnerRevoked
    else if proofState = .revoked then .targetRevoked
    else if env.killActive ∨ env.controlGeneration ≠ db.run.binding.killSwitchGeneration then
      .killSwitch
    else .none
  { active := decide (db.run.status ∈ [Phase.claimed, .running, .finalizing] ∧
      runnerState = .active ∧ proofState = .valid ∧ db.grant.status = .claimed ∧
      now < db.grant.expiresAt ∧ env.controlGeneration = db.run.binding.killSwitchGeneration ∧
      ¬ env.killActive ∧ stopReason = .none)
    runnerState := runnerState
    proofState := proofState
    proofExpiresAtMs := max 0 (env.proofExpiresAtMs.getD 0)
    killSwitchGeneration := env.controlGeneration
    stopReason := stopReason
    serverTimeMs := match db.run.lastGateAtMs with
      | some previous => max now (previous + 1)
      | none => now }

/-- `_gate(row, advance=True)`. -/
def gate (db : RunDb) : Except Refusal (RunDb × Gate) := do
  let db := discoveryLiveCheck env (env.now .liveCheck) db
  let (approval, grant) ← storedOperationalAuthority env db
  let mismatch := !verificationDigestMatches env approval grant
  let db := if mismatch then persistAuthorityStop env .gateStop db else db
  let answer := gateAnswer env mismatch db
  return ({ db with run := { db.run with
      lastGateAtMs := some answer.serverTimeMs
      updatedAt := max db.run.updatedAt answer.serverTimeMs } }, answer)

end Heel.Cloud
