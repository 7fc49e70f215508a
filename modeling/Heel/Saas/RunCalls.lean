import Heel.Lib.Transition
import Heel.Saas.Run

/-! The transactions of `CanaryRunService` on one approved run: `claim`, `heartbeat`, `progress`,
`request_stop`, `ack_stop`, `result` and `expire_and_reconcile`. A call that raises rolls back. -/
namespace Heel.Cloud
open Lib Lib.Checks

variable (P : Platform) (env : Env)

/-- The environment, runner and key checks of `_projection_authority`. -/
def projectionAuthority (approval : Approval) (now : Int) : Except Refusal Unit := do
  require (env.verificationRecordDigest = some approval.environment.verificationRecordDigest ∧
    env.environmentStatus = .verified ∧ ¬ env.proofRevoked ∧
    env.proofExpiresAtMs.any (now < ·)) (canaryRunError "proof_not_executable")
  require (env.runnerStatus = .active ∧ env.keyActive ∧ ¬ env.keyRevoked)
    (canaryRunError "runner_unavailable")

/-- `_validate_stored_grant` and the checks of `claim` that pair the grant with its approval. -/
def validateStoredGrant (now : Int) (db : RunDb) : Except Refusal (Approval × Grant) :=
  match db.grant.grantJson, db.approval.projectionJson with
  | none, _ => .error (canaryRunError "grant_unavailable")
  | some grant, projection => do
    let b := db.run.binding
    require (env.recordsVerify ∧ grant.grantId = b.grantId ∧ grant.runId = b.runId ∧
      grant.workspaceId = b.workspaceId ∧ grant.projectId = b.projectRef ∧
      grant.grantDigest = b.grantDigest ∧ grant.runnerId = b.runnerId ∧
      grant.runnerKeyId = b.runnerKeyId ∧ now < db.grant.expiresAt) (canaryRunError "invalid_grant")
    match projection with
    | none => .error (canaryRunError "invalid_grant")
    | some approval => do
      require (grant.projectionDigest = b.approvalProjectionDigest ∧
        grant.projectionDigest = approval.projectionDigest ∧
        grant.manifestDigest = b.manifestDigest ∧ grant.manifestDigest = approval.manifestDigest ∧
        grant.environment = approval.environment ∧ grant.limits = approval.limits)
        (canaryRunError "invalid_grant")
      return (approval, grant)

/-- `claim` once this run's grant is the one it picked. -/
def claimGrant (now : Int) (db : RunDb) : Except Refusal (RunDb × Gate) := do
  let (approval, grant) ← validateStoredGrant env now db
  projectionAuthority env approval now
  require (¬ env.killActive ∧ env.controlGeneration = grant.killSwitchGeneration)
    (canaryRunError "kill_switch_changed")
  require (¬ db.grant.nonceConsumed) ⟨.integrityError, "canary_consumed_nonces"⟩
  require (db.run.status = .approved) (canaryRunError "grant_claim_conflict")
  db.run.binding.checkUpdated now
  let db : RunDb := { db with
    grant := { db.grant with status := .claimed, nonceConsumed := true }
    run := { db.run with status := .claimed, claimedAtMs := some now, updatedAt := now } }
  gate env db.appendEvent

/-- `claim` as this run sees it. The grants of closed discovery authorizations are revoked
first; `first` says whether the runner has no older claimable grant than this run's. Only a claim
that takes the grant answers a gate of this run. -/
def claim (first : Bool) (db : RunDb) : Except Refusal (RunDb × Option Gate) :=
  let now := env.now .start
  let db := if db.grant.status = .issued then discoveryLiveCheck env now db else db
  if first ∧ db.grant.status = .issued ∧ now < db.grant.expiresAt then do
    let (db, answer) ← claimGrant env now db
    return (db, some answer)
  else .ok (db, none)

inductive Operation where
  | heartbeat | progress
  deriving DecidableEq, Repr

/-- How `_accept_operational` took a projection. -/
inductive Acceptance where
  | stale | staleStop | liveness | livenessNew | authorityStop | replay | new
  deriving DecidableEq, Repr

/-- The phases a projection may report, by the status of the run. -/
def allowedPhases : Phase → List Phase
  | .claimed => [.claimed, .running, .stopRequested, .finalizing]
  | .running => [.running, .stopRequested, .finalizing]
  | .stopRequested => [.stopRequested, .finalizing]
  | .finalizing => [.finalizing]
  | .terminal => [.terminal]
  | _ => []

/-- The status after a projection in this phase. -/
def nextStatus (status phase : Phase) : Phase :=
  if phase = .running ∧ status = .claimed then .running
  else if phase = .stopRequested ∧ status ∈ [Phase.claimed, .running] then .stopRequested
  else if phase = .finalizing ∧ status ∈ [Phase.claimed, .running, .stopRequested] then .finalizing
  else status

/-- `COALESCE(column, ?)`. -/
def coalesce (column value : Option Int) : Option Int := column.or value

/-- The source columns, and `started_at_ms` if the projection reports a start. -/
def RunDb.sourced (db : RunDb) (v : OperationalRun) (receivedAt : Int) : RunDb :=
  { db with run := { db.run with
      sourceEventSequence := v.eventSequence
      sourceProjectionDigest := some v.projectionDigest
      startedAtMs := coalesce db.run.startedAtMs (v.timestamps.startedAtMs.map fun _ => receivedAt)
      updatedAt := receivedAt } }

/-- A runner's last snapshot from before a stop Cloud has recorded: evidence, never authority. -/
def preserveAfterStop (v : OperationalRun) (db : RunDb) : Except Refusal (RunDb × Acceptance) := do
  match ← sourceState db.source v with
  | .replay => return (db, .liveness)
  | .new => do
    require (db.run.status ∈ [Phase.stopRequested, .finalizing] ∧
      v.lifecyclePhase ∈ [Phase.claimed, .running]) (canaryRunError "stop_conflict")
    let db ← consumeIfStarted v db
    let receivedAt := serverReceiptTime (env.now .received) db.run
    return ((db.storeReceipt v receivedAt).sourced v receivedAt, .livenessNew)

/-- The row after news of the runner, with the stop it may bring. -/
def RunDb.advanced (db : RunDb) (v : OperationalRun) (receivedAt : Int) : RunDb :=
  let entering := v.stopReason ≠ .none ∧ db.run.stopReason = .none
  let status := nextStatus db.run.status v.lifecyclePhase
  let db' := (db.storeReceipt v receivedAt).sourced v receivedAt
  let db' := { db' with run := { db'.run with
      status := status
      errorCategory := v.errorCategory
      stopReason := if v.stopReason = .none then db.run.stopReason else v.stopReason
      stopRequestedAtMs := if entering then coalesce db.run.stopRequestedAtMs receivedAt
        else db.run.stopRequestedAtMs
      stopDeadlineAtMs :=
        if entering then coalesce db.run.stopDeadlineAtMs (some (receivedAt + stopDeadlineMs))
        else db.run.stopDeadlineAtMs
      stopGeneration := if entering then env.controlGeneration else db.run.stopGeneration } }
  let db' := if entering then db'.appendEvent else db'
  if status ≠ db.run.status ∧ status ∈ [Phase.running, .finalizing] then db'.appendEvent else db'

/-- The rest of `_accept_operational`, for a projection that agrees with the stop. -/
def acceptNews (v : OperationalRun) (db : RunDb) : Except Refusal (RunDb × Acceptance) := do
  require (db.run.stopReason = .none ∨ v.stopReason = db.run.stopReason)
    (canaryRunError "stop_conflict")
  match ← sourceState db.source v with
  | .replay => return (db, .replay)
  | .new => do
    require (v.lifecyclePhase ∈ allowedPhases db.run.status)
      (canaryRunError "illegal_run_transition")
    let db ← consumeIfStarted v db
    return (db.advanced env v (serverReceiptTime (env.now .received) db.run), .new)

def acceptOperational (operation : Operation) (v : OperationalRun) (db : RunDb) :
    Except Refusal (RunDb × Acceptance) := do
  let (approval, grant) ← storedOperationalAuthority env db
  let mismatch := !verificationDigestMatches env approval grant
  let db := if mismatch then persistAuthorityStop env .authorityStop db else db
  validateOperational P env db v
  require (v.lifecyclePhase = .stopRequested → v.stopReason ≠ .none)
    (canaryRunError "illegal_run_transition")
  require (v.stopReason ≠ .none → v.lifecyclePhase ∈ [Phase.stopRequested, .finalizing])
    (canaryRunError "illegal_run_transition")
  require (v.lifecyclePhase ≠ .terminal) (canaryRunError "illegal_run_transition")
  if operation = .heartbeat ∧ v.eventSequence < db.run.sourceEventSequence then
    return (db, .stale)
  else if operation = .progress ∧ v.eventSequence < db.run.sourceEventSequence ∧
      db.run.status ∈ [Phase.stopRequested, .finalizing] ∧ db.run.stopReason ≠ .none ∧
      v.lifecyclePhase ∈ [Phase.claimed, .running] ∧ v.stopReason = .none then
    return (db, .staleStop)
  else if db.run.stopReason ≠ .none ∧ v.stopReason = .none then preserveAfterStop env v db
  else if mismatch ∧ v.stopReason = .none then return (db, .authorityStop)
  else acceptNews env v db

def heartbeat (v : OperationalRun) (db : RunDb) : Except Refusal (RunDb × Gate) := do
  let (db, source) ← acceptOperational P env .heartbeat v db
  let now := serverReceiptTime (env.now .heartbeat) db.run
  let db : RunDb := { db with run := { db.run with lastHeartbeatAtMs := some now } }
  gate env (if source ∈ [Acceptance.new, .replay] then db.appendEvent else db)

def progress (v : OperationalRun) (db : RunDb) : Except Refusal RunDb := do
  let (db, source) ← acceptOperational P env .progress v db
  return if source = .new then db.appendEvent else db

def requestStop (reason : StopReason) (expectedGeneration : Int) (db : RunDb) :
    Except Refusal RunDb := do
  require (reason ≠ .none) (canaryRunError "invalid_stop_reason")
  if db.run.status ≠ .terminal ∧ db.run.stopRequestedAtMs ≠ none then do
    require (db.run.stopReason = reason ∧ db.run.stopGeneration = expectedGeneration)
      (canaryRunError "stop_conflict")
    return db
  else do
    require (env.controlGeneration = expectedGeneration) (canaryRunError "kill_switch_changed")
    require (db.run.status ∈ [Phase.claimed, .running]) (canaryRunError "stop_conflict")
    let now := serverReceiptTime (env.now .received) db.run
    return (db.stopped env reason .stopRequested now).appendEvent

/-- The stop of `ack_stop` that the runner began itself. -/
def localStop (v : OperationalRun) (arrival : Int) (db : RunDb) : RunDb :=
  if db.run.status ∈ [Phase.claimed, .running] ∧ v.lifecyclePhase = .stopRequested ∧
      v.stopReason = .localEmergencyStop then
    if db.run.stopReason = .none then
      let db' := db.stopped env .localEmergencyStop .stopRequested arrival
      RunDb.appendEvent { db' with run := { db'.run with errorCategory := v.errorCategory } }
    else db.appendEvent
  else db

/-- The one write of the acknowledgement columns. -/
def RunDb.acknowledged (db : RunDb) (v : OperationalRun) (status : Phase) (arrival local_ : Int)
    (late : Bool) : RunDb :=
  RunDb.appendEvent { db with run := { db.run with
      status := status
      sourceEventSequence := v.eventSequence
      sourceProjectionDigest := some v.projectionDigest
      stopAcknowledgedAtMs := some arrival
      stopAckLate := late
      witness := ⟨some v.eventSequence, some v.projectionDigest, some local_⟩
      updatedAt := arrival } }

/-- `ack_stop` past the replays and the runner's own stop: the answer is `late`. -/
def acknowledge (v : OperationalRun) (arrival : Int) (db : RunDb) :
    Except Refusal (RunDb × Bool) := do
  require (db.run.status ∈ [Phase.stopRequested, .finalizing, .terminal])
    (canaryRunError "stop_conflict")
  require (v.lifecyclePhase ∈ [Phase.stopRequested, .finalizing])
    (canaryRunError "invalid_stop_ack")
  require (db.run.stopAcknowledgedAtMs = none ∧ db.run.witness = {})
    (canaryRunError "stop_conflict")
  match v.timestamps.stopAcknowledgedAtMs, db.run.stopDeadlineAtMs with
  | some acknowledged, some deadline => do
    require (v.stopReason = db.run.stopReason) (canaryRunError "invalid_stop_ack")
    let late := decide (deadline < arrival)
    if db.run.status = .terminal then do
      -- evidence only: a refund stays, and neither receipt nor quota moves
      require (db.run.quotaState = .refunded → v.counters.requestsStarted ≤ 0)
        (canaryRunError "stop_conflict")
      return (db.acknowledged v .terminal arrival acknowledged late, late)
    else do
      let db ← consumeIfStarted v db
      let status := if v.lifecyclePhase = .finalizing then .finalizing else db.run.status
      return ((db.storeReceipt v arrival).acknowledged v status arrival acknowledged late, late)
  | _, _ => .error (canaryRunError "invalid_stop_ack")

def ackStop (v : OperationalRun) (db : RunDb) : Except Refusal (RunDb × Bool) := do
  let (approval, grant) ← storedOperationalAuthority env db
  let db := if verificationDigestMatches env approval grant then db
    else persistAuthorityStop env .authorityStop db
  validateOperational P env db v
  let source ← sourceState db.source v
  if source = .replay ∧ db.run.stopAcknowledgedAtMs ≠ none then do
    let witness ← stopAckWitness db.run
    require (witness.all fun w => w.1 = v.eventSequence ∧ w.2.1 = v.projectionDigest ∧
      some w.2.2 = v.timestamps.stopAcknowledgedAtMs) (canaryRunError "stop_conflict")
    return (db, db.run.stopAckLate)
  else
    let arrival := serverReceiptTime (env.now .received) db.run
    acknowledge v arrival (localStop env v arrival db)

/-- The checks of `result` on the stop and on the acknowledgement it reports. -/
def resultAgrees (v : OperationalRun) (db : RunDb) : Except Refusal Unit := do
  require ((v.stopReason ≠ .none) ↔ v.executionDisposition = some .stopped)
    (canaryRunError "illegal_run_transition")
  require (db.run.stopReason ≠ .none →
      v.stopReason = db.run.stopReason ∧ v.executionDisposition = some .stopped)
    (canaryRunError "stop_conflict")
  let witness ← stopAckWitness db.run
  let reported := v.timestamps.stopAcknowledgedAtMs
  require (witness.all fun w => reported.all fun at_ => at_ = w.2.2)
    (canaryRunError "stop_conflict")
  let prior := (db.receipt.bind ReceiptRow.receiptJson).bind (·.timestamps.stopAcknowledgedAtMs)
  if prior ≠ none ∧ reported ≠ prior then
    requireLostAckReconciliation db.run v witness
  else if db.run.stopAcknowledgedAtMs ≠ none ∧ reported = none then
    requireLostAckReconciliation db.run v witness
  require (db.run.stopRequestedAtMs ≠ none → db.run.stopAcknowledgedAtMs = none → reported = none)
    (canaryRunError "stop_conflict")

/-- The way through `finalizing` that `result` takes first. -/
def RunDb.enterFinalizing (db : RunDb) (receivedAt : Int) : RunDb :=
  if db.run.status = .finalizing then db
  else RunDb.appendEvent { db with run := { db.run with
    status := .finalizing
    startedAtMs := coalesce db.run.startedAtMs (some receivedAt)
    updatedAt := receivedAt } }

/-- The last update of `result`. -/
def RunDb.terminated (db : RunDb) (v : OperationalRun) (receivedAt : Int) : RunDb :=
  RunDb.appendEvent { db with
    run := { db.run with
      status := .terminal
      executionDisposition := v.executionDisposition
      errorCategory := v.errorCategory
      stopReason := v.stopReason
      sourceEventSequence := v.eventSequence
      sourceProjectionDigest := some v.projectionDigest
      startedAtMs := coalesce db.run.startedAtMs (some receivedAt)
      stopRequestedAtMs := coalesce db.run.stopRequestedAtMs
        (if v.stopReason = .none then none else some receivedAt)
      stopAcknowledgedAtMs := coalesce db.run.stopAcknowledgedAtMs none
      terminalAtMs := some receivedAt
      updatedAt := receivedAt }
    grant := { db.grant with status := .terminal, purgeAt := receivedAt + projectionRetentionMs }
    approval := { db.approval with purgeAt := receivedAt + projectionRetentionMs } }

/-- `result`; `discovery` is the answer of `_discovery_result_in_transaction`, which writes
rows of the round and of its authorization only. -/
def result (v : OperationalRun) (discovery : Except Refusal Unit) (db : RunDb) :
    Except Refusal RunDb := do
  let (approval, grant) ← storedOperationalAuthority env db
  let mismatch := !verificationDigestMatches env approval grant
  let db := if mismatch then persistAuthorityStop env .authorityStop db else db
  validateOperational P env db v
  if mismatch ∧ v.stopReason = .none then return db
  else do
    let source ← sourceState db.source v
    if source = .replay ∧ db.run.status = .terminal then do
      discovery
      return db
    else do
      require (v.lifecyclePhase = .terminal ∧
        db.run.status ∈ [Phase.claimed, .running, .stopRequested, .finalizing])
        (canaryRunError "illegal_run_transition")
      let receivedAt := serverReceiptTime (env.now .received) db.run
      resultAgrees v db
      let db ← consumeIfStarted v db
      let db ← settleTerminalQuota v (db.enterFinalizing receivedAt)
      discovery
      db.run.binding.checkPurge (receivedAt + projectionRetentionMs)
      return (db.storeReceipt v receivedAt).terminated v receivedAt

/-- The grants `expire_and_reconcile` releases: issued and past their expiry, or revoked while
the run is still approved. -/
def unclaimed (now : Int) (db : RunDb) : Bool :=
  (db.grant.status = .issued ∧ db.grant.expiresAt ≤ now) ∨
    (db.grant.status = .revoked ∧ db.run.status = .approved)

/-- The refund of an unclaimed grant: an existing refund row counts as one. -/
def refundUnclaimed (db : RunDb) : Except Refusal RunDb :=
  if db.run.quotaState = .reserved then do
    let (_, ledger) ← db.ledger.settle db.run.binding.reservationId .refund
    require (ledger.has db.run.binding.reservationId .refund)
      (canaryRunError "quota_settlement_conflict")
    return { db with ledger := ledger, run := { db.run with quotaState := .refunded } }
  else .ok db

/-- An unclaimed grant and its run, closed by the reaper. -/
def RunDb.released (db : RunDb) (now : Int) : RunDb :=
  RunDb.appendEvent { db with
    grant := { db.grant with status := if db.grant.status = .issued then .expired else .revoked }
    run := { db.run with
      status := if db.grant.status = .issued then .expired else .cancelled
      updatedAt := now }
    approval := { db.approval with purgeAt := max now db.grant.expiresAt + projectionRetentionMs } }

/-- What the reaper does with an unclaimed grant. -/
def releaseUnclaimed (now : Int) (db : RunDb) : Except Refusal RunDb := do
  let db ← refundUnclaimed db
  db.run.binding.checkUpdated now
  let db := db.released now
  return if db.run.quotaState = .refunded then db.appendEvent else db

/-- The runs whose stop nobody acknowledged in time. -/
def orphaned (now : Int) (db : RunDb) : Bool :=
  db.run.status ∈ [Phase.stopRequested, .finalizing] ∧ db.run.stopReason ≠ .none ∧
    db.run.stopAcknowledgedAtMs = none ∧ db.run.stopDeadlineAtMs.any (· ≤ now)

/-- The refund of an orphan: whatever the ledger answers, the run counts as refunded. -/
def refundOrphan (db : RunDb) : Except Refusal RunDb :=
  if db.run.quotaState = .reserved then do
    let (_, ledger) ← db.ledger.settle db.run.binding.reservationId .refund
    return RunDb.appendEvent
      { db with ledger := ledger, run := { db.run with quotaState := .refunded } }
  else .ok db

/-- The way through `finalizing` of an orphan. -/
def RunDb.reapFinalizing (db : RunDb) (now : Int) : RunDb :=
  if db.run.status = .finalizing then db
  else RunDb.appendEvent { db with run := { db.run with status := .finalizing, updatedAt := now } }

def RunDb.reaped (db : RunDb) (now : Int) : RunDb :=
  RunDb.appendEvent { db with
    run := { db.run with
      status := .terminal
      executionDisposition := some .stopped
      terminalAtMs := some now
      updatedAt := now }
    grant := { db.grant with status := .terminal, purgeAt := now + projectionRetentionMs }
    approval := { db.approval with purgeAt := now + projectionRetentionMs } }

def finalizeOrphan (now : Int) (db : RunDb) : Except Refusal RunDb := do
  let db ← refundOrphan (db.reapFinalizing now)
  -- the one check stands for both writes of `updated_at`
  db.run.binding.checkUpdated now
  db.run.binding.checkPurge (now + projectionRetentionMs)
  return db.reaped now

def RunDb.purge (db : RunDb) (now : Int) : RunDb :=
  { db with
    approval := if db.approval.purgeAt ≤ now then { db.approval with projectionJson := none }
      else db.approval
    grant := if db.grant.purgeAt ≤ now then { db.grant with grantJson := none } else db.grant
    receipt := db.receipt.map fun r =>
      if r.purgeAt ≤ now then { r with receiptJson := none } else r }

/-- The run once the reaper has closed the due discovery authorizations; `closing` says whether
the run's own is among them. -/
def closeDueAuthorization (closing : Bool) (db : RunDb) : RunDb :=
  if closing ∧ env.round.isSome then stopDiscoveryRound env (env.now .start) db else db

/-- `expire_and_reconcile` as this run sees it. -/
def expireAndReconcile (closing : Bool) (db : RunDb) : Except Refusal RunDb := do
  let now := env.now .start
  let db := closeDueAuthorization env closing db
  let db ← (if unclaimed now db then releaseUnclaimed now db else .ok db)
  let db ← (if orphaned now db then finalizeOrphan now db else .ok db)
  return db.purge now

inductive Call where
  | claim (first : Bool)
  | heartbeat (v : OperationalRun)
  | progress (v : OperationalRun)
  | requestStop (reason : StopReason) (expectedGeneration : Int)
  | ackStop (v : OperationalRun)
  | result (v : OperationalRun) (discovery : Except Refusal Unit)
  | discoveryClosed
  | expireAndReconcile (closing : Bool)

/-- The rows a call leaves, if it does not raise. -/
def call (db : RunDb) : Call → Except Refusal RunDb
  | .claim first => Prod.fst <$> claim env first db
  | .heartbeat v => Prod.fst <$> heartbeat P env v db
  | .progress v => progress P env v db
  | .requestStop reason generation => requestStop env reason generation db
  | .ackStop v => Prod.fst <$> ackStop P env v db
  | .result v discovery => result P env v discovery db
  | .discoveryClosed => .ok (stopDiscoveryRound env (env.now .start) db)
  | .expireAndReconcile closing => expireAndReconcile env closing db

/-- One transaction: a call that raises leaves the rows as they were. -/
def transact (db : RunDb) (c : Call) : RunDb :=
  match call P env db c with
  | .ok db' => db'
  | .error _ => db

def Call.projection : Call → Option OperationalRun
  | .heartbeat v | .progress v | .ackStop v | .result v _ => some v
  | _ => none

/-- A call as it comes in: `claim` provisions the request chains of its run, and without one
`authenticate_and_consume` refuses a projection before the service is asked. -/
def serve (db : RunDb) (c : Call) : RunDb :=
  if c.projection.isSome ∧ db.run.claimedAtMs = none then db else transact P env db c

/-- The ledger knows the reservation of a run by its first row only. -/
def UnitReserved (db : RunDb) : Prop :=
  db.ledger.has db.run.binding.reservationId .reserve = true ∧
    ∀ e ∈ db.ledger, e.reservationId = db.run.binding.reservationId → e.kind = .reserve

/-- A run as `approve` leaves it. -/
structure Approved (db : RunDb) : Prop where
  run : db.run = { binding := db.run.binding, updatedAt := db.run.updatedAt }
  grant : db.grant.status = .issued
  receipt : db.receipt = none
  ledger : UnitReserved db

/-- A run as `approve` leaves it, with its own unit, or as the issue of a discovery round does,
with none. -/
structure Issued (db : RunDb) : Prop where
  run : db.run = { binding := db.run.binding, quotaState := db.run.quotaState
                   updatedAt := db.run.updatedAt }
  grant : db.grant.status = .issued
  receipt : db.receipt = none
  unit : db.run.quotaState = .unreserved ∨ (db.run.quotaState = .reserved ∧ UnitReserved db)

/-- Every interleaving of the transactions on one run whose grant is issued, each in its own
environment. -/
def lifecycle : Transition RunDb (Env × Call) where
  init := Issued
  step db a db' := db' = serve P a.1 db a.2

end Heel.Cloud
