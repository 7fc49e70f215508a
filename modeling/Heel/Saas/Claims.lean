import Heel.Saas.Discovery

/-! `CanaryRunService.claim` over the grants of all runs, and what `expire_and_reconcile` does to
grants and runs. -/
namespace Heel.Cloud
open Lib Lib.Checks

/-- What `claim` reads besides; `verifies` is the answer of `_validate_stored_grant` and of the
pairing with the stored projection on what the rows kept here do not hold. -/
structure ClaimEnv extends CloudEnv where
  verifies : ExecutionGrant → ApprovalRequest → Bool
  chains : Except Refusal Unit

/-- The runner and the key a request was authenticated under. -/
structure ClaimRequest where
  workspaceId : String
  runnerId : String
  runnerKeyId : String
  deriving DecidableEq, Repr

/-- The grant a claim hands out: its row as `claim` found it, and its signed text. -/
structure CanaryClaim where
  row : ExecutionGrant
  grant : IssuedGrant
  deriving DecidableEq, Repr

/-- `_revoke_closed_discovery_grants_in_transaction`: the runs it looks at. -/
def closedRuns (now : Int) (q : ClaimRequest) (db : CanaryDb) : List String :=
  (db.rounds.filter fun d => d.state = .issued ∧
    (db.grants.any fun g => g.grantId = d.grantId ∧ g.workspaceId = q.workspaceId ∧
      g.runnerId = q.runnerId ∧ g.status = .issued) ∧
    (db.authorization d.authorizationId).any fun a =>
      a.state ≠ .opened ∨ a.expiresAtMs ≤ now).map (·.runId)

def revokeClosedGrants (now : Int) (q : ClaimRequest) (db : CanaryDb) : Except Refusal CanaryDb :=
  (closedRuns now q db).foldlM (fun db runId => discoveryLiveClose now runId db) db

def grantBefore (a b : ExecutionGrant) : Prop :=
  a.issuedAt < b.issuedAt ∨ (a.issuedAt = b.issuedAt ∧ a.grantId.toList ≤ b.grantId.toList)

instance (a b : ExecutionGrant) : Decidable (grantBefore a b) :=
  inferInstanceAs (Decidable (_ ∨ _))

/-- The grant the query of `claim` picks. -/
def claimable (now : Int) (q : ClaimRequest) (db : CanaryDb) : Option ExecutionGrant :=
  ((db.grants.filter fun g => g.workspaceId = q.workspaceId ∧ g.runnerId = q.runnerId ∧
    g.runnerKeyId = q.runnerKeyId ∧ g.status = .issued ∧ now < g.expiresAt).insertionSort
      grantBefore).head?

/-- The checks of `claim` on the grant it picked. -/
def claimChecks (env : ClaimEnv) (q : ClaimRequest) (g : ExecutionGrant) (db : CanaryDb) :
    Except Refusal IssuedGrant :=
  match g.grantJson with
  | none => .error (canaryRunError "grant_unavailable")
  | some grant =>
    match db.approvals.find? fun a => a.workspaceId = q.workspaceId ∧ a.projectRef = g.projectRef ∧
        a.approvalId = g.approvalId ∧ a.runnerId = q.runnerId ∧ a.runnerKeyId = q.runnerKeyId with
    | none => .error (canaryRunError "invalid_grant")
    | some approval => do
      require (approval.projectionJson.isSome ∧ approval.status = .approved)
        (canaryRunError "invalid_grant")
      require (env.verifies g approval ∧ grant.projectionDigest = approval.projectionDigest)
        (canaryRunError "invalid_grant")
      let _ ← env.authority
      require (¬ env.killActive q.workspaceId ∧ env.controlGeneration = grant.killSwitchGeneration)
        (canaryRunError "kill_switch_changed")
      return grant

/-- The rows `claim` writes. -/
def takeGrant (env : ClaimEnv) (g : ExecutionGrant) (db : CanaryDb) : Except Refusal CanaryDb := do
  require (g.grantId ∉ db.consumedNonces) ⟨.integrityError, "canary_consumed_nonces"⟩
  env.chains
  let mine (o : ExecutionGrant) : Bool := o.workspaceId = g.workspaceId ∧
    o.projectRef = g.projectRef ∧ o.grantId = g.grantId ∧ o.status = .issued
  require (db.grants.any mine) (canaryRunError "grant_claim_conflict")
  let run (r : CanaryRun) : Bool := r.workspaceId = g.workspaceId ∧ r.projectRef = g.projectRef ∧
    r.runId = g.runId ∧ r.status = .approved
  require (db.runs.any run) (canaryRunError "grant_claim_conflict")
  return { db with
    consumedNonces := db.consumedNonces ++ [g.grantId]
    grants := Table.update mine (fun o : ExecutionGrant => { o with status := .claimed }) db.grants
    runs := Table.update run
      (fun r : CanaryRun => { r with status := .claimed, updatedAt := env.now }) db.runs }

/-- `claim`; the gate of the answer is `gate`. -/
def CanaryDb.claim (env : ClaimEnv) (q : ClaimRequest) (db : CanaryDb) :
    Except Refusal (CanaryDb × Option CanaryClaim) := do
  let db ← revokeClosedGrants env.now q db
  match claimable env.now q db with
  | none => return (db, none)
  | some g => do
    let grant ← claimChecks env q g db
    let db ← takeGrant env g db
    let db ← discoveryLiveClose env.later g.runId db
    return (db, some ⟨g, grant⟩)

/-- What `expire_and_reconcile` reads of columns that are not kept here. -/
structure ReapEnv extends RoundEnv where
  /-- Is the approval linked to a runner context that has ended? -/
  contextEnded : ApprovalRequest → Bool
  /-- Has nobody acknowledged the stop of the run in time? -/
  overdue : CanaryRun → Bool
  purgeableApproval : ApprovalRequest → Bool
  purgeableGrant : ExecutionGrant → Bool

def expireApprovals (env : ReapEnv) (db : CanaryDb) : CanaryDb :=
  let due := db.approvals.filter fun a => a.status = .awaitingExecutionApproval ∧
    a.expiresAt ≤ env.now ∧ ¬ env.contextEnded a
  due.foldl (fun db a => { db with
    approvals := Table.update (fun o : ApprovalRequest => o.approvalId = a.approvalId)
      (fun o => { o with status := .expired }) db.approvals
    runs := Table.update (fun r : CanaryRun => r.runId = a.runId)
      (fun r => { r with status := .expired, updatedAt := env.now }) db.runs }) db

def CanaryDb.runOf (db : CanaryDb) (g : ExecutionGrant) : Option CanaryRun :=
  db.run g.workspaceId g.projectRef g.runId

/-- The rows of an unclaimed grant and of its run, once released. -/
def CanaryDb.releasedGrant (db : CanaryDb) (now : Int) (g : ExecutionGrant) (quota : QuotaState) :
    CanaryDb :=
  { db with
    grants := Table.update (fun o : ExecutionGrant => o.grantId = g.grantId)
      (fun o => { o with status := if g.status = .issued then .expired else .revoked }) db.grants
    runs := Table.update (fun r : CanaryRun => r.runId = g.runId)
      (fun r => { r with
        status := if g.status = .issued then .expired else .cancelled
        quotaState := quota, updatedAt := now }) db.runs }

/-- One unclaimed grant: its unit goes back, and it is closed with its run. -/
def releaseGrant (now : Int) (g : ExecutionGrant) (run : CanaryRun) (db : CanaryDb) :
    Except Refusal CanaryDb :=
  if run.quotaState = .reserved then do
    let (_, ledger) ← db.ledger.settle g.reservationId .refund
    require (ledger.has g.reservationId .refund) (canaryRunError "quota_settlement_conflict")
    return { db with ledger := ledger }.releasedGrant now g .refunded
  else .ok (db.releasedGrant now g run.quotaState)

/-- The unclaimed grants, each with its run. -/
def unclaimedGrants (now : Int) (db : CanaryDb) : List (ExecutionGrant × CanaryRun) :=
  db.grants.filterMap fun g => (db.runOf g).bind fun run =>
    if g.status = .issued ∧ g.expiresAt ≤ now ∨ g.status = .revoked ∧ run.status = .approved then
      some (g, run) else none

def releaseGrants (env : ReapEnv) (db : CanaryDb) : Except Refusal CanaryDb :=
  (unclaimedGrants env.now db).foldlM (fun db item => releaseGrant env.now item.1 item.2 db) db

/-- The refund of an orphan: whatever the ledger answers, the run counts as refunded. -/
def refundOrphanRun (run : CanaryRun) (db : CanaryDb) : Except Refusal CanaryDb :=
  if run.quotaState = .reserved then do
    let (_, ledger) ← db.ledger.settle (run.reservationId.getD "") .refund
    return { db with
      ledger := ledger
      runs := Table.update (fun r : CanaryRun => r.workspaceId = run.workspaceId ∧
          r.projectRef = run.projectRef ∧ r.runId = run.runId)
        (fun r => { r with quotaState := .refunded }) db.runs }
  else .ok db

/-- A run whose stop nobody acknowledged ends, and its grant with it. -/
def finalizeOrphanRun (now : Int) (run : CanaryRun) (db : CanaryDb) : Except Refusal CanaryDb := do
  let db ← refundOrphanRun run db
  return { db with
    runs := Table.update (fun r : CanaryRun => r.workspaceId = run.workspaceId ∧
        r.projectRef = run.projectRef ∧ r.runId = run.runId)
      (fun r => { r with status := .terminal, updatedAt := now }) db.runs
    grants := Table.update (fun g : ExecutionGrant => g.workspaceId = run.workspaceId ∧
        g.projectRef = run.projectRef ∧ run.grantId = some g.grantId)
      (fun g => { g with status := .terminal }) db.grants }

def finalizeOrphans (env : ReapEnv) (db : CanaryDb) : Except Refusal CanaryDb :=
  (db.runs.filter fun r => r.status ∈ [Phase.stopRequested, .finalizing] ∧ r.stopReason ≠ .none ∧
    env.overdue r).foldlM (fun db run => finalizeOrphanRun env.now run db) db

def purgeTexts (env : ReapEnv) (db : CanaryDb) : CanaryDb :=
  { db with
    approvals := Table.update env.purgeableApproval
      (fun a : ApprovalRequest => { a with projectionJson := none }) db.approvals
    grants := Table.update env.purgeableGrant
      (fun g : ExecutionGrant => { g with grantJson := none }) db.grants }

/-- `expire_and_reconcile`. -/
def expireAndReconcileAll (env : ReapEnv) (db : CanaryDb) : Except Refusal CanaryDb := do
  let db ← (dueAuthorizations env.now db).foldlM (fun db a =>
    closeDiscovery db a.authorizationId .expired .expired env.now none) db
  let db ← releaseGrants env (expireApprovals env db)
  let db ← finalizeOrphans env db
  let db ← settleFinishedRounds env.toRoundEnv db
  return purgeTexts env db

end Heel.Cloud
