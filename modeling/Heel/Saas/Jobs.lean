import Mathlib.Data.List.Sort
import Mathlib.Data.Rat.Floor
import Heel.Saas.Entitlement

/-! The job plane of `heel/saas/jobs.py` and the repair of `heel/saas/reconcile.py`: jobs that carry
the reservations they are funded by. -/
namespace Heel.Cloud
open Lib Lib.Checks

inductive JobKind where
  | synthetic | verified
  deriving DecidableEq, Repr

inductive JobState where
  | queued | running | succeeded | failed | expired
  deriving DecidableEq, Repr

structure RunBudget where
  wallClockS : Int := 60
  tokenBudget : Int := 20000
  egressHosts : List String := []
  deriving DecidableEq, Repr

/-- The columns of a job that no statement changes. -/
structure JobIdentity where
  jobId : String
  workspaceId : String
  idempotencyKey : Option String
  reservations : List String
  deriving DecidableEq, Repr

/-- A row of `jobs`; times are seconds. -/
structure JobRow extends JobIdentity where
  kind : JobKind
  state : JobState := .queued
  target : Option String
  scopeRef : Option String
  budget : RunBudget
  createdAt : ℚ
  claimedAt : Option ℚ := none
  leaseUntil : Option ℚ := none
  workerId : Option String := none
  finishedAt : Option ℚ := none
  outcome : Option String := none
  deriving DecidableEq, Repr

inductive JobRefusal where
  | valueError (reason : String)
  | permissionError (reason : String)
  deriving DecidableEq, Repr

structure PlaneDb where
  ledger : Ledger := []
  jobs : List JobRow := []
  deriving DecidableEq, Repr

structure PlaneEnv where
  now : ℚ
  scopeValidator : Option (String → String → String → Bool)
  concurrencyLimit : Option (String → Int)
  retentionDays : String → Int
  /-- Was the reservation made at least `STALE_RESERVATION_S` ago? -/
  stale : String → Bool
  /-- Does the reservation belong to a canary run, which the job plane leaves alone? -/
  canary : String → Bool
  freshJob : String

/-- A call of `enqueue`. -/
structure EnqueueRequest where
  workspaceId : String
  kind : String
  reservationIds : List String
  target : Option String
  targetIsVerified : Bool
  scopeRef : Option String
  budget : Option RunBudget
  idempotencyKey : Option String
  deriving DecidableEq, Repr

def jobKind (kind : String) : Option JobKind :=
  if kind = "synthetic" then some .synthetic else if kind = "verified" then some .verified else none

/-- The job that already holds an idempotency key. -/
def PlaneDb.priorJob (db : PlaneDb) (workspaceId key : String) : Option JobRow :=
  db.jobs.find? fun j => j.workspaceId = workspaceId ∧ j.idempotencyKey = some key

/-- The checks of `enqueue` on a verified run: its target. -/
def verifiedTarget (env : PlaneEnv) (q : EnqueueRequest) : Except JobRefusal String := do
  let target := q.target.getD ""
  require (target ≠ "" ∧ q.targetIsVerified)
    (.permissionError "verified run requires a currently verified target")
  match env.scopeValidator with
  | none => .error (.permissionError "no scope validator configured; verified runs disabled")
  | some validator => do
    let scope := q.scopeRef.getD ""
    require (scope ≠ "" ∧ validator q.workspaceId scope target) (.permissionError
      "verified run requires a valid human-authorized scope for this exact target")
    return target

def targetBudget (env : PlaneEnv) (q : EnqueueRequest) :
    JobKind → Except JobRefusal (Option String × RunBudget)
  | .synthetic => do
    let budget := q.budget.getD {}
    require (budget.egressHosts = []) (.permissionError "synthetic runs get no network egress")
    return (none, budget)
  | .verified => do
    let target ← verifiedTarget env q
    let budget := q.budget.getD { egressHosts := [target] }
    require (∀ host ∈ budget.egressHosts, host = target)
      (.permissionError "egress beyond the verified target refused")
    return (some target, budget)

/-- What `enqueue` answers: the job that was there, or a new one. -/
inductive Enqueued where
  | existing (job : JobRow)
  | created (job : JobRow)
  deriving DecidableEq, Repr

/-- The insert of `enqueue`. -/
def newJob (env : PlaneEnv) (q : EnqueueRequest) (kind : JobKind) (target : Option String)
    (budget : RunBudget) : JobRow where
  jobId := env.freshJob
  workspaceId := q.workspaceId
  idempotencyKey := q.idempotencyKey
  reservations := q.reservationIds
  kind := kind
  target := target
  scopeRef := q.scopeRef
  budget := budget
  createdAt := env.now

def enqueue (env : PlaneEnv) (q : EnqueueRequest) (db : PlaneDb) : Except JobRefusal Enqueued :=
  match jobKind q.kind with
  | none => .error (.valueError "kind must be synthetic or verified")
  | some kind => do
    require (q.reservationIds ≠ []) (.valueError "enqueue requires the ledger reservation ids")
    match q.idempotencyKey.bind (db.priorJob q.workspaceId) with
    | some prior => return .existing prior
    | none => do
      let (target, budget) ← targetBudget env q kind
      return .created (newJob env q kind target budget)

/-- Is the workspace under its concurrency limit? -/
def underLimit (env : PlaneEnv) (jobs : List JobRow) (workspaceId : String) : Bool :=
  env.concurrencyLimit.all fun limit => limit workspaceId < 0 ∨
    ((jobs.filter fun j => j.workspaceId = workspaceId ∧ j.state = .running).length : Int) <
      limit workspaceId

/-- The oldest queued job that a worker may take. -/
def claimableJob (env : PlaneEnv) (workspaceId : Option String) (jobs : List JobRow) :
    Option JobRow :=
  ((jobs.filter fun j => j.state = .queued ∧ workspaceId.all (j.workspaceId = ·)).insertionSort
    fun a b => a.createdAt ≤ b.createdAt).find? fun j => underLimit env jobs j.workspaceId

/-- `claim`. -/
def claimJob (env : PlaneEnv) (workerId : String) (workspaceId : Option String) (leaseS : ℚ)
    (db : PlaneDb) : PlaneDb :=
  match claimableJob env workspaceId db.jobs with
  | none => db
  | some chosen => { db with
      jobs := Table.update (fun j : JobRow => j.jobId = chosen.jobId ∧ j.state = .queued)
        (fun j => { j with
          state := .running, workerId := some workerId, claimedAt := some env.now
          leaseUntil := some (env.now + leaseS) }) db.jobs }

/-- `heartbeat`. -/
def heartbeatJob (env : PlaneEnv) (jobId workerId : String) (leaseS : ℚ) (db : PlaneDb) : PlaneDb :=
  { db with
    jobs := Table.update (fun j : JobRow => j.jobId = jobId ∧ j.workerId = some workerId ∧
        j.state = .running) (fun j => { j with leaseUntil := some (env.now + leaseS) }) db.jobs }

/-- The settlements of a job, up to the first that raises. -/
def settleAll (kind : EntryKind) : List String → Ledger → Ledger
  | [], l => l
  | id :: rest, l =>
    match l.settle id kind with
    | .ok (_, l) => settleAll kind rest l
    | .error _ => l

/-- `_settle`. -/
def settleJob (env : PlaneEnv) (jobId : String) (workerId : Option String) (state : JobState)
    (outcome : String) (kind : EntryKind) (db : PlaneDb) : PlaneDb :=
  let mine (j : JobRow) : Bool :=
    j.jobId = jobId ∧ j.state = .running ∧ workerId.all (j.workerId = some ·)
  match db.jobs.find? mine with
  | none => db
  | some job => {
      ledger := settleAll kind job.reservations db.ledger
      jobs := Table.update mine (fun j => { j with
        state := state, finishedAt := some env.now, outcome := some outcome }) db.jobs }

def reapExpired (env : PlaneEnv) (db : PlaneDb) : PlaneDb :=
  (db.jobs.filter fun j => j.state = .running ∧ j.leaseUntil.any (· < env.now)).foldl
    (fun db j => settleJob env j.jobId none .expired "lease_expired" .refund db) db

/-- Does `purge_retention` delete the job? -/
def purgeable (env : PlaneEnv) (j : JobRow) : Bool :=
  0 ≤ env.retentionDays j.workspaceId ∧
    j.finishedAt.any (· < env.now - env.retentionDays j.workspaceId * 86400)

def purgeRetention (env : PlaneEnv) (db : PlaneDb) : PlaneDb :=
  { db with jobs := db.jobs.filter fun j => ¬ purgeable env j }

def Ledger.unsettled (l : Ledger) : List String :=
  (l.reserves.filter fun e => ¬ l.has e.reservationId .consume ∧
    ¬ l.has e.reservationId .refund).map
    (·.reservationId)

/-- The reservations of queued and running jobs. -/
def liveReservations (jobs : List JobRow) : List String :=
  (jobs.filter fun j => j.state ∈ [JobState.queued, .running]).flatMap (·.reservations)

/-- `reconcile` with repair, as far as it is about the job plane. -/
def reconcile (env : PlaneEnv) (db : PlaneDb) : PlaneDb :=
  { db with
    ledger := settleAll .refund (db.ledger.unsettled.filter fun id => env.stale id ∧
      id ∉ liveReservations db.jobs ∧ ¬ env.canary id) db.ledger }

end Heel.Cloud
