import Heel.Lib.Table
import Heel.Saas.Run

/-! Discovery authorizations of `heel/saas/canary_runs.py`: the rows, the one transition from open
to closed, and creation. -/
namespace Heel.Cloud
open Lib Lib.Checks

inductive Role where
  | owner | admin | member | billing | viewer
  deriving DecidableEq, Repr

/-- `role in {"owner", "admin"}`. -/
def Role.authorizes (r : Role) : Bool := r = .owner ∨ r = .admin

inductive CloseReason where
  | budget | expired | revoked
  deriving DecidableEq, Repr

/-- `DISCOVERY_BOUND`, as `bound_json` keeps it. -/
structure Bound where
  maxRounds : Int := 5
  maxActionsPerRound : Int := 20
  maxRequests : Int := 100
  maxTotalExecutionMs : Int := 120000
  maxWallMsPerRound : Int := 60000
  maxBodyBytes : Int := 2097152
  deriving DecidableEq, Repr

def discoveryTtlMs : Int := 15 * 60 * 1000

/-- A row of `discovery_authorizations`. -/
structure Authorization where
  authorizationId : String
  workspaceId : String
  projectRef : String
  environmentId : String
  actorUserId : String
  actorRole : Role
  bound : Bound := {}
  authorizationDigest : String
  requestDigest : String
  reservationId : String
  idempotencyKey : String
  quotaState : QuotaState := .reserved
  state : AuthorizationState := .opened
  roundsIssued : Int := 0
  actionsIssued : Int := 0
  executionMsUsed : Int := 0
  requestsCompleted : Int := 0
  bytesReceived : Int := 0
  createdAtMs : Int
  expiresAtMs : Int
  closedAtMs : Option Int := none
  closeReason : Option CloseReason := none
  revokedBy : Option String := none
  deriving DecidableEq, Repr

/-- The environment an authorization is for. -/
def Authorization.place (a : Authorization) : String × String × String :=
  (a.workspaceId, a.projectRef, a.environmentId)

inductive RoundState where
  | projected | issued | terminal | refused
  deriving DecidableEq, Repr

/-- A row of `discovery_rounds`. -/
structure Round where
  roundId : String
  authorizationId : String
  round : Int
  runnerId : String
  runnerKeyId : String
  runId : String
  grantId : String
  projectionDigest : String
  frontierDigest : String
  actions : Int
  cumulativeRequestsBefore : Int
  wallBudgetMs : Int
  state : RoundState
  issuedAtMs : Int
  terminalAtMs : Option Int := none
  requestsCompleted : Option Int := none
  bytesReceived : Option Int := none
  deriving DecidableEq, Repr

inductive Method where
  | get | head
  deriving DecidableEq, Repr

inductive ProvenanceKind where
  | customerUrl | importedOpenapi | wellKnownSpec | robots | sitemap | htmlLink | scriptSrc
  | jsLiteral | htmlLinkAuth | jsLiteralAuth | redirectLocation | discoveredOpenapi
  deriving DecidableEq, Repr

structure Candidate where
  method : Method
  routeTemplate : String
  provenanceKind : ProvenanceKind
  sourceOrdinal : Int
  statusCode : Int
  deriving DecidableEq, Repr

/-- A row of `discovery_round_reports`. -/
structure RoundReport where
  authorizationId : String
  round : Int
  runId : String
  runnerKeyId : String
  reportDigest : String
  candidates : List Candidate
  bytesReceived : Int
  deriving DecidableEq, Repr

inductive PlanKind where
  | planDifferential | regression | discovery
  deriving DecidableEq, Repr

/-- What Cloud reads of a stored projection that waits for its approval. -/
structure PendingProjection where
  planKind : Option PlanKind
  hostname : String
  deriving DecidableEq, Repr

/-- A row of `canary_approval_projections`. -/
structure ApprovalRequest where
  approvalId : String
  workspaceId : String
  projectRef : String
  runId : String
  runnerId : String
  runnerKeyId : String
  projectionDigest : String
  status : Phase := .awaitingExecutionApproval
  projectionJson : Option PendingProjection
  uploadedBy : String
  createdAt : Int := 0
  expiresAt : Int
  approvedBy : Option String := none
  reason : Option String := none
  deriving DecidableEq, Repr

/-- A row of `canary_runs`, as far as its grant and its unit go. -/
structure CanaryRun where
  workspaceId : String
  projectRef : String
  runId : String
  status : Phase := .awaitingExecutionApproval
  stopReason : StopReason := .none
  grantId : Option String := none
  reservationId : Option String := none
  quotaState : QuotaState := .unreserved
  killSwitchGeneration : Int := 0
  updatedAt : Int
  deriving DecidableEq, Repr

/-- What Cloud reads of the stored text of a grant it issued. -/
structure IssuedGrant where
  projectionDigest : String
  hostname : String
  killSwitchGeneration : Int
  deriving DecidableEq, Repr

/-- A row of `canary_execution_grants`. -/
structure ExecutionGrant where
  grantId : String
  workspaceId : String
  projectRef : String
  approvalId : String
  runId : String
  runnerId : String
  runnerKeyId : String
  status : GrantStatus := .issued
  reservationId : String
  idempotencyKey : String
  grantJson : Option IssuedGrant
  issuedAt : Int
  expiresAt : Int
  deriving DecidableEq, Repr

/-- The tables that own `CANARY_RUNS` units, and the ledger. -/
structure CanaryDb where
  ledger : Ledger := []
  approvals : List ApprovalRequest := []
  runs : List CanaryRun := []
  grants : List ExecutionGrant := []
  authorizations : List Authorization := []
  rounds : List Round := []
  reports : List RoundReport := []
  /-- `canary_consumed_nonces`; a nonce is the one of its grant, so the grant's identifier
  names it. -/
  consumedNonces : List String := []
  deriving DecidableEq, Repr

/-- A row of `canary_environments`; its class is always `staging` or `sandbox`. -/
structure EnvironmentRow where
  status : EnvironmentStatus
  revoked : Bool
  proofExpiresAtMs : Option Int
  origin : String
  deriving DecidableEq, Repr

/-- What a call reads of other tables, of the clock, of the plan and of the random source. The
checks of `str.strip` and of Unicode categories are given as predicates. -/
structure CloudEnv where
  now : Int
  /-- A second reading of the clock in the same transaction. -/
  later : Int
  identifier : String → Bool
  approvalReason : String → Bool
  exactHostname : String → Bool
  membership : String → String → Option Role
  environment : String × String × String → Option EnvironmentRow
  controlGeneration : Int
  killActive : String → Bool
  /-- `_projection_authority`: the end of the proof, or the refusal. -/
  authority : Except Refusal Int
  /-- The linked runner context, if there is one, and whether it is still active. -/
  binding : Option (Except Refusal Unit)
  planRequestFound : Bool
  period : String
  quota : Int
  globalCap : Option Int
  freshReservation : String
  freshGrant : String
  freshAuthorization : String
  authorizationDigest : String

def discoveryError (code : String) : Refusal := ⟨.discoveryError, code⟩

/-- `^ca1-[0-9a-f]{64}$`. -/
def isIdempotencyKey (key : String) : Bool :=
  key.toList.take 4 = "ca1-".toList ∧ key.length = 68 ∧
    (key.toList.drop 4).all Containment.isHexDigit

namespace CanaryDb

def authorization (db : CanaryDb) (id : String) : Option Authorization :=
  db.authorizations.find? fun a => a.authorizationId = id

/-- `UPDATE discovery_authorizations .. WHERE authorization_id=?`. -/
def updateAuthorization (db : CanaryDb) (id : String) (f : Authorization → Authorization) :
    CanaryDb :=
  { db with authorizations :=
      Table.update (fun a => a.authorizationId = id) f db.authorizations }

/-- The uniqueness constraints of `discovery_authorizations`. -/
def insertAuthorization (db : CanaryDb) (a : Authorization) : Except Refusal CanaryDb := do
  require (∀ o ∈ db.authorizations, o.authorizationId ≠ a.authorizationId ∧
      o.reservationId ≠ a.reservationId ∧
      ¬ (o.workspaceId = a.workspaceId ∧ o.idempotencyKey = a.idempotencyKey) ∧
      ¬ (o.place = a.place ∧ o.state = .opened ∧ a.state = .opened))
    ⟨.integrityError, "discovery_authorizations"⟩
  return { db with authorizations := db.authorizations ++ [a] }

/-- The uniqueness constraints of `canary_execution_grants`, but for the columns that hold fresh
random values. -/
def insertGrant (db : CanaryDb) (g : ExecutionGrant) : Except Refusal CanaryDb := do
  require (∀ o ∈ db.grants, o.grantId ≠ g.grantId ∧ o.reservationId ≠ g.reservationId ∧
      ¬ (o.workspaceId = g.workspaceId ∧ o.idempotencyKey = g.idempotencyKey) ∧
      ¬ (o.workspaceId = g.workspaceId ∧ o.projectRef = g.projectRef ∧ o.runId = g.runId))
    ⟨.integrityError, "canary_execution_grants"⟩
  return { db with grants := db.grants ++ [g] }

end CanaryDb

def Authorization.closed (a : Authorization) (state : AuthorizationState) (reason : CloseReason)
    (now : Int) (revokedBy : Option String) : Authorization :=
  { a with
    state := state, closeReason := some reason, closedAtMs := some now, revokedBy := revokedBy }

/-- What `_stop_discovery_rounds_in_transaction` does to the run of one round; the times and the
generation of the stop are those of `persistDiscoveryStop`. -/
def CanaryDb.stopRun (db : CanaryDb) (r : CanaryRun) : CanaryDb :=
  if r.status = .approved then
    { db with
      grants := Table.update (fun g : ExecutionGrant => g.workspaceId = r.workspaceId ∧
          g.projectRef = r.projectRef ∧ r.grantId = some g.grantId ∧ g.status = .issued)
        (fun g => { g with status := .revoked }) db.grants }
  else if r.status ∈ [Phase.claimed, .running, .finalizing] ∧ r.stopReason = .none then
    { db with
      runs := Table.update (fun o : CanaryRun => o.workspaceId = r.workspaceId ∧
          o.projectRef = r.projectRef ∧ o.runId = r.runId)
        (fun o => { o with status := stopStatus o.status, stopReason := .cloudStop }) db.runs }
  else db

def CanaryDb.runAny (db : CanaryDb) (runId : String) : Option CanaryRun :=
  db.runs.find? fun r => r.runId = runId

/-- `_stop_discovery_rounds_in_transaction`. -/
def CanaryDb.stopDiscoveryRounds (db : CanaryDb) (id : String) : CanaryDb :=
  (db.rounds.filter fun r => r.authorizationId = id ∧ r.state = .issued).foldl
    (fun db r => ((db.runAny r.runId).map db.stopRun).getD db) db

/-- Is the authorization, as it now stands, still open? -/
def CanaryDb.stillOpen (db : CanaryDb) (id : String) : Bool :=
  (db.authorization id).any (·.state = .opened)

/-- The one conditional transition from open to closed, with the refund. -/
def closeRow (db : CanaryDb) (id : String) (state : AuthorizationState) (reason : CloseReason)
    (now : Int) (revokedBy : Option String) : Except Refusal CanaryDb :=
  match db.authorization id with
  | none => .ok db
  | some a =>
    if a.state ≠ .opened then .ok db
    else if a.roundsIssued = 0 ∧ a.quotaState = .reserved then do
      let (settled, ledger) ← db.ledger.settle a.reservationId .refund
      require (settled = true ∨ ledger.has a.reservationId .refund = true)
        ⟨.runtimeError, "discovery reservation refund lost serialization"⟩
      return { db with ledger := ledger }.updateAuthorization id fun a =>
        { a.closed state reason now revokedBy with quotaState := .refunded }
    else .ok (db.updateAuthorization id (·.closed state reason now revokedBy))

def closeDiscovery (db : CanaryDb) (id : String) (state : AuthorizationState) (reason : CloseReason)
    (now : Int) (revokedBy : Option String) : Except Refusal CanaryDb := do
  let closed ← closeRow db id state reason now revokedBy
  return if db.stillOpen id ∧ state ∈ [AuthorizationState.revoked, .expired] then
    closed.stopDiscoveryRounds id else closed

def expireDiscoveryIfDue (db : CanaryDb) (a : Authorization) (now : Int) :
    Except Refusal CanaryDb :=
  if a.state = .opened ∧ a.expiresAtMs ≤ now then
    closeDiscovery db a.authorizationId .expired .expired now none
  else .ok db

/-- `membership["role"] == role` for an owner or admin. -/
def requireOwnerAdmin (env : CloudEnv) (workspaceId actor : String) (role : Role)
    (refusal : Refusal) : Except Refusal Unit :=
  require ((env.membership workspaceId actor).any fun r => r.authorizes ∧ r = role) refusal

/-- A validated request for an authorization; `digest` is its canonical digest. -/
structure AuthorizationRequest where
  workspaceId : String
  projectRef : String
  environmentId : String
  requested : String
  digest : String
  actor : String
  role : Role
  idempotencyKey : String
  deriving DecidableEq, Repr

def AuthorizationRequest.place (q : AuthorizationRequest) : String × String × String :=
  (q.workspaceId, q.projectRef, q.environmentId)

/-- The unit an authorization asks the ledger for. -/
def AuthorizationRequest.reserveRequest (q : AuthorizationRequest) (env : CloudEnv) :
    Ledger.ReserveRequest where
  workspaceId := q.workspaceId
  meter := .canaryRuns
  amount := 1
  period := env.period
  idempotencyKey := some q.idempotencyKey
  ref := some env.freshAuthorization
  quota := env.quota
  globalCap := env.globalCap
  fresh := env.freshReservation

def AuthorizationRequest.row (q : AuthorizationRequest) (env : CloudEnv) (reservationId : String) :
    Authorization where
  authorizationId := env.freshAuthorization
  workspaceId := q.workspaceId
  projectRef := q.projectRef
  environmentId := q.environmentId
  actorUserId := q.actor
  actorRole := q.role
  authorizationDigest := env.authorizationDigest
  requestDigest := q.digest
  reservationId := reservationId
  idempotencyKey := q.idempotencyKey
  createdAtMs := env.now
  expiresAtMs := env.now + discoveryTtlMs

/-- A quota refusal of the ledger, as the discovery routes report it. -/
def quotaRefusal {α : Type} : Except Refusal α → Except Refusal α
  | .error e => .error (if e.raised = .quotaExceeded then discoveryError "canary_quota_exceeded"
      else e)
  | .ok a => .ok a

/-- The open authorization of the place, if it is due, expires; a live one refuses a second. -/
def expireOpen (env : CloudEnv) (q : AuthorizationRequest) (db : CanaryDb) :
    Except Refusal CanaryDb :=
  match db.authorizations.find? fun a => a.place = q.place ∧ a.state = .opened with
  | none => .ok db
  | some a => do
    let db ← expireDiscoveryIfDue db a env.now
    require (¬ db.stillOpen a.authorizationId) (discoveryError "authorization_open")
    return db

/-- The way through `create_discovery_authorization` for a key no authorization holds. -/
def createFresh (env : CloudEnv) (q : AuthorizationRequest) (db : CanaryDb) :
    Except Refusal CanaryDb := do
  require (∀ e ∈ db.ledger, ¬ (e.workspaceId = q.workspaceId ∧ e.meter = .canaryRuns ∧
    e.idempotencyKey = some q.idempotencyKey)) (discoveryError "idempotency_conflict")
  match env.environment q.place with
  | none => .error (discoveryError "environment_not_found")
  | some environment => do
    require (environment.status = .verified ∧ ¬ environment.revoked ∧
      environment.proofExpiresAtMs.any (env.now < ·)) (discoveryError "environment_not_verified")
    let db ← expireOpen env q db
    let (reservationId, ledger) ← quotaRefusal (db.ledger.reserve (q.reserveRequest env))
    { db with ledger := ledger }.insertAuthorization (q.row env reservationId)

def createDiscoveryAuthorization (env : CloudEnv) (q : AuthorizationRequest) (db : CanaryDb) :
    Except Refusal CanaryDb := do
  require (env.identifier q.actor) (canaryRunError "invalid_approval_actor")
  require (isIdempotencyKey q.idempotencyKey) (discoveryError "idempotency_key_required")
  require (q.requested = q.environmentId) (discoveryError "invalid_discovery_authorization")
  requireOwnerAdmin env q.workspaceId q.actor q.role (discoveryError "owner_admin_required")
  match db.authorizations.find? fun a =>
      a.workspaceId = q.workspaceId ∧ a.idempotencyKey = q.idempotencyKey with
  | some prior => do
    require (prior.requestDigest = q.digest ∧ prior.projectRef = q.projectRef ∧
      prior.environmentId = q.environmentId ∧ prior.actorUserId = q.actor ∧
      prior.quotaState ≠ .refunded) (discoveryError "idempotency_conflict")
    expireDiscoveryIfDue db prior env.now
  | none => createFresh env q db

end Heel.Cloud
