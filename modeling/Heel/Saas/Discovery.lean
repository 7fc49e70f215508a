import Heel.Saas.Approval

/-! The rounds of a discovery authorization: submission, settlement, reports and the closes that
`heel/saas/canary_runs.py` derives from them. Each function is the part of one transaction that
writes the authorization, its rounds and its reports. -/
namespace Heel.Cloud
open Lib Lib.Checks

def discoveryRoundFloorMs : Int := 10000
def discoveryDoneExecutionMs : Int := 110000
def approvalTtlMs : Int := 24 * 60 * 60 * 1000

def discoverySeedPaths : List String :=
  ["/openapi.json", "/openapi.yaml", "/swagger.json", "/swagger/v1/swagger.json", "/v3/api-docs",
    "/api-docs", "/api/openapi.json", "/api/swagger.json", "/.well-known/openapi", "/robots.txt",
    "/sitemap.xml", "/"]

structure RoundAction where
  method : Method
  routeTemplate : String
  deriving DecidableEq, Repr

structure RoundSource where
  round : Int
  sourceOrdinal : Int
  deriving DecidableEq, Repr

/-- A validated discovery projection of a runner. -/
structure RoundPlan where
  authorizationId : String
  authorizationDigest : String
  round : Int
  frontierDigest : String
  cumulativeRequestsBefore : Int
  actionCount : Int
  sources : List RoundSource
  actions : List RoundAction
  wallTimeoutMs : Int
  maximumResponseBytes : Int
  origin : String
  hostname : String
  projectionId : String
  projectionDigest : String
  deriving DecidableEq, Repr

/-- The runner context binding under which a round is submitted. -/
structure BindingRow where
  workspaceId : String
  projectRef : String
  environmentId : String
  runnerId : String
  runnerKeyId : String
  deriving DecidableEq, Repr

def BindingRow.place (b : BindingRow) : String × String × String :=
  (b.workspaceId, b.projectRef, b.environmentId)

/-- The run of a round, as the reaper and the result read it. -/
structure RoundRun where
  status : Phase
  terminalAtMs : Option Int
  updatedAt : Int
  grantExpiresAt : Int
  /-- `requests_completed` of the stored receipt. -/
  requestsCompleted : Option Int
  deriving DecidableEq, Repr

structure RoundEnv extends CloudEnv where
  planRequestOpen : Bool
  matchesBinding : Bool
  run : String → Option RoundRun
  freshRun : String
  freshRound : String

variable (P : Platform)

def ProvenanceKind.name : ProvenanceKind → String
  | .customerUrl => "customer_url"
  | .importedOpenapi => "imported_openapi"
  | .wellKnownSpec => "well_known_spec"
  | .robots => "robots"
  | .sitemap => "sitemap"
  | .htmlLink => "html_link"
  | .scriptSrc => "script_src"
  | .jsLiteral => "js_literal"
  | .htmlLinkAuth => "html_link_auth"
  | .jsLiteralAuth => "js_literal_auth"
  | .redirectLocation => "redirect_location"
  | .discoveredOpenapi => "discovered_openapi"

def Method.name : Method → String
  | .get => "GET"
  | .head => "HEAD"

def Candidate.json (c : Candidate) : Json :=
  .obj [("method", .str c.method.name), ("route_template", .str c.routeTemplate),
    ("provenance_kind", .str c.provenanceKind.name), ("source_ordinal", .int c.sourceOrdinal),
    ("status_code", .int c.statusCode)]

def discoveryFrontierDigest (referenced : List (Int × Candidate)) : Except Refusal String :=
  Json.canonicalDigest P (.arr (referenced.map fun item =>
    .obj [("round", .int item.1), ("candidate", item.2.json)]))

/-- The one recorded candidate a source names. -/
def referencedCandidate (db : CanaryDb) (id : String) (roundNumber : Int) (source : RoundSource)
    (action : RoundAction) : Except Refusal (Int × Candidate) :=
  let report := db.reports.find? fun r => r.authorizationId = id ∧ r.round = source.round
  let recorded := if 1 ≤ source.round ∧ source.round < roundNumber then
      (report.map RoundReport.candidates).getD [] |>.find? fun c =>
        c.method = action.method ∧ c.routeTemplate = action.routeTemplate
    else none
  let sourceActions := db.rounds.find? fun r => r.authorizationId = id ∧ r.round = source.round
  match recorded with
  | none => .error (discoveryError "candidate_not_recorded")
  | some candidate => do
    require (candidate.sourceOrdinal = source.sourceOrdinal ∧
      source.sourceOrdinal < (sourceActions.map Round.actions).getD 0)
      (discoveryError "source_ordinal_mismatch")
    return (source.round, candidate)

/-- The seed list of round one; the recorded frontier of every later round. -/
def frontierChecks (plan : RoundPlan) (db : CanaryDb) : Except Refusal Unit :=
  if plan.round = 1 then
    require ((plan.actions.map RoundAction.routeTemplate).Perm discoverySeedPaths ∧
      ∀ p ∈ plan.sources.zip plan.actions, p.1.round = 0 ∧
        discoverySeedPaths[p.1.sourceOrdinal.toNat]? = some p.2.routeTemplate)
      (discoveryError "seed_mismatch")
  else do
    let referenced ← (plan.sources.zip plan.actions).mapM fun p =>
      referencedCandidate db plan.authorizationId plan.round p.1 p.2
    let digest ← discoveryFrontierDigest P referenced
    require (digest = plan.frontierDigest) (discoveryError "frontier_digest_mismatch")

/-- The recorded authorizer is still an owner or an admin. -/
def actorIsOwnerAdmin (env : CloudEnv) (a : Authorization) : Bool :=
  (env.membership a.workspaceId a.actorUserId).any Role.authorizes

/-- Steps 2 to 11 of `_submit_discovery_round_in_transaction`. -/
def roundChecks (env : RoundEnv) (plan : RoundPlan) (a : Authorization) (db : CanaryDb) :
    Except Refusal Unit := do
  require (a.state = .opened) (discoveryError "authorization_closed")
  require (actorIsOwnerAdmin env.toCloudEnv a) (discoveryError "authorization_closed")
  require (env.now < a.expiresAtMs) (discoveryError "authorization_expired")
  require (plan.authorizationDigest = a.authorizationDigest)
    (discoveryError "authorization_digest_mismatch")
  require (plan.round = a.roundsIssued + 1) (discoveryError "round_out_of_order")
  require (1 < plan.round → (db.rounds.find? fun r =>
      r.authorizationId = a.authorizationId ∧ r.round = plan.round - 1).any (·.state = .terminal))
    (discoveryError "previous_round_active")
  require (1 < plan.round → (db.reports.find? fun r =>
      r.authorizationId = a.authorizationId ∧ r.round = plan.round - 1).isSome)
    (discoveryError "previous_report_missing")
  require (plan.cumulativeRequestsBefore = a.actionsIssued) (discoveryError "cumulative_mismatch")
  require (a.actionsIssued + plan.actionCount ≤ a.bound.maxRequests ∧
      plan.round ≤ a.bound.maxRounds ∧
      a.executionMsUsed + discoveryRoundFloorMs ≤ a.bound.maxTotalExecutionMs)
    (discoveryError "bound_exceeded")
  let wallLimit := min a.bound.maxWallMsPerRound (a.bound.maxTotalExecutionMs - a.executionMsUsed)
  -- asking for more than the server-computed round budget is malformed, not exhaustion
  require (plan.actionCount ≤ a.bound.maxActionsPerRound ∧ plan.wallTimeoutMs ≤ wallLimit ∧
    plan.maximumResponseBytes ≤ a.bound.maxBodyBytes) (discoveryError "bound_exceeded")
  frontierChecks P plan db
  require ((env.environment a.place).any fun e =>
      plan.origin = e.origin ∧ "https://" ++ plan.hostname = e.origin)
    (discoveryError "action_out_of_scope")
  require (¬ env.killActive a.workspaceId) (discoveryError "kill_switch")
  require env.matchesBinding (canaryRunError "canary_authority_unavailable")

/-- `submit_projection` of a round's projection: the stored approval and its run. -/
def submitProjection (env : RoundEnv) (b : BindingRow) (plan : RoundPlan) (db : CanaryDb) :
    Except Refusal (CanaryDb × ApprovalRequest) := do
  let proofExpiresAtMs ← env.authority
  require (¬ env.killActive b.workspaceId) (canaryRunError "kill_switch_active")
  match db.approvals.find? fun a => a.workspaceId = b.workspaceId ∧ a.projectRef = b.projectRef ∧
      (a.approvalId = plan.projectionId ∨ a.projectionDigest = plan.projectionDigest) with
  | some prior => do
    require (prior.approvalId = plan.projectionId ∧
      prior.projectionDigest = plan.projectionDigest ∧ prior.projectionJson.isSome)
      (canaryRunError "projection_conflict")
    return (db, prior)
  | none => do
    require ((db.approvals.filter fun a => a.workspaceId = b.workspaceId ∧
        a.projectRef = b.projectRef ∧ a.status = .awaitingExecutionApproval ∧
        env.now < a.expiresAt).length < 64) (canaryRunError "canary_authority_unavailable")
    let expires := min (env.now + approvalTtlMs) proofExpiresAtMs
    require (env.now < expires) (canaryRunError "proof_not_executable")
    let approval : ApprovalRequest := {
      approvalId := plan.projectionId, workspaceId := b.workspaceId, projectRef := b.projectRef
      runId := env.freshRun, runnerId := b.runnerId, runnerKeyId := b.runnerKeyId
      projectionDigest := plan.projectionDigest
      projectionJson := some ⟨some .discovery, plan.hostname⟩
      uploadedBy := b.runnerId, createdAt := env.now, expiresAt := expires }
    let run : CanaryRun := {
      workspaceId := b.workspaceId, projectRef := b.projectRef, runId := env.freshRun
      updatedAt := env.now }
    require (∀ r ∈ db.runs, r.runId ≠ run.runId) ⟨.integrityError, "canary_runs"⟩
    return ({ db with approvals := db.approvals ++ [approval], runs := db.runs ++ [run] }, approval)

def discoveryRoundGrantReference (id : String) (roundNumber : Int) : String :=
  "dauth:" ++ id ++ ":r" ++ toString roundNumber

def discoveryRoundIdempotencyKey (id : String) (roundNumber : Int) : String :=
  "ca1-" ++ P.sha256
    ("heel.discovery-round-grant.v1|" ++ id ++ "|" ++ toString roundNumber).toList

/-- The grant of a round: its reservation is a reference the ledger cannot resolve. -/
def roundGrant (env : RoundEnv) (a : Authorization) (plan : RoundPlan) (approval : ApprovalRequest)
    (expiresAt : Int) : ExecutionGrant where
  grantId := env.freshGrant
  workspaceId := a.workspaceId
  projectRef := a.projectRef
  approvalId := approval.approvalId
  runId := approval.runId
  runnerId := approval.runnerId
  runnerKeyId := approval.runnerKeyId
  reservationId := discoveryRoundGrantReference a.authorizationId plan.round
  idempotencyKey := discoveryRoundIdempotencyKey P a.authorizationId plan.round
  grantJson := some ⟨plan.projectionDigest, plan.hostname, env.controlGeneration⟩
  issuedAt := env.now
  expiresAt := expiresAt

def issueDiscoveryGrant (env : RoundEnv) (a : Authorization) (plan : RoundPlan)
    (approval : ApprovalRequest) (db : CanaryDb) : Except Refusal CanaryDb := do
  let proofExpiresAtMs ← env.authority
  let expiresAt := min (min (env.now + 600000) proofExpiresAtMs) a.expiresAtMs
  require (env.now < expiresAt) (discoveryError "authorization_expired")
  require (1 ≤ plan.round ∧ plan.round ≤ 5) ⟨.valueError, "invalid discovery round reference"⟩
  require (approval.status = .awaitingExecutionApproval)
    ⟨.runtimeError, "discovery approval lost serialization"⟩
  let db ← db.insertGrant (roundGrant P env a plan approval expiresAt)
  return { db with
    approvals := Table.update (fun o : ApprovalRequest => o.workspaceId = a.workspaceId ∧
        o.projectRef = a.projectRef ∧ o.runId = approval.runId ∧
        o.status = .awaitingExecutionApproval)
      (fun o => { o with
        status := .approved, approvedBy := some a.actorUserId
        reason := some ("discovery_authorization:" ++ a.authorizationId) }) db.approvals
    -- the round's run holds no unit
    runs := Table.update (fun r : CanaryRun => r.workspaceId = a.workspaceId ∧
        r.projectRef = a.projectRef ∧ r.runId = approval.runId ∧ r.reservationId = none ∧
        r.quotaState = .unreserved)
      (fun r => { r with
        grantId := some env.freshGrant, status := .approved
        killSwitchGeneration := env.controlGeneration, updatedAt := max r.updatedAt env.now })
      db.runs }

def RoundPlan.row (plan : RoundPlan) (env : RoundEnv) (b : BindingRow) (runId : String) :
    Round where
  roundId := env.freshRound
  authorizationId := plan.authorizationId
  round := plan.round
  runnerId := b.runnerId
  runnerKeyId := b.runnerKeyId
  runId := runId
  grantId := env.freshGrant
  projectionDigest := plan.projectionDigest
  frontierDigest := plan.frontierDigest
  actions := plan.actionCount
  cumulativeRequestsBefore := plan.cumulativeRequestsBefore
  wallBudgetMs := plan.wallTimeoutMs
  state := .issued
  issuedAtMs := env.now

/-- The uniqueness constraints of `discovery_rounds`. -/
def CanaryDb.insertRound (db : CanaryDb) (r : Round) : Except Refusal CanaryDb := do
  require (∀ o ∈ db.rounds, o.roundId ≠ r.roundId ∧ o.runId ≠ r.runId ∧ o.grantId ≠ r.grantId ∧
      ¬ (o.authorizationId = r.authorizationId ∧ o.round = r.round))
    ⟨.integrityError, "discovery_rounds"⟩
  return { db with rounds := db.rounds ++ [r] }

/-- The counters of the authorization move at issue, guarded on their previous state; the first
round consumes the unit. -/
def countRound (plan : RoundPlan) (db : CanaryDb) : Except Refusal CanaryDb :=
  match db.authorization plan.authorizationId with
  | none => .error ⟨.runtimeError, "discovery round issue lost serialization"⟩
  | some a =>
    if plan.round = 1 then do
      let (consumed, ledger) ← db.ledger.consume a.reservationId
      require (consumed = true ∨ ledger.has a.reservationId .consume = true)
        ⟨.runtimeError, "discovery reservation consume lost serialization"⟩
      require (a.state = .opened ∧ a.roundsIssued = 0 ∧ a.quotaState = .reserved)
        ⟨.runtimeError, "discovery round issue lost serialization"⟩
      return { db with ledger := ledger }.updateAuthorization a.authorizationId fun a =>
        { a with quotaState := .consumed, roundsIssued := 1, actionsIssued := plan.actionCount }
    else do
      require (a.state = .opened ∧ a.roundsIssued = plan.round - 1)
        ⟨.runtimeError, "discovery round issue lost serialization"⟩
      return db.updateAuthorization a.authorizationId fun a =>
        { a with
          roundsIssued := a.roundsIssued + 1, actionsIssued := a.actionsIssued + plan.actionCount }

def submitDiscoveryRound (env : RoundEnv) (b : BindingRow) (plan : RoundPlan) (db : CanaryDb) :
    Except Refusal CanaryDb :=
  match db.authorizations.find? fun a =>
      a.authorizationId = plan.authorizationId ∧ a.place = b.place with
  | none => .error (discoveryError "authorization_unknown")
  | some a =>
    match db.rounds.find? fun r =>
        r.authorizationId = a.authorizationId ∧ r.round = plan.round with
    | some existing => do
      require (existing.runnerId = b.runnerId ∧ existing.runnerKeyId = b.runnerKeyId ∧
        existing.projectionDigest = plan.projectionDigest ∧
        existing.state ∈ [RoundState.issued, .terminal]) (discoveryError "round_consumed")
      expireDiscoveryIfDue db a env.later
    | none => do
      require (¬ env.planRequestOpen) (discoveryError "plan_kind_mismatch")
      roundChecks P env plan a db
      let (db, approval) ← submitProjection env b plan db
      let db ← issueDiscoveryGrant P env a plan approval db
      let db ← db.insertRound (plan.row env b approval.runId)
      countRound plan db

/-- `UPDATE discovery_rounds .. WHERE round_id=?`. -/
def CanaryDb.updateRound (db : CanaryDb) (id : String) (f : Round → Round) : CanaryDb :=
  { db with rounds := Table.update (fun r => r.roundId = id) f db.rounds }

def Round.settled (r : Round) (terminalAtMs requestsCompleted : Int) : Round :=
  { r with
    state := .terminal, terminalAtMs := some terminalAtMs
    requestsCompleted := some requestsCompleted }

def Authorization.exhausted (a : Authorization) : Bool :=
  a.bound.maxRounds ≤ a.roundsIssued ∨ a.bound.maxRequests ≤ a.actionsIssued ∨
    discoveryDoneExecutionMs ≤ a.executionMsUsed

def settleDiscoveryRound (now : Int) (r : Round) (terminalAtMs requestsCompleted : Int)
    (db : CanaryDb) : Except Refusal CanaryDb :=
  let terminalAtMs := max terminalAtMs r.issuedAtMs
  match db.rounds.find? fun o => o.roundId = r.roundId with
  | none => .ok db
  | some current =>
    if current.state ≠ .issued then .ok db
    else
      let db := (db.updateRound r.roundId (·.settled terminalAtMs requestsCompleted))
        |>.updateAuthorization r.authorizationId fun a =>
          { a with
            executionMsUsed := a.executionMsUsed + (terminalAtMs - r.issuedAtMs)
            requestsCompleted := a.requestsCompleted + requestsCompleted }
      if (db.authorization r.authorizationId).any fun a => a.state = .opened ∧ a.exhausted then
        closeDiscovery db r.authorizationId .done .budget now none
      else .ok db

/-- A round report of the runner; `valid` is the answer of its contract and its signature. -/
structure SubmittedReport where
  authorizationId : String
  round : Int
  runId : String
  grantId : String
  signingKeyId : String
  candidates : List Candidate
  bytesReceived : Int
  reportDigest : String
  valid : Bool
  deriving DecidableEq, Repr

def validatedDiscoveryReport (r : Round) (report : SubmittedReport) : Except Refusal Unit :=
  require (report.valid ∧ report.authorizationId = r.authorizationId ∧ report.round = r.round ∧
    report.runId = r.runId ∧ report.grantId = r.grantId ∧ report.signingKeyId = r.runnerKeyId ∧
    ∀ c ∈ report.candidates, c.sourceOrdinal < r.actions)
    (discoveryError "invalid_discovery_report")

def SubmittedReport.stored (report : SubmittedReport) (r : Round) : RoundReport where
  authorizationId := r.authorizationId
  round := r.round
  runId := r.runId
  runnerKeyId := r.runnerKeyId
  reportDigest := report.reportDigest
  candidates := report.candidates
  bytesReceived := report.bytesReceived

/-- `_record_discovery_report_in_transaction`; `inventory` is the answer of the merge into
`route_inventories`. -/
def recordDiscoveryReport (r : Round) (report : SubmittedReport) (inventory : Except Refusal Unit)
    (db : CanaryDb) : Except Refusal CanaryDb :=
  match db.reports.find? fun o => o.authorizationId = r.authorizationId ∧ o.round = r.round with
  | some stored => do
    require (stored.reportDigest = report.reportDigest) (discoveryError "report_consumed")
    return db
  | none => do
    inventory
    return (({ db with reports := db.reports ++ [report.stored r] }).updateRound r.roundId
        fun o => { o with bytesReceived := some report.bytesReceived }).updateAuthorization
      r.authorizationId fun a => { a with bytesReceived := a.bytesReceived + report.bytesReceived }

/-- The fast path of a settlement: the result has just ended the round's run. -/
def settleEnded (env : RoundEnv) (r : Round) (requestsCompleted : Int) (db : CanaryDb) :
    Except Refusal CanaryDb :=
  match env.run r.runId with
  | none => .ok db
  | some run =>
    if run.status = .terminal then
      settleDiscoveryRound env.later r (run.terminalAtMs.getD 0) requestsCompleted db
    else .ok db

/-- `_discovery_result_in_transaction`, for the run it settles. -/
def discoveryResult (env : RoundEnv) (runId : String) (requestsCompleted : Int)
    (report : Option SubmittedReport) (inventory : Except Refusal Unit) (db : CanaryDb) :
    Except Refusal CanaryDb :=
  match db.rounds.find? fun r => r.runId = runId with
  | none => do
    require (report.isNone) (discoveryError "invalid_discovery_report")
    return db
  | some r => do
    (report.map (validatedDiscoveryReport r)).getD (.ok ())
    let db ← settleEnded env r requestsCompleted db
    (report.map fun o => recordDiscoveryReport r o inventory db).getD (.ok db)

/-- The kinds of close a refused submission may imply. -/
inductive RefusalClose where
  | expired | budget | membership
  deriving DecidableEq, Repr

/-- `close_discovery_after_refusal`: the close is derived again from the stored row. -/
def closeDiscoveryAfterRefusal (env : CloudEnv) (id : String) (kind : RefusalClose)
    (actionCount : Int) (db : CanaryDb) : Except Refusal CanaryDb :=
  match db.authorization id with
  | none => .ok db
  | some a =>
    match kind with
    | .expired =>
      if a.expiresAtMs ≤ env.now then closeDiscovery db id .expired .expired env.now none
      else .ok db
    | .budget =>
      if a.bound.maxRequests < a.actionsIssued + actionCount ∨ a.bound.maxRounds ≤ a.roundsIssued ∨
          a.bound.maxTotalExecutionMs < a.executionMsUsed + discoveryRoundFloorMs then
        closeDiscovery db id .done .budget env.now none
      else .ok db
    | .membership =>
      if ¬ actorIsOwnerAdmin env a then
        closeDiscovery db id .revoked .revoked env.now (some ("membership:" ++ a.actorUserId))
      else .ok db

/-- `get_discovery_authorization`: reading a due authorization expires it. -/
def getDiscoveryAuthorization (env : CloudEnv) (place : String × String × String) (id : String)
    (db : CanaryDb) : Except Refusal CanaryDb :=
  match db.authorizations.find? fun a => a.authorizationId = id ∧ a.place = place with
  | none => .error (discoveryError "authorization_unknown")
  | some a => expireDiscoveryIfDue db a env.now

def revokeDiscoveryAuthorization (env : CloudEnv) (place : String × String × String) (id : String)
    (actor : String) (role : Role) (db : CanaryDb) : Except Refusal CanaryDb := do
  require (env.identifier actor) (canaryRunError "invalid_approval_actor")
  requireOwnerAdmin env place.1 actor role (discoveryError "owner_admin_required")
  match db.authorizations.find? fun a => a.authorizationId = id ∧ a.place = place with
  | none => .error (discoveryError "authorization_unknown")
  | some a => do
    let db ← expireDiscoveryIfDue db a env.now
    require (db.stillOpen id) (discoveryError "authorization_closed")
    closeDiscovery db id .revoked .revoked env.now (some actor)

/-- The stop of a run whose authorization is no longer open. -/
def CanaryDb.stopLiveRun (db : CanaryDb) (id runId : String) : CanaryDb :=
  match db.runAny runId with
  | none => db
  | some run => if run.status = .approved then db.stopDiscoveryRounds id else db.stopRun run

/-- `_discovery_live_check_in_transaction`, on the tables of the run's round. -/
def discoveryLiveClose (now : Int) (runId : String) (db : CanaryDb) : Except Refusal CanaryDb :=
  match db.rounds.find? fun r => r.runId = runId ∧ r.state = .issued with
  | none => .ok db
  | some r =>
    match db.authorization r.authorizationId with
    | none => .ok db
    | some a => do
      let db ← expireDiscoveryIfDue db a now
      return if db.stillOpen a.authorizationId then db else db.stopLiveRun a.authorizationId runId

/-- The order in which the reaper closes due authorizations. -/
def dueBefore (a b : Authorization) : Prop :=
  a.expiresAtMs < b.expiresAtMs ∨
    (a.expiresAtMs = b.expiresAtMs ∧ a.authorizationId.toList ≤ b.authorizationId.toList)

instance (a b : Authorization) : Decidable (dueBefore a b) :=
  inferInstanceAs (Decidable (_ ∨ _))

/-- The due authorizations of one pass of the reaper. -/
def dueAuthorizations (now : Int) (db : CanaryDb) : List Authorization :=
  ((db.authorizations.filter fun a => a.state = .opened ∧ a.expiresAtMs ≤ now).insertionSort
    dueBefore).take 128

/-- When the run of a round ended, and what it completed. -/
def RoundRun.outcome (r : RoundRun) : Int × Int :=
  (r.terminalAtMs.getD (if r.status = .expired then r.grantExpiresAt else r.updatedAt),
    r.requestsCompleted.getD 0)

def settleFinishedRounds (env : RoundEnv) (db : CanaryDb) : Except Refusal CanaryDb :=
  (db.rounds.filter fun r => r.state = .issued).foldlM (fun db r =>
    match env.run r.runId with
    | some run =>
      if run.status ∈ [Phase.terminal, .cancelled, .expired] then
        settleDiscoveryRound env.later r run.outcome.1 run.outcome.2 db
      else .ok db
    | none => .ok db) db

/-- The discovery part of `expire_and_reconcile`. -/
def reapDiscovery (env : RoundEnv) (db : CanaryDb) : Except Refusal CanaryDb := do
  let db ← (dueAuthorizations env.now db).foldlM (fun db a =>
    closeDiscovery db a.authorizationId .expired .expired env.now none) db
  settleFinishedRounds env db

end Heel.Cloud
