import Heel.Saas.Contexts

/-! The work that hangs on a runner context: its projections, their approval and expiry, and the
batches that cancel what a context has not been granted when it ends. -/
namespace Heel.Cloud
open Lib Lib.Checks

/-- What a validated scan projection binds of a plan request. -/
structure ScanPlan where
  planKind : PlanKind
  planRequestId : String
  planRequestNonce : String
  inventoryDigest : String
  selectionDigest : String
  selectedCount : Int
  maxOps : Int
  deriving DecidableEq, Repr

/-- A validated projection that is no discovery round. -/
structure ScanProjection where
  projectionId : String
  projectionDigest : String
  workspaceId : String
  projectId : String
  environmentId : String
  origin : String
  environmentClass : String
  verificationRecordDigest : String
  runnerId : String
  runnerKeyId : String
  hostname : String
  plan : Option ScanPlan
  actions : List RoundAction
  deriving DecidableEq, Repr

inductive RunnerProjection where
  | scan (p : ScanProjection)
  | round (plan : RoundPlan)
  deriving DecidableEq, Repr

/-- The row of the approval a projection asks for. -/
def ScanProjection.approval (p : ScanProjection) (runId uploadedBy : String)
    (createdAt expiresAt : Int) : ApprovalRequest where
  approvalId := p.projectionId
  workspaceId := p.workspaceId
  projectRef := p.projectId
  runId := runId
  runnerId := p.runnerId
  runnerKeyId := p.runnerKeyId
  projectionDigest := p.projectionDigest
  projectionJson := some ⟨p.plan.map (·.planKind), p.hostname⟩
  uploadedBy := uploadedBy
  createdAt := createdAt
  expiresAt := expiresAt

/-- The approval that already holds a projection's identifier or its digest. -/
def CanaryDb.priorApproval (db : CanaryDb) (workspaceId projectId projectionId digest : String) :
    Option ApprovalRequest :=
  db.approvals.find? fun a => a.workspaceId = workspaceId ∧ a.projectRef = projectId ∧
    (a.approvalId = projectionId ∨ a.projectionDigest = digest)

/-- `"crun_" + secrets.token_hex(16)`. -/
def ContextEnv.runId (env : ContextEnv) : String := "crun_" ++ env.runToken

/-- `submit_projection`, but for a discovery round; the status `prepared` does not outlive it. -/
def storeProjection (env : ContextEnv) (p : ScanProjection) (uploadedBy : String) (db : CanaryDb) :
    Except Refusal (CanaryDb × ApprovalRequest) := do
  let proofExpiresAtMs ← env.authority
  require (¬ env.killActive p.workspaceId) (canaryRunError "kill_switch_active")
  match db.priorApproval p.workspaceId p.projectId p.projectionId p.projectionDigest with
  | some prior => do
    require (env.storedText prior) (canaryRunError "projection_conflict")
    return (db, prior)
  | none => do
    require ((db.approvals.filter fun a => a.workspaceId = p.workspaceId ∧
        a.projectRef = p.projectId ∧ a.status = .awaitingExecutionApproval ∧
        env.now < a.expiresAt).length < 64) (canaryRunError "canary_authority_unavailable")
    let expires := min (env.now + approvalTtlMs) proofExpiresAtMs
    require (env.now < expires) (canaryRunError "proof_not_executable")
    let approval := p.approval env.runId uploadedBy env.now expires
    require (∀ a ∈ db.approvals, a.approvalId ≠ approval.approvalId)
      ⟨.integrityError, "canary_approval_projections"⟩
    require (∀ r ∈ db.runs, r.runId ≠ env.runId) ⟨.integrityError, "canary_runs"⟩
    return ({ db with
      approvals := db.approvals ++ [approval]
      runs := db.runs ++ [{
        workspaceId := p.workspaceId, projectRef := p.projectId, runId := env.runId
        updatedAt := env.now }] }, approval)

/-- `_assert_projection_matches_binding`. -/
def ScanProjection.matchesBinding (p : ScanProjection) (b : ContextBinding)
    (uploadedByRunnerId : String) : Bool :=
  p.workspaceId = b.key.workspaceId ∧ p.projectId = b.key.projectRef ∧
    p.environmentId = b.key.environmentId ∧ p.origin = b.environmentOrigin ∧
    p.environmentClass = b.environmentClass ∧
    p.verificationRecordDigest = b.verificationRecordDigest ∧ p.runnerId = b.key.runnerId ∧
    p.runnerKeyId = b.key.runnerKeyId ∧ uploadedByRunnerId = b.key.runnerId

/-- The plan request a scan plan has to bind. -/
def planRequestMatches (p : ScanProjection) (plan : ScanPlan) (r : PlanRequest) : Bool :=
  plan.planKind = r.planKind ∧ plan.planRequestNonce = r.planRequestNonce ∧
    plan.inventoryDigest = r.inventoryDigest ∧ plan.selectionDigest = r.selectionDigest ∧
    plan.selectedCount = r.routes.length ∧ plan.maxOps = r.maxOps ∧
    (p.actions.length : Int) ≤ r.maxOps ∧ ∀ a ∈ p.actions, a ∈ r.routes

/-- `_plan_request_for_submission_in_transaction`, once due requests have been expired. -/
def planRequestForSubmission (p : ScanProjection) (b : ContextBinding) (db : ContextDb) :
    Except Refusal (Option PlanRequest) :=
  match p.plan with
  | none => do
    require (db.openPlanRequest b.key.workspaceId b.key.rcbId = none)
      (discoveryError "plan_binding_required")
    return none
  | some plan => do
    require (plan.planKind ≠ .discovery) (discoveryError "discovery_unavailable")
    match db.planRequests.find? fun r => r.planRequestId = plan.planRequestId ∧
        r.key.workspaceId = b.key.workspaceId ∧ r.key.projectRef = b.key.projectRef with
    | none => .error (discoveryError "plan_binding_required")
    | some r => do
      require (r.key.ref = b.key.ref) (discoveryError "plan_binding_required")
      require (r.status ≠ .projected ∧ r.status ≠ .approved)
        (discoveryError "plan_request_consumed")
      require (r.status = .opened) (discoveryError "plan_request_expired")
      require (planRequestMatches p plan r) (discoveryError "inventory_mismatch")
      return some r

/-- The open request becomes the one of the stored approval. -/
def projectPlanRequest (r : Option PlanRequest) (a : ApprovalRequest) (db : ContextDb) :
    Except Refusal ContextDb :=
  match r with
  | none => .ok db
  | some r => do
    let mine (o : PlanRequest) : Bool := o.planRequestId = r.planRequestId ∧ o.status = .opened
    require (db.planRequests.any mine) (discoveryError "plan_request_consumed")
    return { db with
      planRequests := Table.update mine (fun o : PlanRequest => { o with
        status := .projected, approvalId := some a.approvalId, runId := some a.runId
        projectionDigest := some a.projectionDigest }) db.planRequests }

/-- The primary key and the references of `canary_runner_context_projection_links`. -/
def insertLink (l : ProjectionLink) (db : ContextDb) : Except Refusal ContextDb := do
  require ((∀ o ∈ db.links, ¬ (o.key.workspaceId = l.key.workspaceId ∧
      o.key.projectRef = l.key.projectRef ∧ o.approvalId = l.approvalId ∧ o.runId = l.runId)) ∧
    (db.canary.approvals.any fun a => a.workspaceId = l.key.workspaceId ∧
      a.projectRef = l.key.projectRef ∧ a.approvalId = l.approvalId ∧ a.runId = l.runId ∧
      a.runnerId = l.key.runnerId ∧ a.runnerKeyId = l.key.runnerKeyId ∧
      a.projectionDigest = l.projectionDigest) ∧ db.bindings.any (·.key = l.key))
    ⟨.integrityError, "canary_runner_context_projection_links"⟩
  return { db with links := db.links ++ [l] }

def ContextDb.linkOf (db : ContextDb) (a : ApprovalRequest) : Option ProjectionLink :=
  db.links.find? fun l => l.key.workspaceId = a.workspaceId ∧ l.key.projectRef = a.projectRef ∧
    l.approvalId = a.approvalId ∧ l.runId = a.runId

/-- A scan projection: an exact repetition under the same binding answers what is stored. -/
def submitScan (env : ContextEnv) (b : ContextBinding) (p : ScanProjection)
    (uploadedByRunnerId : String) (db : ContextDb) : Except Refusal (ContextDb × ApprovalRequest) :=
  do
  require (p.matchesBinding b uploadedByRunnerId) (canaryRunError "canary_authority_unavailable")
  match db.canary.priorApproval p.workspaceId p.projectId p.projectionId p.projectionDigest with
  | some prior => do
    require (prior.uploadedBy = uploadedByRunnerId ∧ env.storedText prior)
      (canaryRunError "projection_conflict")
    require ((db.linkOf prior).any fun l => l.key.rcbId = b.key.rcbId ∧
      l.key.bindingDigest = b.key.bindingDigest ∧ l.projectionDigest = p.projectionDigest)
      (canaryRunError "projection_conflict")
    return (db, prior)
  | none => do
    let db := expirePlanRequests b.key.workspaceId b.key.rcbId (env.nowMs 2) db
    let request ← planRequestForSubmission p b db
    let (canary, approval) ← storeProjection env p uploadedByRunnerId db.canary
    let db ← projectPlanRequest request approval { db with canary := canary }
    let link : ProjectionLink := {
      key := b.key, approvalId := approval.approvalId, runId := approval.runId
      projectionDigest := approval.projectionDigest, createdAtMs := env.nowMs 3 }
    let db ← insertLink link db
    return (db, approval)

/-- The binding's columns as a discovery round reads them. -/
def ContextBinding.row (b : ContextBinding) : BindingRow where
  workspaceId := b.key.workspaceId
  projectRef := b.key.projectRef
  environmentId := b.key.environmentId
  runnerId := b.key.runnerId
  runnerKeyId := b.key.runnerKeyId

def CanaryDb.roundOf (db : CanaryDb) (plan : RoundPlan) : Option Round :=
  db.rounds.find? fun r => r.authorizationId = plan.authorizationId ∧ r.round = plan.round

/-- A discovery round: its link is stored with its approval, its grant and its round. -/
def submitRound (P : Platform) (env : ContextEnv) (b : ContextBinding) (plan : RoundPlan)
    (db : ContextDb) : Except Refusal ContextDb := do
  let opened := expirePlanRequests b.key.workspaceId b.key.rcbId env.now db
  let roundEnv := { env.toRoundEnv with
    freshRun := env.runId
    planRequestOpen := (opened.openPlanRequest b.key.workspaceId b.key.rcbId).isSome }
  let canary ← submitDiscoveryRound P roundEnv b.row plan db.canary
  require (canary.approvals.map (·.approvalId)).Nodup
    ⟨.integrityError, "canary_approval_projections"⟩
  match db.canary.roundOf plan with
  | some _ => return { db with canary := canary }
  | none =>
    match canary.roundOf plan with
    | none => .error ⟨.runtimeError, "discovery round issue lost serialization"⟩
    | some r => do
      let link : ProjectionLink := {
        key := b.key, approvalId := plan.projectionId, runId := r.runId
        projectionDigest := plan.projectionDigest, createdAtMs := env.now }
      insertLink link { opened with canary := canary }

def submitProjectionFromRunner (P : Platform) (env : ContextEnv) (b : ContextBinding)
    (p : RunnerProjection) (uploadedByRunnerId : String) (db : ContextDb) :
    Except Refusal ContextDb := do
  require (b.status = .active ∧ env.nowMs 1 < b.expiresAtMs)
    (canaryRunError "canary_authority_unavailable")
  match p with
  | .scan p => do
    let (db, _) ← submitScan env b p uploadedByRunnerId db
    return db
  | .round plan => submitRound P env b plan db

/-- The route of a runner's projection: its binding is found live in the same transaction. -/
def contextProjection (P : Platform) (env : ContextEnv) (q : ContextRef) (p : RunnerProjection)
    (db : ContextDb) : Except Refusal ContextDb := do
  let (db, b) ← activeBinding env 0 q db
  submitProjectionFromRunner P env b p q.runnerId db

/-- `submit_projection` of a person: a plan has no place in it. -/
def humanProjection (env : ContextEnv) (p : ScanProjection) (uploadedBy : String) (db : ContextDb) :
    Except Refusal ContextDb := do
  require (env.identifier uploadedBy) (canaryRunError "invalid_projection_actor")
  require (p.plan = none) (canaryRunError "invalid_projection")
  let (canary, _) ← storeProjection env p uploadedBy db.canary
  return { db with canary := canary }

def ContextDb.linkedBinding (db : ContextDb) (a : ApprovalRequest) : Option ContextBinding :=
  (db.linkOf a).bind fun l => db.bindings.find? fun b => b.key = l.key

/-- The check of `approve` on a linked binding; a refusal of the context says the authority is
unavailable. -/
def linkedAuthority (env : ContextEnv) (a : ApprovalRequest) (b : ContextBinding) (db : ContextDb) :
    Except Refusal Unit := do
  require (b.key.runnerId = a.runnerId ∧ b.key.runnerKeyId = a.runnerKeyId)
    (canaryRunError "canary_authority_unavailable")
  match activeBinding env 0 { b.key.ref with workspaceId := a.workspaceId } db with
  | .ok _ => .ok ()
  | .error e => .error (if e.raised = .runnerContextError then
      canaryRunError "canary_authority_unavailable" else e)

def planRequestOf (env : ContextEnv) (a : ApprovalRequest) (r : PlanRequest) : Bool :=
  r.key.workspaceId = a.workspaceId ∧ r.key.projectRef = a.projectRef ∧
    env.namesRequest a r.planRequestId ∧ r.approvalId = some a.approvalId ∧
    r.runId = some a.runId ∧ r.projectionDigest = some a.projectionDigest ∧ r.status = .projected

/-- What `approve` reads of the tables of contexts. -/
def approveEnv (env : ContextEnv) (q : ApproveRequest) (db : ContextDb) : CloudEnv :=
  match db.canary.approval q.workspaceId q.projectRef q.runId with
  | none => env.toCloudEnv
  | some a => { env.toCloudEnv with
      binding := (db.linkedBinding a).map fun b => linkedAuthority env a b db
      planRequestFound := db.planRequests.any (planRequestOf env a) }

/-- The plan request of an approval that has just been given. -/
def approvePlanRequest (env : ContextEnv) (q : ApproveRequest) (db : ContextDb) :
    List PlanRequest :=
  match db.canary.approval q.workspaceId q.projectRef q.runId with
  | none => db.planRequests
  | some a => Table.update (fun r => (a.projectionJson.any fun p => p.planKind.isSome) ∧
      planRequestOf env a r) ({ · with status := .approved }) db.planRequests

/-- `approve`. -/
def approveContext (env : ContextEnv) (q : ApproveRequest) (db : ContextDb) :
    Except Refusal (ContextDb × ExecutionApproved) := do
  let (canary, answer) ← approve (approveEnv env q db) q db.canary
  let planRequests := if (db.canary.grantOfKey q.workspaceId q.idempotencyKey).isSome then
    db.planRequests else approvePlanRequest env q db
  return ({ db with canary := canary, planRequests := planRequests }, answer)

/-- Is the approval linked to a context that has ended, or is about to? -/
def ContextDb.contextEnded (db : ContextDb) (now : Int) (a : ApprovalRequest) : Bool :=
  (db.linkedBinding a).any fun b => b.status ≠ .active ∨ b.expiresAtMs ≤ now

/-- `expire_and_reconcile`. -/
def reconcileContexts (env : ContextEnv) (db : ContextDb) : Except Refusal ContextDb := do
  let canary ← expireAndReconcileAll
    { env.toReapEnv with contextEnded := db.contextEnded env.now } db.canary
  return { db with canary := canary }

def pregrant (status : Phase) : Bool := status ∈ [Phase.prepared, .awaitingExecutionApproval]

def ContextDb.approvalOf (db : ContextDb) (l : ProjectionLink) : Option ApprovalRequest :=
  db.canary.approvals.find? fun a => a.workspaceId = l.key.workspaceId ∧
    a.projectRef = l.key.projectRef ∧ a.approvalId = l.approvalId ∧ a.runId = l.runId

def ContextDb.runOf (db : ContextDb) (l : ProjectionLink) : Option CanaryRun :=
  db.canary.run l.key.workspaceId l.key.projectRef l.runId

/-- Who ended the context, as the cancellation records it. -/
structure CancelActor where
  human : Bool
  actorId : String
  reasonCode : String
  deriving DecidableEq, Repr

/-- The joined rows of one run that `cancel_context_pending_in_transaction` looks at. -/
def linkedRows (key : ContextKey) (runId : String) (db : ContextDb) :
    List (ApprovalRequest × CanaryRun) :=
  (db.links.filter fun l => l.key = key ∧ l.runId = runId).filterMap fun l =>
    (db.approvalOf l).bind fun a => (db.runOf l).map fun r => (a, r)

/-- The rows of one cancelled projection. The approval is to be purged a day after `now`, which the
table wants to be after it was made. -/
def cancelRows (key : ContextKey) (now : Int) (a : ApprovalRequest) (r : CanaryRun)
    (db : ContextDb) : Except Refusal ContextDb := do
  let approval (o : ApprovalRequest) : Bool := o.workspaceId = key.workspaceId ∧
    o.projectRef = key.projectRef ∧ o.approvalId = a.approvalId ∧ o.runId = r.runId ∧
    o.status = .awaitingExecutionApproval
  let run (o : CanaryRun) : Bool := o.workspaceId = key.workspaceId ∧
    o.projectRef = key.projectRef ∧ o.runId = r.runId ∧ pregrant o.status
  require (∀ o ∈ db.canary.approvals, approval o → o.createdAt < now + projectionRetentionMs)
    ⟨.integrityError, "canary_approval_projections"⟩
  require ((db.canary.approvals.filter approval).length = 1 ∧
    (db.canary.runs.filter run).length = 1)
    ⟨.runtimeError, "linked runner context cancellation lost serialization"⟩
  return { db with
    canary := { db.canary with
      approvals := Table.update approval (fun o => { o with status := .cancelled })
        db.canary.approvals
      runs := Table.update run (fun o => { o with
        status := .cancelled, updatedAt := max o.updatedAt now }) db.canary.runs } }

/-- `cancel_context_pending_in_transaction`: how many runs it cancels. -/
def cancelContextPending (key : ContextKey) (actor : CancelActor) (now : Int) (runId : String)
    (db : ContextDb) : Except Refusal (ContextDb × ℕ) := do
  require (actor.actorId ≠ "") ⟨.valueError, "invalid runner context cancellation actor"⟩
  require (actor.reasonCode ∈ ["runner_context_revoked", "runner_context_expired"])
    ⟨.valueError, "invalid runner context cancellation reason"⟩
  require (runId ≠ "") ⟨.valueError, "runner context cancellation run ID is required"⟩
  match linkedRows key runId db with
  | [] => return (db, 0)
  | [(a, r)] =>
    let awaiting : Bool := a.status = .awaitingExecutionApproval
    if awaiting = false ∧ pregrant r.status = false then return (db, 0)
    else do
      require (awaiting ∧ pregrant r.status)
        ⟨.runtimeError, "linked runner context pregrant state is inconsistent"⟩
      require (r.grantId = none ∧ r.reservationId = none ∧ r.quotaState = .unreserved)
        ⟨.runtimeError, "linked runner context pregrant authority is inconsistent"⟩
      let db ← cancelRows key now a r db
      return (db, 1)
  | _ => .error ⟨.runtimeError, "linked runner context cancellation is ambiguous"⟩

/-- The actor of a cancellation: the person who revoked, or the control plane. -/
def cancelActor (b : ContextBinding) : Except Refusal CancelActor :=
  if b.status = .revoked then
    match b.revokedBy with
    | none => .error ⟨.runtimeError, "runner context cancellation queue actor is inconsistent"⟩
    | some actor => do
      require (actor ≠ "")
        ⟨.runtimeError, "runner context cancellation queue actor is inconsistent"⟩
      return ⟨true, actor, "runner_context_revoked"⟩
  else return ⟨false, "control-plane", "runner_context_expired"⟩

/-- One examined link of a context that has ended. -/
def examineLink (b : ContextBinding) (now : Int) (l : ProjectionLink) (db : ContextDb) :
    Except Refusal (ContextDb × ℕ) :=
  match db.approvalOf l, db.runOf l with
  | some a, some r => do
    require ((a.status = .awaitingExecutionApproval) ↔ pregrant r.status)
      ⟨.runtimeError, "runner context cancellation queue link is inconsistent"⟩
    if a.status = .awaitingExecutionApproval then do
      let actor ← cancelActor b
      cancelContextPending b.key actor now l.runId db
    else return (db, 0)
  | _, _ => .error ⟨.runtimeError, "runner context cancellation queue link is inconsistent"⟩

/-- The examined links, in order. Their runs differ: none of them changes the rows of another. -/
def examineLinks (b : ContextBinding) (now : Int) :
    List ProjectionLink → ContextDb → Except Refusal (ContextDb × ℕ)
  | [], db => .ok (db, 0)
  | l :: rest, db => do
    let (db, cancelled) ← examineLink b now l db
    let (db, more) ← examineLinks b now rest db
    return (db, cancelled + more)

def queueBefore (a b : CancellationRow) : Prop :=
  a.bindingExpiresAtMs < b.bindingExpiresAtMs ∨
    (a.bindingExpiresAtMs = b.bindingExpiresAtMs ∧ a.key.rcbId ≤ b.key.rcbId)

instance (a b : CancellationRow) : Decidable (queueBefore a b) :=
  inferInstanceAs (Decidable (_ ∨ _))

namespace ContextDb

def queueHead (db : ContextDb) : Option CancellationRow :=
  ((db.queue.filter fun q => 0 < q.bindingExpiresAtMs).insertionSort queueBefore).head?

/-- The row of the queue that holds a primary key. -/
def isQueueRow (q o : CancellationRow) : Bool :=
  o.key.workspaceId = q.key.workspaceId ∧ o.key.projectRef = q.key.projectRef ∧
    o.key.rcbId = q.key.rcbId ∧ o.key.bindingDigest = q.key.bindingDigest

def dequeue (db : ContextDb) (q : CancellationRow) : ContextDb :=
  { db with queue := db.queue.filter fun o => ¬ isQueueRow q o }

def linkPage (db : ContextDb) (q : CancellationRow) (n : ℕ) : List ProjectionLink :=
  Page.page (·.runId) q.lastScannedRunId n (db.links.filter (·.key = q.key))

end ContextDb

/-- The cursor of a queue row moves on, under the guard of the table's trigger. -/
def moveCursor (q : CancellationRow) (runId : String) (db : ContextDb) : Except Refusal ContextDb :=
  do
  require (Page.past q.lastScannedRunId runId ∧
    (db.endedRef q.key q.bindingExpiresAtMs).isSome ∧
    db.links.any (fun l => l.key = q.key ∧ l.runId = runId))
    ⟨.integrityError, "invalid runner context cancellation queue update"⟩
  return { db with
    queue := Table.update (ContextDb.isQueueRow q)
      (fun o => { o with lastScannedRunId := some runId }) db.queue }

/-- One work item of `cancel_due_batch_in_transaction`: the rows after it, how many units it took,
how many runs it cancelled, and whether the batch goes on. -/
def cancelHead (now : Int) (remaining : ℕ) (q : CancellationRow) (db : ContextDb) :
    Except Refusal (ContextDb × ℕ × ℕ × Bool) :=
  match db.endedRef q.key q.bindingExpiresAtMs with
  | none => .error ⟨.runtimeError, "runner context cancellation queue authority is inconsistent"⟩
  | some b =>
    let links := db.linkPage q (remaining + 1)
    let examined := links.take remaining
    match examined.getLast? with
    | none => return (db.dequeue q, 1, 0, true)
    | some last => do
      let (db, cancelled) ← examineLinks b now examined db
      if remaining < links.length then do
        let db ← moveCursor q last.runId db
        return (db, examined.length, cancelled, false)
      else return (db.dequeue q, examined.length, cancelled, true)

/-- The loop of `cancel_due_batch_in_transaction` on the units that remain; every turn takes one,
so that as much fuel is enough. -/
def cancelLoop (now : Int) : ℕ → ℕ → ContextDb → Except Refusal (ContextDb × ℕ × ℕ)
  | 0, _, db => .ok (db, 0, 0)
  | fuel + 1, remaining, db =>
    if remaining = 0 then .ok (db, 0, 0)
    else match db.queueHead with
      | none => .ok (db, 0, 0)
      | some q => do
        let (db, units, cancelled, goesOn) ← cancelHead now remaining q db
        if goesOn then do
          let (db, moreUnits, more) ← cancelLoop now fuel (remaining - units) db
          return (db, units + moreUnits, cancelled + more)
        else return (db, units, cancelled)

/-- What a cancellation batch answers; `units` is the count it keeps for itself. -/
structure CancelBatch where
  units : ℕ
  cancelled : ℕ
  hasMore : Bool
  deriving DecidableEq, Repr

def cancelDueBatch (nowMs limit : Int) (db : ContextDb) : Except Refusal
    (ContextDb × CancelBatch) := do
  batchArguments nowMs limit
  let (db, units, cancelled) ← cancelLoop nowMs limit.toNat limit.toNat db
  return (db, ⟨units, cancelled, !db.queue.isEmpty⟩)

end Heel.Cloud
