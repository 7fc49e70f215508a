import Mathlib.Data.Rat.Floor
import Mathlib.Data.String.Basic
import Heel.Lib.Page
import Heel.Saas.Claims

/-! Runner context bindings of `heel/saas/runner_contexts.py`: the tables, and the calls that
create, claim, list, expire and revoke a binding. -/
namespace Heel.Cloud
open Lib Lib.Checks

def contextTtlMs : Int := 24 * 60 * 60 * 1000
def contextMinTtlMs : Int := 60 * 1000
def planRequestTtlMs : Int := 24 * 60 * 60 * 1000

inductive ContextStatus where
  | active | revoked | expired
  deriving DecidableEq, Repr

/-- The seven columns by which the other tables refer to a binding. -/
structure ContextKey where
  workspaceId : String
  projectRef : String
  environmentId : String
  runnerId : String
  runnerKeyId : String
  rcbId : String
  bindingDigest : String
  deriving DecidableEq, Repr

def ContextKey.place (k : ContextKey) : String × String × String :=
  (k.workspaceId, k.projectRef, k.environmentId)

/-- A row of `canary_runner_context_bindings`. -/
structure ContextBinding where
  key : ContextKey
  environmentOrigin : String
  environmentClass : String
  publicKeyDigest : String
  verificationRecordDigest : String
  status : ContextStatus := .active
  createdBy : String
  createdRole : Role
  issuedAtMs : Int
  expiresAtMs : Int
  firstClaimedAtMs : Option Int := none
  revokedBy : Option String := none
  revokedAtMs : Option Int := none
  deriving DecidableEq, Repr

/-- A row of `canary_runner_context_projection_links`. -/
structure ProjectionLink where
  key : ContextKey
  approvalId : String
  runId : String
  projectionDigest : String
  createdAtMs : Int
  deriving DecidableEq, Repr

/-- A row of `canary_runner_context_cancellation_queue`. -/
structure CancellationRow where
  key : ContextKey
  bindingExpiresAtMs : Int
  lastScannedRunId : Option String := none
  deriving DecidableEq, Repr

/-- A row of `canary_runner_context_affinities`. -/
structure Affinity where
  workspaceId : String
  runnerId : String
  runnerKeyId : String
  projectRef : String
  environmentId : String
  environmentOrigin : String
  environmentClass : String
  publicKeyDigest : String
  establishedRcbId : String
  establishedBindingDigest : String
  establishedAtMs : Int
  deriving DecidableEq, Repr

inductive PlanRequestStatus where
  | opened | projected | approved | cancelled | expired
  deriving DecidableEq, Repr

/-- A row of `canary_plan_requests`. -/
structure PlanRequest where
  planRequestId : String
  key : ContextKey
  planKind : PlanKind
  planRequestNonce : String
  inventoryDigest : String
  selectionDigest : String
  routes : List RoundAction
  maxOps : Int
  status : PlanRequestStatus := .opened
  createdBy : String
  createdAtMs : Int
  expiresAtMs : Int
  approvalId : Option String := none
  runId : Option String := none
  projectionDigest : Option String := none
  deriving DecidableEq, Repr

structure ContextDb where
  canary : CanaryDb := {}
  bindings : List ContextBinding := []
  links : List ProjectionLink := []
  queue : List CancellationRow := []
  affinities : List Affinity := []
  planRequests : List PlanRequest := []
  deriving DecidableEq, Repr

/-- A row of `canary_environments` as a binding is checked against it. -/
structure ContextEnvironment where
  origin : String
  environmentClass : String
  status : EnvironmentStatus
  revoked : Bool
  proofExpiresAtMs : Option ℚ
  verificationRecordDigest : String
  deriving DecidableEq, Repr

/-- A row of `canary_runner_keys`. -/
structure ContextRunnerKey where
  active : Bool
  revoked : Bool
  publicKeyDigest : String
  deriving DecidableEq, Repr

/-- What is read of `identity_json`. -/
structure ContextIdentity where
  active : Bool
  runnerId : String
  workspaceId : String
  keyId : String
  deriving DecidableEq, Repr

/-- A route inventory whose digest has been checked; the routes are those not excluded. -/
structure ContextInventory where
  digest : String
  selectable : List RoundAction
  deriving DecidableEq, Repr

/-- What a call on contexts reads besides: the readings of the clock, the rows of other tables,
the signed text of a binding and fresh random values. -/
structure ContextEnv extends ReapEnv where
  clock : ℕ → Int
  stripped : String → Bool
  environments : String × String × String → Option ContextEnvironment
  runnerStatusOf : String → String → Option RunnerStatus
  keyOf : String → String → String → Option ContextRunnerKey
  identityOf : String → String → Option ContextIdentity
  /-- The stored text is valid and describes its row. -/
  artifactMatches : ContextBinding → Bool
  inventory : String × String × String → Except Refusal ContextInventory
  /-- Is the stored text of the approval the one that is submitted? -/
  storedText : ApprovalRequest → Bool
  /-- Does the stored text of the approval name the plan request? -/
  namesRequest : ApprovalRequest → String → Bool
  selectionDigest : List RoundAction → String
  freshBinding : String
  bindingDigest : String
  freshPlanRequest : String
  freshNonce : String
  runToken : String

/-- `_now_ms`, at one of the readings. -/
def ContextEnv.nowMs (env : ContextEnv) (reading : ℕ) : Int := max 0 (env.clock reading)

def runnerContextError (code : String) : Refusal := ⟨.runnerContextError, code⟩

def requireActor (env : ContextEnv) (actor : String) (role : Role) : Except Refusal Unit := do
  require (actor ≠ "" ∧ env.stripped actor ∧ byteSize actor.toList ≤ 128)
    (runnerContextError "invalid_runner_context_binding")
  require role.authorizes (runnerContextError "invalid_runner_context_binding")

def assertMembership (env : ContextEnv) (workspaceId actor : String) (role : Role) :
    Except Refusal Unit :=
  requireOwnerAdmin env.toCloudEnv workspaceId actor role
    (runnerContextError "same_origin_required")

namespace ContextDb

def binding (db : ContextDb) (rcbId : String) : Option ContextBinding :=
  db.bindings.find? fun b => b.key.rcbId = rcbId

/-- `UPDATE canary_runner_context_bindings .. WHERE p`. -/
def updateBindings (db : ContextDb) (p : ContextBinding → Bool)
    (f : ContextBinding → ContextBinding) : ContextDb :=
  { db with bindings := Table.update p f db.bindings }

/-- The primary key of the cancellation queue. -/
def queued (db : ContextDb) (key : ContextKey) : Bool :=
  db.queue.any fun q => q.key.workspaceId = key.workspaceId ∧ q.key.projectRef = key.projectRef ∧
    q.key.rcbId = key.rcbId ∧ q.key.bindingDigest = key.bindingDigest

/-- The reference of a queue row to a binding that has ended. -/
def endedRef (db : ContextDb) (key : ContextKey) (expiresAtMs : Int) : Option ContextBinding :=
  db.bindings.find? fun b => b.key = key ∧ b.expiresAtMs = expiresAtMs ∧ b.status ≠ .active

end ContextDb

/-- `_enqueue_terminal_cancellation_in_transaction`: only a binding with links is queued, once. -/
def enqueueTerminalCancellation (row : ContextBinding) (db : ContextDb) :
    Except Refusal ContextDb :=
  if db.links.any (·.key = row.key) then do
    require (db.endedRef row.key row.expiresAtMs).isSome
      ⟨.integrityError, "invalid runner context cancellation queue insert"⟩
    return if db.queued row.key then db
      else { db with queue := db.queue ++
      [{ key := row.key, bindingExpiresAtMs := row.expiresAtMs }] }
  else .ok db

/-- One row of `_expire_rows_in_transaction`; the second answer counts it. -/
def expireRow (now : Int) (row : ContextBinding) (db : ContextDb) : Except Refusal
    (ContextDb × ℕ) :=
  let due (b : ContextBinding) : Bool :=
    b.key.rcbId = row.key.rcbId ∧ b.status = .active ∧ b.expiresAtMs ≤ now
  if db.bindings.any due then do
    let db ← enqueueTerminalCancellation row (db.updateBindings due ({ · with status := .expired }))
    return (db, 1)
  else .ok (db, 0)

def expireRows (now : Int) : List ContextBinding → ContextDb → Except Refusal (ContextDb × ℕ)
  | [], db => .ok (db, 0)
  | row :: rest, db => do
    let (db, changed) ← expireRow now row db
    let (db, more) ← expireRows now rest db
    return (db, changed + more)

/-- `ORDER BY expires_at_ms,rcb_id`. -/
def expiresBefore (a b : ContextBinding) : Prop :=
  a.expiresAtMs < b.expiresAtMs ∨ (a.expiresAtMs = b.expiresAtMs ∧ a.key.rcbId ≤ b.key.rcbId)

instance (a b : ContextBinding) : Decidable (expiresBefore a b) :=
  inferInstanceAs (Decidable (_ ∨ _))

def dueBindings (now : Int) (scope : ContextBinding → Bool) (limit : ℕ) (db : ContextDb) :
    List ContextBinding :=
  ((db.bindings.filter fun b => b.status = .active ∧ b.expiresAtMs ≤ now ∧ scope b).insertionSort
    expiresBefore).take limit

def expireScoped (now : Int) (scope : ContextBinding → Bool) (db : ContextDb) :
    Except Refusal ContextDb := do
  let rows := dueBindings now scope 2 db
  require (rows.length ≤ 1) ⟨.runtimeError, "runner context expiry scope is inconsistent"⟩
  let (db, _) ← expireRows now rows db
  return db

def safeTimeMs : Int := 9007199254740991

/-- The checks of a reaper batch on its time and on its limit. -/
def batchArguments (nowMs limit : Int) : Except Refusal Unit := do
  require (0 ≤ nowMs ∧ nowMs ≤ safeTimeMs) ⟨.valueError, "invalid runner context expiry time"⟩
  require (1 ≤ limit ∧ limit ≤ 128) ⟨.valueError, "invalid runner context batch limit"⟩

/-- `expire_due_batch_in_transaction`: the bindings expired, and whether more are due. -/
def expireDueBatch (nowMs limit : Int) (db : ContextDb) :
    Except Refusal (ContextDb × ℕ × Bool) := do
  batchArguments nowMs limit
  let rows := dueBindings nowMs (fun _ => true) (limit.toNat + 1) db
  let (db, changed) ← expireRows nowMs (rows.take limit.toNat) db
  return (db, changed, limit.toNat < rows.length)

/-- The joins and the conditions under which a binding is live at a time. -/
def liveBinding (env : ContextEnv) (now : Int) (b : ContextBinding) : Bool :=
  (env.environments b.key.place).any (fun e => e.status = .verified ∧ ¬ e.revoked ∧
    e.proofExpiresAtMs.any (fun proof => (now : ℚ) < proof) ∧ e.origin = b.environmentOrigin ∧
    e.environmentClass = b.environmentClass ∧
    e.verificationRecordDigest = b.verificationRecordDigest) ∧
  env.runnerStatusOf b.key.workspaceId b.key.runnerId = some .active ∧
  (env.keyOf b.key.workspaceId b.key.runnerId b.key.runnerKeyId).any (fun k =>
    k.active ∧ ¬ k.revoked) ∧
  (env.identityOf b.key.workspaceId b.key.runnerId).isSome ∧
  b.status = .active ∧ now < b.expiresAtMs

/-- The signed text, the registered key and the identity record agree with the row. -/
def bindingAgrees (env : ContextEnv) (b : ContextBinding) : Bool :=
  env.artifactMatches b ∧
  (env.keyOf b.key.workspaceId b.key.runnerId b.key.runnerKeyId).any (fun k =>
    k.publicKeyDigest = b.publicKeyDigest) ∧
  (env.identityOf b.key.workspaceId b.key.runnerId).any (fun i => i.active ∧
    i.runnerId = b.key.runnerId ∧ i.workspaceId = b.key.workspaceId ∧ i.keyId = b.key.runnerKeyId)

structure ContextRef where
  workspaceId : String
  runnerId : String
  runnerKeyId : String
  bindingId : String
  bindingDigest : String
  deriving DecidableEq, Repr

def ContextKey.ref (k : ContextKey) : ContextRef :=
  ⟨k.workspaceId, k.runnerId, k.runnerKeyId, k.rcbId, k.bindingDigest⟩

def activeBinding (env : ContextEnv) (reading : ℕ) (q : ContextRef) (db : ContextDb) :
    Except Refusal (ContextDb × ContextBinding) := do
  let now := env.nowMs reading
  let db ← expireScoped now (fun b => b.key.ref = q) db
  match db.bindings.find? fun b => b.key.ref = q ∧ liveBinding env now b with
  | none => .error (runnerContextError "runner_context_binding_not_found")
  | some b => do
    require (bindingAgrees env b) (runnerContextError "runner_context_binding_not_found")
    return (db, b)

/-- A request of `create`; `valid` is the answer of its contract. -/
structure ContextCreate where
  runnerId : String
  runnerKeyId : String
  environmentId : String
  verificationRecordDigest : String
  valid : Bool
  deriving DecidableEq, Repr

namespace ContextDb

def affinity (db : ContextDb) (workspaceId runnerId : String) : Option Affinity :=
  db.affinities.find? fun a => a.workspaceId = workspaceId ∧ a.runnerId = runnerId

end ContextDb

def Affinity.matchesRow (a : Affinity) (b : ContextBinding) : Bool :=
  a.runnerKeyId = b.key.runnerKeyId ∧ a.projectRef = b.key.projectRef ∧
    a.environmentId = b.key.environmentId ∧ a.environmentOrigin = b.environmentOrigin ∧
    a.environmentClass = b.environmentClass ∧ a.publicKeyDigest = b.publicKeyDigest

/-- The uniqueness constraints of `canary_runner_context_bindings`; a violation is a conflict. -/
def insertBinding (b : ContextBinding) (db : ContextDb) : Except Refusal ContextDb := do
  require (∀ o ∈ db.bindings, o.key.rcbId ≠ b.key.rcbId ∧
      ¬ (o.key.workspaceId = b.key.workspaceId ∧ o.key.projectRef = b.key.projectRef ∧
        o.key.bindingDigest = b.key.bindingDigest) ∧
      ¬ (o.key.workspaceId = b.key.workspaceId ∧ o.key.runnerId = b.key.runnerId ∧
        o.status = .active ∧ b.status = .active))
    (runnerContextError "conflict")
  return { db with bindings := db.bindings ++ [b] }

/-- The binding `create` stores, once its environment and its key have been found fit. -/
def ContextCreate.binding (q : ContextCreate) (env : ContextEnv)
    (workspaceId projectId actor : String)
    (role : Role) (e : ContextEnvironment) (k : ContextRunnerKey) (now expires : Int) :
    ContextBinding where
  key := {
    workspaceId := workspaceId, projectRef := projectId, environmentId := q.environmentId
    runnerId := q.runnerId, runnerKeyId := q.runnerKeyId
    rcbId := "rcb_" ++ env.freshBinding, bindingDigest := env.bindingDigest }
  environmentOrigin := e.origin
  environmentClass := e.environmentClass
  publicKeyDigest := k.publicKeyDigest
  verificationRecordDigest := e.verificationRecordDigest
  createdBy := actor
  createdRole := role
  issuedAtMs := now
  expiresAtMs := expires

/-- The environment, the key and the end of the proof that `create` binds. -/
def bindable (env : ContextEnv) (workspaceId projectId : String) (q : ContextCreate) (now : Int) :
    Except Refusal (ContextEnvironment × ContextRunnerKey × Int) :=
  match env.environments (workspaceId, projectId, q.environmentId),
      env.keyOf workspaceId q.runnerId q.runnerKeyId with
  | some e, some k =>
    match e.proofExpiresAtMs with
    | none => .error (runnerContextError "conflict")
    | some proof => do
      require (e.status = .verified ∧ e.environmentClass ∈ ["staging", "sandbox"] ∧ ¬ e.revoked ∧
        now < ⌊proof⌋ ∧ e.verificationRecordDigest = q.verificationRecordDigest ∧
        env.runnerStatusOf workspaceId q.runnerId = some .active ∧ k.active ∧ ¬ k.revoked)
        (runnerContextError "conflict")
      return (e, k, ⌊proof⌋)
  | _, _ => .error (runnerContextError "conflict")

/-- `create`. -/
def createContext (env : ContextEnv) (workspaceId projectId : String) (q : ContextCreate)
    (actor : String) (role : Role) (db : ContextDb) : Except Refusal (ContextDb × ContextBinding) :=
  do
  requireActor env actor role
  require q.valid (runnerContextError "invalid_runner_context_binding")
  let now := env.nowMs 0
  assertMembership env workspaceId actor role
  let db ← expireScoped now
    (fun b => b.key.workspaceId = workspaceId ∧ b.key.runnerId = q.runnerId) db
  let (e, k, proofExpiresAtMs) ← bindable env workspaceId projectId q now
  require (¬ db.bindings.any fun b => b.key.workspaceId = workspaceId ∧
    b.key.runnerId = q.runnerId ∧ b.status = .active) (runnerContextError "conflict")
  let expires := min (now + contextTtlMs) proofExpiresAtMs
  let b := q.binding env workspaceId projectId actor role e k now expires
  require ((db.affinity workspaceId q.runnerId).all (·.matchesRow b))
    (runnerContextError "conflict")
  require (contextMinTtlMs ≤ expires - now) (runnerContextError "expired")
  let db ← insertBinding b db
  return (db, b)

def ContextBinding.named (workspaceId projectId bindingId : String) (b : ContextBinding) : Bool :=
  b.key.workspaceId = workspaceId ∧ b.key.projectRef = projectId ∧ b.key.rcbId = bindingId

/-- The expiry `revoke` looks for first. -/
def expireNamed (now : Int) (named : ContextBinding → Bool) (db : ContextDb) :
    Except Refusal ContextDb :=
  match db.bindings.find? named with
  | some row => expireScoped now (fun b => named b ∧ b.key.runnerId = row.key.runnerId) db
  | none => .ok db

/-- `revoke`; `valid` is the answer of the contract of its request. -/
def revokeContext (env : ContextEnv) (workspaceId projectId bindingId actor : String) (role : Role)
    (valid : Bool) (db : ContextDb) : Except Refusal ContextDb := do
  requireActor env actor role
  require valid (runnerContextError "invalid_runner_context_binding")
  let now := env.nowMs 0
  assertMembership env workspaceId actor role
  let named := ContextBinding.named workspaceId projectId bindingId
  let db ← expireNamed now named db
  match db.bindings.find? named with
  | none => .error (runnerContextError "runner_context_binding_not_found")
  | some row => do
    require (row.status = .active) (runnerContextError "conflict")
    let db := db.updateBindings (·.key.rcbId = bindingId) ({ · with
      status := .revoked, revokedBy := some actor, revokedAtMs := some now })
    -- a plan request is a snapshot for this binding only
    let db := { db with
      planRequests := Table.update
        (fun r : PlanRequest => r.key.workspaceId = workspaceId ∧ r.key.rcbId = bindingId ∧
          r.status = .opened) ({ · with status := .cancelled }) db.planRequests }
    enqueueTerminalCancellation row db

/-- `list_for_runner_in_transaction`: the bindings of the list. -/
def listForRunner (env : ContextEnv) (workspaceId runnerId runnerKeyId : String) (db : ContextDb) :
    Except Refusal (ContextDb × List ContextBinding) := do
  let now := env.nowMs 0
  let mine (b : ContextBinding) : Bool := b.key.workspaceId = workspaceId ∧
    b.key.runnerId = runnerId ∧ b.key.runnerKeyId = runnerKeyId
  let db ← expireScoped now mine db
  let rows := db.bindings.filter fun b => mine b ∧ liveBinding env now b
  require (rows.length ≤ 1) (runnerContextError "conflict")
  require (rows.all (bindingAgrees env)) (runnerContextError "runner_context_binding_not_found")
  return (db, rows)

/-- `_assert_or_establish_affinity_in_transaction`, with the guard of the table's trigger. -/
def assertOrEstablishAffinity (row : ContextBinding) (claimedAtMs : Int) (db : ContextDb) :
    Except Refusal ContextDb :=
  match db.affinity row.key.workspaceId row.key.runnerId with
  | some a => do
    require (a.matchesRow row) (runnerContextError "runner_context_binding_not_found")
    return db
  | none => do
    require (row.firstClaimedAtMs = none ∧
      (¬ db.bindings.any fun b => b.key.workspaceId = row.key.workspaceId ∧
        b.key.runnerId = row.key.runnerId ∧ b.firstClaimedAtMs ≠ none) ∧
      row.issuedAtMs ≤ claimedAtMs ∧ claimedAtMs < row.expiresAtMs)
      (runnerContextError "runner_context_binding_not_found")
    return { db with affinities := db.affinities ++ [{
      workspaceId := row.key.workspaceId, runnerId := row.key.runnerId
      runnerKeyId := row.key.runnerKeyId, projectRef := row.key.projectRef
      environmentId := row.key.environmentId, environmentOrigin := row.environmentOrigin
      environmentClass := row.environmentClass, publicKeyDigest := row.publicKeyDigest
      establishedRcbId := row.key.rcbId, establishedBindingDigest := row.key.bindingDigest
      establishedAtMs := claimedAtMs }] }

/-- `claim_in_transaction`; `valid` is the answer of the contract of its request. -/
def claimContext (env : ContextEnv) (q : ContextRef) (valid : Bool) (db : ContextDb) :
    Except Refusal (ContextDb × ContextBinding × Int) := do
  require valid (runnerContextError "invalid_runner_context_binding")
  let now := env.nowMs 0
  let (db, row) ← activeBinding env 1 q db
  let db ← assertOrEstablishAffinity row now db
  if row.firstClaimedAtMs = none then do
    -- the CHECK of the column
    require (row.issuedAtMs ≤ now ∧ now < row.expiresAtMs)
      ⟨.integrityError, "canary_runner_context_bindings"⟩
    return (db.updateBindings (fun b => b.key.rcbId = q.bindingId ∧ b.firstClaimedAtMs = none)
      ({ · with firstClaimedAtMs := some now }), row, now)
  else return (db, row, now)

def expirePlanRequests (workspaceId rcbId : String) (now : Int) (db : ContextDb) : ContextDb :=
  { db with
    planRequests := Table.update
      (fun r : PlanRequest => r.key.workspaceId = workspaceId ∧ r.key.rcbId = rcbId ∧
        r.status = .opened ∧ r.expiresAtMs ≤ now) ({ · with status := .expired }) db.planRequests }

def ContextDb.openPlanRequest (db : ContextDb) (workspaceId rcbId : String) : Option PlanRequest :=
  db.planRequests.find? fun r => r.key.workspaceId = workspaceId ∧ r.key.rcbId = rcbId ∧
    r.status = .opened

/-- A request of `create_plan_request`; `valid` is the answer of its contract. -/
structure PlanSelection where
  planKind : PlanKind
  routes : List RoundAction
  maxOps : Int
  valid : Bool
  deriving DecidableEq, Repr

/-- `sorted(routes, key=lambda item: (item["method"], item["route_template"]))`. -/
def sortRoutes (routes : List RoundAction) : List RoundAction :=
  routes.insertionSort fun a b => a.method.name < b.method.name ∨
    (a.method.name = b.method.name ∧ a.routeTemplate ≤ b.routeTemplate)

def createPlanRequest (env : ContextEnv) (workspaceId projectId bindingId : String)
    (q : PlanSelection) (actor : String) (role : Role) (db : ContextDb) :
    Except Refusal (ContextDb × PlanRequest) := do
  requireActor env actor role
  require q.valid (discoveryError "invalid_plan_request")
  let now := env.nowMs 0
  assertMembership env workspaceId actor role
  match db.bindings.find? fun b => b.key.workspaceId = workspaceId ∧ b.key.projectRef = projectId ∧
      b.key.rcbId = bindingId ∧ b.status = .active ∧ now < b.expiresAtMs with
  | none => .error (discoveryError "runner_context_binding_not_found")
  | some b => do
    -- discovery and scan plans never share one binding's open work
    require (¬ db.canary.authorizations.any fun a => a.place = b.key.place ∧ a.state = .opened ∧
      now < a.expiresAtMs) (discoveryError "plan_kind_mismatch")
    let db := expirePlanRequests workspaceId bindingId now db
    require (db.openPlanRequest workspaceId bindingId = none) (discoveryError "plan_request_open")
    let inventory ← env.inventory b.key.place
    let selected := sortRoutes q.routes
    require (∀ r ∈ selected, r ∈ inventory.selectable)
      (discoveryError "selection_outside_inventory")
    let row : PlanRequest := {
      planRequestId := "cpr_" ++ env.freshPlanRequest, key := b.key, planKind := q.planKind
      planRequestNonce := env.freshNonce, inventoryDigest := inventory.digest
      selectionDigest := env.selectionDigest selected, routes := selected, maxOps := q.maxOps
      createdBy := actor, createdAtMs := now, expiresAtMs := now + planRequestTtlMs }
    require (∀ r ∈ db.planRequests, r.planRequestId ≠ row.planRequestId)
      ⟨.integrityError, "canary_plan_requests"⟩
    return ({ db with planRequests := db.planRequests ++ [row] }, row)

def claimPlanRequest (env : ContextEnv) (q : ContextRef) (valid : Bool) (db : ContextDb) :
    Except Refusal (ContextDb × Option PlanRequest) := do
  require valid (runnerContextError "invalid_runner_context_binding")
  let (db, b) ← activeBinding env 0 q db
  let db := expirePlanRequests q.workspaceId q.bindingId (env.nowMs 1) db
  return (db, db.planRequests.find? fun r => r.key.ref = b.key.ref ∧
    r.key.projectRef = b.key.projectRef ∧ r.status = .opened)

end Heel.Cloud
