import Heel.Lib.Table
import Heel.Saas.Findings

/-! `CanaryDisclosureService` of `heel/saas/canary_disclosure.py` and the permit sweep of
`heel/saas/canary_reaper.py`: the requests, the permits and the findings rows, each call as one
transaction. -/
namespace Heel.Cloud
open Lib Lib.Checks

def disclosureRequestTtlMs : Int := 24 * 60 * 60 * 1000
def disclosurePermitTtlMs : Int := 10 * 60 * 1000
def findingsRetentionMs : Int := 7 * 24 * 60 * 60 * 1000
def maxUploadBytes : Nat := 272 * 1024

/-- `_PUBLIC_CODES`, the constraints of the tables and an uncaught `ContractError`. -/
inductive DisclosureCode where
  | invalidCanaryProjection | canaryStateConflict | disclosurePermitRequired
  | disclosurePermitExpired | permitConsumed | canaryRunNotFound | canaryAuthorityUnavailable
  | integrityError | contractError
  deriving DecidableEq, Repr

structure RunKey where
  workspaceId : String
  projectRef : String
  runId : String
  deriving DecidableEq, Repr

def RunKey.project (k : RunKey) : String × String := (k.workspaceId, k.projectRef)

inductive RequestStatus where
  | localResultReady | awaitingDisclosureApproval | permitted | synchronized | localOnly | expired
  deriving DecidableEq, Repr

/-- A row of `canary_disclosure_requests`. -/
structure DisclosureRequest where
  requestId : String
  run : RunKey
  grantId : String
  runnerId : String
  runnerKeyId : String
  offer : Offer
  status : RequestStatus
  createdAt : Int
  expiresAt : Int
  updatedAt : Int
  deriving DecidableEq, Repr

inductive PermitStatus where
  | permitted | consumed | expired | revoked
  deriving DecidableEq, Repr

/-- A row of `canary_disclosure_permits`. -/
structure PermitRow where
  permitId : String
  run : RunKey
  requestId : String
  grantId : String
  runnerId : String
  runnerKeyId : String
  offer : Offer
  permitDigest : String
  permitJson : DisclosurePermit
  nonceHash : String
  status : PermitStatus
  approvedBy : String
  approvedAt : Int
  issuedAt : Int
  expiresAt : Int
  consumedAt : Option Int
  deriving DecidableEq, Repr

/-- A row of `canary_findings_projections`; a purge empties `projectionJson` only. -/
structure FindingsRow where
  findingId : String
  run : RunKey
  grantId : String
  permitId : String
  runnerId : String
  runnerKeyId : String
  offer : Offer
  projectionJson : Option (List Char)
  receiptId : String
  receiptDigest : String
  acceptedAt : Int
  purgeAt : Int
  deriving DecidableEq, Repr

structure DisclosureDb where
  requests : List DisclosureRequest := []
  permits : List PermitRow := []
  findings : List FindingsRow := []
  deriving DecidableEq, Repr

structure PlannedRoute where
  scenarioId : String
  adapterVersion : String
  method : Method
  routeTemplate : String
  deriving DecidableEq, Repr

/-- What the upload reads of the stored approval projection. -/
structure ApprovedPlan where
  scenarios : List (String × String)
  actions : List PlannedRoute
  adapterVersions : List String
  deriving DecidableEq, Repr

/-- The row of `_run_context`. A document is absent once it is purged. -/
structure RunContext where
  grantId : String
  environmentId : String
  runnerId : String
  runnerKeyId : String
  runStatus : Phase
  executionDisposition : Option Disposition
  grantDigest : String
  grant : Option Grant
  approvalProjectionDigest : String
  manifestDigest : String
  approval : Option ApprovedPlan
  publicKey : List UInt8
  keyActive : Bool
  keyRevoked : Bool
  runnerStatus : RunnerStatus
  receiptPhase : Option Phase
  receiptDigest : Option String
  receipt : Option OperationalRun
  receiptRunnerId : Option String
  receiptRunnerKeyId : Option String
  deriving DecidableEq

structure DisclosureEnv where
  now : Int
  /-- `value == value.strip()`. -/
  stripped : String → Bool
  membership : String → String → Option Role
  context : RunKey → Option RunContext
  signingKeyId : String
  signingPublicKey : List UInt8
  /-- `signing.sign`. -/
  sign : List Char → String × List UInt8
  freshRequest : String
  freshPermit : String
  freshNonce : String
  freshReceipt : String

variable (P : Platform) (env : DisclosureEnv)

/-- `_identifier`. -/
def disclosureIdentifier (value : String) (code : DisclosureCode) : Except DisclosureCode Unit :=
  require (value ≠ "" ∧ env.stripped value ∧ byteSize value.toList ≤ 128 ∧
    Char.ofNat 0 ∉ value.toList) code

def runIdentifiers (run : RunKey) : Except DisclosureCode Unit :=
  [run.workspaceId, run.projectRef, run.runId].forM fun s =>
    disclosureIdentifier env s .invalidCanaryProjection

/-- `_metadata`. -/
def offerMetadata (schemaVersion : String) (offer : Offer) : Except DisclosureCode Unit :=
  require (schemaVersion = findingsSchema ∧
    (offer.projectionDigest.length = 64 ∧
      offer.projectionDigest.toList.all Containment.isHexDigit) ∧
    1 ≤ offer.byteCount ∧ offer.byteCount ≤ 262144 ∧
    0 ≤ offer.scenarioCount ∧ offer.scenarioCount ≤ 4 ∧
    0 ≤ offer.findingCount ∧ offer.findingCount ≤ offer.scenarioCount) .invalidCanaryProjection

def runContext (run : RunKey) (runnerId : Option String) : Except DisclosureCode RunContext :=
  match env.context run with
  | some row => do
    require (runnerId.all (· = row.runnerId)) .canaryRunNotFound
    return row
  | none => .error .canaryRunNotFound

def requireTerminalResult (row : RunContext) : Except DisclosureCode Unit :=
  require (row.runStatus = .terminal ∧ row.receiptPhase = some .terminal ∧ row.receipt ≠ none ∧
    row.executionDisposition ≠ none) .canaryStateConflict

def requireActiveAuthority (row : RunContext) : Except DisclosureCode Unit :=
  require (row.runnerStatus = .active ∧ row.keyActive ∧ ¬ row.keyRevoked ∧
    row.receiptRunnerId = some row.runnerId ∧ row.receiptRunnerKeyId = some row.runnerKeyId)
    .canaryAuthorityUnavailable

def isHuman (role : Option Role) : Bool := role = some .owner ∨ role = some .admin

/-- The inserts under the unique constraints of their tables. -/
def DisclosureDb.insertRequest (r : DisclosureRequest) (db : DisclosureDb) :
    Except DisclosureCode DisclosureDb := do
  require (∀ o ∈ db.requests, o.requestId ≠ r.requestId ∧ o.run ≠ r.run ∧
    ¬ (o.run.project = r.run.project ∧ o.offer.projectionDigest = r.offer.projectionDigest))
    .integrityError
  return { db with requests := db.requests ++ [r] }

structure PreviewCall where
  run : RunKey
  runnerId : String
  runnerKeyId : String
  schemaVersion : String
  offer : Offer
  deriving DecidableEq, Repr

/-- `preview`: the answer is the request it leaves or finds. -/
def preview (c : PreviewCall) (db : DisclosureDb) :
    Except DisclosureCode (DisclosureDb × DisclosureRequest) := do
  runIdentifiers env c.run
  [c.runnerId, c.runnerKeyId].forM fun s => disclosureIdentifier env s .invalidCanaryProjection
  offerMetadata c.schemaVersion c.offer
  let row ← runContext env c.run (some c.runnerId)
  requireTerminalResult row
  requireActiveAuthority row
  require (c.runnerKeyId = row.runnerKeyId) .canaryAuthorityUnavailable
  match db.requests.find? fun o => o.run = c.run with
  | some prior => do
    require (prior.offer = c.offer ∧ prior.runnerId = c.runnerId ∧
      prior.runnerKeyId = c.runnerKeyId) .canaryStateConflict
    return (db, prior)
  | none => do
    let request : DisclosureRequest :=
      { requestId := env.freshRequest, run := c.run, grantId := row.grantId
        runnerId := c.runnerId, runnerKeyId := c.runnerKeyId, offer := c.offer
        status := .localResultReady, createdAt := env.now
        expiresAt := env.now + disclosureRequestTtlMs, updatedAt := env.now }
    let db ← db.insertRequest request
    return (db, request)

/-- The permits of a request, as the statements on it select them. -/
def PermitRow.ofRequest (r : DisclosureRequest) (p : PermitRow) : Bool :=
  p.run = r.run ∧ p.requestId = r.requestId

def PermitRow.due (now : Int) (p : PermitRow) : Bool := p.status = .permitted ∧ p.expiresAt ≤ now

def PermitRow.live (now : Int) (p : PermitRow) : Bool := p.status = .permitted ∧ now < p.expiresAt

def PermitRow.expire (p : PermitRow) : PermitRow := { p with status := .expired }

def PermitRow.consume (p : PermitRow) (now : Int) : PermitRow :=
  { p with status := .consumed, consumedAt := some now }

def DisclosureRequest.moved (r : DisclosureRequest) (status : RequestStatus) (now : Int) :
    DisclosureRequest :=
  { r with status := status, updatedAt := now }

/-- The key of the statements on one request. -/
def DisclosureRequest.matches (r o : DisclosureRequest) : Bool :=
  o.run.project = r.run.project ∧ o.requestId = r.requestId

def expireUnusedPermits (r : DisclosureRequest) (now : Int) (db : DisclosureDb) : DisclosureDb :=
  let permits := Table.update (fun p => p.ofRequest r ∧ p.due now) PermitRow.expire db.permits
  { db with
    permits := permits
    requests :=
      if db.permits.any (fun p => p.ofRequest r ∧ p.due now) ∧
          ¬ permits.any (fun p => p.ofRequest r ∧ p.live now) ∧ r.status = .permitted then
        Table.update (fun o => r.matches o ∧ o.status = .permitted)
          (·.moved .awaitingDisclosureApproval now) db.requests
      else db.requests }

def sweepPermits (now : Int) (db : DisclosureDb) : DisclosureDb :=
  let permits := Table.update (·.due now) PermitRow.expire db.permits
  { db with
    permits := permits
    requests := Table.update (fun (r : DisclosureRequest) => r.status = .permitted ∧
        permits.any (fun p => p.run.project = r.run.project ∧ p.requestId = r.requestId ∧
          p.status = .expired) ∧
        ¬ permits.any (fun p => p.run.project = r.run.project ∧ p.requestId = r.requestId ∧
          p.status = .permitted))
      (·.moved .awaitingDisclosureApproval now) db.requests }

/-- The request as it stands after its elapsed permits are expired. -/
def settledRequest (r : DisclosureRequest) (now : Int) (db : DisclosureDb) :
    DisclosureDb × DisclosureRequest :=
  if r.status = .permitted then
    let db := expireUnusedPermits r now db
    (db, (db.requests.find? fun o => o.requestId = r.requestId).getD r)
  else (db, r)

structure LocalOnlyCall where
  run : RunKey
  requestId : String
  actor : String
  deriving DecidableEq, Repr

def findRequest (db : DisclosureDb) (run : RunKey) (requestId : String) (code : DisclosureCode) :
    Except DisclosureCode DisclosureRequest :=
  match db.requests.find? fun o => o.run = run ∧ o.requestId = requestId with
  | some r => .ok r
  | none => .error code

def localOnly (c : LocalOnlyCall) (db : DisclosureDb) : Except DisclosureCode DisclosureDb := do
  runIdentifiers env c.run
  disclosureIdentifier env c.requestId .canaryStateConflict
  disclosureIdentifier env c.actor .canaryAuthorityUnavailable
  let _ ← runContext env c.run none
  require (isHuman (env.membership c.run.workspaceId c.actor)) .canaryAuthorityUnavailable
  let request ← findRequest db c.run c.requestId .canaryStateConflict
  let (db, request) := settledRequest request env.now db
  if request.status = .localOnly then return db
  else do
    require (request.status ∈ [RequestStatus.localResultReady, .awaitingDisclosureApproval])
      .canaryStateConflict
    let requests := Table.update request.matches (·.moved .localOnly env.now) db.requests
    return { db with requests := requests }

structure PermitCall where
  run : RunKey
  requestId : String
  schemaVersion : String
  offer : Offer
  actor : String
  role : Role
  recentAuthAtMs : Int
  deriving DecidableEq, Repr

/-- `verify_envelope` over the canonical bytes of a record without its signature. -/
def recordVerifies (publicKey signature : List UInt8) (unsigned : Json) : Bool :=
  match Json.canonicalBytes P unsigned with
  | .ok bytes => P.verify publicKey signature bytes
  | .error _ => false

/-- `_verify_permit_signature`. -/
def permitSignatureVerifies (p : DisclosurePermit) : Bool :=
  p.signingKeyId = env.signingKeyId ∧ recordVerifies P env.signingPublicKey p.signature p.unsigned

/-- `_existing_permit`, on the rows its expiry leaves. -/
def existingPermit (r : DisclosureRequest) (actor : String) (db : DisclosureDb) :
    Except DisclosureCode (Option DisclosurePermit) :=
  let rows := (db.permits.filter fun p => p.ofRequest r ∧ p.live env.now).insertionSort
    fun p o => o.issuedAt < p.issuedAt ∨ (o.issuedAt = p.issuedAt ∧
      o.permitId.toList ≤ p.permitId.toList)
  match rows.head? with
  | none => .ok none
  | some row => do
    require (row.approvedBy = actor) .canaryStateConflict
    let value := row.permitJson
    require (accepts (value.validate P) ∧ permitSignatureVerifies P env value ∧
      value.permitId = row.permitId ∧ value.permitDigest = row.permitDigest ∧
      value.approvedBy = row.approvedBy ∧ P.sha256 value.permitNonce.toList = row.nonceHash)
      .canaryAuthorityUnavailable
    return some value

/-- The permit before its digest and its signature. -/
def unsignedPermit (c : PermitCall) (row : RunContext) : DisclosurePermit where
  permitId := env.freshPermit
  workspaceId := c.run.workspaceId
  projectId := c.run.projectRef
  runId := c.run.runId
  grantId := row.grantId
  runnerId := row.runnerId
  runnerKeyId := row.runnerKeyId
  projection := c.offer
  approvedBy := c.actor
  approvedAtMs := env.now
  issuedAtMs := env.now
  expiresAtMs := env.now + disclosurePermitTtlMs
  permitNonce := env.freshNonce
  permitDigest := ""
  signingKeyId := ""
  signature := []

/-- The signed permit, checked against its own contract. -/
def mintPermit (c : PermitCall) (row : RunContext) : Except DisclosureCode DisclosurePermit :=
  let unsigned := unsignedPermit env c row
  match Json.canonicalBytes P unsigned.unsigned with
  | .error _ => .error .contractError
  | .ok bytes => do
    let (keyId, signature) := env.sign bytes
    let value : DisclosurePermit :=
      { unsigned with
        permitDigest := P.sha256 bytes, signingKeyId := keyId, signature := signature }
    require (accepts (value.validate P)) .canaryAuthorityUnavailable
    return value

def permitRow (c : PermitCall) (row : RunContext) (value : DisclosurePermit) : PermitRow where
  permitId := env.freshPermit
  run := c.run
  requestId := c.requestId
  grantId := row.grantId
  runnerId := row.runnerId
  runnerKeyId := row.runnerKeyId
  offer := c.offer
  permitDigest := value.permitDigest
  permitJson := value
  nonceHash := P.sha256 env.freshNonce.toList
  status := .permitted
  approvedBy := c.actor
  approvedAt := env.now
  issuedAt := env.now
  expiresAt := value.expiresAtMs
  consumedAt := none

def DisclosureDb.insertPermit (p : PermitRow) (db : DisclosureDb) :
    Except DisclosureCode DisclosureDb := do
  require (∀ o ∈ db.permits, o.permitId ≠ p.permitId ∧ o.permitDigest ≠ p.permitDigest ∧
    o.nonceHash ≠ p.nonceHash) .integrityError
  return { db with permits := db.permits ++ [p] }

/-- The end of `permit`, on a request that waits for the choice. -/
def grantPermit (c : PermitCall) (row : RunContext) (request : DisclosureRequest)
    (db : DisclosureDb) : Except DisclosureCode (DisclosureDb × DisclosurePermit) := do
  let value ← mintPermit P env c row
  let db ← db.insertPermit (permitRow P env c row value)
  let requests := Table.update request.matches (·.moved .permitted env.now) db.requests
  return ({ db with requests := requests }, value)

/-- The checks of `permit` on the status it finds. -/
def permitStatus (c : PermitCall) (row : RunContext) (request : DisclosureRequest)
    (db : DisclosureDb) : Except DisclosureCode (DisclosureDb × DisclosurePermit) := do
  require (¬ request.expiresAt ≤ env.now ∧ request.status ≠ .expired) .disclosurePermitExpired
  match request.status with
  | .synchronized => .error .permitConsumed
  | .permitted => do
    let db := expireUnusedPermits request env.now db
    let existing ← existingPermit P env request c.actor db
    match existing with
    | some value => return (db, value)
    | none => .error .canaryStateConflict
  | .localResultReady | .awaitingDisclosureApproval => grantPermit P env c row request db
  | .localOnly | .expired => .error .canaryStateConflict

def permit (c : PermitCall) (db : DisclosureDb) :
    Except DisclosureCode (DisclosureDb × DisclosurePermit) := do
  runIdentifiers env c.run
  [c.requestId, c.actor].forM fun s => disclosureIdentifier env s .disclosurePermitRequired
  offerMetadata c.schemaVersion c.offer
  require (isHuman (some c.role) ∧ ¬ env.now + 30000 < c.recentAuthAtMs ∧
    ¬ recentAuthMs < env.now - c.recentAuthAtMs) .disclosurePermitRequired
  let row ← runContext env c.run none
  requireTerminalResult row
  requireActiveAuthority row
  require (isHuman (env.membership c.run.workspaceId c.actor) ∧
    env.membership c.run.workspaceId c.actor = some c.role) .disclosurePermitRequired
  let request ← findRequest db c.run c.requestId .disclosurePermitRequired
  let (db, request) := settledRequest request env.now db
  require (request.offer = c.offer ∧ request.grantId = row.grantId ∧
    request.runnerId = row.runnerId ∧ request.runnerKeyId = row.runnerKeyId)
    .invalidCanaryProjection
  permitStatus P env c row request db

/-- A validated `heel.runner-findings-upload.v1`. -/
structure FindingsUpload where
  runId : String
  permit : DisclosurePermit
  findings : CanaryFindings
  deriving DecidableEq, Repr

def FindingsUpload.document (u : FindingsUpload) : Json :=
  .obj [("schema_version", .str "heel.runner-findings-upload.v1"), ("run_id", .str u.runId),
    ("permit", u.permit.record), ("findings_projection", u.findings.record)]

/-- The size check of `_validate_upload`. -/
def FindingsUpload.fits (u : FindingsUpload) : Bool :=
  match Json.canonicalBytes P u.document with
  | .ok bytes => byteSize bytes ≤ maxUploadBytes
  | .error _ => false

def validateUpload (u : FindingsUpload) : Except DisclosureCode Unit := do
  require (u.fits P) .invalidCanaryProjection
  disclosureIdentifier env u.runId .invalidCanaryProjection
  require (accepts (u.permit.validate P) ∧ accepts (u.findings.validate P)) .invalidCanaryProjection

/-- The part of `_verify_projection_bindings` on the stored records. -/
def findingsBound (run : RunKey) (row : RunContext) (f : CanaryFindings) : Bool :=
  match row.approval, row.grant, row.receipt with
  | some approval, some grant, some receipt =>
    accepts (receipt.validate P) ∧
    recordVerifies P row.publicKey receipt.signature receipt.unsigned ∧
    f.runId = run.runId ∧ run.runId = grant.runId ∧ grant.runId = receipt.runId ∧
    f.grantId = row.grantId ∧ row.grantId = grant.grantId ∧ grant.grantId = receipt.grantId ∧
    f.workspaceId = run.workspaceId ∧ run.workspaceId = grant.workspaceId ∧
    f.projectId = run.projectRef ∧ run.projectRef = grant.projectId ∧
    f.environmentId = row.environmentId ∧ f.environmentId = grant.environment.environmentId ∧
    f.manifestDigest = row.manifestDigest ∧ f.manifestDigest = grant.manifestDigest ∧
    f.manifestDigest = receipt.manifestDigest ∧
    f.approvalProjectionDigest = row.approvalProjectionDigest ∧
    f.approvalProjectionDigest = grant.projectionDigest ∧
    f.approvalProjectionDigest = receipt.approvalProjectionDigest ∧
    f.grantDigest = row.grantDigest ∧ row.grantDigest = grant.grantDigest ∧
    f.grantDigest = receipt.grantDigest ∧ f.engineVersion = receipt.engineVersion ∧
    f.adapterVersions = receipt.adapterVersions ∧ f.adapterVersions = approval.adapterVersions ∧
    some f.startedAtMs = receipt.timestamps.startedAtMs ∧
    some f.finishedAtMs = receipt.timestamps.terminalAtMs ∧
    f.containmentCodes = receipt.containmentCodes ∧ f.redactionCount = receipt.redactionCount ∧
    row.receiptDigest = some receipt.projectionDigest ∧
    approval.scenarios = f.scenarioResults.map (fun s => (s.scenarioId, s.adapterVersion)) ∧
    f.scenarioResults.all fun s =>
      decide (PlannedRoute.mk s.scenarioId s.adapterVersion s.method s.routeTemplate
        ∈ approval.actions)
  | _, _, _ => false

/-- What the findings are, in the terms of an offer; the bytes are those of the record. -/
def CanaryFindings.offer (f : CanaryFindings) (bytes : List Char) : Offer where
  projectionDigest := f.projectionDigest
  byteCount := byteSize bytes
  scenarioCount := f.scenarioResults.length
  findingCount := f.findingCount

def verifyProjectionBindings (run : RunKey) (row : RunContext) (permitRow : PermitRow)
    (p : DisclosurePermit) (f : CanaryFindings) : Except DisclosureCode (List Char) :=
  match Json.canonicalBytes P f.record with
  | .error _ => .error .contractError
  | .ok bytes => do
    require (p.projection = f.offer bytes ∧ permitRow.offer = f.offer bytes)
      .invalidCanaryProjection
    require (findingsBound P run row f) .invalidCanaryProjection
    return bytes

structure FindingsReceipt where
  receiptId : String
  run : RunKey
  grantId : String
  permitId : String
  projectionId : String
  offer : Offer
  acceptedAtMs : Int
  deriving DecidableEq, Repr

def FindingsReceipt.document (r : FindingsReceipt) : Json :=
  .obj [("schema_version", .str "heel.canary-findings-receipt.v1"),
    ("receipt_id", .str r.receiptId), ("workspace_id", .str r.run.workspaceId),
    ("project_id", .str r.run.projectRef), ("run_id", .str r.run.runId),
    ("grant_id", .str r.grantId), ("permit_id", .str r.permitId),
    ("projection_id", .str r.projectionId), ("projection_digest", .str r.offer.projectionDigest),
    ("byte_count", .int r.offer.byteCount), ("scenario_count", .int r.offer.scenarioCount),
    ("finding_count", .int r.offer.findingCount), ("accepted_at_ms", .int r.acceptedAtMs),
    ("status", .str "synchronized")]

def DisclosureDb.insertFindings (f : FindingsRow) (db : DisclosureDb) :
    Except DisclosureCode DisclosureDb := do
  require (∀ o ∈ db.findings, o.findingId ≠ f.findingId ∧ o.run ≠ f.run ∧
    o.offer.projectionDigest ≠ f.offer.projectionDigest ∧ o.receiptId ≠ f.receiptId) .integrityError
  return { db with findings := db.findings ++ [f] }

/-- The writes of `upload`. -/
def synchronize (run : RunKey) (runnerId : String) (row : RunContext) (p : DisclosurePermit)
    (f : CanaryFindings) (bytes : List Char) (request : DisclosureRequest) (db : DisclosureDb) :
    Except DisclosureCode (DisclosureDb × FindingsReceipt) := do
  let receipt : FindingsReceipt :=
    { receiptId := env.freshReceipt, run := run, grantId := row.grantId, permitId := p.permitId
      projectionId := f.projectionId, offer := f.offer bytes, acceptedAtMs := env.now }
  match Json.canonicalDigest P receipt.document with
  | .error _ => .error .contractError
  | .ok receiptDigest => do
    let unused := fun o : PermitRow => decide (o.run.project = run.project ∧
      o.permitId = p.permitId ∧ o.status = .permitted)
    require ((db.permits.filter unused).length = 1) .permitConsumed
    let permits := Table.update unused (·.consume env.now) db.permits
    let db ← DisclosureDb.insertFindings
      { findingId := f.projectionId, run := run, grantId := row.grantId, permitId := p.permitId
        runnerId := runnerId, runnerKeyId := row.runnerKeyId, offer := f.offer bytes
        projectionJson := some bytes, receiptId := env.freshReceipt
        receiptDigest := receiptDigest, acceptedAt := env.now
        purgeAt := env.now + findingsRetentionMs } { db with permits := permits }
    let requests := Table.update (fun o => request.matches o ∧ o.status = .permitted)
      (·.moved .synchronized env.now) db.requests
    return ({ db with requests := requests }, receipt)

/-- Two documents of the same canonical bytes. -/
def sameBytes (a b : Json) : Bool :=
  match Json.canonicalBytes P a, Json.canonicalBytes P b with
  | .ok x, .ok y => x = y
  | _, _ => false

/-- The stored permit that an upload names, and whether it may still be used. -/
def usablePermit (run : RunKey) (runnerId : String) (row : RunContext) (p : DisclosurePermit)
    (db : DisclosureDb) : Except DisclosureCode PermitRow :=
  match db.permits.find? fun o => o.permitId = p.permitId ∧ o.run = run ∧
      o.grantId = row.grantId ∧ o.runnerId = runnerId ∧ o.runnerKeyId = row.runnerKeyId with
  | none => .error .disclosurePermitRequired
  | some permitRow => do
    require (permitRow.status ≠ .consumed) .permitConsumed
    require (permitRow.status ≠ .expired ∧ ¬ permitRow.expiresAt ≤ env.now)
      .disclosurePermitExpired
    require (permitRow.status = .permitted) .disclosurePermitRequired
    require (sameBytes P permitRow.permitJson.record p.record ∧ permitRow.permitDigest =
      p.permitDigest ∧
      permitRow.nonceHash = P.sha256 p.permitNonce.toList) .invalidCanaryProjection
    return permitRow

/-- `upload`, by the runner that the route has authenticated. -/
def upload (run : RunKey) (runnerId : String) (u : FindingsUpload) (db : DisclosureDb) :
    Except DisclosureCode (DisclosureDb × FindingsReceipt) := do
  runIdentifiers env run
  disclosureIdentifier env runnerId .invalidCanaryProjection
  validateUpload P env u
  require (u.runId = run.runId) .invalidCanaryProjection
  require (permitSignatureVerifies P env u.permit) .invalidCanaryProjection
  let row ← runContext env run (some runnerId)
  requireTerminalResult row
  requireActiveAuthority row
  require (u.permit.workspaceId = run.workspaceId ∧ u.permit.projectId = run.projectRef ∧
    u.permit.runId = run.runId ∧ u.permit.grantId = row.grantId ∧ u.permit.runnerId = runnerId ∧
    u.permit.runnerKeyId = row.runnerKeyId) .invalidCanaryProjection
  let permitRow ← usablePermit P env run runnerId row u.permit db
  match db.requests.find? fun o => o.run = run ∧ o.requestId = permitRow.requestId ∧
      o.grantId = row.grantId ∧ o.runnerId = runnerId ∧ o.runnerKeyId = row.runnerKeyId with
  | none => .error .disclosurePermitRequired
  | some request => do
    require (request.status = .permitted) .disclosurePermitRequired
    require (u.findings.signingKeyId = row.runnerKeyId ∧
      recordVerifies P row.publicKey u.findings.signature u.findings.unsigned)
      .invalidCanaryProjection
    let bytes ← verifyProjectionBindings P run row permitRow u.permit u.findings
    synchronize P env run runnerId row u.permit u.findings bytes request db

def purgeExpiredPayloads (now : Int) (db : DisclosureDb) : DisclosureDb :=
  { db with
    findings := Table.update (fun (f : FindingsRow) => f.projectionJson.isSome ∧ f.purgeAt ≤ now)
      (fun f => { f with projectionJson := none }) db.findings }

inductive DisclosureCall where
  | preview (c : PreviewCall)
  | permit (c : PermitCall)
  | localOnly (c : LocalOnlyCall)
  | upload (run : RunKey) (runnerId : String) (u : FindingsUpload)
  | purge
  | sweep

/-- The rows a call leaves, if it does not raise. -/
def disclosureCall (db : DisclosureDb) : DisclosureCall → Except DisclosureCode DisclosureDb
  | .preview c => Prod.fst <$> preview env c db
  | .permit c => Prod.fst <$> permit P env c db
  | .localOnly c => localOnly env c db
  | .upload run runnerId u => Prod.fst <$> upload P env run runnerId u db
  | .purge => .ok (purgeExpiredPayloads env.now db)
  | .sweep => .ok (sweepPermits env.now db)

/-- One transaction: a call that raises leaves the rows as they were. -/
def disclosureTransact (db : DisclosureDb) (c : DisclosureCall) : DisclosureDb :=
  match disclosureCall P env db c with
  | .ok t => t
  | .error _ => db

end Heel.Cloud
