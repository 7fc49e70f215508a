import Mathlib.Data.Prod.Lex
import Heel.Contracts.OperationalRun
import Heel.Lib.Page
import Heel.Lib.Table
import Heel.Lib.Transition

/-! The durable control state of a runner in `heel/runner/runtime.py`. Every call is one
transaction of SQLite, which an exception undoes. A row of the model is the record that is sealed
in its blob: the index columns repeat fields of it, and a blob that was sealed by this runner opens
to the record that was checked when it was written. A run hash stands for its run in the keys.
Left out are the key material, the paths and headers of a signed request beyond the verdict on
them, the recovery table of the claim chain and the contents of an approval and a grant. -/
namespace Heel.Runtime
open Lib Lib.Checks

/-! ### Checked values -/

def maxSafeInt : Nat := 9007199254740991

/-- What `_safe_int` accepts. -/
abbrev SafeInt := Fin (maxSafeInt + 1)

def isHex (size : Nat) (text : List Char) : Bool :=
  text.length = size && text.all Containment.isHexDigit

/-- What `_digest` accepts. -/
abbrev Digest := { s : String // isHex 64 s.toList = true }

/-- What `_run_id` accepts. -/
abbrev RunId := { s : String // (s.toList.take 5 == "crun_".toList &&
    isHex 32 (s.toList.drop 5)) = true }

def isBase64Digit (c : Char) : Bool := c.isAlphanum || c == '+' || c == '/'

/-- What `_nonce` accepts: 32 bytes in base 64. -/
abbrev Nonce := { s : String //
  (s.toList.length = 44 && (s.toList.take 43).all isBase64Digit &&
  s.toList.drop 43 == ['=']) = true }

/-- What `_text` accepts. -/
abbrev Label := { s : String // (s ≠ "" && byteSize s.toList ≤ 128) = true }

inductive FaultClass where
  | stateError | conflict | sequenceConsumed | corrupt | disclosureUnavailable
  deriving DecidableEq, Repr

structure Fault where
  raised : FaultClass
  reason : String
  deriving DecidableEq, Repr

def stateError (reason : String) : Fault := ⟨.stateError, reason⟩
def conflict (reason : String) : Fault := ⟨.conflict, reason⟩
def corrupt (reason : String) : Fault := ⟨.corrupt, reason⟩
def disclosureUnavailable : Fault := ⟨.disclosureUnavailable, "terminal disclosure is unavailable"⟩
/-- What `_connection` makes of a constraint that fails. -/
def databaseInvalid : Fault := corrupt "runtime state database is invalid"

/-- `if value is None: raise fault`. -/
def found {α : Type} (value : Option α) (fault : Fault) : Except Fault α :=
  match value with
  | some a => .ok a
  | none => .error fault

@[simp] theorem found_ok {α : Type} {value : Option α} {fault : Fault} {a : α} :
    found value fault = .ok a ↔ value = some a := by
  cases value <;> simp [found]

/-! ### The tables -/

inductive ChainOp where
  | claim | heartbeat | progress | result | stopAck
  deriving DecidableEq, Repr

/-- `_RUN_CHAIN_OPERATIONS`. -/
def runChainOps : List ChainOp := [.heartbeat, .progress, .result, .stopAck]

inductive RequestOp where
  | claim | heartbeat | progress | result | stopAck | uploadFindings | listContexts | claimContext
  | submitContextApprovalProjection
  deriving DecidableEq, Repr

def RequestOp.chain : RequestOp → ChainOp
  | .claim | .listContexts | .claimContext | .submitContextApprovalProjection => .claim
  | .heartbeat => .heartbeat
  | .progress => .progress
  | .stopAck => .stopAck
  | .result | .uploadFindings => .result

/-- `_SUPERSEDABLE_OPERATIONS`. -/
def RequestOp.supersedable : RequestOp → Bool
  | .listContexts | .claimContext | .claim => true
  | _ => false

/-- A row of `control_chains`. -/
structure Cursor where
  operation : ChainOp
  runId : Option RunId
  nextNonce : Nonce
  nextSequence : SafeInt
  generation : SafeInt
  updatedAtMs : SafeInt
  deriving DecidableEq

/-- A row of `pending_calls`. -/
structure PendingCall where
  callId : Digest
  request : RequestOp
  runId : Option RunId
  path : String
  bodyDigest : Digest
  nonce : Nonce
  sequence : SafeInt
  generation : SafeInt
  priorStateDigest : Option Digest
  createdAtMs : SafeInt
  deriving DecidableEq

structure Gate where
  active : Bool
  stopReason : StopReason
  killSwitchGeneration : Nat
  serverTimeMs : Nat
  deriving DecidableEq

/-- A row of `active_runs`. -/
structure ActiveRun where
  runId : RunId
  projectId : Label
  grantId : Label
  approvalProjectionDigest : Digest
  grantKillSwitchGeneration : Nat
  gate : Gate
  claimResponseDigest : Digest
  latestGateResponseDigest : Digest
  claimedAtMs : SafeInt
  gateReceivedAtMs : SafeInt
  revision : Nat
  priorStateDigest : Option Digest
  deriving DecidableEq

inductive Phase where
  | localTerminal | available | consumed | prunePending
  deriving DecidableEq, Repr

/-- The result cursor that an available disclosure keeps. -/
structure ResultChain where
  nextNonce : Nonce
  nextSequence : SafeInt
  generation : SafeInt
  deriving DecidableEq

/-- A row of `terminal_disclosures`. -/
structure Terminal where
  state : Phase
  runId : RunId
  projectId : Label
  grantId : Label
  approvalProjectionDigest : Digest
  terminalProjectionDigest : Digest
  terminalRecordDigest : Digest
  terminalAtMs : SafeInt
  retentionExpiresAtMs : SafeInt
  resultChain : Option ResultChain := none
  availableAtMs : Option SafeInt := none
  permitId : Option Label := none
  findingsProjectionDigest : Option Digest := none
  receiptDigest : Option Digest := none
  disclosedAtMs : Option SafeInt := none
  revision : Nat
  priorStateDigest : Option Digest := none
  deriving DecidableEq

/-- `_validate_terminal_core`. -/
def Terminal.valid (t : Terminal) : Prop :=
  t.terminalAtMs < t.retentionExpiresAtMs ∧ 1 ≤ t.revision ∧ t.revision ≤ maxSafeInt ∧
    (∀ c ∈ t.resultChain, 1 ≤ c.nextSequence.val) ∧
    match t.state with
    | .localTerminal => t.resultChain = none ∧ t.availableAtMs = none ∧ t.permitId = none ∧
        t.findingsProjectionDigest = none ∧ t.receiptDigest = none ∧ t.disclosedAtMs = none ∧
        t.priorStateDigest = none ∧ t.revision = 1
    | .available => t.resultChain.isSome ∧ t.availableAtMs.any (t.terminalAtMs ≤ ·) ∧
        t.permitId = none ∧ t.findingsProjectionDigest = none ∧ t.receiptDigest = none ∧
        t.disclosedAtMs = none ∧ t.priorStateDigest.isSome ∧ t.revision = 2
    | .consumed => t.resultChain = none ∧ t.availableAtMs.isSome ∧ t.permitId.isSome ∧
        t.findingsProjectionDigest.isSome ∧ t.receiptDigest.isSome ∧
        t.disclosedAtMs.any (fun d => t.terminalAtMs ≤ d ∧ d < t.retentionExpiresAtMs) ∧
        t.priorStateDigest.isSome ∧ t.revision = 3
    | .prunePending => t.resultChain = none ∧ t.priorStateDigest.isSome ∧ 2 ≤ t.revision

instance (t : Terminal) : Decidable t.valid := by
  unfold Terminal.valid
  cases t.state <;> infer_instance

structure RuntimeDb where
  chains : List Cursor := []
  pending : List PendingCall := []
  active : List ActiveRun := []
  terminals : List Terminal := []
  retired : List RunId := []
  rotationFence : Option Digest := none
  deriving DecidableEq

/-- The digests of the records, and the SHA-256 of a run id and of what names a call. -/
structure Hashes where
  runHash : RunId → String
  chain : Cursor → Digest
  active : ActiveRun → Digest
  terminal : Terminal → Digest
  call : RequestOp → Option RunId → String → Digest → Nonce → SafeInt → SafeInt → Digest

namespace RuntimeDb

def chain? (db : RuntimeDb) (operation : ChainOp) (runId : Option RunId) : Option Cursor :=
  db.chains.find? fun c => c.operation = operation ∧ c.runId = runId

def call? (db : RuntimeDb) (callId : Digest) : Option PendingCall :=
  db.pending.find? fun p => p.callId = callId

def active? (db : RuntimeDb) (runId : RunId) : Option ActiveRun :=
  db.active.find? fun a => a.runId = runId

def terminal? (db : RuntimeDb) (runId : RunId) : Option Terminal :=
  db.terminals.find? fun t => t.runId = runId

def busy (db : RuntimeDb) (operation : ChainOp) (runId : Option RunId) : Bool :=
  db.pending.any fun p => p.request.chain = operation ∧ p.runId = runId

def updateChain (db : RuntimeDb) (c : Cursor) : RuntimeDb :=
  { db with
    chains := Table.update (fun o => o.operation = c.operation ∧ o.runId = c.runId) (fun _ => c)
      db.chains }

def insertChain (db : RuntimeDb) (c : Cursor) : RuntimeDb :=
  { db with chains := db.chains ++ [c] }

def deleteCall (db : RuntimeDb) (callId : Digest) : RuntimeDb :=
  { db with pending := db.pending.filter fun p => p.callId ≠ callId }

def updateTerminal (db : RuntimeDb) (t : Terminal) : RuntimeDb :=
  { db with
    terminals := Table.update (fun o => o.runId = t.runId) (fun _ => t) db.terminals }

/-- Delete the active run, the cursors and the pending calls of a run. -/
def deleteGroup (db : RuntimeDb) (runId : RunId) : RuntimeDb :=
  { db with
    active := db.active.filter fun a => a.runId ≠ runId
    chains := db.chains.filter fun c => c.runId ≠ some runId
    pending := db.pending.filter fun p => p.runId ≠ some runId }

/-- Does a table besides the archive name the run? -/
def names (db : RuntimeDb) (runId : RunId) : Bool :=
  db.active.any (fun a => a.runId = runId) || db.chains.any (fun c => c.runId = some runId) ||
    db.pending.any (fun p => p.runId = some runId) || db.terminals.any (fun t => t.runId = runId)

end RuntimeDb

/-- `_validate_open_runtime`. -/
def validateOpen (allowRotationFence : Bool) (db : RuntimeDb) : Except Fault Unit := do
  require (db.rotationFence = none ∨ allowRotationFence)
    (conflict "runtime rotation is in progress")
  require (db.chains.length ≤ 257 ∧ db.pending.length ≤ 74 ∧ db.active.length ≤ 64)
    (corrupt "runtime state capacity is invalid")
  require (∀ r ∈ db.retired, db.names r = false) (corrupt "runtime retired claim index is invalid")

/-! ### Control chains -/

def chainShape (c : Cursor) : Except Fault Unit := do
  require ((c.operation = .claim) = (c.runId = none)) (stateError "invalid runtime chain operation")
  require (1 ≤ c.nextSequence.val) (stateError "invalid runtime chain sequence")

/-- A cursor that is new, or already there. -/
def addChain (db : RuntimeDb) (c : Cursor) (clash : Fault) : Except Fault RuntimeDb :=
  match db.chain? c.operation c.runId with
  | some prior => do
    require (prior = c) clash
    return db
  | none => .ok (db.insertChain c)

def installChain (db : RuntimeDb) (c : Cursor) : Except Fault RuntimeDb := do
  chainShape c
  validateOpen false db
  require (∀ r ∈ c.runId, r ∉ db.retired) (conflict "runtime active run was retired")
  addChain db c (conflict "runtime chain already exists")

/-- A later generation of a cursor, or the cursor that is there. -/
def replaceChain (db : RuntimeDb) (current c : Cursor) (accepts : Bool) (stale : Fault) :
    Except Fault RuntimeDb :=
  if current = c then .ok db
  else do
    require (accepts = true) stale
    return db.updateChain c

def installRotationClaim (db : RuntimeDb) (nextNonce : Nonce)
    (nextSequence generation now : SafeInt) : Except Fault RuntimeDb := do
  require (1 ≤ nextSequence.val) (stateError "invalid runtime rotation claim sequence")
  validateOpen false db
  require (db.busy .claim none = false) (conflict "runtime claim rotation has a pending call")
  let c : Cursor := ⟨.claim, none, nextNonce, nextSequence, generation, now⟩
  match db.chain? .claim none with
  | some current =>
    replaceChain db current c (current.generation < generation)
      (corrupt "runtime claim rotation did not advance")
  | none => .ok (db.insertChain c)

def commitResyncChain (db : RuntimeDb) (c : Cursor) : Except Fault RuntimeDb := do
  chainShape c
  validateOpen false db
  let current ← found (db.chain? c.operation c.runId)
    (conflict "runtime resync chain is unavailable")
  replaceChain db current c (c.generation.val = current.generation.val + 1)
    (corrupt "runtime resync generation did not advance")

/-! ### Rotation of the runner's key -/

/-- Nothing is in flight but the claim chain. -/
def rotationQuiet (db : RuntimeDb) : Except Fault Cursor := do
  require (db.pending = []) (conflict "runtime rotation has pending calls")
  require (db.active = []) (conflict "runtime rotation has active runs")
  require (db.terminals = []) (conflict "runtime rotation has terminal disclosures")
  require (db.chains.length = 1) (conflict "runtime rotation has active runs")
  found (db.chain? .claim none) (conflict "runtime rotation has active runs")

/-- `assert_rotation_eligible`. The verdict says that the probe is of the present authority. -/
def assertRotationEligible (H : Hashes) (db : RuntimeDb) (authority : Bool) (intent : Digest)
    (claimStateDigest : Digest) : Except Fault RuntimeDb := do
  validateOpen true db
  require (authority = true) (conflict "runtime rotation is unavailable")
  require (db.rotationFence = none ∨ db.rotationFence = some intent)
    (conflict "runtime rotation is in progress")
  let claim ← rotationQuiet db
  require (H.chain claim = claimStateDigest) (conflict "runtime rotation is unavailable")
  return { db with rotationFence := some intent }

def finishRotation (db : RuntimeDb) (authority : Bool) (intent : Digest) (nextNonce : Nonce)
    (nextSequence generation acceptedAtMs : SafeInt) : Except Fault RuntimeDb := do
  validateOpen true db
  require (authority = true ∧ db.rotationFence = some intent)
    (corrupt "runtime rotation eligibility is invalid")
  let current ← rotationQuiet db
  require (generation.val = current.generation.val + 1) (corrupt "runtime rotation did not advance")
  return { db.updateChain ⟨.claim, none, nextNonce, nextSequence, generation, acceptedAtMs⟩ with
    rotationFence := none }

def abortRotation (H : Hashes) (db : RuntimeDb) (authority : Bool) (intent : Digest)
    (claimStateDigest : Digest) : Except Fault RuntimeDb := do
  validateOpen true db
  require (authority = true ∧ db.rotationFence = some intent)
    (conflict "runtime rotation abort is unavailable")
  let claim ← rotationQuiet db
  require (H.chain claim = claimStateDigest) (conflict "runtime rotation abort is unavailable")
  return { db with rotationFence := none }

/-! ### Calls -/

/-- What a caller signed: the path, the digest of the body and the verdict of the checks of path,
size, headers and signature. -/
structure SignedRequest where
  path : String
  bodyDigest : Digest
  accepted : Bool
  deriving DecidableEq

def PendingCall.continues (H : Hashes) (p : PendingCall) (c : Cursor) : Prop :=
  p.priorStateDigest = some (H.chain c) ∧ p.sequence = c.nextSequence ∧
    p.generation = c.generation ∧ p.nonce = c.nextNonce

instance (H : Hashes) (p : PendingCall) (c : Cursor) : Decidable (p.continues H c) := by
  unfold PendingCall.continues
  infer_instance

def addCall (db : RuntimeDb) (p : PendingCall) : Except Fault RuntimeDb := do
  require (db.busy p.request.chain p.runId = false) (conflict "runtime call is already pending")
  require (db.pending.length < 74) (conflict "runtime pending call capacity is exhausted")
  require (db.call? p.callId = none) databaseInvalid
  return { db with pending := db.pending ++ [p] }

def stageCall (H : Hashes) (db : RuntimeDb) (request : RequestOp) (runId : Option RunId)
    (signed : SignedRequest) (expectedStateDigest : Digest) (now : SafeInt) :
    Except Fault RuntimeDb := do
  require ((request.chain = .claim) = (runId = none) ∧ signed.accepted)
    (stateError "invalid runtime pending call")
  validateOpen false db
  let current ← found (db.chain? request.chain runId) (conflict "runtime chain is unavailable")
  require (H.chain current = expectedStateDigest) (conflict "runtime chain state changed")
  addCall db
    { callId := H.call request runId signed.path signed.bodyDigest current.nextNonce
        current.nextSequence current.generation
      request, runId, path := signed.path, bodyDigest := signed.bodyDigest
      nonce := current.nextNonce, sequence := current.nextSequence
      generation := current.generation, priorStateDigest := some (H.chain current)
      createdAtMs := now }

/-- `commit_resync_supersession`, with the challenge of the completed attempt. -/
def commitResyncSupersession (H : Hashes) (db : RuntimeDb) (pending : PendingCall)
    (challengeGeneration challengeNextSequence : SafeInt) (nextNonce : Nonce)
    (nextSequence generation now : SafeInt) : Except Fault RuntimeDb := do
  require (pending.request.supersedable = true ∧ pending.runId = none)
    (conflict "runtime pending call is not supersedable")
  require (1 ≤ nextSequence.val) (stateError "invalid runtime resync sequence")
  validateOpen false db
  let current ← found (db.chain? .claim none) (conflict "runtime resync chain is unavailable")
  require (db.call? pending.callId = some pending) (conflict "runtime pending call changed")
  require (pending.continues H current)
    (conflict "runtime pending call no longer matches its chain")
  require (current.generation ≤ challengeGeneration ∧
    generation.val = challengeGeneration.val + 1 ∧ current.nextSequence ≤ nextSequence)
    (corrupt "runtime resync generation is invalid")
  require (pending.request = .claim → challengeNextSequence = nextSequence ∧
    nextSequence = pending.sequence) ⟨.sequenceConsumed, "runtime claim sequence was consumed"⟩
  require (pending.request = .claim → db.active = [])
    (conflict "runtime claim supersession with an active run")
  return (db.updateChain ⟨.claim, none, nextNonce, nextSequence, generation, now⟩).deleteCall
    pending.callId

/-- A chain that the answer to a claim installs. -/
structure InstalledChain where
  operation : ChainOp
  runId : RunId
  nextNonce : Nonce
  nextSequence : SafeInt
  generation : SafeInt
  deriving DecidableEq

def InstalledChain.cursor (i : InstalledChain) (now : SafeInt) : Cursor :=
  ⟨i.operation, some i.runId, i.nextNonce, i.nextSequence, i.generation, now⟩

/-- The checks on `installed_chains`: none, or the four chains of one run. -/
def parseInstalled (installed : List InstalledChain) : Except Fault Unit :=
  require (installed = [] ∨ installed.length = 4 ∧
      (∀ i ∈ installed, i.operation ≠ .claim ∧ 1 ≤ i.nextSequence.val) ∧
      (installed.map InstalledChain.operation).Nodup ∧
      ∀ i ∈ installed, ∀ j ∈ installed, i.runId = j.runId)
    (stateError "invalid runtime installed claim chains")

/-- `ActiveRunInstall`, with the verdict of the contract checks of approval and grant. -/
structure ActiveRunInstall where
  runId : RunId
  projectId : Label
  grantId : Label
  approvalProjectionDigest : Digest
  grantKillSwitchGeneration : Nat
  gate : Gate
  claimResponseDigest : Digest
  gateResponseDigest : Digest
  claimedAtMs : SafeInt
  gateReceivedAtMs : SafeInt
  accepted : Bool
  deriving DecidableEq

structure ActiveGateUpdate where
  gate : Gate
  gateResponseDigest : Digest
  receivedAtMs : SafeInt
  deriving DecidableEq

/-- The check of `_active_core` on the gate. -/
def gateConsistent (grantGeneration : Nat) (gate : Gate) : Prop :=
  grantGeneration ≤ gate.killSwitchGeneration ∧
    (grantGeneration < gate.killSwitchGeneration → gate.active = false ∧ gate.stopReason ≠ .none)

instance (grantGeneration : Nat) (gate : Gate) : Decidable
    (gateConsistent grantGeneration gate) := by
  unfold gateConsistent
  infer_instance

def installActive (db : RuntimeDb) (install : Option ActiveRunInstall) : Except Fault RuntimeDb :=
  match install with
  | none => .ok db
  | some a => do
    require (a.accepted = true) (corrupt "runtime active run authority is invalid")
    require (gateConsistent a.grantKillSwitchGeneration a.gate)
      (corrupt "runtime active gate is inconsistent")
    require (db.active? a.runId = none) (conflict "runtime active run already exists")
    require (db.active.length < 64) (conflict "runtime active run capacity is exhausted")
    return { db with
      active := db.active ++ [{
        runId := a.runId, projectId := a.projectId, grantId := a.grantId
        approvalProjectionDigest := a.approvalProjectionDigest
        grantKillSwitchGeneration := a.grantKillSwitchGeneration, gate := a.gate
        claimResponseDigest := a.claimResponseDigest
        latestGateResponseDigest := a.gateResponseDigest, claimedAtMs := a.claimedAtMs
        gateReceivedAtMs := a.gateReceivedAtMs, revision := 1, priorStateDigest := none }] }

def ActiveRun.regated (H : Hashes) (a : ActiveRun) (g : ActiveGateUpdate) : ActiveRun :=
  { a with
    gate := g.gate, latestGateResponseDigest := g.gateResponseDigest
    gateReceivedAtMs := g.receivedAtMs, revision := a.revision + 1
    priorStateDigest := some (H.active a) }

def updateGate (H : Hashes) (db : RuntimeDb) (runId : Option RunId)
    (update : Option ActiveGateUpdate) : Except Fault RuntimeDb :=
  match update with
  | none => .ok db
  | some g => do
    let prior ← found (runId.bind db.active?) (corrupt "runtime active run is unavailable")
    require (prior.gate.serverTimeMs < g.gate.serverTimeMs)
      (corrupt "runtime active gate server time did not advance")
    require (prior.gate.killSwitchGeneration ≤ g.gate.killSwitchGeneration)
      (corrupt "runtime active gate control generation regressed")
    require (gateConsistent prior.grantKillSwitchGeneration g.gate)
      (corrupt "runtime active gate is inconsistent")
    return { db with
      active := Table.update (fun a => a.runId = prior.runId) (fun _ => prior.regated H g)
        db.active }

/-- The cursor a pending call was signed at; a first claim brings its own. -/
def pendingCursor (H : Hashes) (db : RuntimeDb) (p : PendingCall) : Except Fault Cursor :=
  match db.chain? p.request.chain p.runId with
  | some current => do
    require (p.continues H current) (corrupt "runtime pending call no longer matches its chain")
    return current
  | none => do
    require (p.request = .claim ∧ p.runId = none ∧ p.priorStateDigest = none)
      (corrupt "runtime pending call no longer matches its chain")
    return ⟨.claim, none, p.nonce, p.sequence, p.generation, p.createdAtMs⟩

/-- `_cursor_core`. -/
def Cursor.advanced (c : Cursor) (nextNonce : Nonce) (now : SafeInt) : Except Fault Cursor :=
  if h : c.nextSequence.val + 1 < maxSafeInt + 1 then
    .ok { c with nextNonce, nextSequence := ⟨c.nextSequence.val + 1, h⟩, updatedAtMs := now }
  else .error (stateError "invalid runtime chain sequence")

/-- The cursor of a committed call is updated, or inserted where it is the first one. -/
def storeCursor (db : RuntimeDb) (c : Cursor) : RuntimeDb :=
  if (db.chain? c.operation c.runId).isSome then db.updateChain c else db.insertChain c

def commitCall (H : Hashes) (db : RuntimeDb) (callId : Digest) (nextNonce : Nonce) (now : SafeInt)
    (installed : List InstalledChain) (activeRun : Option ActiveRunInstall)
    (gate : Option ActiveGateUpdate) : Except Fault RuntimeDb := do
  parseInstalled installed
  validateOpen false db
  let pending ← found (db.call? callId) (conflict "runtime pending call is unavailable")
  require (installed ≠ [] → pending.request = .claim)
    (corrupt "runtime installed claim chains do not match pending call")
  require (∀ a ∈ activeRun, pending.request = .claim ∧ installed ≠ [] ∧
      ∀ i ∈ installed, i.runId = a.runId)
    (corrupt "runtime active run install does not match pending claim")
  require (gate.isSome → pending.request = .heartbeat)
    (corrupt "runtime active gate update does not match pending heartbeat")
  require (∀ i ∈ installed, i.runId ∉ db.retired) (conflict "runtime active run was retired")
  let current ← pendingCursor H db pending
  require (nextNonce ≠ current.nextNonce)
    (corrupt "runtime pending call no longer matches its chain")
  let next ← current.advanced nextNonce now
  let withChains ← installed.foldlM (fun db i => addChain db (i.cursor now)
    (conflict "runtime installed claim chain already exists")) (storeCursor db next)
  let withActive ← installActive withChains activeRun
  let withGate ← updateGate H withActive pending.runId gate
  return withGate.deleteCall callId

/-! ### Terminal disclosures -/

/-- The arguments of `register_local_terminal`. -/
structure LocalTerminal where
  runId : RunId
  projectId : Label
  grantId : Label
  approvalProjectionDigest : Digest
  terminalProjectionDigest : Digest
  terminalRecordDigest : Digest
  terminalAtMs : SafeInt
  retentionExpiresAtMs : SafeInt
  deriving DecidableEq

def LocalTerminal.row (l : LocalTerminal) : Terminal :=
  { l with state := .localTerminal, revision := 1 }

def registerLocalTerminal (db : RuntimeDb) (l : LocalTerminal) : Except Fault RuntimeDb := do
  require (l.terminalAtMs < l.retentionExpiresAtMs)
    (stateError "invalid runtime terminal retention")
  validateOpen false db
  match db.terminal? l.runId with
  | some prior => do
    require (prior = l.row) (corrupt "runtime terminal disclosure differs from local terminal")
    return db
  | none => .ok { db with terminals := db.terminals ++ [l.row] }

/-- The disclosure after the accepted result. -/
def Terminal.madeAvailable (H : Hashes) (t : Terminal) (c : Cursor) (now : SafeInt) : Terminal :=
  { t with
    state := .available, resultChain := some ⟨c.nextNonce, c.nextSequence, c.generation⟩
    availableAtMs := some now, permitId := none, findingsProjectionDigest := none
    receiptDigest := none, disclosedAtMs := none, revision := 2
    priorStateDigest := some (H.terminal t) }

def commitTerminalResponse (H : Hashes) (db : RuntimeDb) (callId : Digest) (nextNonce : Nonce)
    (now : SafeInt) : Except Fault RuntimeDb := do
  validateOpen false db
  let pending ← found (db.call? callId) (conflict "runtime pending call is unavailable")
  require (pending.request = .result) (corrupt "runtime pending call is not a result")
  let runId ← found pending.runId (corrupt "runtime pending call is not a result")
  let current ← found (db.chain? .result (some runId))
    (corrupt "runtime terminal result does not match local authority")
  let terminal ← found (db.terminal? runId)
    (corrupt "runtime terminal result does not match local authority")
  require (terminal.state = .localTerminal ∧ pending.continues H current ∧
      nextNonce ≠ current.nextNonce ∧ terminal.terminalAtMs ≤ now)
    (corrupt "runtime terminal result does not match local authority")
  let next ← current.advanced nextNonce now
  let available := terminal.madeAvailable H next now
  require available.valid (corrupt "runtime terminal disclosure state is invalid")
  require ((db.active.filter fun a => a.runId = runId).length = 1)
    (corrupt "runtime terminal result has no active run authority")
  return (db.updateTerminal available).deleteGroup runId

/-- `retire_inactive_claim`. The verdicts are those on the probe and on the attestation. -/
def retireInactiveClaim (H : Hashes) (db : RuntimeDb) (runId : RunId)
    (expectedStateDigest : Digest) (absent attested : Bool) : Except Fault RuntimeDb := do
  require (absent = true) (conflict "runtime retirement requires an absent local reservation")
  require (attested = true) (corrupt "runtime retirement attestation is invalid")
  validateOpen false db
  let active ← found (db.active? runId) (conflict "runtime active run is unavailable")
  require (H.active active = expectedStateDigest) (conflict "runtime active run state changed")
  require (db.terminal? runId = none) (conflict "runtime retirement requires no local terminal")
  let pending := db.pending.filter fun p => p.runId = some runId
  require (pending.length ≤ 1 ∧ ∀ p ∈ pending, p.request = .heartbeat)
    (conflict "runtime retirement requires only a heartbeat pending call")
  let chains := db.chains.filter fun c => c.runId = some runId
  require (chains.length = 4 ∧ ∀ op ∈ runChainOps, op ∈ chains.map Cursor.operation)
    (corrupt "runtime active run cursor group is invalid")
  require (runId ∉ db.retired) databaseInvalid
  require ((db.active.filter fun a => a.runId = runId).length = 1)
    (corrupt "runtime retired claim does not own an exact run")
  return { db.deleteGroup runId with retired := db.retired ++ [runId] }

/-- `_TerminalDisclosureLease`. -/
structure Lease where
  runId : RunId
  stateDigest : Digest
  used : Bool
  deriving DecidableEq

def stageDisclosureCall (H : Hashes) (db : RuntimeDb) (lease : Lease) (signed : SignedRequest)
    (now : SafeInt) : Except Fault RuntimeDb := do
  require (lease.used = false) (conflict "runtime disclosure lease is unavailable")
  validateOpen false db
  let state ← found (db.terminal? lease.runId) disclosureUnavailable
  require (state.state = .available ∧ H.terminal state = lease.stateDigest ∧
    now < state.retentionExpiresAtMs) disclosureUnavailable
  let chain ← found state.resultChain disclosureUnavailable
  require (signed.accepted = true) (stateError "invalid runtime pending call")
  addCall db
    { callId := H.call .uploadFindings (some state.runId) signed.path signed.bodyDigest
        chain.nextNonce chain.nextSequence chain.generation
      request := .uploadFindings, runId := some state.runId, path := signed.path
      bodyDigest := signed.bodyDigest, nonce := chain.nextNonce, sequence := chain.nextSequence
      generation := chain.generation, priorStateDigest := some (H.terminal state)
      createdAtMs := now }

/-- Was the upload signed at the cursor of the disclosure? -/
def PendingCall.discloses (H : Hashes) (p : PendingCall) (t : Terminal) : Prop :=
  p.priorStateDigest = some (H.terminal t) ∧
    t.resultChain = some ⟨p.nonce, p.sequence, p.generation⟩

instance (H : Hashes) (p : PendingCall) (t : Terminal) : Decidable (p.discloses H t) := by
  unfold PendingCall.discloses
  infer_instance

/-- What the accepted disclosure is recorded with. -/
structure Disclosure where
  permitId : Label
  findingsProjectionDigest : Digest
  receiptDigest : Digest
  disclosedAtMs : SafeInt
  deriving DecidableEq

def Terminal.madeConsumed (H : Hashes) (t : Terminal) (d : Disclosure) : Terminal :=
  { t with
    state := .consumed, resultChain := none, permitId := some d.permitId
    findingsProjectionDigest := some d.findingsProjectionDigest
    receiptDigest := some d.receiptDigest, disclosedAtMs := some d.disclosedAtMs, revision := 3
    priorStateDigest := some (H.terminal t) }

def commitDisclosure (H : Hashes) (db : RuntimeDb) (callId : Digest) (lease : Lease)
    (nextNonce : Nonce) (d : Disclosure) : Except Fault RuntimeDb := do
  validateOpen false db
  let pending ← found (db.call? callId) (conflict "runtime pending call is unavailable")
  require (pending.request = .uploadFindings ∧ pending.runId = some lease.runId)
    (corrupt "runtime pending disclosure is invalid")
  let state ← found (db.terminal? lease.runId)
    (corrupt "runtime disclosure does not match local authority")
  require (state.state = .available ∧ H.terminal state = lease.stateDigest ∧
      pending.discloses H state ∧ nextNonce ≠ pending.nonce ∧
      state.terminalAtMs ≤ d.disclosedAtMs ∧ d.disclosedAtMs < state.retentionExpiresAtMs)
    (corrupt "runtime disclosure does not match local authority")
  let consumed := state.madeConsumed H d
  require consumed.valid (corrupt "runtime terminal disclosure state is invalid")
  return (db.updateTerminal consumed).deleteCall callId

/-! ### Pruning -/

/-- `_prune_pending_core`. -/
def Terminal.prunePending (H : Hashes) (t : Terminal) : Terminal :=
  { t with
    state := .prunePending, resultChain := none, revision := t.revision + 1
    priorStateDigest := some (H.terminal t) }

/-- The index of due retention: expired and not yet claimed. -/
def Terminal.due (now : SafeInt) (t : Terminal) : Bool :=
  t.state ≠ .prunePending && t.retentionExpiresAtMs ≤ now

def Terminal.dueKey (H : Hashes) (t : Terminal) : Lex (Nat × String) :=
  toLex (t.retentionExpiresAtMs.val, H.runHash t.runId)

/-- Does the local terminal own exactly its run? -/
def ownsRun (H : Hashes) (db : RuntimeDb) (t : Terminal) (chains : List Cursor)
    (pending : List PendingCall) : Except Fault Unit := do
  require ((chains = [] ∨ chains.length = 4 ∧
    ∀ op ∈ runChainOps, op ∈ chains.map Cursor.operation) ∧
    pending.length ≤ 1) (corrupt "runtime terminal prune does not own an exact run")
  let active ← found (db.active? t.runId)
    (corrupt "runtime terminal prune does not own an exact run")
  require (chains ≠ [] ∧ active.projectId = t.projectId ∧ active.grantId = t.grantId ∧
      active.approvalProjectionDigest = t.approvalProjectionDigest)
    (corrupt "runtime terminal prune does not own an exact run")
  require (∀ p ∈ pending, p.request = .result ∧
      ∃ c ∈ chains, c.operation = .result ∧ p.continues H c)
    (corrupt "runtime terminal prune does not own the result")

/-- The checks on the rows of a due disclosure. -/
def ownsExactly (H : Hashes) (db : RuntimeDb) (t : Terminal) (chains : List Cursor)
    (pending : List PendingCall) : Except Fault Unit :=
  match t.state with
  | .localTerminal => ownsRun H db t chains pending
  | .available => do
    require (chains = [] ∧ pending.length ≤ 1)
      (corrupt "runtime terminal prune does not own an exact disclosure")
    require (∀ p ∈ pending, p.request = .uploadFindings ∧ p.discloses H t)
      (corrupt "runtime terminal prune does not own the disclosure")
  | .consumed => require (chains = [] ∧ pending = [])
      (corrupt "runtime terminal prune does not own an exact disclosure")
  | .prunePending => .error (corrupt "runtime terminal disclosure index is invalid")

/-- The deletions of a claimed disclosure: the group of a local terminal, else its pending calls. -/
def releaseRun (db : RuntimeDb) (t : Terminal) : Except Fault RuntimeDb :=
  if t.state = .localTerminal then do
    require ((db.active.filter fun a => a.runId = t.runId).length = 1 ∧
        (db.chains.filter fun c => c.runId = some t.runId).length = 4)
      (corrupt "runtime terminal prune does not own an exact run")
    return db.deleteGroup t.runId
  else .ok { db with pending := db.pending.filter fun p => p.runId ≠ some t.runId }

/-- One row of the loop of `_claim_due_prune`. -/
def pruneRow (H : Hashes) (expected : Option Digest) (db : RuntimeDb) (t : Terminal) :
    Except Fault RuntimeDb := do
  require (t.state ≠ .prunePending) (corrupt "runtime terminal disclosure index is invalid")
  require (∀ e ∈ expected, H.terminal t = e) (conflict "runtime terminal prune state changed")
  let chains := db.chains.filter fun c => c.runId = some t.runId
  require ((chains.map Cursor.operation).Nodup) (corrupt "runtime run control state is invalid")
  let pending := db.pending.filter fun p => p.runId = some t.runId
  ownsExactly H db t chains pending
  require (t.prunePending H).valid (corrupt "runtime terminal disclosure state is invalid")
  let released ← releaseRun db t
  return released.updateTerminal (t.prunePending H)

structure PruneBatch where
  items : List Terminal
  hasMore : Bool
  deriving DecidableEq

/-- The rows that the claim reads, in the order of the index. -/
def dueRows (H : Hashes) (db : RuntimeDb) (now : SafeInt) (only : Option RunId) (limit : Nat) :
    List Terminal :=
  Page.page (Terminal.dueKey H) none limit
    (db.terminals.filter fun t => t.due now && only.all fun r => t.runId = r)

/-- `_claim_due_prune`. -/
def claimDue (H : Hashes) (db : RuntimeDb) (now : SafeInt) (limit : Nat) (only : Option RunId)
    (expected : Option Digest) : Except Fault (PruneBatch × RuntimeDb) := do
  require (1 ≤ limit ∧ limit ≤ 16) (stateError "invalid runtime prune limit")
  validateOpen false db
  let rows := dueRows H db now only (limit + 1)
  let pruned ← (rows.take limit).foldlM (pruneRow H expected) db
  return (⟨(rows.take limit).map (Terminal.prunePending H), decide (limit < rows.length)⟩, pruned)

def claimDuePrune (H : Hashes) (db : RuntimeDb) (now : SafeInt) (limit : Nat) :
    Except Fault (PruneBatch × RuntimeDb) :=
  claimDue H db now limit none none

def claimSpecificDuePrune (H : Hashes) (db : RuntimeDb) (runId : RunId)
    (expectedStateDigest : Digest) (now : SafeInt) : Except Fault (Terminal × RuntimeDb) := do
  let answer ← claimDue H db now 1 (some runId) (some expectedStateDigest)
  let item ← found answer.1.items.head? (conflict "runtime terminal prune state changed")
  return (item, answer.2)

/-- What a signed prune receipt names, with the verdict of its checks. -/
structure PrunedReceipt where
  runId : RunId
  terminalRecordDigest : Digest
  terminalProjectionDigest : Digest
  terminalAtMs : SafeInt
  retentionExpiresAtMs : SafeInt
  prunePendingStateDigest : Digest
  accepted : Bool
  deriving DecidableEq

def finishPrune (H : Hashes) (db : RuntimeDb) (receipt : PrunedReceipt)
    (expectedPrunePendingStateDigest : Digest) : Except Fault RuntimeDb := do
  require (receipt.accepted = true) (corrupt "runtime prune receipt is invalid")
  require (receipt.prunePendingStateDigest = expectedPrunePendingStateDigest)
    (corrupt "runtime terminal prune does not match local authority")
  validateOpen false db
  match db.terminal? receipt.runId with
  | none => do
    require (db.names receipt.runId = false)
      (corrupt "runtime terminal prune does not match local authority")
    return db
  | some t => do
    require (t.state = .prunePending ∧ H.terminal t = expectedPrunePendingStateDigest ∧
        t.terminalRecordDigest = receipt.terminalRecordDigest ∧
        t.terminalProjectionDigest = receipt.terminalProjectionDigest ∧
        t.terminalAtMs = receipt.terminalAtMs ∧
        t.retentionExpiresAtMs = receipt.retentionExpiresAtMs)
      (corrupt "runtime terminal prune does not match local authority")
    return { db with terminals := db.terminals.filter fun o => o.runId ≠ receipt.runId }

/-! ### Runs of calls -/

inductive Call where
  | installChain (c : Cursor)
  | installRotationClaim (nextNonce : Nonce) (nextSequence generation now : SafeInt)
  | commitResyncChain (c : Cursor)
  | assertRotationEligible (authority : Bool) (intent claimStateDigest : Digest)
  | finishRotation (authority : Bool) (intent : Digest) (nextNonce : Nonce)
      (nextSequence generation acceptedAtMs : SafeInt)
  | abortRotation (authority : Bool) (intent claimStateDigest : Digest)
  | stageCall (request : RequestOp) (runId : Option RunId) (signed : SignedRequest)
      (expectedStateDigest : Digest) (now : SafeInt)
  | commitResyncSupersession (pending : PendingCall)
      (challengeGeneration challengeNextSequence : SafeInt) (nextNonce : Nonce)
      (nextSequence generation now : SafeInt)
  | commitCall (callId : Digest) (nextNonce : Nonce) (now : SafeInt)
      (installed : List InstalledChain) (activeRun : Option ActiveRunInstall)
      (gate : Option ActiveGateUpdate)
  | registerLocalTerminal (l : LocalTerminal)
  | commitTerminalResponse (callId : Digest) (nextNonce : Nonce) (now : SafeInt)
  | retireInactiveClaim (runId : RunId) (expectedStateDigest : Digest) (absent attested : Bool)
  | stageDisclosureCall (lease : Lease) (signed : SignedRequest) (now : SafeInt)
  | commitDisclosure (callId : Digest) (lease : Lease) (nextNonce : Nonce) (d : Disclosure)
  | claimDuePrune (now : SafeInt) (limit : Nat)
  | claimSpecificDuePrune (runId : RunId) (expectedStateDigest : Digest) (now : SafeInt)
  | finishPrune (receipt : PrunedReceipt) (expectedPrunePendingStateDigest : Digest)
  deriving DecidableEq

def respond (H : Hashes) (db : RuntimeDb) : Call → Except Fault RuntimeDb
  | .installChain c => Runtime.installChain db c
  | .installRotationClaim nonce sequence generation now =>
    Runtime.installRotationClaim db nonce sequence generation now
  | .commitResyncChain c => Runtime.commitResyncChain db c
  | .assertRotationEligible authority intent claim =>
    Runtime.assertRotationEligible H db authority intent claim
  | .finishRotation authority intent nonce sequence generation accepted =>
    Runtime.finishRotation db authority intent nonce sequence generation accepted
  | .abortRotation authority intent claim => Runtime.abortRotation H db authority intent claim
  | .stageCall request runId signed expected now =>
    Runtime.stageCall H db request runId signed expected now
  | .commitResyncSupersession pending challenge challengeSequence nonce sequence generation now =>
    Runtime.commitResyncSupersession H db pending challenge challengeSequence nonce sequence
      generation now
  | .commitCall callId nonce now installed activeRun gate =>
    Runtime.commitCall H db callId nonce now installed activeRun gate
  | .registerLocalTerminal l => Runtime.registerLocalTerminal db l
  | .commitTerminalResponse callId nonce now => Runtime.commitTerminalResponse H db callId nonce now
  | .retireInactiveClaim runId expected absent attested =>
    Runtime.retireInactiveClaim H db runId expected absent attested
  | .stageDisclosureCall lease signed now => Runtime.stageDisclosureCall H db lease signed now
  | .commitDisclosure callId lease nonce d => Runtime.commitDisclosure H db callId lease nonce d
  | .claimDuePrune now limit => Prod.snd <$> Runtime.claimDuePrune H db now limit
  | .claimSpecificDuePrune runId expected now =>
    Prod.snd <$> Runtime.claimSpecificDuePrune H db runId expected now
  | .finishPrune receipt expected => Runtime.finishPrune H db receipt expected

/-- The calls of a runner on its database; a call that raises leaves it as it is. -/
def runtime (H : Hashes) : Transition RuntimeDb Call where
  init db := db = {}
  step db call db' := respond H db call = .ok db'

end Heel.Runtime
