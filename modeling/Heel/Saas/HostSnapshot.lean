import Heel.Lib.Table
import Heel.Saas.HostAuthority
import Heel.Saas.Run

/-! `HostSnapshotDecider` of `heel/saas/host_snapshot.py`: the ledger of generations and the
decision on one request, as one transaction. -/
namespace Heel.Cloud
open Lib Lib.Checks Host

inductive SnapshotCode where
  | dbBusy | dbError | malformedState | generationCapacityExhausted | serviceStopped
  deriving DecidableEq, Repr

def cpGapToleranceMs : Int := 500
def maxGrantRemainingMs : Int := 600000
def maxBindingRemainingMs : Int := 86400000
def maxProofRemainingMs : Int := 2592000000

inductive GenerationClose where
  | replayedSequence | clockGap | superseded | identityMismatch | unenrolled
  deriving DecidableEq, Repr

/-- A row of `host_authority_generations`; `opened` is `state = 'open'`. -/
structure Generation where
  generationId : String
  hostBootEpoch : String
  slotId : String
  opened : Bool
  closeReason : Option GenerationClose
  enrolledCpMs : Int
  lastSequence : Int
  lastMonotonicMs : Int
  lastCpMs : Int
  requests : Int
  closedCpMs : Option Int
  deriving DecidableEq, Repr

/-- The slot a generation holds while it is open. -/
def Generation.slot (g : Generation) : String × String := (g.hostBootEpoch, g.slotId)

def Generation.checks (g : Generation) : Bool :=
  hexText 32 g.generationId && epochText g.hostBootEpoch &&
  decide (1 ≤ g.slotId.toList.length ∧ g.slotId.toList.length ≤ 32) &&
  g.slotId.toList.all (fun c => isLowerDigit c || c = '-') &&
  decide (0 ≤ g.enrolledCpMs ∧ 1 ≤ g.lastSequence ∧ 0 ≤ g.lastMonotonicMs ∧
    g.enrolledCpMs ≤ g.lastCpMs ∧ 1 ≤ g.requests) &&
  g.closedCpMs.all (g.lastCpMs ≤ ·) && (!g.opened == g.closeReason.isSome) &&
  (!g.opened == g.closedCpMs.isSome)

/-- An insert, under the primary key, the unique index of open slots and the checks. -/
def insertGeneration (g : Generation) (rows : List Generation) :
    Except SnapshotCode (List Generation) := do
  require ((∀ o ∈ rows, o.generationId ≠ g.generationId) ∧
    (g.opened = true → ∀ o ∈ rows, o.opened = true → o.slot ≠ g.slot) ∧ g.checks) .dbError
  return rows ++ [g]

/-- `_close`. -/
def closeGeneration (row : Generation) (reason : GenerationClose) (now : Int)
    (rows : List Generation) : List Generation :=
  Table.update (fun g => g.generationId = row.generationId ∧ g.opened)
    (fun g => { g with
      opened := false, closeReason := some reason, closedCpMs := some (max now row.lastCpMs) }) rows

def requireCapacity (capacity : Nat) (rows : List Generation) : Except SnapshotCode Unit :=
  require (rows.length < capacity) .generationCapacityExhausted

/-- The row of a generation whose first request has sequence 1. -/
def enrolled (q : HostRequest) (now : Int) : Generation where
  generationId := q.generationId
  hostBootEpoch := q.hostBootEpoch
  slotId := q.slotId
  opened := true
  closeReason := none
  enrolledCpMs := now
  lastSequence := 1
  lastMonotonicMs := q.monotonicMs
  lastCpMs := now
  requests := 1
  closedCpMs := none

/-- The row of a generation whose first request this ledger never saw. -/
def unenrolled (q : HostRequest) (now : Int) : Generation :=
  { enrolled q now with
    opened := false, closeReason := some .unenrolled, lastSequence := q.sequence
    closedCpMs := some now }

/-- The open generation of the slot is closed first. -/
def supersede (q : HostRequest) (now : Int) (rows : List Generation) : List Generation :=
  match rows.find? fun g => g.slot = (q.hostBootEpoch, q.slotId) ∧ g.opened with
  | some previous => closeGeneration previous .superseded now rows
  | none => rows

def enrol (capacity : Nat) (q : HostRequest) (now : Int) (rows : List Generation) :
    Except SnapshotCode (List Generation × Option HostReason) := do
  if q.sequence = 1 then
    let rows := supersede q now rows
    requireCapacity capacity rows
    let rows ← insertGeneration (enrolled q now) rows
    return (rows, none)
  else
    requireCapacity capacity rows
    let rows ← insertGeneration (unenrolled q now) rows
    return (rows, some .replayedSequence)

/-- The rows the last statement of `_ledger` advances. -/
def advances (q : HostRequest) (now : Int) (g : Generation) : Bool :=
  g.generationId = q.generationId ∧ g.opened ∧ g.lastSequence < q.sequence ∧ g.lastCpMs ≤ now

def Generation.advanced (g : Generation) (q : HostRequest) (now : Int) : Generation :=
  { g with
    lastSequence := q.sequence, lastMonotonicMs := q.monotonicMs, lastCpMs := now
    requests := g.requests + 1 }

/-- A later request of a generation that has a row. -/
def advance (row : Generation) (q : HostRequest) (now : Int) (rows : List Generation) :
    List Generation × Option HostReason :=
  if row.opened = false then (rows, some .replayedSequence)
  else if row.slot ≠ (q.hostBootEpoch, q.slotId) then
    (closeGeneration row .identityMismatch now rows, some .replayedSequence)
  else if q.sequence ≤ row.lastSequence then
    (closeGeneration row .replayedSequence now rows, some .replayedSequence)
  else if now < row.lastCpMs ∨ q.monotonicMs < row.lastMonotonicMs then
    (closeGeneration row .clockGap now rows, some .clockGap)
  else
    let skew := (now - row.lastCpMs) - (q.monotonicMs - row.lastMonotonicMs)
    if ¬ (-cpGapToleranceMs ≤ skew ∧ skew ≤ cpGapToleranceMs) then
      (closeGeneration row .clockGap now rows, some .clockGap)
    else if (rows.filter (advances q now)).length ≠ 1 then
      (closeGeneration row .replayedSequence now rows, some .replayedSequence)
    else
      (Table.update (advances q now) (·.advanced q now) rows, none)

/-- `_ledger`: no reason means the request has passed. -/
def hostLedger (capacity : Nat) (q : HostRequest) (now : Int) (rows : List Generation) :
    Except SnapshotCode (List Generation × Option HostReason) :=
  match rows.find? fun g => g.generationId = q.generationId with
  | none => enrol capacity q now rows
  | some row => .ok (advance row q now rows)

inductive BindingStatus where
  | active | revoked | expired
  deriving DecidableEq, Repr

/-- The columns of the context binding that the join reads. -/
structure JoinedBinding where
  bindingId : String
  bindingDigest : String
  status : BindingStatus
  expiresAtMs : Int
  publicKeyDigest : String
  verificationRecordDigest : String
  /-- `_origin_host(binding_origin)`. -/
  originHost : Option String
  runnerId : String
  runnerKeyId : String
  environmentId : String
  deriving DecidableEq, Repr

/-- What `_live_state` reads of the stored grant document. -/
structure SignedGrant where
  egressHostname : Option String
  egressPort : Int
  publicKeyDigest : String
  expiresAtMs : Int
  deriving DecidableEq, Repr

/-- The row of `_AUTHORITY_JOIN` with the rows of its run. -/
structure AuthorityRow where
  db : RunDb
  env : Env
  environmentId : String
  grantRunnerId : String
  grantRunnerKeyId : String
  grantEnvironmentId : String
  /-- `rcb_id` and `binding_digest` of the projection's link. -/
  link : Option (String × String)
  binding : Option JoinedBinding
  /-- `_origin_host(environment_origin)`. -/
  originHost : Option String
  /-- The SHA-256 of the raw runner key, if the key loads. -/
  keyDigest : Option String
  /-- The members of the grant document, if it has them. -/
  signed : Option SignedGrant
  /-- `proof_expires_at` in seconds, if it is a finite number. -/
  proofExpiresAt : Option Rat

def issuedTupleMatches (q : HostRequest) (row : AuthorityRow) : Bool :=
  let b := row.db.run.binding
  b.projectRef = q.projectId ∧
    row.environmentId = q.environmentId ∧ row.grantEnvironmentId = q.environmentId ∧
    row.binding.map (·.environmentId) = some q.environmentId ∧
    b.runnerId = q.runnerId ∧ row.grantRunnerId = q.runnerId ∧
    row.binding.map (·.runnerId) = some q.runnerId ∧
    b.runnerKeyId = q.runnerKeyId ∧ row.grantRunnerKeyId = q.runnerKeyId ∧
    row.binding.map (·.runnerKeyId) = some q.runnerKeyId ∧
    b.runId = q.runId ∧
    row.link.map Prod.fst = some q.bindingId ∧ row.binding.map (·.bindingId) = some q.bindingId ∧
    row.link.map Prod.snd = some q.bindingDigest ∧
    row.binding.map (·.bindingDigest) = some q.bindingDigest ∧
    b.grantId = q.grantId ∧ b.grantDigest = q.grantDigest ∧
    row.binding.map (·.verificationRecordDigest) = some q.verificationRecordDigest ∧
    row.db.approval.projectionJson.map (·.environment.verificationRecordDigest) =
      some q.verificationRecordDigest ∧
    row.db.grant.grantJson.map (·.environment.verificationRecordDigest) =
      some q.verificationRecordDigest

def bounded (value now maximum : Int) : Except SnapshotCode Int := do
  require (0 ≤ value ∧ value ≤ Host.safeInt ∧ value - now ≤ maximum) .malformedState
  return value

def proofMs (value : Option Rat) (now : Int) : Except SnapshotCode Int :=
  match value with
  | some seconds => do
    require (0 ≤ seconds) .malformedState
    let result := (seconds * 1000).floor - 1
    require (0 ≤ result ∧ result ≤ Host.safeInt ∧ result - now ≤ maxProofRemainingMs)
      .malformedState
    return result
  | none => .error .malformedState

/-- `_gate(context, advance=False)`: the stop it may record, and whether it is active. -/
def standingGate (env : Env) (db : RunDb) : Except Refusal (RunDb × Bool) := do
  let (approval, grant) ← storedOperationalAuthority env db
  let mismatch := !verificationDigestMatches env approval grant
  let db := if mismatch then persistAuthorityStop env .gateStop db else db
  return (db, (gateAnswer env mismatch db).active)

/-- Part (a) of `_live_state`: the immutable records agree with each other. -/
def intact (row : AuthorityRow) : Option (Approval × Grant × String) :=
  match storedOperationalAuthority row.env row.db, row.signed, row.keyDigest, row.binding with
  | .ok (approval, grant), some signed, some digest, some binding =>
    match signed.egressHostname with
    | some hostname =>
      if digest = binding.publicKeyDigest ∧ digest = signed.publicKeyDigest ∧
          some hostname = binding.originHost ∧ some hostname = row.originHost ∧
          signed.egressPort = 443 ∧ signed.expiresAtMs = row.db.grant.expiresAt then
        some (approval, grant, hostname)
      else none
    | none => none
  | _, _, _, _ => none

/-- The times and the host name an active reply carries. -/
structure LiveValues where
  proofMs : Int
  bindingMs : Int
  grantMs : Int
  egressHostname : String
  deriving DecidableEq, Repr

/-- The outcome of `_live_state` beside the rows it leaves. -/
abbrev LiveState := HostReason ⊕ LiveValues

/-- The expiries of `_live_state`, and the gate it consults last. -/
def liveTimes (row : AuthorityRow) (hostname : String) (bindingExpiresAtMs now : Int) :
    Except SnapshotCode (RunDb × LiveState) := do
  let proof ← proofMs row.proofExpiresAt now
  let binding ← bounded bindingExpiresAtMs now maxBindingRemainingMs
  let grant ← bounded row.db.grant.expiresAt now maxGrantRemainingMs
  if proof - now ≤ 0 then return (row.db, .inl .proofExpired)
  else if binding - now ≤ 0 then return (row.db, .inl .bindingExpired)
  else if grant - now ≤ 0 then return (row.db, .inl .grantExpired)
  else
    match standingGate row.env row.db with
    | .ok (db, true) => return (db, .inr ⟨proof, binding, grant, hostname⟩)
    | .ok (db, false) => return (db, .inl .runNotActive)
    | .error _ => .error .malformedState

def liveState (q : HostRequest) (row : AuthorityRow) (generation now : Int) :
    Except SnapshotCode (RunDb × LiveState) :=
  match intact row, row.binding with
  | some (approval, grant, hostname), some binding =>
    if ¬ verificationDigestMatches row.env approval grant then
      match standingGate row.env row.db with
      | .ok (db, _) => .ok (db, .inl .verificationDigestReplaced)
      | .error _ => .error .malformedState
    else if row.env.runnerStatus ≠ .active then .ok (row.db, .inl .runnerRevoked)
    else if ¬ row.env.keyActive ∨ row.env.keyRevoked then .ok (row.db, .inl .keyRevoked)
    else if row.env.proofRevoked ∨ row.env.environmentStatus ≠ .verified then
      .ok (row.db, .inl .proofRevoked)
    else if binding.status ≠ .active then .ok (row.db, .inl .bindingInactive)
    else if row.db.grant.status ≠ .claimed then .ok (row.db, .inl .grantNotClaimed)
    else if row.env.killActive then .ok (row.db, .inl .killSwitchActive)
    else if generation ≠ q.killSwitchGeneration ∨
        generation ≠ row.db.run.binding.killSwitchGeneration then
      .ok (row.db, .inl .killSwitchGenerationChanged)
    else liveTimes row hostname binding.expiresAtMs now
  | _, _ => .ok (row.db, .inl .invalidGrant)

/-- A run of the request's workspace, as the selection reads it. -/
structure WorkspaceRun where
  runId : String
  status : Phase
  stopReason : StopReason
  deriving DecidableEq, Repr

/-- What a decision reads of the tables that others write. -/
structure HostView where
  generation : Int
  workspaceKnown : Bool
  runs : List WorkspaceRun
  row : String → Option AuthorityRow

/-- The selection of active runs, two at most. -/
def selectedRuns (view : HostView) : List String :=
  (((view.runs.filter fun r => r.status ∈ [Phase.claimed, .running] ∧ r.stopReason = .none).map
    (·.runId)).insertionSort fun a b => a.toList ≤ b.toList).take 2

variable (P : Platform)

/-- `_reply`. -/
def inactiveReply (q : HostRequest) (reason : HostReason) (now generation : Int) : HostReply :=
  ⟨reason, q.sequence, requestDigest P q, now, generation, none⟩

/-- The active reply of `_decide`. -/
def activeReply (q : HostRequest) (row : AuthorityRow) (values : LiveValues)
    (now generation : Int) : HostReply :=
  let b := row.db.run.binding
  ⟨.none, q.sequence, requestDigest P q, now, generation, some {
    workspaceId := b.workspaceId
    projectId := b.projectRef
    environmentId := row.environmentId
    verificationRecordDigest := row.env.verificationRecordDigest.getD ""
    runnerId := b.runnerId
    runnerKeyId := b.runnerKeyId
    publicKeyDigest := (row.binding.map (·.publicKeyDigest)).getD ""
    bindingId := (row.link.map Prod.fst).getD ""
    bindingDigest := (row.binding.map (·.bindingDigest)).getD ""
    runId := b.runId
    runStatus := if row.db.run.status = .claimed then "claimed" else "running"
    stopReason := "none"
    grantId := b.grantId
    grantDigest := b.grantDigest
    egressHostname := values.egressHostname
    egressPort := 443
    proofExpiresAtMs := values.proofMs
    bindingExpiresAtMs := values.bindingMs
    grantExpiresAtMs := values.grantMs }⟩

/-- The part of `_decide` after the ledger: the run's rows, if it reached them, and the reply. -/
def decideAuthority (q : HostRequest) (view : HostView) (now : Int) :
    Except SnapshotCode (Option RunDb × HostReply) :=
  let inactive := fun reason => inactiveReply P q reason now view.generation
  if view.workspaceKnown = false then .ok (none, inactive .workspaceUnknown)
  else match selectedRuns view with
    | [] => .ok (none, inactive .noActiveRun)
    | [runId] =>
      match view.row runId with
      | none => .ok (none, inactive .invalidGrant)
      | some row =>
        if issuedTupleMatches q row = false then .ok (none, inactive .tupleMismatch)
        else do
          let (db, state) ← liveState q row view.generation now
          match state with
          | .inl reason => return (some db, inactive reason)
          | .inr values => do
            let reply := activeReply P q row values now view.generation
            require (validateResponse P reply q) .malformedState
            return (some db, reply)
    | _ => .ok (none, inactive .multipleActiveRuns)

/-- `_decide`: the ledger, the rows of the run and the reply. -/
def decideSnapshot (capacity : Nat) (q : HostRequest) (view : HostView) (now : Int)
    (rows : List Generation) : Except SnapshotCode (List Generation × Option RunDb × HostReply) :=
  do
  require (0 ≤ view.generation ∧ view.generation ≤ Host.safeInt) .malformedState
  let (rows, reason) ← hostLedger capacity q now rows
  match reason with
  | some reason => return (rows, none, inactiveReply P q reason now view.generation)
  | none => do
    let (db, reply) ← decideAuthority P q view now
    return (rows, db, reply)

/-- What one call meets outside the ledger. -/
structure HostEnv where
  draining : Bool
  stopping : Bool
  /-- `_stopping` read again under the gate. -/
  stoppingInside : Bool
  quarantined : Bool
  /-- The failure of the connection or of a statement before the clock is read. -/
  connection : Option SnapshotCode
  /-- `time_ns` of the draining reply. -/
  drainingNs : Int
  /-- The one sample of the transaction, if it is an integer. -/
  nowNs : Option Int
  view : HostView
  /-- The failure of a later statement or of the commit. -/
  fault : Option SnapshotCode

/-- `-(-ns // 1_000_000)`. -/
def ceilMs (ns : Int) : Int := -(-ns / 1000000)

/-- The body of `_transaction` up to its commit. -/
def attempt (capacity : Nat) (env : HostEnv) (q : HostRequest) (rows : List Generation) :
    Except SnapshotCode (List Generation × Option RunDb × HostReply) :=
  match env.connection, env.nowNs with
  | some code, _ => .error code
  | none, none => .error .malformedState
  | none, some ns => do
    require (0 ≤ ns) .malformedState
    let out ← decideSnapshot P capacity q env.view (ceilMs ns) rows
    match env.fault with
    | some code => .error code
    | none => return out

/-- `_transaction`: what raises is rolled back. -/
def snapshotTransaction (capacity : Nat) (env : HostEnv) (q : HostRequest)
    (rows : List Generation) : List Generation × Except SnapshotCode HostReply :=
  match attempt P capacity env q rows with
  | .ok (rows', _, reply) => (rows', .ok reply)
  | .error code => (rows, .error code)

def hostDecide (capacity : Nat) (env : HostEnv) (q : HostRequest) (rows : List Generation) :
    List Generation × Except SnapshotCode HostReply :=
  let drainingReply :=
    inactiveReply P q .cpDraining (ceilMs env.drainingNs) q.killSwitchGeneration
  if env.draining ∨ env.stopping then (rows, .ok drainingReply)
  else if env.quarantined then (rows, .error .serviceStopped)
  else if env.stoppingInside then (rows, .ok drainingReply)
  else snapshotTransaction P capacity env q rows

end Heel.Cloud
