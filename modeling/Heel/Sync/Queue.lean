import Mathlib.Data.Rat.Defs
import Mathlib.Data.String.Basic
import Mathlib.Algebra.Order.Ring.Rat
import Heel.Lib.Checks

/-! The local queue of approved sync requests of `heel/sync_queue.py`: its records, and what each
call reads, writes and answers. Times are seconds; a call writes at most one file, last. -/
namespace Heel.SyncQueue
open Lib.Checks

def maxApprovalSeconds : ℚ := 10 * 60
def maxLeaseSeconds : ℚ := 5 * 60
def maxAttempts : ℕ := 2 ^ 53 - 1

inductive QueueError where
  | valueError (reason : String)
  | keyError (reason : String)
  /-- `StoredSyncQueueError` -/
  | stored
  /-- `ImmutableQueueConflict` -/
  | conflict (reason : String)
  deriving DecidableEq, Repr

structure SyncKey where
  workspaceRef : String
  projectRef : String
  requestDigest : String
  deriving DecidableEq, Repr

structure HumanSyncApproval extends SyncKey where
  approvedAt : ℚ
  expiresAt : ℚ
  deriving DecidableEq, Repr

structure TransportApproval extends SyncKey where
  approvalId : String
  approvedBy : String
  approvedAt : ℚ
  expiresAt : ℚ
  deriving DecidableEq, Repr

structure StoredHumanApproval where
  approvedAt : ℚ
  expiresAt : ℚ
  deriving DecidableEq, Repr

structure StoredTransportApproval where
  approvalId : String
  requestDigest : String
  approvedAt : ℚ
  expiresAt : ℚ
  deriving DecidableEq, Repr

structure StoredTransmission where
  permitToken : String
  leaseToken : String
  requestDigest : String
  begunAt : ℚ
  effectiveExpiresAt : ℚ
  deriving DecidableEq, Repr

structure RetryState where
  attempts : ℕ := 0
  nextAttemptAt : Option ℚ := none
  lastErrorCode : Option String := none
  leaseToken : Option String := none
  leaseExpiresAt : Option ℚ := none
  deriving DecidableEq, Repr

/-- A validated receipt: it is metered exactly when its disposition is "created". -/
structure Receipt where
  receiptId : String
  projectRef : String
  requestDigest : String
  projectionHash : String
  syncedReviewId : String
  metered : Bool
  acceptedAt : String
  deriving DecidableEq, Repr

structure SyncRecord extends SyncKey where
  requestJson : String
  humanApproval : Option StoredHumanApproval := none
  transportApproval : Option StoredTransportApproval := none
  transmission : Option StoredTransmission := none
  retry : RetryState := {}
  receipt : Option Receipt := none
  deriving DecidableEq, Repr

structure SyncLease where
  leaseToken : String
  leaseExpiresAt : ℚ
  record : SyncRecord
  deriving DecidableEq, Repr

structure SyncTransmissionPermit where
  permitToken : String
  begunAt : ℚ
  effectiveExpiresAt : ℚ
  record : SyncRecord
  deriving DecidableEq, Repr

/-- A prefix and so many lower-case hexadecimal digits. -/
def hexForm (start : String) (length : ℕ) (s : String) : Bool :=
  let body := s.toList.drop start.toList.length
  s.toList.take start.toList.length = start.toList ∧ body.length = length ∧
    body.all fun c => c.isDigit ∨ ('a' ≤ c ∧ c ≤ 'f')

def isWorkspace : String → Bool := hexForm "ws_" 16
def isProject : String → Bool := hexForm "prj_" 32
def isDigest : String → Bool := hexForm "" 64
def isLeaseToken : String → Bool := hexForm "fsl_" 32
def isPermitToken : String → Bool := hexForm "fst_" 32
def isApprovalId : String → Bool := hexForm "fsauth_" 32

def retryErrorCodes : List String := ["transport_error", "server_rejected", "approval_expired"]

def pattern (form : String → Bool) (value label : String) : Except QueueError Unit :=
  require (form value = true) (.valueError (label ++ " is invalid"))

def timestamp (value : ℚ) (label : String) : Except QueueError Unit :=
  require (0 ≤ value) (.valueError (label ++ " must be a finite non-negative timestamp"))

def SyncKey.check (key : SyncKey) : Except QueueError Unit := do
  pattern isWorkspace key.workspaceRef "workspace_ref"
  pattern isProject key.projectRef "project_ref"
  pattern isDigest key.requestDigest "request_digest"

/-- `_validate_request_without_namespace_key`: the projection hash of a stored request that is
canonical, is for the project and has the digest. -/
abbrev StoredRequests := String → (projectRef requestDigest : String) → Option String

def StoredHumanApproval.valid (a : StoredHumanApproval) : Bool :=
  0 ≤ a.approvedAt ∧ a.approvedAt < a.expiresAt ∧ a.expiresAt - a.approvedAt ≤ maxApprovalSeconds

def StoredTransportApproval.valid (digest : String) (a : StoredTransportApproval) : Bool :=
  0 ≤ a.approvedAt ∧ isApprovalId a.approvalId ∧ a.requestDigest = digest ∧
    a.approvedAt < a.expiresAt ∧ a.expiresAt - a.approvedAt ≤ maxApprovalSeconds

def StoredTransmission.valid (digest : String) (t : StoredTransmission) : Bool :=
  isPermitToken t.permitToken ∧ isLeaseToken t.leaseToken ∧ 0 ≤ t.begunAt ∧
    t.requestDigest = digest ∧ t.begunAt < t.effectiveExpiresAt

def RetryState.valid (r : RetryState) : Bool :=
  r.attempts ≤ maxAttempts ∧ r.nextAttemptAt.all (0 ≤ ·) ∧
    r.lastErrorCode.all (retryErrorCodes.contains ·) ∧
    r.leaseToken.isSome = r.leaseExpiresAt.isSome ∧ r.leaseToken.all isLeaseToken ∧
    r.leaseExpiresAt.all (0 ≤ ·)

/-- A transmission agrees with the approvals and the lease beside it. -/
def SyncRecord.transmissionBound (r : SyncRecord) (t : StoredTransmission) : Bool :=
  match r.humanApproval, r.transportApproval, r.retry.leaseToken, r.retry.leaseExpiresAt with
  | some human, some transport, some token, some expires =>
    t.leaseToken = token ∧ human.approvedAt ≤ t.begunAt ∧ transport.approvedAt ≤ t.begunAt ∧
      t.effectiveExpiresAt = min (min human.expiresAt transport.expiresAt) expires ∧
      t.begunAt < t.effectiveExpiresAt
  | _, _, _, _ => false

/-- What a record may hold before its approval, after it and once it is complete. -/
def SyncRecord.stageValid (r : SyncRecord) : Bool :=
  if r.humanApproval.isNone then
    r.transportApproval.isNone ∧ r.transmission.isNone ∧ r.retry.nextAttemptAt.isNone ∧
      r.retry.attempts = 0 ∧ r.retry.lastErrorCode.isNone ∧ r.retry.leaseToken.isNone ∧
      r.receipt.isNone
  else if r.receipt.isNone then r.retry.nextAttemptAt.isSome
  else r.retry.nextAttemptAt.isNone ∧ r.retry.leaseToken.isNone ∧ r.retry.leaseExpiresAt.isNone ∧
    r.transmission.isNone

variable (K : StoredRequests)

def SyncRecord.receiptBound (r : SyncRecord) (c : Receipt) : Bool :=
  c.projectRef = r.projectRef ∧ c.requestDigest = r.requestDigest ∧
    K r.requestJson r.projectRef r.requestDigest = some c.projectionHash

/-- `_parse_record_mapping`: may a file of the key hold the record? -/
def storedValid (key : SyncKey) (r : SyncRecord) : Bool :=
  r.toSyncKey = key ∧ accepts key.check ∧
    (K r.requestJson key.projectRef key.requestDigest).isSome ∧
    r.humanApproval.all (·.valid) ∧ r.transportApproval.all (·.valid key.requestDigest) ∧
    r.transmission.all (·.valid key.requestDigest) ∧ r.retry.valid ∧
    r.transmission.all r.transmissionBound ∧ r.receipt.all (r.receiptBound K) ∧ r.stageValid

abbrev Files := SyncKey → Option SyncRecord

/-- `_read_record`, where there is a file. -/
def readRecord (files : Files) (key : SyncKey) : Except QueueError (Option SyncRecord) :=
  match files key with
  | none => .ok none
  | some r => if storedValid K key r then .ok (some r) else .error .stored

/-- `_read_record`, where a corrupt file counts as none. -/
def readable (files : Files) (key : SyncKey) : Option SyncRecord :=
  (files key).filter (storedValid K key)

/-- What a call writes, and what it returns. -/
structure Outcome (α : Type) where
  written : Option SyncRecord := none
  value : α

variable (files : Files) (now : ℚ)

/-- What `validate_findings_sync_request` and the digest of its answer give. -/
structure PreparedRequest where
  projectRef : String
  requestJson : String
  requestDigest : String
  deriving DecidableEq, Repr

def prepare (request : Except QueueError PreparedRequest) (workspaceRef : String) :
    Except QueueError (Outcome SyncRecord) := do
  pattern isWorkspace workspaceRef "workspace_ref"
  let validated ← request
  let record : SyncRecord := {
    workspaceRef := workspaceRef, projectRef := validated.projectRef
    requestDigest := validated.requestDigest, requestJson := validated.requestJson }
  let found ← readRecord K files record.toSyncKey
  match found with
  | some existing => do
    require (existing.requestJson = validated.requestJson)
      (.conflict "request digest contradicts stored immutable bytes")
    return { value := existing }
  | none => return { written := some record, value := record }

def validateHumanApproval (a : HumanSyncApproval) (record : SyncRecord) :
    Except QueueError StoredHumanApproval := do
  timestamp a.approvedAt "approved_at"
  timestamp a.expiresAt "expires_at"
  require (¬ (a.workspaceRef ≠ record.workspaceRef ∨ a.projectRef ≠ record.projectRef ∨
      a.requestDigest ≠ record.requestDigest ∨ now < a.approvedAt ∨ a.expiresAt ≤ now ∨
      a.expiresAt < a.approvedAt ∨ maxApprovalSeconds < a.expiresAt - a.approvedAt))
    (.valueError "human approval does not bind the live exact request")
  return ⟨a.approvedAt, a.expiresAt⟩

def SyncRecord.approve (r : SyncRecord) (approved : StoredHumanApproval) : SyncRecord :=
  { r with
    humanApproval := some approved, transportApproval := none, transmission := none
    retry := { nextAttemptAt := some now }, receipt := none }

def recordHumanApproval (a : HumanSyncApproval) : Except QueueError (Outcome SyncRecord) := do
  a.toSyncKey.check
  let found ← readRecord K files a.toSyncKey
  match found with
  | none => throw (.keyError "prepared sync queue record does not exist")
  | some current => do
    timestamp now "current time"
    let approved ← validateHumanApproval now a current
    if current.receipt.isSome ∨ current.humanApproval = some approved then
      return { value := current }
    else do
      require (current.humanApproval.all (·.expiresAt ≤ now))
        (.conflict "a different live human approval is already recorded")
      return {
        written := some (current.approve now approved), value := current.approve now approved }

structure QueueConfig where
  leaseSeconds : ℚ
  positive : 0 < leaseSeconds
  limited : leaseSeconds ≤ maxLeaseSeconds

/-- `_new_lease_token`: the first draw comes from the token source, the others are tried while a
draw is the token before. -/
def newLeaseToken (draws : List String) (previous : Option String) : Except QueueError String := do
  match draws with
  | [] => throw (.valueError "generated lease token is invalid")
  | token :: _ => do
    pattern isLeaseToken token "generated lease token"
    match draws.find? (some · ≠ previous) with
    | none => throw (.valueError "generated lease token is invalid")
    | some candidate => return candidate

def claimable (r : SyncRecord) : Bool :=
  r.humanApproval.any (now < ·.expiresAt) ∧ r.receipt.isNone ∧
    r.transmission.all (·.effectiveExpiresAt ≤ now) ∧ r.retry.nextAttemptAt.any (· ≤ now) ∧
    r.retry.attempts < maxAttempts ∧ r.retry.leaseExpiresAt.all (· ≤ now)

variable (config : QueueConfig) (draws : List String)

def SyncRecord.claimed (r : SyncRecord) (token : String) (expires : ℚ) : SyncRecord :=
  { r with
    transportApproval := none, transmission := none
    retry := { r.retry with
      attempts := r.retry.attempts + 1, leaseToken := some token, leaseExpiresAt := some expires }
    receipt := none }

def claimLocked (record : SyncRecord) : Except QueueError (Outcome (Option SyncLease)) :=
  if claimable now record then do
    let token ← newLeaseToken draws record.retry.leaseToken
    let expires := now + config.leaseSeconds
    let updated := record.claimed token expires
    return { written := some updated, value := some ⟨token, expires, updated⟩ }
  else return { value := none }

def claim (key : SyncKey) : Except QueueError (Outcome (Option SyncLease)) := do
  key.check
  match readable K files key with
  | none => return { value := none }
  | some current => do
    timestamp now "current time"
    claimLocked now config draws current

/-- The order of the candidates: when they are due, then their names. -/
def sooner (a b : SyncRecord) : Bool :=
  let dueA := a.retry.nextAttemptAt.getD 0
  let dueB := b.retry.nextAttemptAt.getD 0
  dueA < dueB ∨ (dueA = dueB ∧ (a.projectRef < b.projectRef ∨
    (a.projectRef = b.projectRef ∧ a.requestDigest < b.requestDigest)))

def soonest : List SyncRecord → Option SyncRecord
  | [] => none
  | r :: rest =>
    match soonest rest with
    | none => some r
    | some o => if sooner o r then some o else some r

/-- `claim_next`, of a directory in some order. -/
def claimNext (workspaceRef : String) (listing : List (String × String)) :
    Except QueueError (Outcome (Option SyncLease)) := do
  pattern isWorkspace workspaceRef "workspace_ref"
  let records := (listing.filter fun name => isProject name.1 && isDigest name.2).filterMap
    fun name => readable K files ⟨workspaceRef, name.1, name.2⟩
  timestamp now "current time"
  match soonest (records.filter (claimable now)) with
  | none => return { value := none }
  | some record => claimLocked now config draws record

def validateLeaseHandle (lease : SyncLease) : Except QueueError Unit := do
  pattern isLeaseToken lease.leaseToken "lease_token"
  timestamp lease.leaseExpiresAt "lease_expires_at"
  require (¬ (lease.record.retry.leaseToken ≠ some lease.leaseToken ∨
      lease.record.retry.leaseExpiresAt ≠ some lease.leaseExpiresAt ∨
      lease.record.transmission ≠ none))
    (.valueError "lease handle is internally inconsistent")

def leaseMatches (current : SyncRecord) (lease : SyncLease) : Bool :=
  current.workspaceRef = lease.record.workspaceRef ∧
    current.projectRef = lease.record.projectRef ∧
    current.requestDigest = lease.record.requestDigest ∧
    current.requestJson = lease.record.requestJson ∧
    current.humanApproval = lease.record.humanApproval ∧
    current.transportApproval = lease.record.transportApproval ∧
    current.transmission = lease.record.transmission ∧
    current.retry = lease.record.retry ∧
    current.receipt = lease.record.receipt ∧
    current.receipt = none ∧
    current.retry.leaseToken = some lease.leaseToken ∧
    current.retry.leaseExpiresAt = some lease.leaseExpiresAt ∧
    now < lease.leaseExpiresAt

def updateLiveLease (lease : SyncLease)
    (update : SyncRecord → Except QueueError (Option SyncRecord)) :
    Except QueueError (Option SyncRecord) := do
  validateLeaseHandle lease
  match readable K files lease.record.toSyncKey with
  | none => return none
  | some current => do
    timestamp now "current time"
    if leaseMatches now current lease then update current else return none

def SyncRecord.renewed (r : SyncRecord) (token : String) (expires : ℚ) : SyncRecord :=
  { r with
    transportApproval := r.transportApproval.filter (now < ·.expiresAt), transmission := none
    retry := { r.retry with leaseToken := some token, leaseExpiresAt := some expires }
    receipt := none }

def renew (lease : SyncLease) : Except QueueError (Outcome (Option SyncLease)) := do
  let token ← newLeaseToken draws (some lease.leaseToken)
  let expires := now + config.leaseSeconds
  let result ← updateLiveLease K files now lease fun current =>
    return if current.humanApproval.any (now < ·.expiresAt) then
      some (current.renewed now token expires) else none
  return { written := result, value := result.map fun updated => ⟨token, expires, updated⟩ }

/-- The approval `bind_transport_approval` takes for a lease. -/
def transportAdmissible (lease : SyncLease) (a : TransportApproval) : Bool :=
  ¬ (a.workspaceRef ≠ lease.record.workspaceRef ∨ a.projectRef ≠ lease.record.projectRef ∨
    a.requestDigest ≠ lease.record.requestDigest ∨ isApprovalId a.approvalId = false ∨
    a.approvedBy = "" ∨ 256 < a.approvedBy.length ∨ a.approvedBy.toList.any (·.toNat < 32) ∨
    a.expiresAt ≤ a.approvedAt ∨ maxApprovalSeconds < a.expiresAt - a.approvedAt)

def TransportApproval.stored (a : TransportApproval) : StoredTransportApproval :=
  ⟨a.approvalId, a.requestDigest, a.approvedAt, a.expiresAt⟩

/-- The record a transport approval leaves. -/
def SyncRecord.bound (r : SyncRecord) (a : TransportApproval) : SyncRecord :=
  { r with transportApproval := some a.stored, transmission := none, receipt := none }

def bindTransportApproval (lease : SyncLease) (a : TransportApproval) :
    Except QueueError (Outcome (Option SyncLease)) := do
  validateLeaseHandle lease
  timestamp a.approvedAt "approved_at"
  timestamp a.expiresAt "expires_at"
  require (transportAdmissible lease a = true)
    (.valueError "transport approval does not bind the live exact request")
  let result ← updateLiveLease K files now lease fun current => do
    require (current.humanApproval.any (now < ·.expiresAt) = true)
      (.valueError "human approval expired before transport authorization")
    require (a.approvedAt ≤ now ∧ now < a.expiresAt)
      (.valueError "transport approval does not bind the live exact request")
    return some (current.bound a)
  return { written := result, value := result.map fun updated =>
    ⟨lease.leaseToken, lease.leaseExpiresAt, updated⟩ }

/-- `begin_transmission` up to the record it leaves. -/
def beginUpdate (permitToken : String) (lease : SyncLease) (current : SyncRecord) :
    Except QueueError (Option SyncRecord) :=
  match current.humanApproval.filter fun h => h.approvedAt ≤ now ∧ now < h.expiresAt with
  | none => .error (.valueError "human approval expired before transmission")
  | some human =>
    match current.transportApproval.filter fun t => t.approvedAt ≤ now ∧ now < t.expiresAt with
    | none => .error (.valueError "fresh transport approval is required")
    | some transport =>
      match current.retry.leaseExpiresAt with
      | none => .error (.valueError "transmission requires a live fenced lease")
      | some leaseExpires => do
        let effective := min (min human.expiresAt transport.expiresAt) leaseExpires
        require (now < effective) (.valueError "transmission authority expired before use")
        return some { current with
          transmission := some ⟨permitToken, lease.leaseToken, current.requestDigest,
          now, effective⟩
          receipt := none }

def beginTransmission (permitToken : String) (lease : SyncLease) :
    Except QueueError (Outcome (Option SyncTransmissionPermit)) := do
  let result ← updateLiveLease K files now lease (beginUpdate now permitToken lease)
  return { written := result, value := result.bind fun updated => updated.transmission.map fun t =>
    ⟨permitToken, now, t.effectiveExpiresAt, updated⟩ }

def validatePermitHandle (permit : SyncTransmissionPermit) : Except QueueError Unit := do
  pattern isPermitToken permit.permitToken "permit_token"
  timestamp permit.begunAt "begun_at"
  timestamp permit.effectiveExpiresAt "effective_expires_at"
  require (permit.record.transmission.any fun t =>
      t.permitToken = permit.permitToken ∧ t.begunAt = permit.begunAt ∧
      t.effectiveExpiresAt = permit.effectiveExpiresAt ∧
      t.requestDigest = permit.record.requestDigest ∧
      some t.leaseToken = permit.record.retry.leaseToken)
    (.valueError "transmission permit is internally inconsistent")

def permitMatches (current : SyncRecord) (permit : SyncTransmissionPermit) : Bool :=
  current = permit.record ∧ current.receipt = none ∧
    current.transmission.any (·.permitToken = permit.permitToken)

def updateCurrentPermit (permit : SyncTransmissionPermit)
    (update : SyncRecord → Except QueueError (Option SyncRecord)) :
    Except QueueError (Option SyncRecord) := do
  validatePermitHandle permit
  match readable K files permit.record.toSyncKey with
  | none => return none
  | some current => do
    timestamp now "current time"
    if permitMatches current permit then update current else return none

inductive Handle where
  | lease (lease : SyncLease)
  | permit (permit : SyncTransmissionPermit)
  deriving DecidableEq, Repr

def Handle.record : Handle → SyncRecord
  | .lease l => l.record
  | .permit p => p.record

def Handle.key (h : Handle) : SyncKey := h.record.toSyncKey

/-- The update of the record an authority stands for. -/
def updateHeld (authority : Handle) (update : SyncRecord → Except QueueError (Option SyncRecord)) :
    Except QueueError (Option SyncRecord) :=
  match authority with
  | .lease lease => updateLiveLease K files now lease update
  | .permit permit => updateCurrentPermit K files now permit update

def SyncRecord.retried (r : SyncRecord) (due : ℚ) (code : String) : SyncRecord :=
  { r with
    transportApproval := none, transmission := none
    retry := {
      attempts := r.retry.attempts, nextAttemptAt := some due, lastErrorCode := some code }
    receipt := none }

def scheduleRetry (authority : Handle) (due : ℚ) (code : String) :
    Except QueueError (Outcome Bool) := do
  timestamp due "next_attempt_at"
  require (code ∈ retryErrorCodes)
    (.valueError "retry schedule is outside the closed queue contract")
  let result ← updateHeld K files now authority fun current => do
    require (now ≤ due) (.valueError "retry schedule is outside the closed queue contract")
    return some (current.retried due code)
  return { written := result, value := result.isSome }

def SyncRecord.completed (r : SyncRecord) (receipt : Receipt) : SyncRecord :=
  { r with
    transmission := none
    retry := { attempts := r.retry.attempts }
    receipt := some receipt }

/-- `complete`, of a receipt that `validate_findings_sync_receipt` accepts or not. -/
def complete (permit : SyncTransmissionPermit) (receipt : Option Receipt) :
    Except QueueError (Outcome Bool) := do
  validatePermitHandle permit
  let record := permit.record
  require (record.humanApproval.isSome ∧ record.transportApproval.isSome ∧
    record.transmission.isSome)
    (.valueError "completion requires a begun transmission")
  match receipt.filter fun c => record.receiptBound K c ∧
      record.transportApproval.all (·.requestDigest = record.requestDigest) with
  | none => throw (.valueError "receipt does not match the exact queued request")
  | some receipt => do
    let result ← updateCurrentPermit K files now permit fun current => do
      require (current.transportApproval.isSome ∧ current.transmission.isSome)
        (.valueError "completion requires a begun transmission")
      return some (current.completed receipt)
    return { written := result, value := result.isSome }

end Heel.SyncQueue
