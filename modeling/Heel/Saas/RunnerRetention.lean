import Mathlib.Data.Prod.Lex
import Heel.Lib.Transition
import Heel.Saas.RunnerAuth

/-! `reap_expired_auth` of `heel/saas/runner_auth.py`: eight lanes of retention work that share one
budget, in an order that is rotated by a cursor. -/
namespace Heel.RunnerAuth
open Lib Lib.Checks Cloud

/-- The lanes in the order of their numbers. -/
inductive Lane where
  | requestReceipts | pairingReceipts | rotationReceipts | pairingAborts | rotationAborts
  | pairingParents | rotationParents | oldKeys
  deriving DecidableEq, Repr

def Lane.all : List Lane :=
  [.requestReceipts, .pairingReceipts, .rotationReceipts, .pairingAborts, .rotationAborts,
    .pairingParents, .rotationParents, .oldKeys]

inductive WorkItem where
  | requestReceipt (r : LedgerRow)
  | receipt (lane : Lane) (r : Receipt)
  | pairing (r : Pairing)
  | rotation (r : Rotation)
  | oldKey (q : QueueRow)
  deriving DecidableEq, Repr

variable (now : ℚ)

def LedgerRow.order (r : LedgerRow) : ℚ ×ₗ String ×ₗ String ×ₗ String ×ₗ Int ×ₗ Int :=
  toLex (r.retentionExpiresAt, toLex (r.workspaceId, toLex (r.runnerId, toLex (r.chainName,
    toLex (r.sequence, r.generation)))))

def LedgerRow.key (r : LedgerRow) : String × String × String × Int × Int :=
  (r.workspaceId, r.runnerId, r.chainName, r.sequence, r.generation)

def QueueRow.order (q : QueueRow) : ℚ ×ₗ ℚ ×ₗ String ×ₗ String ×ₗ String :=
  toLex (q.nextAttemptAt, toLex (q.eligibleAt, toLex (q.workspaceId, toLex (q.runnerId, q.keyId))))

/-- `ORDER BY`. -/
def ordered {ρ κ : Type} [LinearOrder κ] (order : ρ → κ) (rows : List ρ) : List ρ :=
  rows.insertionSort fun a b => order a ≤ order b

def AuthDb.receipts (db : AuthDb) : Lane → List Receipt
  | .pairingReceipts => db.pairingReceipts
  | .rotationReceipts => db.rotationReceipts
  | .pairingAborts => db.pairingAborts
  | .rotationAborts => db.rotationAborts
  | _ => []

def AuthDb.setReceipts (db : AuthDb) (rows : List Receipt) : Lane → AuthDb
  | .pairingReceipts => { db with pairingReceipts := rows }
  | .rotationReceipts => { db with rotationReceipts := rows }
  | .pairingAborts => { db with pairingAborts := rows }
  | .rotationAborts => { db with rotationAborts := rows }
  | _ => db

/-- Does a lane hold a receipt of a ceremony? -/
def AuthDb.hasReceipt (db : AuthDb) (lane : Lane) (pairingId : String) : Bool :=
  (db.receipts lane).any fun r => r.pairingId = pairingId

-- one name for the proof, wherever a condition of this module compares two values
local instance lawfulPair : LawfulBEq (String × String) := inferInstance

/-- The conditions of the sixth lane on a pairing, but for its receipts. -/
def AuthDb.endedPairing (db : AuthDb) (p : Pairing) : Bool :=
  p.expiresAt ≤ now ∧ ((p.status = .activated ∧ (p.workspaceId, p.runnerId) ∈ db.executable) ∨
    p.status = .expired)

/-- The lanes whose receipts keep a pairing. -/
def Pairing.blockers (p : Pairing) : List Lane :=
  if p.status = .activated then [.pairingReceipts] else [.pairingReceipts, .pairingAborts]

def AuthDb.duePairing (db : AuthDb) (p : Pairing) : Bool :=
  db.endedPairing now p ∧ ∀ lane ∈ p.blockers, db.hasReceipt lane p.pairingId = false

/-- The conditions of the seventh lane on a rotation, but for its receipts. -/
def Rotation.ended (r : Rotation) : Bool :=
  r.expiresAt ≤ now ∧ r.status ∈ [RotationStatus.rotated, .expired]

/-- The lanes whose receipts keep a rotation. -/
def rotationBlockers : List Lane := [.rotationReceipts, .rotationAborts]

def AuthDb.dueRotation (db : AuthDb) (r : Rotation) : Bool :=
  r.ended now ∧ ∀ lane ∈ rotationBlockers, db.hasReceipt lane r.pairingId = false

def Lane.due (lane : Lane) (db : AuthDb) : List WorkItem :=
  match lane with
  | .requestReceipts =>
    (ordered LedgerRow.order (db.ledger.filter fun r => r.retentionExpiresAt ≤ now)).map
      .requestReceipt
  | .pairingParents =>
    (ordered (fun p : Pairing => toLex (p.expiresAt, p.pairingId))
      (db.pairings.filter (db.duePairing now))).map .pairing
  | .rotationParents =>
    (ordered (fun r : Rotation => toLex (r.expiresAt, r.pairingId))
      (db.rotations.filter (db.dueRotation now))).map .rotation
  | .oldKeys =>
    (ordered QueueRow.order (db.queue.filter fun q => q.nextAttemptAt ≤ now)).map .oldKey
  | lane =>
    (ordered (fun r : Receipt => toLex (r.expiresAt, r.pairingId))
      ((db.receipts lane).filter fun r => r.expiresAt ≤ now)).map (.receipt lane)

/-- `key_is_referenced`: its eleven probes. -/
def keyIsReferenced (k : KeyRef) (db : AuthDb) : Bool :=
  (db.identities.any fun row => row.identity.workspaceId = k.workspaceId ∧
    row.identity.runnerId = k.runnerId ∧ row.identity.keyId = k.keyId) ||
  (db.ledger.any fun r => r.toKeyRef = k) ||
  (db.references.any fun r => r.2 = k ∧ r.1 ∈ [KeyTable.contextBindings, .contextLinks,
    .contextEvents, .contextAffinities, .executionGrants, .approvalProjections]) ||
  (db.pairings.any fun p => p.workspaceId = k.workspaceId ∧ p.runnerId = k.runnerId ∧
    p.keyId = some k.keyId) ||
  (db.rotations.any fun r => r.workspaceId = k.workspaceId ∧ r.runnerId = k.runnerId ∧
    (r.keyId = k.keyId ∨ r.oldKeyId = k.keyId))

def retentionInvalid : Refusal := authError "runner auth retention state is invalid"

/-- `DELETE .. WHERE p`, of exactly one row. -/
def deleteOne {ρ : Type} (p : ρ → Bool) (rows : List ρ) : Except Refusal (List ρ) := do
  require ((rows.filter p).length = 1) retentionInvalid
  return rows.filter fun r => ¬ p r

/-- The delay until a referenced key is tried again. -/
def retryDelay (attempts : Nat) : ℚ := min 86400 (60 * 2 ^ min attempts 11)

/-- The deletion of a key, which a foreign key may refuse and which takes its queue row along. -/
def deleteKey (q : QueueRow) (db : AuthDb) : Except Refusal AuthDb := do
  let keys ← deleteOne (fun k : Key => k.revokedAt = some q.revokedAt ∧ k.toKeyRef = q.toKeyRef ∧
    k.status = .verificationOnly) db.keys
  require (∀ r ∈ db.references, r.1.constrained = true → r.2 ≠ q.toKeyRef)
    (integrityError "FOREIGN KEY constraint failed")
  return { db with keys := keys, queue := db.queue.filter fun o => o.toKeyRef ≠ q.toKeyRef }

/-- Is this row the one that a pass has read as `q` and still finds due? -/
def QueueRow.matchesDue (q o : QueueRow) : Bool :=
  o.toKeyRef = q.toKeyRef ∧ o.revokedAt = q.revokedAt ∧ o.nextAttemptAt ≤ now ∧
    o.attemptCount = q.attemptCount

def QueueRow.postponed (q o : QueueRow) : QueueRow :=
  { o with nextAttemptAt := now + retryDelay q.attemptCount, attemptCount := q.attemptCount + 1 }

/-- The rescheduling of a key that is still referenced. -/
def rescheduleKey (q : QueueRow) (db : AuthDb) : Except Refusal AuthDb := do
  require ((db.queue.filter (q.matchesDue now)).length = 1) retentionInvalid
  return { db with queue := Table.update (q.matchesDue now) (q.postponed now) db.queue }

/-- What a lane does with a row that is due. -/
def perform (item : WorkItem) (db : AuthDb) : Except Refusal AuthDb :=
  match item with
  | .requestReceipt r => do
    let ledger ← deleteOne (fun o : LedgerRow => o.key = r.key) db.ledger
    return { db with ledger := ledger }
  | .receipt lane r => do
    let rows ← deleteOne (fun o : Receipt => o.pairingId = r.pairingId) (db.receipts lane)
    return db.setReceipts rows lane
  | .pairing p => do
    let _ ← deleteOne (fun o : Pairing => o.pairingId = p.pairingId) db.pairings
    return deletePairings (fun o => o.pairingId = p.pairingId) db
  | .rotation r => do
    let rows ← deleteOne (fun o : Rotation => o.pairingId = r.pairingId) db.rotations
    return { db with
      rotations := rows
      rotationReceipts := db.rotationReceipts.filter fun o => o.pairingId ≠ r.pairingId
      rotationAborts := db.rotationAborts.filter fun o => o.pairingId ≠ r.pairingId }
  | .oldKey q =>
    if keyIsReferenced q.toKeyRef db then rescheduleKey now q db else deleteKey q db

structure Reap where
  db : AuthDb
  remaining : Nat
  hasMore : Bool := false
  /-- The items done; the counters of the result are counted from them. -/
  done : List WorkItem := []

/-- `consume_simple_phase` and `consume_old_key_phase`. -/
def consumeLane (s : Reap) (lane : Lane) : Except Refusal Reap := do
  let rows := (lane.due now s.db).take (s.remaining + 1)
  let taken := rows.take s.remaining
  let db ← taken.foldlM (fun db item => perform now item db) s.db
  return { db := db
           remaining := s.remaining - taken.length
           hasMore := decide (taken.length < rows.length) || s.hasMore
           done := s.done ++ taken }

def laneOrder (phaseCursor : Nat) : List Lane := Lane.all.rotate phaseCursor

/-- What `reap_expired_auth` answers. -/
structure ReapResult where
  done : List WorkItem
  hasMore : Bool
  deriving DecidableEq, Repr

def reapExpiredAuth (limit phaseCursor : Nat) (db : AuthDb) :
    Except Refusal (AuthDb × ReapResult) := do
  require (1 ≤ limit ∧ limit ≤ 128 ∧ phaseCursor ≤ 7)
    ⟨.valueError, "invalid runner auth reap request"⟩
  let s ← (laneOrder phaseCursor).foldlM (consumeLane now) { db := db, remaining := limit }
  return (s.db, ⟨s.done, s.hasMore⟩)

/-- `purge_runner_request_receipts`. -/
def purgeRequestReceipts (limit : Nat) (db : AuthDb) : Except Refusal AuthDb := do
  require (1 ≤ limit ∧ limit ≤ 128) ⟨.valueError, "invalid runner receipt purge request"⟩
  let rows := (Lane.requestReceipts.due now db).take (limit + 1)
  (rows.take limit).foldlM (fun db item => perform now item db) db

inductive Call where
  | invite (workspaceId : String)
  | exchange (q : ExchangeRequest)
  | approve (workspaceId pairingId phrase fingerprint actor : String)
  | activate (pairingId signature : String) (maxActive : Option Nat)
  | activateExecutable (pairingId : String) (q : ActivationRequest) (maxActive : Option Nat)
  | abortPairingActivation (pairingId : String) (q : PairingAbortRequest)
  | startRotation (workspaceId runnerId : String) (q : RotationRequest)
  | approveRotation (workspaceId pairingId phrase fingerprint actor : String)
  | activateRotation (pairingId signature : String) (overlapSeconds : Nat)
  | abortRotationActivation (q : RotationAbortRequest)
  | revoke (workspaceId runnerId actor reasonCode : String)
  | consumeRequest (q : RunnerRequest)
  | purgeRequestReceipts (limit : Nat)
  | reapExpiredAuth (limit phaseCursor : Nat)
  | otherServices (references : List (KeyTable × KeyRef))

variable (A : AuthPlatform)

/-- The rows a call leaves, if it does not raise. -/
def call (env : AuthEnv) (db : AuthDb) : Call → Except Refusal AuthDb
  | .invite workspaceId => invite A env workspaceId db
  | .exchange q => exchange A env q db
  | .approve workspaceId pairingId phrase fingerprint actor =>
    approve env workspaceId pairingId phrase fingerprint actor db
  | .activate pairingId signature maxActive => activate A env pairingId signature maxActive db
  | .activateExecutable pairingId q maxActive => activateExecutable A env pairingId q maxActive db
  | .abortPairingActivation pairingId q => abortPairingActivation A env pairingId q db
  | .startRotation workspaceId runnerId q => startRotation A env workspaceId runnerId q db
  | .approveRotation workspaceId pairingId phrase fingerprint actor =>
    approveRotation A env workspaceId pairingId phrase fingerprint actor db
  | .activateRotation pairingId signature overlapSeconds =>
    activateRotation A env pairingId signature overlapSeconds db
  | .abortRotationActivation q => abortRotationActivation A env q db
  | .revoke workspaceId runnerId actor reasonCode =>
    revoke A env workspaceId runnerId actor reasonCode db
  | .consumeRequest q => consumeRequest A env q db
  | .purgeRequestReceipts limit => purgeRequestReceipts env.now limit db
  | .reapExpiredAuth limit phaseCursor =>
    Prod.fst <$> reapExpiredAuth env.now limit phaseCursor db
  | .otherServices references => otherServices references db

def transact (env : AuthEnv) (db : AuthDb) (c : Call) : AuthDb :=
  match call A env db c with
  | .ok db' => db'
  | .error _ => db

/-- Every sequence of transactions on the tables of runner authentication, from empty tables. -/
def authentication : Transition AuthDb (AuthEnv × Call) where
  init db := db = {}
  step db a db' := db' = transact A a.1 db a.2

end Heel.RunnerAuth
