import Mathlib.Data.Rat.Floor
import Heel.Contracts.RunnerIdentity
import Heel.Lib.Table
import Heel.Runner.ContainmentLog
import Heel.Saas.Run

/-! The pairings, keys, identities and rotations of runners in `heel/saas/runner_auth.py`. Every
call is one transaction, which an exception undoes. Times are seconds. Left out are the answers of
the calls, the control chains and the columns that only they read. -/
namespace Heel.RunnerAuth
open Lib Lib.Checks Cloud

def pairingTtl : ℚ := 10 * 60
def receiptRetention : ℚ := 2592000

/-! ### The tables -/

inductive PairingStatus where
  | invited | pending | approved | activated | expired
  deriving DecidableEq, Repr

inductive RotationStatus where
  | rotationPending | rotationApproved | rotated | expired
  deriving DecidableEq, Repr

inductive KeyStatus where
  | active | verificationOnly | revoked
  deriving DecidableEq, Repr

/-- A row of `canary_runners`. -/
structure Runner where
  runnerId : String
  workspaceId : String
  status : RunnerStatus := .active
  deriving DecidableEq, Repr

/-- What a row that is signed under a runner's key names. -/
structure KeyRef where
  workspaceId : String
  runnerId : String
  keyId : String
  deriving DecidableEq, Repr

/-- A row of `canary_runner_keys`. -/
structure Key extends KeyRef where
  publicKey : String
  status : KeyStatus := .active
  createdAt : ℚ
  revokedAt : Option ℚ := none
  deriving DecidableEq, Repr

/-- A row of `canary_runner_identity_records`. -/
structure IdentityRow where
  identity : RunnerIdentity
  digest : String
  deriving DecidableEq, Repr

/-- A row of `canary_runner_pairings`. -/
structure Pairing where
  pairingId : String
  workspaceId : String
  runnerId : String := ""
  invitationHash : String
  phrase : Option String := none
  publicKey : Option String := none
  fingerprint : Option String := none
  keyId : Option String := none
  runnerVersion : String := ""
  adapters : List (String × String) := []
  challenge : Option String := none
  status : PairingStatus := .invited
  expiresAt : ℚ
  approvedAt : Option ℚ := none
  approvedBy : Option String := none
  activatedAt : Option ℚ := none
  deriving DecidableEq, Repr

/-- A row of `canary_runner_pairing_protocols`. -/
structure PairingProtocol where
  pairingId : String
  exchangeDigest : String
  deriving DecidableEq, Repr

/-- A row of a table of activation receipts or of abort receipts. -/
structure Receipt where
  pairingId : String
  requestDigest : String
  expiresAt : ℚ
  deriving DecidableEq, Repr

/-- A row of `canary_runner_rotations`. The column of the phrase is declared `NOT NULL`. -/
structure Rotation where
  pairingId : String
  workspaceId : String
  runnerId : String
  phrase : Option String
  publicKey : String
  fingerprint : String
  keyId : String
  runnerVersion : String
  adapters : List (String × String)
  challenge : Option String
  status : RotationStatus
  createdAt : ℚ
  expiresAt : ℚ
  approvedAt : Option ℚ := none
  approvedBy : Option String := none
  activatedAt : Option ℚ := none
  oldKeyId : String
  oldFingerprint : String
  deriving DecidableEq, Repr

/-- A row of `canary_runner_request_ledger`. -/
structure LedgerRow extends KeyRef where
  chainName : String
  sequence : Int
  generation : Int
  retentionExpiresAt : ℚ
  deriving DecidableEq, Repr

/-- A row of `canary_runner_key_retirement_queue`. -/
structure QueueRow extends KeyRef where
  revokedAt : ℚ
  eligibleAt : ℚ
  nextAttemptAt : ℚ
  attemptCount : Nat
  deriving DecidableEq, Repr

/-- The tables of the other services that name a runner's key. -/
inductive KeyTable where
  | contextBindings | contextLinks | contextEvents | contextAffinities | executionGrants
  | approvalProjections | operationalReceipts | disclosureRequests | disclosurePermits
  | findingsProjections
  deriving DecidableEq, Repr

/-- The tables whose rows are tied to the key by a foreign key. -/
def KeyTable.constrained : KeyTable → Bool
  | .contextLinks | .contextEvents => false
  | _ => true

structure AuthDb where
  runners : List Runner := []
  keys : List Key := []
  identities : List IdentityRow := []
  pairings : List Pairing := []
  pairingProtocols : List PairingProtocol := []
  /-- The runners in `canary_runner_execution_protocols`. -/
  executable : List (String × String) := []
  pairingReceipts : List Receipt := []
  rotationReceipts : List Receipt := []
  pairingAborts : List Receipt := []
  rotationAborts : List Receipt := []
  rotations : List Rotation := []
  ledger : List LedgerRow := []
  queue : List QueueRow := []
  references : List (KeyTable × KeyRef) := []
  deriving DecidableEq, Repr

/-! ### The environment of a call -/

structure AuthPlatform extends Platform where
  /-- `load_public_key_base64`: the raw key, unless the text is not one. -/
  publicKeyOf : String → Option (List UInt8)
  keyIdOf : List UInt8 → String
  fingerprintOf : List UInt8 → String
  /-- A signature from its text, if that is the canonical base 64 of 64 bytes. -/
  signatureOf : String → Option (List UInt8)
  /-- The digest of a challenge, unless its text is not base 64. -/
  challengeDigest : String → Option String
  /-- `_hash`: a domain and a text. -/
  hash : String → String → String
  /-- The digest of a request. -/
  requestDigest : Json → String

structure AuthDraws where
  pairingId : String := ""
  token : String := ""
  runnerIds : List String := []
  challenge : String := ""
  /-- a prefix and hexadecimal digits -/
  runnerIds_ascii : ∀ id ∈ runnerIds, Containment.isAscii id = true := by decide

/-- The clock, the draws, and what the call reads of the other services. -/
structure AuthEnv where
  now : ℚ
  draws : AuthDraws := {}
  /-- a run of the runner is claimed and has not ended -/
  activeRun : Bool := false
  /-- the old key has acquired a run, a grant, an approval or a context -/
  rotationBusy : Bool := false

def authError (reason : String) : Refusal := ⟨.runnerAuthError, reason⟩
def invalidPairing : Refusal := authError "invalid pairing"
def invalidRotation : Refusal := authError "invalid rotation"
def integrityError (constraint : String) : Refusal := ⟨.integrityError, constraint⟩

def found {α : Type} (value : Option α) (e : Refusal) : Except Refusal α :=
  match value with
  | some a => .ok a
  | none => .error e

@[simp] theorem found_ok {α : Type} {value : Option α} {e : Refusal} {a : α} :
    found value e = .ok a ↔ value = some a := by
  cases value <;> simp [found]

def milliseconds (instant : ℚ) : Int := max 0 ⌊instant * 1000⌋

/-- `int(instant * 1000)`. -/
def truncatedMs (instant : ℚ) : Int :=
  if 0 ≤ instant then ⌊instant * 1000⌋ else ⌈instant * 1000⌉

/-- `_identifier`; that a text is its own `strip` is checked here for the blank. -/
def authIdentifier (value field : String) : Except Refusal Unit :=
  require (value ≠ "" ∧ byteSize value.toList ≤ 128 ∧ value.toList.head? ≠ some ' ' ∧
    value.toList.getLast? ≠ some ' ') ⟨.valueError, "invalid " ++ field⟩

variable (A : AuthPlatform) (env : AuthEnv)

/-- A proof that the holder of a key has signed under its domain. -/
def provesKey (publicKey domain : String) (proof : Json) (signature : List UInt8) : Bool :=
  match A.publicKeyOf publicKey, Json.canonicalBytes A.toPlatform proof with
  | some raw, .ok bytes => A.verify raw signature (domain.toList ++ bytes)
  | _, _ => false

/-! ### Statements -/

/-- The identity with its texts in normal form, as the contract keeps it. -/
def normalIdentity (P : Platform) (i : RunnerIdentity) : RunnerIdentity :=
  { i with
    runnerId := P.nfc i.runnerId, workspaceId := P.nfc i.workspaceId, keyId := P.nfc i.keyId
    publicKey := P.nfc i.publicKey, fingerprint := P.nfc i.fingerprint
    runnerVersion := P.nfc i.runnerVersion, adapterVersions := i.adapterVersions.map P.nfc
    pairedBy := P.nfc i.pairedBy, previousKeyIds := i.previousKeyIds.map P.nfc
    revocation := { i.revocation with
      revokedBy := i.revocation.revokedBy.map P.nfc
      reasonCode := i.revocation.reasonCode.map P.nfc } }

def validIdentity (i : RunnerIdentity) : Except Refusal Unit :=
  i.validate A.toPlatform fun text => (A.publicKeyOf text).isSome

/-- `_save_identity`: the row of the runner is replaced, and any row of the same digest. -/
def saveIdentity (i : RunnerIdentity) (db : AuthDb) : Except Refusal AuthDb := do
  let i := normalIdentity A.toPlatform i
  validIdentity A i
  let digest ← i.digest A.toPlatform
  require (∃ r ∈ db.runners, r.workspaceId = i.workspaceId ∧ r.runnerId = i.runnerId)
    (integrityError "canary_runner_identity_records")
  let others := db.identities.filter fun row =>
    ¬ (row.identity.workspaceId = i.workspaceId ∧ row.identity.runnerId = i.runnerId) ∧
      row.digest ≠ digest
  return { db with identities := others ++ [⟨i, digest⟩] }

def loadIdentity (workspaceId runnerId : String) (db : AuthDb) : Except Refusal RunnerIdentity := do
  let row ← found (db.identities.find? fun row =>
    row.identity.workspaceId = workspaceId ∧ row.identity.runnerId = runnerId)
    (authError "invalid runner identity")
  validIdentity A row.identity
  return row.identity

def singleActiveKey (workspaceId runnerId : String) (db : AuthDb) : Except Refusal Key :=
  match db.keys.filter fun k => k.workspaceId = workspaceId ∧ k.runnerId = runnerId ∧
    k.status = .active ∧ k.revokedAt = none with
  | [k] => .ok k
  | _ => .error invalidRotation

def boundRotationOldKey (row : Rotation) (db : AuthDb) : Except Refusal Key := do
  let old ← singleActiveKey row.workspaceId row.runnerId db
  let raw ← found (A.publicKeyOf old.publicKey) invalidRotation
  require (row.oldKeyId = old.keyId ∧ row.oldFingerprint = A.fingerprintOf raw) invalidRotation
  let identity ← loadIdentity A row.workspaceId row.runnerId db
  require (identity.keyId = old.keyId ∧ identity.publicKey = old.publicKey ∧
    identity.fingerprint = A.fingerprintOf raw) invalidRotation
  return old

/-- The row of the retirement queue that the triggers write for a key. -/
def retirement (k : Key) : Option QueueRow :=
  match k.status, k.revokedAt with
  | .verificationOnly, some revokedAt =>
    some ⟨k.toKeyRef, revokedAt, revokedAt + receiptRetention, revokedAt + receiptRetention, 0⟩
  | _, _ => none

/-- `UPDATE canary_runner_keys`, with its trigger. -/
def updateKeys (p : Key → Bool) (f : Key → Key) (db : AuthDb) : AuthDb :=
  let changed := db.keys.filter p
  { db with
    keys := Table.update p f db.keys
    queue := db.queue.filter (fun q => ¬ changed.any fun k => k.toKeyRef = q.toKeyRef) ++
      changed.filterMap fun k => retirement (f k) }

/-- `UPDATE canary_runner_pairings .. WHERE pairing_id=?`. -/
def updatePairing (pairingId : String) (f : Pairing → Pairing) (db : AuthDb) : AuthDb :=
  { db with pairings := Table.update (fun r => r.pairingId = pairingId) f db.pairings }

/-- `UPDATE canary_runner_rotations`, which may refuse a row without a phrase. -/
def updateRotations (p : Rotation → Bool) (f : Rotation → Rotation) (db : AuthDb) :
    Except Refusal AuthDb := do
  require (∀ r ∈ db.rotations, p r = true → (f r).phrase.isSome)
    (integrityError "NOT NULL constraint failed: canary_runner_rotations.phrase")
  return { db with rotations := Table.update p f db.rotations }

/-- `DELETE FROM canary_runner_pairings`, with its cascade. -/
def deletePairings (p : Pairing → Bool) (db : AuthDb) : AuthDb :=
  let gone (pairingId : String) := db.pairings.any fun r => p r ∧ r.pairingId = pairingId
  { db with
    pairings := db.pairings.filter fun r => ¬ p r
    pairingProtocols := db.pairingProtocols.filter fun r => ¬ gone r.pairingId
    pairingReceipts := db.pairingReceipts.filter fun r => ¬ gone r.pairingId
    pairingAborts := db.pairingAborts.filter fun r => ¬ gone r.pairingId }

def insertReceipt (rows : List Receipt) (r : Receipt) : Except Refusal (List Receipt) := do
  require (r.pairingId ∉ rows.map Receipt.pairingId) (integrityError "receipt")
  return rows ++ [r]

/-! ### Pairing a runner -/

def invite (workspaceId : String) (db : AuthDb) : Except Refusal AuthDb := do
  authIdentifier workspaceId "workspace"
  let db := deletePairings (fun r => r.workspaceId = workspaceId ∧
    r.status ∈ [PairingStatus.invited, .pending, .approved, .expired] ∧ r.expiresAt < env.now) db
  let row : Pairing :=
    { pairingId := env.draws.pairingId, workspaceId := workspaceId
      invitationHash := A.hash "invitation" env.draws.token, expiresAt := env.now + pairingTtl }
  require (∀ r ∈ db.pairings, r.pairingId ≠ row.pairingId ∧
      r.invitationHash ≠ row.invitationHash ∧
      ¬ (r.workspaceId = workspaceId ∧ r.runnerId = "")) (integrityError "canary_runner_pairings")
  return { db with pairings := db.pairings ++ [row] }

structure ExchangeRequest where
  invitation : String
  publicKey : String
  phrase : String
  runnerVersion : String
  adapters : List (String × String)
  /-- The digest of the exchange, if it is one of the executable protocol. -/
  exchangeDigest : Option String
  deriving DecidableEq, Repr

/-- `exchange`, once the forms of its texts are checked. -/
def exchange (q : ExchangeRequest) (db : AuthDb) : Except Refusal AuthDb := do
  let raw ← found (A.publicKeyOf q.publicKey) ⟨.valueError, "invalid runner public key"⟩
  let row ← found (db.pairings.find? fun r =>
    r.invitationHash = A.hash "invitation" q.invitation) invalidPairing
  require (row.status = .invited ∧ env.now < row.expiresAt) invalidPairing
  let runnerId ← found (env.draws.runnerIds.find? fun candidate =>
    db.runners.all (·.runnerId ≠ candidate) ∧ db.pairings.all (·.runnerId ≠ candidate))
    (authError "runner ID unavailable")
  let db := updatePairing row.pairingId (fun r =>
    { r with
      runnerId := runnerId
      invitationHash := A.hash "consumed-invitation" row.pairingId
      phrase := some q.phrase
      publicKey := some q.publicKey
      fingerprint := some (A.fingerprintOf raw)
      keyId := some (A.keyIdOf raw)
      runnerVersion := q.runnerVersion
      adapters := q.adapters
      challenge := some env.draws.challenge
      status := .pending }) db
  match q.exchangeDigest with
  | none => return db
  | some digest => do
    require (row.pairingId ∉ db.pairingProtocols.map PairingProtocol.pairingId)
      (integrityError "canary_runner_pairing_protocols")
    return { db with pairingProtocols := db.pairingProtocols ++ [⟨row.pairingId, digest⟩] }

def approve (workspaceId pairingId phrase fingerprint actor : String) (db : AuthDb) :
    Except Refusal AuthDb := do
  let row ← found (db.pairings.find? fun r =>
    r.workspaceId = workspaceId ∧ r.pairingId = pairingId) invalidPairing
  require (row.status = .pending ∧ env.now < row.expiresAt ∧ row.phrase = some phrase ∧
    row.fingerprint = some fingerprint) invalidPairing
  return updatePairing pairingId (fun r =>
    { r with status := .approved, approvedAt := some env.now, approvedBy := some actor }) db

/-- The runner, its first key and its identity, as both activations write them. -/
def openRunner (row : Pairing) (maxActive : Option Nat) (db : AuthDb) : Except Refusal AuthDb := do
  require (∀ limit ∈ maxActive, (db.runners.filter fun r =>
    r.workspaceId = row.workspaceId ∧ r.status = .active).length < limit)
    (authError "runner quota exceeded")
  require (∀ r ∈ db.runners, r.runnerId ≠ row.runnerId) (integrityError "canary_runners")
  let publicKey ← found row.publicKey invalidPairing
  let keyId ← found row.keyId invalidPairing
  let fingerprint ← found row.fingerprint invalidPairing
  let pairedBy ← found row.approvedBy invalidPairing
  let pairedAt ← found row.approvedAt invalidPairing
  require (∀ k ∈ db.keys, k.keyId ≠ keyId ∧ k.publicKey ≠ publicKey)
    (integrityError "canary_runner_keys")
  saveIdentity A
    { runnerId := row.runnerId, workspaceId := row.workspaceId, keyId := keyId
      publicKey := publicKey, fingerprint := fingerprint, runnerVersion := row.runnerVersion
      adapterVersions := (row.adapters.map Prod.snd).dedup.insertionSort (· ≤ ·)
      pairedBy := pairedBy, pairedAtMs := milliseconds pairedAt
      lastHeartbeatAtMs := milliseconds env.now }
    { db with
      runners := db.runners ++ [⟨row.runnerId, row.workspaceId, .active⟩]
      keys := db.keys ++
        [⟨⟨row.workspaceId, row.runnerId, keyId⟩, publicKey, .active, env.now, none⟩] }

/-- `activate`, of the pairings without the executable protocol. -/
def activate (pairingId signature : String) (maxActive : Option Nat) (db : AuthDb) :
    Except Refusal AuthDb := do
  let row ← found (db.pairings.find? fun r => r.pairingId = pairingId) invalidPairing
  require (row.status = .approved ∧ env.now < row.expiresAt) invalidPairing
  let signature ← found (A.signatureOf signature) invalidPairing
  let publicKey ← found row.publicKey invalidPairing
  require (provesKey A publicKey "heel.runner-pairing-activate.v1\x00"
    (.obj [("pairing_id", .str pairingId), ("challenge", Json.optional .str row.challenge)])
    signature) invalidPairing
  let db ← openRunner A env row maxActive db
  return updatePairing pairingId (fun r =>
    { r with
      status := .activated, phrase := none, challenge := none, activatedAt := some env.now }) db

structure ActivationRequest where
  clientNonce : String
  signature : String
  deriving DecidableEq, Repr

def ActivationRequest.json (q : ActivationRequest) : Json :=
  .obj [("schema_version", .str "heel.runner-pairing-activate.v3"),
    ("client_activation_nonce_b64", .str q.clientNonce), ("signature_b64", .str q.signature)]

/-- `activate_executable` by a control plane that has its grant authority. -/
def activateExecutable (pairingId : String) (q : ActivationRequest) (maxActive : Option Nat)
    (db : AuthDb) : Except Refusal AuthDb := do
  let row ← found (db.pairings.find? fun r => r.pairingId = pairingId) invalidPairing
  let protocol ← found (db.pairingProtocols.find? fun r => r.pairingId = pairingId) invalidPairing
  let digest := A.requestDigest q.json
  if row.status = .activated then do
    let receipt ← found (db.pairingReceipts.find? fun r => r.pairingId = pairingId) invalidPairing
    require (receipt.requestDigest = digest) invalidPairing
    require (env.now < receipt.expiresAt) (authError "runner activation receipt expired")
    return db
  else do
    require (row.status = .approved ∧ env.now < row.expiresAt) invalidPairing
    let signature ← found (A.signatureOf q.signature) invalidPairing
    let publicKey ← found row.publicKey invalidPairing
    require (provesKey A publicKey "heel.runner-pairing-activate.v3\x00"
      (.obj [("pairing_id", .str pairingId),
        ("activation_challenge", Json.optional .str row.challenge),
        ("pairing_exchange_digest", .str protocol.exchangeDigest),
        ("client_activation_nonce_b64", .str q.clientNonce),
        ("control_protocol", .str "heel.runner-control.v2")]) signature) invalidPairing
    let db ← openRunner A env row maxActive db
    require ((row.workspaceId, row.runnerId) ∉ db.executable)
      (integrityError "canary_runner_execution_protocols")
    let receipts ← insertReceipt db.pairingReceipts
      ⟨pairingId, digest, env.now + receiptRetention⟩
    return updatePairing pairingId (fun r =>
      { r with
        status := .activated, phrase := none, challenge := none, activatedAt := some env.now
        expiresAt := env.now + receiptRetention })
      { db with
        executable := db.executable ++ [(row.workspaceId, row.runnerId)]
        pairingReceipts := receipts }

/-- The request of `abort_executable_pairing_activation`: its first version names the expiry of the
challenge, its second the digest of the challenge. -/
structure PairingAbortRequest where
  runnerId : String
  exchangeDigest : String
  activationRequestDigest : String
  challengeExpiresAtMs : Option Int
  challengeDigest : String
  signature : String
  deriving DecidableEq, Repr

def PairingAbortRequest.core (q : PairingAbortRequest) (pairingId : String) : Json :=
  .obj ([("pairing_id", .str pairingId), ("runner_id", .str q.runnerId),
    ("pairing_exchange_digest", .str q.exchangeDigest),
    ("activation_request_digest", .str q.activationRequestDigest),
    ("reason_code", .str "activation_challenge_expired")] ++
    match q.challengeExpiresAtMs with
    | some at_ => [("schema_version", .str "heel.runner-pairing-activation-abort.v1"),
        ("challenge_expires_at_ms", .int at_)]
    | none => [("schema_version", .str "heel.runner-pairing-activation-abort.v2"),
        ("activation_challenge_digest", .str q.challengeDigest)])

def PairingAbortRequest.domain (q : PairingAbortRequest) : String :=
  if q.challengeExpiresAtMs.isSome then "heel.runner-pairing-activation-abort.v1\x00"
  else "heel.runner-pairing-activation-abort.v2\x00"

/-- Does the request name the challenge of the pairing, by its expiry or by its digest? -/
def PairingAbortRequest.namesChallenge (q : PairingAbortRequest) (row : Pairing) :
    Except Refusal Unit :=
  match q.challengeExpiresAtMs with
  | some at_ => require (truncatedMs row.expiresAt = at_) invalidPairing
  | none => require (row.challenge.bind A.challengeDigest = some q.challengeDigest) invalidPairing

/-- `abort_executable_pairing_activation`, once the forms of its texts are checked. -/
def abortPairingActivation (pairingId : String) (q : PairingAbortRequest) (db : AuthDb) :
    Except Refusal AuthDb := do
  let signature ← found (A.signatureOf q.signature)
    ⟨.valueError, "invalid pairing activation abort"⟩
  let row ← found (db.pairings.find? fun r => r.pairingId = pairingId) invalidPairing
  let protocol ← found (db.pairingProtocols.find? fun r => r.pairingId = pairingId) invalidPairing
  require (row.runnerId = q.runnerId ∧ protocol.exchangeDigest = q.exchangeDigest) invalidPairing
  let publicKey ← found row.publicKey invalidPairing
  require (provesKey A publicKey q.domain (q.core pairingId) signature) invalidPairing
  let digest := A.requestDigest (.arr [q.core pairingId, .str q.signature])
  match db.pairingAborts.find? fun r => r.pairingId = pairingId with
  | some existing => do
    require (existing.requestDigest = digest) invalidPairing
    require (env.now < existing.expiresAt) (authError "runner activation receipt expired")
    return db
  | none => do
    let accepted := db.pairingReceipts.any fun r => r.pairingId = pairingId
    require (¬ (row.status = .activated ∧ accepted))
      (authError "runner_activation_already_accepted")
    q.namesChallenge A row
    require (row.expiresAt ≤ env.now) (authError "runner_activation_not_expired")
    require (row.status = .approved ∧ ¬ accepted) invalidPairing
    let expiry := env.now + receiptRetention
    let receipts ← insertReceipt db.pairingAborts ⟨pairingId, digest, expiry⟩
    return updatePairing pairingId (fun r => if r.status = .approved then
        { r with status := .expired, phrase := none, challenge := none, expiresAt := expiry }
      else r) { db with pairingAborts := receipts }

/-! ### Rotating its key -/

def Rotation.isOpen (r : Rotation) : Bool :=
  r.status ∈ [RotationStatus.rotationPending, .rotationApproved]

structure RotationRequest where
  previousFingerprint : String
  publicKey : String
  phrase : String
  runnerVersion : String
  adapters : List (String × String)
  deriving DecidableEq, Repr

/-- `start_rotation`, once the forms of its texts are checked. -/
def startRotation (workspaceId runnerId : String) (q : RotationRequest) (db : AuthDb) :
    Except Refusal AuthDb := do
  let raw ← found (A.publicKeyOf q.publicKey) ⟨.valueError, "invalid runner public key"⟩
  require (∀ r ∈ db.rotations, ¬ (r.workspaceId = workspaceId ∧ r.runnerId = runnerId ∧ r.isOpen))
    (authError "runner rotation in progress")
  let old ← singleActiveKey workspaceId runnerId db
  let oldRaw ← found (A.publicKeyOf old.publicKey) ⟨.valueError, "invalid public key"⟩
  let identity ← loadIdentity A workspaceId runnerId db
  require (A.fingerprintOf oldRaw = q.previousFingerprint ∧ identity.state = .active ∧
    identity.fingerprint = A.fingerprintOf oldRaw ∧ identity.keyId = old.keyId ∧
    identity.publicKey = old.publicKey) invalidRotation
  require (∀ k ∈ db.keys, ¬ (k.workspaceId = workspaceId ∧ k.runnerId = runnerId ∧
    (k.keyId = A.keyIdOf raw ∨ k.publicKey = q.publicKey))) invalidRotation
  require (¬ env.activeRun) (authError "active canary run blocks rotation")
  let row : Rotation :=
    { pairingId := env.draws.pairingId, workspaceId := workspaceId, runnerId := runnerId
      phrase := some q.phrase, publicKey := q.publicKey, fingerprint := A.fingerprintOf raw
      keyId := A.keyIdOf raw, runnerVersion := q.runnerVersion, adapters := q.adapters
      challenge := some env.draws.challenge, status := .rotationPending, createdAt := env.now
      expiresAt := env.now + pairingTtl, oldKeyId := old.keyId
      oldFingerprint := A.fingerprintOf oldRaw }
  -- the foreign key and the primary key of the table; the index on open rotations is checked above
  require ((∃ r ∈ db.runners, r.workspaceId = workspaceId ∧ r.runnerId = runnerId) ∧
      ∀ r ∈ db.rotations, r.pairingId ≠ row.pairingId) (authError "runner rotation in progress")
  saveIdentity A { identity with state := .rotating } { db with rotations := db.rotations ++ [row] }

def approveRotation (workspaceId pairingId phrase fingerprint actor : String) (db : AuthDb) :
    Except Refusal AuthDb := do
  let row ← found (db.rotations.find? fun r =>
    r.workspaceId = workspaceId ∧ r.pairingId = pairingId) invalidRotation
  require (row.status = .rotationPending ∧ env.now < row.expiresAt ∧ row.phrase = some phrase ∧
    row.fingerprint = fingerprint) invalidRotation
  let _ ← boundRotationOldKey A row db
  updateRotations (fun r => r.pairingId = pairingId) (fun r =>
    { r with status := .rotationApproved, approvedAt := some env.now, approvedBy := some actor }) db

/-- The 20 newest other keys of a runner, in the order of their texts. -/
def previousKeyIds (row : Rotation) (db : AuthDb) : List String :=
  let others := db.keys.filter fun k =>
    k.workspaceId = row.workspaceId ∧ k.runnerId = row.runnerId ∧ k.keyId ≠ row.keyId
  let newest := others.insertionSort fun a b =>
    b.createdAt < a.createdAt ∨ (a.createdAt = b.createdAt ∧ a.keyId ≤ b.keyId)
  ((newest.take 20).map fun k => k.keyId).insertionSort (· ≤ ·)

def activateRotation (pairingId signature : String) (overlapSeconds : Nat) (db : AuthDb) :
    Except Refusal AuthDb := do
  require (1 ≤ overlapSeconds ∧ overlapSeconds ≤ 3600) ⟨.valueError, "invalid key overlap"⟩
  let digest := A.requestDigest (.obj [("schema_version", .str "heel.runner-rotation-activate.v2"),
    ("signature_b64", .str signature)])
  let row ← found (db.rotations.find? fun r => r.pairingId = pairingId) invalidRotation
  if row.status = .rotated then do
    let receipt ← found (db.rotationReceipts.find? fun r => r.pairingId = pairingId) invalidRotation
    require (receipt.requestDigest = digest) invalidRotation
    require (env.now < receipt.expiresAt) (authError "runner activation receipt expired")
    return db
  else do
    require (row.status = .rotationApproved ∧ env.now < row.expiresAt) invalidRotation
    let signature ← found (A.signatureOf signature) invalidRotation
    require (provesKey A row.publicKey "heel.runner-rotation-activate.v2\x00"
      (.obj [("pairing_id", .str pairingId), ("challenge", Json.optional .str row.challenge)])
      signature) invalidRotation
    let old ← boundRotationOldKey A row db
    require (¬ env.rotationBusy) (authError "runner rotation busy")
    let overlapEnds := env.now + overlapSeconds
    let db := updateKeys (fun k => k.toKeyRef = old.toKeyRef ∧ k.status = .active ∧
      k.revokedAt = none) (fun k =>
        { k with status := .verificationOnly, revokedAt := some overlapEnds }) db
    require (∀ k ∈ db.keys, k.keyId ≠ row.keyId ∧ k.publicKey ≠ row.publicKey)
      (integrityError "canary_runner_keys")
    let db := { db with keys := db.keys ++ [⟨⟨row.workspaceId, row.runnerId, row.keyId⟩,
      row.publicKey, .active, env.now, none⟩] }
    let identity ← loadIdentity A row.workspaceId row.runnerId db
    let db ← saveIdentity A
      { identity with
        keyId := row.keyId, publicKey := row.publicKey, fingerprint := row.fingerprint
        runnerVersion := row.runnerVersion
        adapterVersions := (row.adapters.map Prod.snd).dedup.insertionSort (· ≤ ·)
        state := .active, previousKeyIds := previousKeyIds row db
        rotatedAtMs := some (milliseconds env.now)
        overlapEndsAtMs := some (milliseconds overlapEnds) } db
    let expiry := env.now + receiptRetention
    let receipts ← insertReceipt db.rotationReceipts ⟨pairingId, digest, expiry⟩
    updateRotations (fun r => r.pairingId = pairingId) (fun r =>
      { r with
        status := .rotated, challenge := none, activatedAt := some env.now, expiresAt := expiry })
      { db with rotationReceipts := receipts }

structure RotationAbortRequest where
  workspaceId : String
  runnerId : String
  pairingId : String
  oldRunnerKeyId : String
  newRunnerKeyId : String
  activationRequestDigest : String
  activationChallengeDigest : String
  challengeExpiresAtMs : Int
  oldSignature : String
  newSignature : String
  deriving DecidableEq, Repr

/-- The members of the request under its signatures. -/
def RotationAbortRequest.core (q : RotationAbortRequest) : Json :=
  .obj [("schema_version", .str "heel.runner-rotation-activation-abort.v1"),
    ("workspace_id", .str q.workspaceId), ("runner_id", .str q.runnerId),
    ("pairing_id", .str q.pairingId), ("old_runner_key_id", .str q.oldRunnerKeyId),
    ("new_runner_key_id", .str q.newRunnerKeyId),
    ("activation_request_digest", .str q.activationRequestDigest),
    ("activation_challenge_digest", .str q.activationChallengeDigest),
    ("challenge_expires_at_ms", .int q.challengeExpiresAtMs),
    ("reason_code", .str "activation_challenge_expired")]

def invalidAbort : Refusal := ⟨.valueError, "invalid rotation activation abort"⟩

/-- The checks of `abort_rotation_activation` on the texts of its request. -/
def RotationAbortRequest.wellFormed (q : RotationAbortRequest) : Except Refusal Unit := do
  require (∀ digest ∈ [q.activationRequestDigest, q.activationChallengeDigest],
    digest.length = 64 ∧ digest.toList.all Containment.isHexDigit) invalidAbort
  require (0 ≤ q.challengeExpiresAtMs ∧ q.challengeExpiresAtMs ≤ Json.safeInt) invalidAbort
  authIdentifier q.workspaceId "workspace_id"
  authIdentifier q.runnerId "runner_id"
  authIdentifier q.oldRunnerKeyId "old_runner_key_id"
  authIdentifier q.newRunnerKeyId "new_runner_key_id"
  authIdentifier q.pairingId "pairing"

def abortRotationActivation (q : RotationAbortRequest) (db : AuthDb) : Except Refusal AuthDb := do
  q.wellFormed
  let oldSignature ← found (A.signatureOf q.oldSignature) invalidAbort
  let newSignature ← found (A.signatureOf q.newSignature) invalidAbort
  let digest := A.requestDigest (.arr [q.core, .str q.oldSignature, .str q.newSignature])
  let row ← found (db.rotations.find? fun r => r.pairingId = q.pairingId) invalidRotation
  require (row.workspaceId = q.workspaceId ∧ row.runnerId = q.runnerId ∧
    row.keyId = q.newRunnerKeyId ∧ row.oldKeyId = q.oldRunnerKeyId) invalidRotation
  let old ← boundRotationOldKey A row db
  require (provesKey A old.publicKey "heel.runner-rotation-activation-abort.v1.old\x00" q.core
    oldSignature) invalidRotation
  require (provesKey A row.publicKey "heel.runner-rotation-activation-abort.v1.new\x00" q.core
    newSignature) invalidRotation
  match db.rotationAborts.find? fun r => r.pairingId = q.pairingId with
  | some existing => do
    require (existing.requestDigest = digest) invalidRotation
    require (env.now < existing.expiresAt) (authError "runner activation receipt expired")
    return db
  | none => do
    let accepted := db.rotationReceipts.any fun r => r.pairingId = q.pairingId
    require (¬ (row.status = .rotated ∧ accepted)) (authError "runner_activation_already_accepted")
    require (row.challenge.bind A.challengeDigest = some q.activationChallengeDigest)
      invalidRotation
    require (truncatedMs row.expiresAt = q.challengeExpiresAtMs) invalidRotation
    require (row.expiresAt ≤ env.now) (authError "runner_activation_not_expired")
    require (row.status = .rotationApproved ∧ ¬ accepted) invalidRotation
    let expiry := env.now + receiptRetention
    let receipts ← insertReceipt db.rotationAborts ⟨q.pairingId, digest, expiry⟩
    let db := { db with rotationAborts := receipts }
    let identity ← loadIdentity A row.workspaceId row.runnerId db
    require (identity.state = .rotating) invalidRotation
    let db ← saveIdentity A { identity with state := .active } db
    -- the statement empties the phrase, as that of an aborted pairing does
    updateRotations (fun r => r.pairingId = q.pairingId ∧ r.status = .rotationApproved) (fun r =>
      { r with status := .expired, phrase := none, challenge := none, expiresAt := expiry }) db

/-! ### Revocation and requests -/

def revoke (workspaceId runnerId actor reasonCode : String) (db : AuthDb) :
    Except Refusal AuthDb := do
  authIdentifier actor "actor"
  if db.runners.any fun r => r.workspaceId = workspaceId ∧ r.runnerId = runnerId ∧
      r.status = .active then do
    authIdentifier reasonCode "revocation reason"
    let db := { db with runners := Table.update (fun r : Runner =>
      r.workspaceId = workspaceId ∧ r.runnerId = runnerId) (fun r =>
        { r with status := .revoked }) db.runners }
    let db := updateKeys (fun k => k.workspaceId = workspaceId ∧ k.runnerId = runnerId ∧
      k.revokedAt = none) (fun k => { k with status := .revoked, revokedAt := some env.now }) db
    let identity ← loadIdentity A workspaceId runnerId db
    saveIdentity A { identity with
      state := .revoked
      revocation := ⟨some (milliseconds env.now), some actor, some reasonCode⟩ } db
  else return db

structure RunnerRequest where
  workspaceId : String
  runnerId : String
  keyId : String
  chainName : String
  sequence : Int
  generation : Int
  heartbeat : Bool
  deriving DecidableEq, Repr

/-- `authenticate_and_consume` of a request whose proof, nonce and sequence are those the chain
expects: its receipt takes the place of the chain's last one. -/
def consumeRequest (q : RunnerRequest) (db : AuthDb) : Except Refusal AuthDb := do
  let refused := authError "invalid runner authentication"
  require ((q.workspaceId, q.runnerId) ∈ db.executable)
    (authError "runner protocol upgrade required")
  require (∃ k ∈ db.keys, k.toKeyRef = ⟨q.workspaceId, q.runnerId, q.keyId⟩ ∧
    k.status = .active ∧ k.revokedAt = none) refused
  let db ← (if q.heartbeat then do
      let identity ← loadIdentity A q.workspaceId q.runnerId db
      saveIdentity A { identity with lastHeartbeatAtMs := milliseconds env.now } db
    else .ok db)
  let others := db.ledger.filter fun r =>
    ¬ (r.workspaceId = q.workspaceId ∧ r.runnerId = q.runnerId ∧ r.chainName = q.chainName)
  return { db with ledger := others ++ [⟨⟨q.workspaceId, q.runnerId, q.keyId⟩, q.chainName,
    q.sequence, q.generation, env.now + receiptRetention⟩] }

/-- What the other services leave of their tables: every row under a foreign key names a key. -/
def otherServices (references : List (KeyTable × KeyRef)) (db : AuthDb) : Except Refusal AuthDb :=
  do
  require (∀ r ∈ references, r.1.constrained = true → ∃ k ∈ db.keys, k.toKeyRef = r.2)
    (integrityError "canary_runner_keys")
  return { db with references := references }

end Heel.RunnerAuth
