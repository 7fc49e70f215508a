import Mathlib.Data.Rat.Floor
import Heel.Lib.Session
import Heel.Lib.Table

/-! The device authorizations and rotating credentials of `heel/saas/device_auth.py`, statement by
statement. Times are seconds. -/
namespace Heel.Cloud
open Lib

def deviceGrantTtl : ℚ := 10 * 60
def devicePollInterval : Int := 5
def accessTtl : ℚ := 15 * 60
def refreshAbsoluteTtl : ℚ := 30 * 24 * 3600
def refreshIdleTtl : ℚ := 7 * 24 * 3600

inductive DeviceStatus where
  | pending | approved | denied | expired | consumed
  deriving DecidableEq, Repr

/-- A row of `device_authorizations`. -/
structure DeviceAuthorization where
  grantId : String
  deviceCodeHash : String
  userCodeHash : String
  deviceName : String
  deviceChallenge : String
  clientKey : String
  requestedAt : ℚ
  expiresAt : ℚ
  pollInterval : Int
  lastPolledAt : Option ℚ := none
  status : DeviceStatus := .pending
  inspectedBy : Option String := none
  confirmationNonceHash : Option String := none
  confirmationExpiresAt : Option ℚ := none
  approvedUserId : Option String := none
  workspaceId : Option String := none
  approvedAt : Option ℚ := none
  consumedAt : Option ℚ := none
  deriving DecidableEq, Repr

/-- A row of `device_credentials`. -/
structure DeviceCredential where
  deviceId : String
  familyId : String
  userId : String
  workspaceId : String
  createdAt : ℚ
  refreshAbsoluteExpiresAt : ℚ
  lastRefreshedAt : ℚ
  revokedAt : Option ℚ := none
  deriving DecidableEq, Repr

/-- A row of `device_access_tokens`. -/
structure AccessToken where
  tokenHash : String
  deviceId : String
  issuedAt : ℚ
  expiresAt : ℚ
  revokedAt : Option ℚ := none
  deriving DecidableEq, Repr

/-- A row of `device_refresh_tokens`. -/
structure RefreshToken where
  tokenHash : String
  deviceId : String
  familyId : String
  issuedAt : ℚ
  absoluteExpiresAt : ℚ
  idleExpiresAt : ℚ
  consumedAt : Option ℚ := none
  deriving DecidableEq, Repr

structure DeviceDb where
  authorizations : List DeviceAuthorization := []
  credentials : List DeviceCredential := []
  access : List AccessToken := []
  refresh : List RefreshToken := []
  deriving DecidableEq, Repr

inductive DeviceError where
  | valueError (reason : String)
  | permissionError (reason : String)
  | runtimeError (reason : String)
  | rateLimited
  | slowDown (interval : Int)
  | pending
  | denied
  | expired (reason : String)
  | reuseDetected
  | integrityError
  deriving DecidableEq, Repr

/-- The digests of the store, and whether a text is its own `strip`. -/
structure DeviceKeys where
  /-- `_hash`: a domain and a text. -/
  hash : String → String → String
  /-- The challenge of a verifier: its digest, in base 64. -/
  challengeOf : String → String
  /-- What `inspect` shows of a grant and its challenge. -/
  fingerprint : String → String → String
  stripped : String → Bool

structure DeviceDraws where
  /-- for every try of `start`: the grant, the device code and the user code -/
  starts : List (String × String × String) := []
  nonce : String := ""
  deviceId : String := ""
  familyId : String := ""
  accessToken : String := ""
  refreshToken : String := ""
  deriving DecidableEq, Repr

def urlSafe (c : Char) : Bool := c.isAlphanum || c = '_' || c = '-'

/-- A prefix and so many characters of the URL-safe alphabet. -/
def hasForm (start : String) (length : Nat) (s : String) : Bool :=
  let body := s.toList.drop start.toList.length
  s.toList.take start.toList.length = start.toList ∧ body.length = length ∧ body.all urlSafe

def crockford : List Char := "0123456789ABCDEFGHJKMNPQRSTVWXYZ".toList

def isUserCode (s : String) : Bool :=
  let l := s.toList
  l.length = 9 ∧ l[4]? = some '-' ∧ (l.take 4 ++ l.drop 5).all (crockford.contains ·)

def validDeviceName (K : DeviceKeys) (name : String) : Bool :=
  1 ≤ name.length ∧ name.length ≤ 64 ∧ K.stripped name ∧
    name.toList.all fun c => 32 ≤ c.toNat ∧ c.toNat ≠ 127

abbrev DeviceSession := Session DeviceDb DeviceError

variable (K : DeviceKeys) (fresh : DeviceDraws) (now : ℚ)

def DeviceDb.authorization (db : DeviceDb) (deviceCode : String) : Option DeviceAuthorization :=
  if hasForm "heel_dev_" 43 deviceCode then
    db.authorizations.find? fun a => a.deviceCodeHash = K.hash "device-code" deviceCode
  else none

def DeviceDb.byUserCode (db : DeviceDb) (userCode : String) : Option DeviceAuthorization :=
  db.authorizations.find? fun a => a.userCodeHash = K.hash "user-code" userCode

def proofMatches (row : DeviceAuthorization) (verifier : String) : Bool :=
  hasForm "heel_dv_" 43 verifier ∧ K.challengeOf verifier = row.deviceChallenge

def updateGrant (grantId : String) (f : DeviceAuthorization → DeviceAuthorization) (db : DeviceDb) :
    DeviceDb :=
  { db with authorizations :=
      Table.update (fun a : DeviceAuthorization => a.grantId = grantId) f db.authorizations }

structure StartRequest where
  deviceName : String
  deviceChallenge : String
  clientKey : String
  deriving DecidableEq, Repr

def newAuthorization (q : StartRequest) (draw : String × String × String) :
    DeviceAuthorization where
  grantId := draw.1
  deviceCodeHash := K.hash "device-code" draw.2.1
  userCodeHash := K.hash "user-code" draw.2.2
  deviceName := q.deviceName
  deviceChallenge := q.deviceChallenge
  clientKey := q.clientKey
  requestedAt := now
  expiresAt := now + deviceGrantTtl
  pollInterval := devicePollInterval

/-- The keys of `device_authorizations`. -/
def authorizationClash (a : DeviceAuthorization) (db : DeviceDb) : Bool :=
  db.authorizations.any fun b =>
    b.grantId = a.grantId ∨ b.deviceCodeHash = a.deviceCodeHash ∨ b.userCodeHash = a.userCodeHash

structure DeviceStart where
  deviceCode : String
  userCode : String
  expiresIn : ℚ := deviceGrantTtl
  interval : Int := devicePollInterval
  deriving DecidableEq, Repr

/-- The limits of `start` on recent and on active requests. -/
def startAllowed (q : StartRequest) (db : DeviceDb) : Bool :=
  let recent := db.authorizations.filter fun a =>
    a.clientKey = q.clientKey ∧ now - 600 < a.requestedAt
  let active := db.authorizations.filter fun a =>
    a.clientKey = q.clientKey ∧ a.deviceChallenge = q.deviceChallenge ∧ a.status = .pending ∧
      now < a.expiresAt
  recent.length < 10 ∧ active.length < 3

/-- A client key is 64 lower-case hexadecimal digits. -/
def isClientKey (s : String) : Bool :=
  s.length = 64 ∧ s.toList.all fun c => c.isDigit ∨ ('a' ≤ c ∧ c ≤ 'f')

/-- One try of `start`, up to the first insert. -/
def startOnce (q : StartRequest) (draw : String × String × String) : DeviceSession DeviceStart :=
  Session.transaction (do
    let allowed ← Session.read (startAllowed now q)
    Session.demand allowed .rateLimited
    let row := newAuthorization K now q draw
    Session.insert (authorizationClash row) .integrityError
      (fun db => { db with authorizations := db.authorizations ++ [row] })
    Session.commit
    return { deviceCode := draw.2.1, userCode := draw.2.2 })

/-- `start` tries again when a code is taken. -/
def startTries (q : StartRequest) : List (String × String × String) → DeviceSession DeviceStart
  | [] => Session.raise (.runtimeError "could not allocate a unique device authorization")
  | draw :: rest => fun c =>
    match startOnce K now q draw c with
    | (c, .error .integrityError) => startTries q rest c
    | r => r

/-- `start`. -/
def startDevice (q : StartRequest) : DeviceSession DeviceStart := do
  Session.demand (validDeviceName K q.deviceName) (.valueError "invalid device name")
  Session.demand (hasForm "" 43 q.deviceChallenge) (.valueError "invalid device proof")
  Session.demand (isClientKey q.clientKey) (.valueError "invalid device client key")
  startTries K now q fresh.starts

structure DevicePoll where
  status : DeviceStatus
  interval : Int
  expiresIn : Option Int
  deriving DecidableEq, Repr

/-- `poll`. -/
def pollDevice (deviceCode verifier : String) : DeviceSession DevicePoll := do
  let found ← Session.read fun db : DeviceDb =>
    (db.authorization K deviceCode).filter fun row => proofMatches K row verifier
  match found with
  | none => Session.raise (.permissionError "invalid device authorization")
  | some row =>
    if row.expiresAt < now then do
      Session.write (updateGrant row.grantId fun a => { a with status := .expired })
      Session.commit
      return ⟨.expired, row.pollInterval, none⟩
    else if row.lastPolledAt.any (now - · < row.pollInterval) then do
      let interval := min 30 (row.pollInterval + 5)
      Session.write (updateGrant row.grantId fun a =>
        { a with pollInterval := interval, lastPolledAt := some now })
      Session.commit
      Session.raise (.slowDown interval)
    else do
      Session.write (updateGrant row.grantId fun a => { a with lastPolledAt := some now })
      Session.commit
      return ⟨if row.status = .consumed then .approved else row.status, row.pollInterval,
        if row.status = .pending then some (max 0 ⌊row.expiresAt - now⌋) else none⟩

structure DeviceClaim where
  deviceName : String
  deviceFingerprint : String
  confirmationNonce : String
  expiresIn : Int
  deriving DecidableEq, Repr

/-- `inspect`. -/
def inspectDevice (userCode userId : String) : DeviceSession DeviceClaim := do
  Session.demand (isUserCode userCode) (.permissionError "invalid device authorization")
  let found ← Session.read fun db : DeviceDb =>
    (db.byUserCode K userCode).filter fun row => row.status = .pending
  match found with
  | none => Session.raise (.permissionError "invalid device authorization")
  | some row =>
    if row.expiresAt < now then do
      Session.write (updateGrant row.grantId fun a => { a with status := .expired })
      Session.commit
      Session.raise (.expired "device authorization expired")
    else do
      Session.write (updateGrant row.grantId fun a => { a with
        inspectedBy := some userId
        confirmationNonceHash := some (K.hash "confirmation-nonce" fresh.nonce)
        confirmationExpiresAt := some (min row.expiresAt (now + 300)) })
      Session.commit
      return ⟨row.deviceName, K.fingerprint row.grantId row.deviceChallenge, fresh.nonce,
        max 0 ⌊row.expiresAt - now⌋⟩

structure DeviceDecision where
  userCode : String
  nonce : String
  userId : String
  action : String
  workspaceId : Option String
  deriving DecidableEq, Repr

def DeviceDecision.wellFormed (d : DeviceDecision) : Bool :=
  isUserCode d.userCode ∧ "heel_dcn_".toList <+: d.nonce.toList ∧
    d.action ∈ ["approve", "deny"] ∧
    ¬ (d.action = "approve" ∧ d.workspaceId.all (· = "") = true) ∧
    ¬ (d.action = "deny" ∧ d.workspaceId.isSome = true)

/-- A decision that is well formed approves exactly if it names a workspace. -/
theorem DeviceDecision.approves_iff {d : DeviceDecision} (h : d.wellFormed = true) :
    d.action = "approve" ↔ d.workspaceId.isSome = true := by
  simp only [wellFormed, decide_eq_true_eq] at h
  obtain ⟨-, -, haction, hworkspace, hnone⟩ := h
  constructor
  · intro happrove
    cases hw : d.workspaceId with
    | none => simp [happrove, hw] at hworkspace
    | some workspaceId => rfl
  · intro hsome
    simp only [List.mem_cons, List.not_mem_nil, or_false] at haction
    exact haction.resolve_right fun hdeny => hnone ⟨hdeny, hsome⟩

def decidable (d : DeviceDecision) (row : DeviceAuthorization) : Bool :=
  row.status = .pending ∧ row.inspectedBy = some d.userId ∧
    row.confirmationNonceHash = some (K.hash "confirmation-nonce" d.nonce) ∧
    row.confirmationExpiresAt.any (now ≤ ·) ∧ now ≤ row.expiresAt

/-- `decide`. -/
def decideDevice (d : DeviceDecision) : DeviceSession Unit := do
  Session.demand d.wellFormed (.permissionError "invalid device authorization decision")
  Session.transaction (do
    let found ← Session.read fun db : DeviceDb =>
      (db.byUserCode K d.userCode).filter fun row => decidable K now d row
    match found with
    | none => Session.raise (.permissionError "invalid device authorization decision")
    | some row => do
      Session.write (updateGrant row.grantId fun a => { a with
        status := if d.action = "approve" then .approved else .denied
        confirmationNonceHash := none
        confirmationExpiresAt := none
        approvedUserId := some d.userId
        workspaceId := d.workspaceId
        approvedAt := if d.action = "approve" then some now else none })
      Session.commit)

structure DeviceTokens where
  accessToken : String
  expiresIn : ℚ := accessTtl
  refreshToken : String
  refreshExpiresIn : Int
  deviceId : String
  workspaceId : String
  capabilities : List String := ["sync_findings", "view_synced_reviews"]
  deriving DecidableEq, Repr

def mintPair (deviceId workspaceId : String) (absoluteExpiresAt : ℚ) : DeviceSession DeviceTokens :=
  do
  let found ← Session.read fun db : DeviceDb =>
    db.credentials.find? fun c => c.deviceId = deviceId
  match found with
  | none => Session.raise (.runtimeError "device credential disappeared")
  | some credential => do
    let accessHash := K.hash "access-token" fresh.accessToken
    let refreshHash := K.hash "refresh-token" fresh.refreshToken
    Session.insert (fun db => db.access.any fun a => a.tokenHash = accessHash) .integrityError
      (fun db => { db with access := db.access ++
      [⟨accessHash, deviceId, now, now + accessTtl, none⟩] })
    Session.insert (fun db => db.refresh.any fun r => r.tokenHash = refreshHash) .integrityError
      (fun db => { db with refresh := db.refresh ++
        [⟨refreshHash, deviceId, credential.familyId, now,
        absoluteExpiresAt, min absoluteExpiresAt (now + refreshIdleTtl), none⟩] })
    return {
      accessToken := fresh.accessToken, refreshToken := fresh.refreshToken
      refreshExpiresIn := max 0 ⌊absoluteExpiresAt - now⌋
      deviceId := deviceId, workspaceId := workspaceId }

/-- The exception of `exchange` for an authorization that is not approved. -/
def exchangeRefusal (row : DeviceAuthorization) : Option DeviceError :=
  if row.expiresAt < now ∨ row.status = .expired then some (.expired "device authorization expired")
  else match row.status with
    | .pending => some .pending
    | .denied => some .denied
    | .approved => none
    | _ => some (.permissionError "device authorization already consumed")

/-- The body of `exchange` up to its commit. -/
def exchangeBody (deviceCode verifier : String) : DeviceSession DeviceTokens := do
  let found ← Session.read fun db : DeviceDb =>
    (db.authorization K deviceCode).filter fun row => proofMatches K row verifier
  match found with
  | none => Session.raise (.permissionError "invalid device authorization")
  | some row =>
    match exchangeRefusal now row with
    | some e => Session.raise e
    | none =>
      -- both columns are `NOT NULL` in `device_credentials`
      match row.approvedUserId, row.workspaceId with
      | some userId, some workspaceId => do
        Session.insert (fun db => db.credentials.any fun c =>
            c.deviceId = fresh.deviceId ∨ c.familyId = fresh.familyId) .integrityError
          (fun db => { db with credentials := db.credentials ++ [⟨fresh.deviceId, fresh.familyId,
            userId, workspaceId, now, now + refreshAbsoluteTtl, now, none⟩] })
        let tokens ← mintPair K fresh now fresh.deviceId workspaceId (now + refreshAbsoluteTtl)
        Session.write (updateGrant row.grantId fun a =>
          { a with status := .consumed, consumedAt := some now })
        return tokens
      | _, _ => Session.raise .integrityError

/-- `exchange`. -/
def exchangeDevice (deviceCode verifier : String) : DeviceSession DeviceTokens :=
  Session.transaction (do
    let tokens ← exchangeBody K fresh now deviceCode verifier
    Session.commit
    return tokens)

structure DevicePrincipal where
  deviceId : String
  userId : String
  workspaceId : String
  deriving DecidableEq, Repr

/-- The credential an access token stands for, while it does. -/
def DeviceDb.liveAccess (db : DeviceDb) (accessToken : String) : Option DeviceCredential :=
  if hasForm "heel_at_" 43 accessToken then
    (db.access.find? fun a => a.tokenHash = K.hash "access-token" accessToken).bind fun a =>
      (db.credentials.find? fun c => c.deviceId = a.deviceId).filter fun c =>
        c.revokedAt = none ∧ a.revokedAt = none ∧ now ≤ a.expiresAt
  else none

def resolveAccess (accessToken : String) : DeviceSession (Option DevicePrincipal) :=
  Session.read fun db => (db.liveAccess K now accessToken).map fun c =>
    ⟨c.deviceId, c.userId, c.workspaceId⟩

def DeviceDb.devicesOf (db : DeviceDb) (familyId : String) : List String :=
  (db.credentials.filter fun c => c.familyId = familyId).map (·.deviceId)

def revokeFamily (familyId : String) (db : DeviceDb) : DeviceDb :=
  let credentials := Table.update (fun c : DeviceCredential => c.familyId = familyId)
    (fun c => { c with revokedAt := c.revokedAt.or (some now) }) db.credentials
  let devices := ({ db with credentials := credentials } : DeviceDb).devicesOf familyId
  { db with
    credentials := credentials
    access := Table.update (fun a : AccessToken => a.deviceId ∈ devices)
      (fun a => { a with revokedAt := a.revokedAt.or (some now) }) db.access }

/-- The row of a refresh token, joined with its credential. -/
def DeviceDb.refreshRow (db : DeviceDb) (refreshToken : String) :
    Option (RefreshToken × DeviceCredential) :=
  (db.refresh.find? fun r => r.tokenHash = K.hash "refresh-token" refreshToken).bind fun r =>
    (db.credentials.find? fun c => c.deviceId = r.deviceId).map fun c => (r, c)

/-- The writes of `refresh` before it mints. -/
def rotateRefresh (row : RefreshToken) (db : DeviceDb) : DeviceDb :=
  { db with
    refresh := Table.update (fun r : RefreshToken => r.tokenHash = row.tokenHash)
      (fun r => { r with consumedAt := some now }) db.refresh
    access := Table.update (fun a : AccessToken => a.deviceId = row.deviceId)
      (fun a => { a with revokedAt := a.revokedAt.or (some now) }) db.access
    credentials := Table.update (fun c : DeviceCredential => c.deviceId = row.deviceId)
      (fun c => { c with lastRefreshedAt := now }) db.credentials }

/-- Is the family at its end: revoked, or its token out of time? -/
def refreshEnded (row : RefreshToken) (credential : DeviceCredential) : Bool :=
  credential.revokedAt ≠ none ∨ row.absoluteExpiresAt < now ∨ row.idleExpiresAt < now

/-- `refresh`. -/
def refreshDevice (refreshToken : String) : DeviceSession DeviceTokens := do
  Session.demand (hasForm "heel_rt_" 64 refreshToken) (.permissionError "invalid refresh token")
  Session.guarded (· = .reuseDetected) (do
    let found ← Session.read fun db : DeviceDb => db.refreshRow K refreshToken
    match found with
    | none => Session.raise (.permissionError "invalid refresh token")
    | some (row, credential) =>
      if row.consumedAt ≠ none then do
        Session.write (revokeFamily now row.familyId)
        Session.commit
        Session.raise .reuseDetected
      else if refreshEnded now row credential then do
        Session.write (revokeFamily now row.familyId)
        Session.commit
        Session.raise (.permissionError "invalid refresh token")
      else do
        Session.write (rotateRefresh now row)
        let tokens ← mintPair K fresh now row.deviceId credential.workspaceId row.absoluteExpiresAt
        Session.commit
        return tokens)

/-- `revoke`. -/
def revokeDevice (refreshToken : String) : DeviceSession Unit :=
  if hasForm "heel_rt_" 64 refreshToken then do
    let found ← Session.read fun db : DeviceDb =>
      db.refresh.find? fun r => r.tokenHash = K.hash "refresh-token" refreshToken
    match found with
    | none => return
    | some row => do
      Session.write (revokeFamily now row.familyId)
      Session.commit
  else return

end Heel.Cloud
