import Heel.Contracts.ReviewContract
import Heel.Lib.Table
import Heel.Lib.Transition
import Mathlib.Data.List.Dedup
import Mathlib.Data.List.Infix

/-! The legacy `TargetVerifier` of `heel/saas/verification.py`: what `start`, the steps of `check`,
`is_verified` and `revoke` read, write and answer, and every interleaving of them. Times are
seconds. -/
namespace Heel.TargetVerification
open Lib Lib.JsonText Lib.Checks

def challengeTtl : ℚ := 24 * 3600
def reverifyAfter : ℚ := 30 * 24 * 3600

inductive Method where
  | dnsTxt
  | httpFile
  deriving DecidableEq, Repr

/-- A row of `verified_targets`; `challenge` counts the starts up to the one that wrote the token,
and no statement reads it. -/
structure Target where
  targetId : String
  workspaceId : String
  hostname : Text
  method : Option Method := none
  token : Text
  createdAt : ℚ
  verifiedAt : Option ℚ := none
  revokedAt : Option ℚ := none
  challenge : ℕ
  deriving DecidableEq, Repr

def Target.pair (r : Target) : String × Text := (r.workspaceId, r.hostname)

structure Challenge where
  targetId : String
  hostname : Text
  token : Text
  dnsRecord : Text
  httpUrl : Text
  deriving DecidableEq, Repr

inductive Fault where
  | valueError
  | integrityError
  | targetLimitExceeded (maxVerified : ℤ)
  | hostnameReuseExceeded (hostname : Text) (others : ℕ)
  deriving DecidableEq, Repr

/-- What a deployment fixes: `str.lower`, which goes by tables, and the cap on a hostname. -/
structure TargetVerifier where
  lower : Text → Text
  maxWorkspacesPerHostname : ℤ := 3

variable (V : TargetVerifier)

def period : ℕ := '.'.toNat

def isLower (c : ℕ) : Bool := 'a'.toNat ≤ c && c ≤ 'z'.toNat
def isLowerAlnum (c : ℕ) : Bool := isLower c || ('0'.toNat ≤ c && c ≤ '9'.toNat)

/-- `hostname.strip().lower().rstrip(".")`. -/
def normalHostname (hostname : Text) : Text :=
  ((V.lower (strip hostname)).reverse.dropWhile (· = period)).reverse

def isLabel (s : Text) : Bool :=
  decide (s.length ≤ 63) && s.head?.any isLowerAlnum && s.getLast?.any isLowerAlnum &&
    s.all fun c => isLowerAlnum c || c = '-'.toNat

/-- `_HOST_RE`, whose end may have a newline after it. -/
def isHostname (s : Text) : Bool :=
  let body := if s.getLast? = some 0x0a then s.dropLast else s
  let labels := body.splitOn period
  decide (body.length ≤ 253) && decide (2 ≤ labels.length) && labels.dropLast.all isLabel &&
    labels.getLast?.any fun top => decide (2 ≤ top.length) && decide (top.length ≤ 63) &&
      top.all isLower

def privateSuffixes : List Text := [".local", ".internal", ".localhost"].map points

/-- `valid_hostname`; a hostname that the pattern admits is no number and no `localhost`. -/
def validHostname (hostname : Text) : Bool :=
  let h := normalHostname V hostname
  isHostname h && !privateSuffixes.any fun suffix => suffix.isSuffixOf h

def dnsName (h : Text) : Text := points "_heel." ++ h
def httpUrl (h : Text) : Text := points "https://" ++ h ++ points "/.well-known/heel-verify.txt"
def proofText (token : Text) : Text := points "heel-verify=" ++ token

def row (workspaceId : String) (hostname : Text) (rows : List Target) : Option Target :=
  rows.find? fun r => r.pair = (workspaceId, normalHostname V hostname)

/-- What `secrets` draws for a start. -/
structure Draws where
  token : Text
  targetId : String
  deriving DecidableEq, Repr

/-- `start`, the `number`-th that writes. -/
def start (workspaceId : String) (hostname : Text) (draws : Draws) (now : ℚ) (number : ℕ)
    (rows : List Target) : Except Fault (List Target × Challenge) := do
  let h := normalHostname V hostname
  require (validHostname V h) Fault.valueError
  require (∀ r ∈ rows, r.targetId ≠ draws.targetId) Fault.integrityError
  let new : Target :=
    { targetId := draws.targetId
      workspaceId := workspaceId
      hostname := h
      token := draws.token
      createdAt := now
      challenge := number }
  let rows := Table.upsert (fun r => r.pair = (workspaceId, h))
    (fun r => { r with
      method := none, token := draws.token, createdAt := now, verifiedAt := none,
      revokedAt := none, challenge := number }) new rows
  let targetId := ((rows.find? fun r => r.pair = (workspaceId, h)).map (·.targetId)).getD
    draws.targetId
  return (rows,
    { targetId := targetId
      hostname := h
      token := draws.token
      dnsRecord := dnsName h ++ points " TXT \"" ++ proofText draws.token ++ points "\""
      httpUrl := httpUrl h })

def revoke (workspaceId : String) (hostname : Text) (now : ℚ) (rows : List Target) : List Target :=
  Table.update (fun r => r.pair = (workspaceId, normalHostname V hostname))
    (fun r => { r with revokedAt := some now }) rows

/-- A time as a condition: neither `NULL` nor zero. -/
def truthy (time : Option ℚ) : Bool := time.any (· ≠ 0)

/-- What `is_verified` asks of the row it reads. -/
def Target.verified (now : ℚ) (r : Target) : Bool :=
  !truthy r.revokedAt && r.verifiedAt.any fun v => v ≠ 0 && decide (now - v ≤ reverifyAfter)

def isVerified (workspaceId : String) (hostname : Text) (now : ℚ) (rows : List Target) : Bool :=
  (row V workspaceId hostname rows).any (·.verified now)

/-- The row that `check` goes on with, if it does. -/
def snapshot (workspaceId : String) (hostname : Text) (now : ℚ) (rows : List Target) :
    Option Target :=
  (row V workspaceId hostname rows).filter fun r =>
    !truthy r.revokedAt && !(decide (challengeTtl < now - r.createdAt) && !truthy r.verifiedAt)

/-- What the injected resolvers answer at one time: `none` where one is missing, and within it
`none` where it raises. -/
structure Network where
  dnsTxt : Option (Text → Option (List Text))
  httpGet : Option (Text → Option Text)

def Network.dnsShows (net : Network) (h token : Text) : Bool :=
  net.dnsTxt.any fun dnsTxt => (dnsTxt (dnsName h)).any fun records =>
    records.any fun r => decide (proofText token <:+: r)

def Network.httpShows (net : Network) (h token : Text) : Bool :=
  net.httpGet.any fun httpGet => (httpGet (httpUrl h)).any fun body => decide (token <:+: body)

/-- A proof that contains the token is there. -/
def Network.shows (net : Network) (h token : Text) : Bool :=
  net.dnsShows h token || net.httpShows h token

/-- The method by which the network proves the challenge of a row. -/
def observe (net : Network) (r : Target) : Option Method :=
  if net.dnsShows r.hostname r.token then some .dnsTxt
  else if net.httpShows r.hostname r.token then some .httpFile
  else none

def verifiedCount (workspaceId : String) (now : ℚ) (rows : List Target) : ℕ :=
  (rows.filter fun r => r.workspaceId = workspaceId && r.revokedAt = none &&
    r.verifiedAt.any fun v => decide (now - reverifyAfter < v)).length

/-- The other workspaces in which a hostname is verified. -/
def otherWorkspaces (h : Text) (workspaceId : String) (now : ℚ) (rows : List Target) :
    List String :=
  ((rows.filter fun r => r.hostname = h && r.workspaceId ≠ workspaceId && r.revokedAt = none &&
    r.verifiedAt.any fun v => decide (now - reverifyAfter < v)).map (·.workspaceId)).dedup

/-- The readings of the clock within the transaction that writes, in the order of the source. -/
structure Clock where
  fresh : ℚ
  count : ℚ
  others : ℚ
  write : ℚ

/-- The readings follow one another, none before `now`. -/
def Clock.Follows (clock : Clock) (now : ℚ) : Prop :=
  now ≤ clock.fresh ∧ clock.fresh ≤ clock.count ∧ clock.count ≤ clock.others ∧
    clock.others ≤ clock.write

instance (clock : Clock) (now : ℚ) : Decidable (clock.Follows now) :=
  inferInstanceAs (Decidable (_ ∧ _))

/-- A call of `check` that has read its row, with the method of its proof once it has one. -/
structure Check where
  workspaceId : String
  maxVerified : Option ℤ
  row : Target
  method : Option Method := none

/-- Is the target of the call verified already? -/
def alreadyVerified (c : Check) (now : ℚ) (rows : List Target) : Bool :=
  (rows.find? fun r => r.targetId = c.row.targetId).any fun fresh =>
    truthy fresh.verifiedAt && fresh.verifiedAt.any fun v => decide (now - v ≤ reverifyAfter)

/-- The transaction that writes `verified_at`. -/
def recordProof (c : Check) (method : Method) (clock : Clock) (rows : List Target) :
    Except Fault (List Target) := do
  let already := alreadyVerified c clock.fresh rows
  let exceeded (maxVerified : ℤ) : Bool :=
    !already && decide (maxVerified ≤ verifiedCount c.workspaceId clock.count rows)
  require (c.maxVerified.all fun m => !exceeded m)
    (Fault.targetLimitExceeded (c.maxVerified.getD 0))
  let others := (otherWorkspaces c.row.hostname c.workspaceId clock.others rows).length
  require (already ∨ V.maxWorkspacesPerHostname < 0 ∨ others < V.maxWorkspacesPerHostname)
    (Fault.hostnameReuseExceeded c.row.hostname others)
  return Table.update (fun r => r.targetId = c.row.targetId)
    (fun r => { r with verifiedAt := some clock.write, method := some method }) rows

/-- The answers of the network that a check has seen, and the starts that had written by then. -/
structure Observation where
  starts : ℕ
  network : Network

structure State where
  now : ℚ
  rows : List Target := []
  checks : List Check := []
  starts : ℕ := 0
  observed : List Observation := []

/-- A step of some caller, or of the clock, which may go back; a check is named by its place among
those that are under way. -/
inductive Action where
  | tick (elapsed : ℚ)
  | start (workspaceId : String) (hostname : Text) (draws : Draws)
  | snapshot (workspaceId : String) (hostname : Text) (maxVerified : Option ℤ)
  | observe (i : ℕ) (network : Network)
  | write (i : ℕ) (clock : Clock)
  | revoke (workspaceId : String) (hostname : Text)

def State.observe (s : State) (i : ℕ) (c : Check) (network : Network) : State :=
  { s with
    observed := ⟨s.starts, network⟩ :: s.observed
    checks := match TargetVerification.observe network c.row with
      | some method => s.checks.set i { c with method := some method }
      | none => s.checks.eraseIdx i }

def State.write (s : State) (i : ℕ) (c : Check) (method : Method) (clock : Clock) : State :=
  { s with
    now := clock.write
    checks := s.checks.eraseIdx i
    rows := match recordProof V c method clock s.rows with
      | .ok rows => rows
      | .error _ => s.rows }

def next (s : State) : Action → Option State
  | .tick elapsed => some { s with now := s.now + elapsed }
  | .start workspaceId hostname draws =>
    match TargetVerification.start V workspaceId hostname draws s.now (s.starts + 1) s.rows with
    | .ok (rows, _) => some { s with rows := rows, starts := s.starts + 1 }
    | .error _ => some s
  | .snapshot workspaceId hostname maxVerified =>
    match TargetVerification.snapshot V workspaceId hostname s.now s.rows with
    | some r => some { s with checks := s.checks ++ [⟨workspaceId, maxVerified, r, none⟩] }
    | none => some s
  | .observe i network =>
    match s.checks[i]? with
    | some c => if c.method = none then some (s.observe i c network) else none
    | none => none
  | .write i clock =>
    match s.checks[i]? with
    | some c => c.method.map fun method => s.write V i c method clock
    | none => none
  | .revoke workspaceId hostname =>
    some { s with rows := TargetVerification.revoke V workspaceId hostname s.now s.rows }

/-- Every interleaving, from an empty table and any time after the epoch. -/
def verifying : Transition State Action where
  init s := 0 < s.now ∧ s = { now := s.now }
  step s a t := next V s a = some t

end Heel.TargetVerification
