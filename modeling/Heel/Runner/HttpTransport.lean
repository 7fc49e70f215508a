import Heel.Contracts.OperationalRun
import Heel.Runner.Adapters
import Mathlib.Data.Rat.Defs
import Mathlib.Algebra.Order.Ring.Rat

/-! `TargetHTTPSClient.request` of `http_transport.py`: what is checked before the first attempt,
and the loop over the attempts. What the loop meets, turn by turn, is an environment: the readings
of the clock and of the stop token, the answers of `before_attempt`, and what an attempt
comes to. -/
namespace Heel.Transport
open Lib Lib.JsonText Lib.Checks Routes

structure TransportFailure where
  code : FailureCode
  requestsMade : ℕ := 0
  deriving DecidableEq, Repr

/-- An exception: a failure of the transport, or any other. -/
inductive Raised where
  | failure (f : TransportFailure)
  | other
  deriving DecidableEq, Repr

def visible (c : ℕ) : Bool := 0x21 ≤ c && c ≤ 0x7e

def validRoute (action : PreparedAction) : Except TransportFailure Text := do
  let invalid : TransportFailure := { code := .invalidRoute }
  require (["GET", "HEAD"].contains action.method) invalid
  match adapterOf action.scenarioId with
  | none => .error invalid
  | some adapter =>
    require (action.adapterVersion = adapter.adapterVersion &&
      adapter.allowedMethods.contains action.method &&
      adapter.semanticRoles.contains action.semanticAuthRole &&
      action.sideEffectClass = "read_only" &&
      !(action.semanticAuthRole = "anonymous" && action.authProfile ≠ "anonymous") &&
      !(action.semanticAuthRole ≠ "anonymous" &&
        !(["bearer", "cookie_jar", "x_api_key"].contains action.authProfile))) invalid
    let route := action.route
    require (route.all fun c => c < 0x80) invalid
    require (route ≠ [] && route.length ≤ 2048 && route.head? = some slash &&
      !decide ([slash, slash] <+: route) && !route.any (points "%\\?#\x7b\x7d").contains &&
      !hasDoubleSlash route && !(segments route).tail.any dotSegments.contains &&
      !route.any fun c => c < 0x21 || c = 0x7f) invalid
    return route

/-- The characters that `re.escape` escapes. -/
def regexSpecial : Text := points "()[]\x7b\x7d?*+-|^$\\.&~# \t\n\r\x0b\x0c"

def escape (s : Text) : Text :=
  s.flatMap fun c => if regexSpecial.contains c then [backslash, c] else [c]

def segmentClass : Text := points "[^/]+"

/-- A pattern text of literals, escaped literals and `[^/]+`. -/
def compile : Text → Option (Pattern ℕ)
  | [] => some .empty
  | c :: r =>
    if c = backslash then
      match r with
      | [] => none
      | e :: r =>
        if regexSpecial.contains e then (compile r).map fun a =>
          .seq (.one fun d => d = e) a else none
    else if c = openBracket then
      match r with
      | 0x5e :: 0x2f :: 0x5d :: 0x2b :: r =>
        (compile r).map fun a => .seq (.plus fun d => d ≠ slash) a
      | _ => none
    else if regexSpecial.contains c then none
    else (compile r).map fun a => .seq (.one fun d => d = c) a

/-- The pattern text that a template becomes. -/
def evidencePattern (template : Text) : Text :=
  let unescaped := replaceAll [backslash, closeBrace] [closeBrace]
    (replaceAll [backslash, openBrace] [openBrace] (escape template))
  (tokens 0 unescaped).flatMap fun
    | .char c => [c]
    | .hole _ => segmentClass

def matchesEvidenceTemplate (route template : Text) : Bool :=
  match compile (evidencePattern template) with
  | none => false
  | some pattern => pattern.fullmatch route

inductive Credential where
  | none
  | text (value : Text)
  /-- the values that are text -/
  | jar (cookies : List (Text × Option Text))
  | other

def cookieName (s : Text) : Bool :=
  1 ≤ s.length && s.length ≤ 128 &&
    s.all fun c => isLetter c || isDigit c || (points "!#$%&'*+-.^_`|~").contains c

def cookieValue (s : Text) : Bool :=
  s ≠ [] && s.length ≤ 4096 && s.all fun c => visible c && !(points ";, \"\\").contains c

def credentialHeader (profile : String) (credential : Credential) : Except TransportFailure Text :=
  do
  let invalid : TransportFailure := { code := .invalidAuth }
  match profile, credential with
  | "anonymous", .none => return []
  | "bearer", .text value => token (points "Authorization: Bearer ") value invalid
  | "x_api_key", .text value => token (points "X-API-Key: ") value invalid
  | "cookie_jar", .jar cookies =>
    require (cookies ≠ [] && cookies.length ≤ 32) invalid
    let pairs ← (cookies.mergeSort fun a b => textOrder a.1 b.1).mapM fun (name, value) =>
      match value with
      | some value =>
        if cookieName name && cookieValue value then .ok (name ++ '='.toNat :: value)
        else .error invalid
      | Option.none => .error invalid
    let header := points "Cookie: " ++ (points "; ").intercalate pairs ++ points "\r\n"
    require (header.length ≤ 16 * 1024 + (points "Cookie: \r\n").length) invalid
    return header
  | _, _ => .error invalid
where
  token (header value : Text) (invalid : TransportFailure) : Except TransportFailure Text := do
    require (value ≠ [] && value.length ≤ 16 * 1024 && value.all visible) invalid
    return header ++ value ++ points "\r\n"

def retryableCodes : List FailureCode := [.connectError, .timeout]

structure RetryPolicy where
  maximumRetries : ℕ
  retryableFailureCodes : List FailureCode
  few : maximumRetries ≤ 1
  closed : retryableFailureCodes.Sublist retryableCodes

/-- `__post_init__`. -/
def RetryPolicy.make (maximumRetries : ℤ) (codes : List FailureCode) : Option RetryPolicy :=
  if h : (0 ≤ maximumRetries ∧ maximumRetries ≤ 1) ∧ codes.Sublist retryableCodes then
    some ⟨maximumRetries.toNat, codes, by omega, h.2⟩
  else none

structure Answer where
  statusCode : ℕ
  bodyShape : String
  responseBytes : ℕ
  evidenceRef : String
  redactionCount : ℕ
  deriving DecidableEq, Repr

structure TargetResponse extends Answer where
  requestsMade : ℕ
  deriving DecidableEq, Repr

/-- One reading of the stop token and of the clock. -/
structure Poll where
  cancelled : Bool
  clock : ℚ
  deriving DecidableEq, Repr

/-- What one turn of the loop meets. A callback of `before_attempt` gives a permit with its
deadline, something else, or raises. -/
structure Turn where
  polls : List Poll
  gate : Except Raised (Option ℚ)
  settled : Poll
  permitClock : ℚ
  attempt : Except Raised Answer
  cancelled : Bool
  clock : ℚ

def Poll.check (deadline : ℚ) (poll : Poll) : Except Raised Unit :=
  if poll.cancelled then .error (.failure { code := .cancelled })
  else if deadline - poll.clock ≤ 0 then .error (.failure { code := .timeout })
  else .ok ()

/-- `_bounded_call` of `before_attempt`: polls while the callback runs, and one more after it. -/
def boundedCall (deadline : ℚ) (turn : Turn) : Except Raised (Option ℚ) := do
  turn.polls.forM (Poll.check deadline)
  turn.settled.check deadline
  turn.gate

inductive Event where
  | beforeAttempt (attempt : ℕ) (previous : Option FailureCode) (answer : Except Raised (Option ℚ))
  | attempt (number : ℕ) (outcome : Except Raised Answer) (cancelled : Bool)

section Loop
variable (policy : RetryPolicy) (remaining : ℤ) (deadline : ℚ) (env : ℕ → Turn)

/-- Whether the failure of an attempt is retried. -/
def retries (f : TransportFailure) (turn : Turn) (attempts : ℕ) : Bool :=
  retryableCodes.contains f.code && policy.retryableFailureCodes.contains f.code &&
    !turn.cancelled && turn.clock < deadline && attempts - 1 < policy.maximumRetries &&
    (attempts : ℤ) < remaining

/-- The turns after `attempts` of them. -/
def turns (attempts : ℕ) (previous : Option FailureCode) :
    List Event × Except Raised TargetResponse :=
  let turn := env attempts
  let next := attempts + 1
  let call := Event.beforeAttempt next previous turn.gate
  let sent := Event.attempt next turn.attempt turn.cancelled
  match boundedCall deadline turn with
  | .error (.failure f) => ([call], .error (.failure { f with requestsMade := attempts }))
  | .error .other => ([call], .error (.failure ⟨.gateRejected, attempts⟩))
  | .ok none => ([call], .error (.failure ⟨.gateRejected, attempts⟩))
  | .ok (some permit) =>
    if permit ≤ turn.permitClock then ([call], .error (.failure ⟨.gateRejected, attempts⟩))
    else
      match turn.attempt with
      | .ok answer => ([call, sent], .ok { answer with requestsMade := next })
      | .error .other => ([call, sent], .error .other)
      | .error (.failure f) =>
        if retries policy remaining deadline f turn next then
          let (events, result) := turns next (some f.code)
          (call :: sent :: events, result)
        else ([call, sent], .error (.failure { f with requestsMade := next }))
termination_by policy.maximumRetries - attempts
decreasing_by
  rename_i hretries
  simp only [retries, Bool.and_eq_true, decide_eq_true_eq] at hretries
  omega

end Loop

structure RequestCall where
  action : PreparedAction
  credential : Credential
  policy : RetryPolicy
  remainingRequests : ℤ
  evidenceTemplate : Text

/-- `request`, with what it finds at its start: the stop token, the lock and the clock. -/
def request (timeoutSeconds : ℚ) (call : RequestCall) (start : Poll) (locked : Bool)
    (env : ℕ → Turn) : List Event × Except Raised TargetResponse :=
  let admitted : Except TransportFailure Unit := do
    let route ← validRoute call.action
    require ((0 ≤ call.remainingRequests ∧ call.remainingRequests ≤ 20) ∧
      matchesEvidenceTemplate route call.evidenceTemplate = true) { code := .gateRejected }
    require (call.remainingRequests ≠ 0) { code := .gateRejected }
    let _ ← credentialHeader call.action.authProfile call.credential
    require (!start.cancelled) { code := .cancelled }
    require (!locked) { code := .concurrencyExceeded }
  match admitted with
  | .error f => ([], .error (.failure f))
  | .ok _ => turns call.policy call.remainingRequests (start.clock + timeoutSeconds) env 0 none

end Heel.Transport
