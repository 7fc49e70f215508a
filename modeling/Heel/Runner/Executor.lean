import Mathlib.Data.Rat.Floor
import Heel.Contracts.OperationalRun
import Heel.Runner.ContainmentLog

/-! `LocalCanaryExecutor` of `heel/runner/execution.py` as a guarded step function: the main
thread (`execute`, `_finalize`, `recover`) and the stop worker (`prepare_stop_ack`), one
lock-delimited section, one log call or one unlocked counter update at a time. -/
namespace Heel.Executor
open Lib.Checks Containment

/-- What the `except BaseException` clause of `execute` tells apart. -/
inductive Exc where
  | transport (code : FailureCode) (gateError : Option ErrorCategory) (stop : StopReason)
  | vaultUnavailable
  /-- a `ValueError` or a `RunnerStoreError`, containment errors included -/
  | rejected
  | other
  deriving DecidableEq, Repr

structure Outcome where
  disposition : Disposition
  errorCategory : ErrorCategory
  stopReason : StopReason
  deriving DecidableEq, Repr

def failureClass : Exc → Outcome
  | .transport code gateError stop =>
    if stop ≠ .none then ⟨.stopped, gateError.getD .none, stop⟩
    else if code = .cancelled then
      match gateError with
      | some e => ⟨.incomplete, e, .none⟩
      | none => ⟨.stopped, .none, .localEmergencyStop⟩
    else
      match gateError with
      | some e => ⟨.incomplete, e, .none⟩
      | none =>
        match code with
        | .dnsChanged => ⟨.incomplete, .dnsChanged, .none⟩
        | .connectError | .timeout | .unsafeDns | .peerMismatch | .tlsError =>
          ⟨.incomplete, .targetUnavailable, .none⟩
        | .responseTooLarge | .responseRejected | .invalidRoute | .invalidAuth =>
          ⟨.failed, .containmentRejected, .none⟩
        | _ => ⟨.failed, .runnerFault, .none⟩
  | .vaultUnavailable => ⟨.incomplete, .credentialUnavailable, .none⟩
  | .rejected => ⟨.failed, .containmentRejected, .none⟩
  | .other => ⟨.failed, .runnerFault, .none⟩

structure Action where
  ordinal : Int
  scenarioId : String
  semanticAuthRole : String

/-- `operational_receipt_policy` of a grant. -/
structure ReceiptPolicy where
  maximumBytes : Nat
  allowedErrorCategories : List ErrorCategory
  allowedStopReasons : List StopReason
  allowedContainmentCodes : List EventCode

/-- A validated execution bundle with the log it reserves: validated contracts carry their
budgets in range and their texts in form C, and the grant repeats the manifest's limits. -/
structure Bundle (P : Platform) where
  log : ContainmentLog
  actions : List Action
  budgets : Budgets
  retryPolicy : RetryPolicy
  receiptPolicy : ReceiptPolicy
  workspaceId : String
  projectId : String
  grantDigest : String
  approvalProjectionDigest : String
  runnerVersion : String
  engineVersion : String
  adapterVersions : List String
  issuedAtMs : Int
  requests_range : 1 ≤ budgets.maximumRequests ∧ budgets.maximumRequests ≤ 20
  wall_range : 1 ≤ budgets.wallTimeoutMs ∧ budgets.wallTimeoutMs ≤ 60000
  bytes_range : 1 ≤ budgets.maximumResponseBytes
  retries_range : 0 ≤ retryPolicy.maximumRetries ∧ retryPolicy.maximumRetries ≤ 1
  runId_nfc : P.nfc log.runId = log.runId
  grantId_nfc : P.nfc log.grantId = log.grantId
  scenario_nfc : ∀ a ∈ actions, P.nfc a.scenarioId = a.scenarioId
  role_nfc : ∀ a ∈ actions, P.nfc a.semanticAuthRole = a.semanticAuthRole

/-- What `execute` reads off the answer of a transport, of whatever type it is: `requestsMade` is
`none` where `requests_made` is no int. -/
structure Response where
  responseBytes : Int
  requestsMade : Option Int
  redactionCount : Int
  deriving DecidableEq, Repr

/-- The ranges that the constructor of `TargetResponse` enforces. -/
def Response.isTargetResponse (r : Response) : Bool :=
  decide (0 ≤ r.responseBytes ∧ r.responseBytes ≤ 262144 ∧
    (r.requestsMade = some 1 ∨ r.requestsMade = some 2) ∧
    0 ≤ r.redactionCount ∧ r.redactionCount ≤ 1024)

/-! ### The local run record of the store -/

inductive LocalState where
  | verified | running | stopRequested | finalizing | terminal
  deriving DecidableEq, Repr

/-- `_RUN_TRANSITIONS`. -/
def LocalState.next : LocalState → LocalState → Bool
  | .verified, .running | .verified, .finalizing => true
  | .running, .stopRequested | .running, .finalizing => true
  | .stopRequested, .finalizing => true
  | .finalizing, .terminal => true
  | _, _ => false

structure LocalRun where
  state : LocalState
  updatedAtMs : Int
  deriving DecidableEq, Repr

/-- `RunnerStore.transition_run`. -/
def LocalRun.transition (r : LocalRun) (next : LocalState) (nowMs : Int) :
    Except Refusal LocalRun := do
  require (0 ≤ nowMs) ⟨.valueError, "invalid local run timestamp"⟩
  require (r.state.next next) ⟨.runnerStoreError, "illegal local run transition"⟩
  require (r.updatedAtMs ≤ nowMs) ⟨.runnerStoreError, "local run timestamp moved backward"⟩
  return { state := next, updatedAtMs := nowMs }

/-! ### Control points -/

/-- How a run ends: the arguments of `_finalize` that are not live state. -/
structure Ending where
  outcome : Outcome
  stopRequestedAtMs : Option Int
  stopAcknowledgedAtMs : Option Int
  deriving DecidableEq, Repr

/-- What the handler settles on when recording the stop itself fails. -/
def Ending.failed (e : Ending) : Ending :=
  { e with outcome := ⟨.failed, .runnerFault, .none⟩ }

/-- Control points of the main thread; `k` is the index of the action in hand and `attempts`
its `action_attempts[0]`. -/
inductive MainPc where
  | idle
  /-- in the activation section, the grant consumed -/
  | verifying
  | activating
  | starting
  | ready (k : Nat)
  | requesting (k : Nat) (attempts : Nat)
  /-- `before_attempt` inside the budget section, about to log `action_started` -/
  | permitted (k : Nat) (attempts : Nat)
  /-- `before_attempt` inside the budget section, about to log `budget_exhausted` -/
  | exhausted (k : Nat) (attempts : Nat) (attempt : Nat)
  | rejecting (k : Nat) (attempts : Nat) (code : FailureCode) (exc : Exc)
  /-- `requests_completed` is updated, `response_bytes_read` not yet -/
  | received (k : Nat) (attempts : Nat) (response : Response)
  | measured (k : Nat) (attempts : Nat) (response : Response)
  | redacting (k : Nat) (attempts : Nat)
  | completing (k : Nat) (attempts : Nat)
  | reporting (k : Nat)
  | handling (exc : Exc)
  /-- the handler inside the stop section, the stop time taken -/
  | stopping (ending : Ending)
  | finalizing (ending : Ending)
  | closing (ending : Ending)
  | closed (ending : Ending)
  | projecting (ending : Ending)
  | sealing (projection : OperationalRun)
  | saving (projection : OperationalRun)
  | terminating (projection : OperationalRun)
  | crashed
  | recovering
  | regranting
  | done

namespace MainPc

/-- Does the main thread hold `_stop_lock`? -/
def holdsStopLock : MainPc → Bool
  | .verifying | .activating | .starting | .stopping _ => true
  | _ => false

/-- Does the main thread hold `budget_lock`? -/
def holdsBudgetLock : MainPc → Bool
  | .permitted .. | .exhausted .. => true
  | _ => false

end MainPc

/-- Control points of `prepare_stop_ack`. Everything after `idle` is under `_stop_lock`, so
calls are serialized and one worker stands for any number of them. -/
inductive WorkerPc where
  | idle
  | entered (reason : StopReason)
  | copied (reason : StopReason) (copy : Counters)
  | moved (reason : StopReason) (copy : Counters)
  | appending (reason : StopReason) (copy : Counters)

structure State where
  store : List Event := []
  run : Option LocalRun := none
  finals : Option OperationalRun := none
  counters : Counters := {}
  redactionCount : Int := 0
  startedAtMs : Int := 0
  startedMonotonic : ℚ := 0
  clockMs : Int := 0
  monotonic : ℚ := 0
  context : Bool := false
  main : MainPc := .idle
  worker : WorkerPc := .idle
  /-- the projections handed to `on_progress`, oldest first -/
  sent : List OperationalRun := []

/-- Every counter given: `counters=counters`. -/
def overrides (c : Counters) : CounterOverrides where
  items := CounterField.all.map fun f => (f.name, c.get f)
  nodup := by
    have h : (CounterField.all.map CounterField.name).Nodup := by decide
    rw [List.map_map]
    exact h

variable {P : Platform} (B : Bundle P)

def actionCall (a : Action) (attempt : Nat) (code : EventCode) (detail : String) (c : Counters) :
    AppendCall where
  eventCode := code.name
  detailCode := detail
  actionOrdinal := some a.ordinal
  scenarioId := some a.scenarioId
  semanticRole := some a.semanticAuthRole
  attempt := some attempt
  counters := overrides c

def runCall (code : EventCode) (detail : String) (c : Counters) : AppendCall where
  eventCode := code.name
  detailCode := detail
  counters := overrides c

/-- One `log.append` of the main thread: on to `next` when it returns, to `failed` when it
raises. -/
def State.logAppend (s : State) (call : AppendCall) (next failed : MainPc) : State :=
  match B.log.append P s.clockMs s.store call with
  | .ok (_, stored) => { s with store := stored, main := next }
  | .error _ => { s with main := failed }

def lastCode (events : List Event) : Option EventCode := events.getLast?.map Event.eventCode

/-- The last event already records this stop. -/
def stopRecorded (events : List Event) (reason : StopReason) : Bool :=
  events.getLast?.any fun e => e.eventCode = .stopObserved ∧ e.detailCode = reason.name

/-- `sorted({code ...})` over the operational codes of the events. -/
def operationalContainmentCodes (events : List Event) : List EventCode :=
  [EventCode.actionCompleted, .actionRejected, .actionStarted, .admitted, .budgetExhausted,
    .dnsChanged, .redacted, .responseTruncated, .stopObserved].filter fun c =>
      events.any fun e => e.eventCode = c

/-- `int(max(0.0, monotonic - started_monotonic) * 1000)`. -/
def State.elapsedMs (s : State) : Int := ⌊max 0 (s.monotonic - s.startedMonotonic) * 1000⌋

/-! ### The projections -/

def unsignedProjection (s : State) (events : List Event) : OperationalRun where
  runId := B.log.runId
  grantId := B.log.grantId
  workspaceId := B.workspaceId
  projectId := B.projectId
  manifestDigest := B.log.manifestDigest
  approvalProjectionDigest := B.approvalProjectionDigest
  grantDigest := B.grantDigest
  eventSequence := (events.getLast?.map Event.sequence).getD 0
  lifecyclePhase := .running
  executionDisposition := none
  timestamps :=
    { claimedAtMs := some s.startedAtMs, startedAtMs := some s.startedAtMs
      updatedAtMs := s.clockMs, stopRequestedAtMs := none, stopAcknowledgedAtMs := none
      terminalAtMs := none }
  counters :=
    { toCounters := s.counters
      remainingRequests := max 0 (B.budgets.maximumRequests - s.counters.requestsStarted)
      remainingWallMs := max 0 (B.budgets.wallTimeoutMs - s.elapsedMs) }
  runnerVersion := B.runnerVersion
  engineVersion := B.engineVersion
  adapterVersions := B.adapterVersions
  errorCategory := .none
  stopReason := .none
  containmentCodes := operationalContainmentCodes events
  redactionCount := s.redactionCount
  projectionDigest := ""
  signingKeyId := B.log.signer.keyId
  signature := []

/-- `_sign_projection` followed by `validate_operational_run`. -/
def signProjection (v : OperationalRun) : Except Refusal OperationalRun := do
  let bytes ← Json.canonicalBytes P v.unsigned
  let signature := B.log.signer.sign bytes
  require (signature.length = 64)
    ⟨.valueError, "runner signer returned an invalid projection signature"⟩
  let signed := { v with projectionDigest := P.sha256 bytes, signature := signature }
  OperationalRun.validate P signed
  return signed

def runningProjection (s : State) (events : List Event) : Except Refusal OperationalRun :=
  signProjection B (unsignedProjection B s events)

/-- The one terminal instant of `_finalize`. -/
def finishedAt (s : State) (r : LocalRun) (e : Ending) : Int :=
  max (max (max s.clockMs s.startedAtMs) r.updatedAtMs)
    (max (e.stopRequestedAtMs.getD 0) (e.stopAcknowledgedAtMs.getD 0))

/-- The operational projection of `_finalize`. -/
def terminalProjection (s : State) (r : LocalRun) (e : Ending) (events : List Event) :
    Except Refusal OperationalRun :=
  let base := unsignedProjection B s events
  signProjection B
    { base with
      lifecyclePhase := .terminal
      executionDisposition := some e.outcome.disposition
      timestamps :=
        { claimedAtMs := some s.startedAtMs, startedAtMs := some s.startedAtMs
          updatedAtMs := finishedAt s r e, stopRequestedAtMs := e.stopRequestedAtMs
          stopAcknowledgedAtMs := e.stopAcknowledgedAtMs, terminalAtMs := some (finishedAt s r e) }
      counters := { base.counters with remainingWallMs := 0 }
      errorCategory := e.outcome.errorCategory
      stopReason := e.outcome.stopReason }

def withinPolicy (v : OperationalRun) : Bool :=
  match Json.canonicalBytes P v.record with
  | .error _ => false
  | .ok bytes =>
    decide (byteSize bytes ≤ B.receiptPolicy.maximumBytes) &&
    B.receiptPolicy.allowedErrorCategories.contains v.errorCategory &&
    B.receiptPolicy.allowedStopReasons.contains v.stopReason &&
    v.containmentCodes.all (B.receiptPolicy.allowedContainmentCodes.contains ·)

/-- What `save_final_projections` demands of the stored chain. -/
def summaryMatches (events : List Event) (v : OperationalRun) : Bool :=
  match events.find? (fun e => e.sequence = v.eventSequence) with
  | none => false
  | some e =>
    e.eventCode = .runFinalized ∧ some e.detailCode = v.executionDisposition.map Disposition.name ∧
      e.counters = v.counters.toCounters ∧
      v.containmentCodes = operationalContainmentCodes
        (events.filter fun x => x.sequence ≤ v.eventSequence)

/-! ### The main thread -/

/-- What a call of `before_attempt` finds before the budget: what the cancellation token raises,
outside and inside the budget section, and the deadline that the authority answers. -/
structure GateReading where
  cancelled : Option Exc
  authority : Except Exc ℚ
  cancelledInside : Option Exc

/-- What the environment decides at a main step: the exceptions it raises, the attempts and
responses of the transport, the stop times the cancellation token carries. -/
inductive MainChoice where
  | begin (knownStop reserved : Bool)
  | proceed
  | log
  | fail (exc : Exc)
  | attempt (n : Int) (previous : Option FailureCode) (gate : GateReading)
  | respond (response : Response)
  /-- reading a field of the answer raises, or its evidence is refused -/
  | unreadable (exc : Exc)
  | report (raised : Option Exc)
  | handle (stopRequestedAtMs : Option Int) (stopAcknowledgedAtMs : Option Int)
  | recover

def gateRejected (gateError : Option ErrorCategory) : Exc :=
  .transport .gateRejected gateError .none

/-- `before_attempt` up to its log call: the state it leaves and what it raises before that call. -/
def beforeAttempt (s : State) (k attempts : Nat) (n : Int) (previous : Option FailureCode)
    (gate : GateReading) : State × Option Exc :=
  let policy := B.retryPolicy
  let retry := decide (n ≠ 1)
  match gate.cancelled, gate.authority, gate.cancelledInside with
  | some exc, _, _ => (s, some exc)
  | none, .error exc, _ => (s, some exc)
  | none, .ok _, some exc => (s, some exc)
  | none, .ok deadline, none =>
    if deadline ≤ s.monotonic then (s, some (gateRejected (some .proofExpired)))
    else if n ≠ attempts + 1 ∨ (n ≠ 1 ∧ n ≠ 2) then (s, some (gateRejected none))
    else if n = 1 ∧ previous ≠ none then (s, some (gateRejected none))
    else if n ≠ 1 ∧ ¬ previous.any (policy.retryableFailureCodes.contains ·) then
      (s, some (gateRejected none))
    else if B.budgets.wallTimeoutMs ≤ s.elapsedMs ∨
        B.budgets.maximumRequests ≤ s.counters.requestsStarted ∨
        (retry ∧ policy.maximumRetries ≤ s.counters.retriesUsed) then
      ({ s with main := .exhausted k attempts (attempts + 1) }, none)
    else
      ({ s with
        main := .permitted k (attempts + 1)
        counters :=
          { s.counters with
            requestsStarted := s.counters.requestsStarted + 1
            actionsContained := s.counters.actionsContained + (if retry then 0 else 1)
            retriesUsed := s.counters.retriesUsed + (if retry then 1 else 0) } }, none)

/-- The checks of `execute` after the counters took a response in. -/
def responseAccepted (s : State) (r : Response) : Bool :=
  decide (s.counters.requestsStarted ≤ B.budgets.maximumRequests ∧
    s.counters.retriesUsed ≤ B.retryPolicy.maximumRetries ∧
    r.responseBytes ≤ B.budgets.maximumResponseBytes)

def unexpectedResponse : Exc := .transport .responseRejected none .none

/-- `execute` returning or raising: the active context is dropped. -/
def State.leave (s : State) : State := { s with main := .done, context := false }

/-- The end of the handler for a run that is not stopped. An exception here leaves `execute`
outside the `finally` clause that drops the active context. -/
def handled (s : State) (ending : Ending) : State :=
  if ending.outcome.errorCategory = .credentialUnavailable then
    match B.log.load P s.store with
    | .error _ => { s with main := .done }
    | .ok [] => s.logAppend B (runCall .grantVerified "grant_exact" s.counters)
        (.finalizing ending) .done
    | .ok _ => { s with main := .finalizing ending }
  else { s with main := .finalizing ending }

def mainStep (s : State) (choice : MainChoice) : Option State :=
  match s.main, choice with
  | .idle, .begin knownStop reserved =>
    match s.worker with
    | .idle =>
      if knownStop || !reserved then some s.leave
      else some { s with main := .verifying, run := some ⟨.verified, B.issuedAtMs⟩ }
    | _ => none
  | .verifying, .log => some (s.logAppend B
      { eventCode := EventCode.grantVerified.name, detailCode := "grant_exact" } .activating .done)
  | .activating, .proceed =>
    match s.run with
    | none => none
    | some r =>
      match r.transition .running s.clockMs with
      | .error _ => some s.leave
      | .ok r' => some { s with run := some r', startedAtMs := s.clockMs
                                startedMonotonic := s.monotonic, main := .starting }
  | .starting, .log =>
    let t := s.logAppend B (runCall .runStarted "locally_activated" s.counters) (.ready 0) .done
    some { t with context := match t.main with | .ready _ => true | _ => false }
  | .ready _, .fail exc => some { s with main := .handling exc }
  | .ready k, .log =>
    match B.actions[k]? with
    | none => none
    | some a => some (s.logAppend B (actionCall a 1 .admitted "exact_action" s.counters)
        (.requesting k 0) (.handling .rejected))
  | .ready k, .proceed =>
    match B.actions[k]? with
    | some _ => none
    | none => some { s with main := .finalizing ⟨⟨.completed, .none, .none⟩, none, none⟩ }
  | .requesting k attempts, .attempt n previous gate =>
    some (beforeAttempt B s k attempts n previous gate).1
  | .permitted k attempts, .log =>
    match B.actions[k]? with
    | none => none
    | some a => some (s.logAppend B (actionCall a attempts .actionStarted "target_read" s.counters)
        (.requesting k attempts) (.requesting k attempts))
  | .exhausted k attempts n, .log =>
    match B.actions[k]? with
    | none => none
    | some a => some (s.logAppend B (actionCall a n .budgetExhausted "budget_exhausted" s.counters)
        (.requesting k attempts) (.requesting k attempts))
  -- a log call that raises without an event: the store fails, or the number is a `True` or a `1.0`
  | .permitted k attempts, .fail _ => some { s with main := .requesting k attempts }
  | .exhausted k attempts _, .fail _ => some { s with main := .requesting k attempts }
  | .requesting k attempts, .fail exc =>
    match exc with
    | .transport code _ _ => some { s with main := .rejecting k attempts code exc }
    | _ => some { s with main := .handling exc }
  | .rejecting k attempts code exc, .log =>
    match B.actions[k]? with
    | none => none
    | some a => some (s.logAppend B
        (actionCall a (max 1 attempts) (if code = .dnsChanged then .dnsChanged else .actionRejected)
          code.name s.counters) (.handling exc) (.handling .rejected))
  | .requesting k attempts, .respond r =>
    if r.requestsMade ≠ some (attempts : Int) then
      some { s with main := .handling unexpectedResponse }
    else some { s with
      main := .received k attempts r
      counters := { s.counters with requestsCompleted := s.counters.requestsCompleted + 1 } }
  | .requesting _ _, .unreadable exc => some { s with main := .handling exc }
  | .received _ _ _, .unreadable exc => some { s with main := .handling exc }
  | .measured _ _ _, .unreadable exc => some { s with main := .handling exc }
  | .completing _ _, .unreadable exc => some { s with main := .handling exc }
  | .received k attempts r, .proceed => some { s with
      main := .measured k attempts r
      counters := { s.counters with
        responseBytesRead := s.counters.responseBytesRead + r.responseBytes } }
  | .measured k attempts r, .proceed =>
    if responseAccepted B s r then some { s with
      redactionCount := s.redactionCount + r.redactionCount
      main := if r.redactionCount = 0 then .completing k attempts else .redacting k attempts }
    else some { s with main := .handling unexpectedResponse }
  | .redacting k attempts, .log =>
    match B.actions[k]? with
    | none => none
    | some a => some (s.logAppend B (actionCall a attempts .redacted "response_secret" s.counters)
        (.completing k attempts) (.handling .rejected))
  | .completing k attempts, .log =>
    match B.actions[k]? with
    | none => none
    | some a => some (s.logAppend B
        (actionCall a attempts .actionCompleted "bounded_response" s.counters)
        (.reporting k) (.handling .rejected))
  -- without an `on_progress` callback
  | .reporting k, .proceed => some { s with main := .ready (k+1) }
  | .reporting k, .report raised =>
    match B.log.load P s.store with
    | .error _ => some { s with main := .handling .rejected }
    | .ok events =>
      match runningProjection B s events with
      | .error _ => some { s with main := .handling .rejected }
      | .ok v =>
        match raised with
        | none => some { s with sent := s.sent ++ [v], main := .ready (k+1) }
        | some exc => some { s with sent := s.sent ++ [v], main := .handling exc }
  | .handling exc, .handle requested acknowledged =>
    let outcome := failureClass exc
    if outcome.disposition = .stopped then
      match s.worker, s.run with
      | .idle, some r =>
        let ending : Ending := ⟨outcome, some (requested.getD s.clockMs), acknowledged⟩
        if r.state = .running then
          match r.transition .stopRequested (max s.clockMs r.updatedAtMs) with
          | .ok r' => some { s with run := some r', main := .stopping ending }
          | .error _ => some { s with main := .finalizing ending.failed }
        else some { s with main := .stopping ending }
      | _, _ => none
    else some (handled B s ⟨outcome, none, none⟩)
  | .stopping ending, .log =>
    match B.log.load P s.store with
    | .error _ => some { s with main := .finalizing ending.failed }
    | .ok events =>
      if stopRecorded events ending.outcome.stopReason then
        some { s with main := .finalizing ending }
      else some (s.logAppend B
        (runCall .stopObserved ending.outcome.stopReason.name s.counters)
        (.finalizing ending) (.finalizing ending.failed))
  | .finalizing ending, .proceed =>
    match s.run with
    | none => some s.leave
    | some r =>
      if r.state = .finalizing ∨ r.state = .terminal then some { s with main := .closing ending }
      else
        match r.transition .finalizing s.clockMs with
        | .error _ => some s.leave
        | .ok r' => some { s with run := some r', main := .closing ending }
  | .closing ending, .proceed =>
    match B.log.load P s.store with
    | .error _ => some s.leave
    | .ok events =>
      if lastCode events = some .runFinalized then some { s with main := .projecting ending }
      else some { s with main := .closed ending }
  | .closed ending, .log =>
    let t := s.logAppend B (runCall .runFinalized ending.outcome.disposition.name s.counters)
      (.projecting ending) .done
    some { t with context := match t.main with | .done => false | _ => t.context }
  -- evaluation or validation of the findings may raise
  | .projecting _, .fail _ => some s.leave
  | .projecting ending, .proceed =>
    match B.log.load P s.store, s.run with
    | .ok events, some r =>
      match terminalProjection B s r ending events with
      | .error _ => some s.leave
      | .ok v => if withinPolicy B v then some { s with main := .sealing v } else some s.leave
    | _, _ => some s.leave
  | .sealing v, .log =>
    let t := s.logAppend B (runCall .localResultReady "safe_projection" s.counters)
      (.saving v) .done
    some { t with context := match t.main with | .done => false | _ => t.context }
  | .saving v, .proceed =>
    match B.log.load P s.store, s.finals with
    | .ok events, none =>
      if summaryMatches events v then some { s with finals := some v, main := .terminating v }
      else some s.leave
    | .ok _, some w => if w = v then some { s with main := .terminating v } else some s.leave
    | .error _, _ => some s.leave
  | .terminating v, .proceed =>
    match s.run, v.timestamps.terminalAtMs with
    | some r, some finished =>
      match r.transition .terminal finished with
      | .error _ => some s.leave
      | .ok r' => some { s with run := some r', main := .done, context := false }
    | _, _ => some s.leave
  -- `recover` reads everything back from the store
  | .crashed, .recover =>
    match s.run, s.finals with
    | none, _ => none
    | some _, some v => some { s with main := .terminating v }
    | some _, none => some { s with main := .recovering }
  | .recovering, .proceed =>
    match B.log.load P s.store with
    | .error _ => some s.leave
    | .ok [] => some { s with main := .regranting }
    | .ok (first :: rest) => some { s with
        counters := (headOf (first :: rest)).previousCounters
        redactionCount := 0
        startedAtMs := first.occurredAtMs
        main := .finalizing ⟨⟨.incomplete, .runnerFault, .none⟩, none, none⟩ }
  | .regranting, .log => some (s.logAppend B
      { eventCode := EventCode.grantVerified.name, detailCode := "recovery_verified" }
      .recovering .done)
  | _, _ => none

/-! ### The stop worker -/

inductive WorkerChoice where
  | call (reason : StopReason)
  | proceed

def workerStep (s : State) (choice : WorkerChoice) : Option State :=
  match s.worker, choice with
  | .idle, .call reason =>
    if reason = .none ∨ s.main.holdsStopLock then none
    else if s.context then some { s with worker := .entered reason }
    else some s
  | .entered reason, .proceed =>
    if s.main.holdsBudgetLock then none
    else some { s with worker := .copied reason s.counters }
  | .copied reason copy, .proceed =>
    match s.run with
    | none => some { s with worker := .idle }
    | some r =>
      match r.state with
      | .running =>
        match r.transition .stopRequested (max s.clockMs r.updatedAtMs) with
        | .error _ => some { s with worker := .idle }
        | .ok r' => some { s with run := some r', worker := .moved reason copy }
      | .stopRequested | .finalizing => some { s with worker := .moved reason copy }
      | .verified | .terminal => some { s with worker := .idle }
  | .moved reason copy, .proceed =>
    match B.log.load P s.store with
    | .error _ => some { s with worker := .idle }
    | .ok events =>
      if stopRecorded events reason then some { s with worker := .idle }
      else some { s with worker := .appending reason copy }
  | .appending reason copy, .proceed =>
    match B.log.append P s.clockMs s.store (runCall .stopObserved reason.name copy) with
    | .ok (_, stored) => some { s with store := stored, worker := .idle }
    | .error _ => some { s with worker := .idle }
  | _, _ => none

inductive Choice where
  | main (choice : MainChoice)
  | worker (choice : WorkerChoice)
  /-- the process dies: only the store survives -/
  | crash

/-- One atomic step with the readings of the two clocks. -/
structure Input where
  clockMs : Int
  monotonic : ℚ
  choice : Choice

/-- One step at any readings of the clocks, with any answer of the transport. -/
def act (s : State) (i : Input) : Option State :=
  let now : State := { s with clockMs := i.clockMs, monotonic := i.monotonic }
  match i.choice with
  | .main choice => mainStep B now choice
  | .worker choice => workerStep B now choice
  | .crash => some { now with main := .crashed, worker := .idle, context := false }

/-- Is what the transport answers, if this is its answer, a `TargetResponse`? -/
def Choice.typed : Choice → Bool
  | .main (.respond r) => r.isTargetResponse
  | _ => true

/-- The clocks never run backwards and the transport answers a `TargetResponse`. -/
def step (s : State) (i : Input) : Option State :=
  if s.clockMs ≤ i.clockMs ∧ s.monotonic ≤ i.monotonic ∧ i.choice.typed = true then act B s i
  else none

end Heel.Executor
