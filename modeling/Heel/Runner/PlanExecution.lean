import Mathlib.Logic.Function.Basic
import Heel.Lib.Transition
import Heel.Runner.Executor
import Heel.Runner.PlanVerdict

/-! `_execute` of `heel/runner/plan_differential.py`: one invocation over its pairs, the requests of
its actions through the scoped transport, and the callbacks that the transport runs in threads of
their own. The client may call `before_attempt` as often and with what it likes; like
`TargetHTTPSClient.request` it sends once on a permit and leaves the request when a callback raises.
A callback whose deadline passes goes on without the client. The history of the steps is kept. -/
namespace Heel.PlanExecution
open Lib Containment Executor PlanDifferential

structure Pair where
  method : JsonText.Text
  marker : Option JsonText.Text

structure Plan where
  pairs : List Pair
  effectiveMaxOps : Nat
  two_le : 2 ≤ effectiveMaxOps

/-- How far a callback of `_ScopedTransport` has come. -/
inductive CallPhase where
  | entered
  /-- the reservation is held and the scope is verified again -/
  | verified
  | took (op : Nat)
  | permitted (op : Nat)
  | granted (op : Nat)
  | refused
  deriving DecidableEq, Repr

structure Callback where
  pair : Nat
  action : Nat
  attempt : Nat
  previous : Option FailureCode
  phase : CallPhase := .entered

/-- What a step of the history did; a callback goes by its number. -/
inductive Event where
  | verified (call : Nat)
  | took (call op : Nat)
  | permitted (call : Nat)
  | logged (call op : Nat)
  | refused (pair action : Nat)
  /-- the run of the pair ends inside this action -/
  | abandoned (pair action : Nat)
  | sent (call op pair action : Nat)
  | completed (pair action : Nat)
  deriving DecidableEq, Repr

inductive Entry where
  | request (pair action attempt opIndex : Nat)
  | pair (ordinal : Nat)
  | finding (ordinal : Nat)
  | runComplete (requestsSent : Nat)
  deriving DecidableEq, Repr

inductive Client where
  | idle
  | waiting (call : Nat)
  | holding (call op : Nat)
  | sending
  | answered
  deriving DecidableEq, Repr

structure PairOutcome where
  pair : Nat
  verdict : PairVerdict
  executionDisposition : String
  lower : Option PlanObservation := none
  higher : Option PlanObservation := none
  continues : Bool := true
  notExecuted : Bool := false

/-- Control points of the main thread; `i` is the pair and `k` the action in hand. -/
inductive Main where
  | entering (i : Nat)
  | acting (i k : Nat)
  | requesting (i k : Nat) (client : Client)
  | executed (i : Nat) (disposition : Disposition) (category : ErrorCategory)
  | judged (outcome : PairOutcome)
  | recorded (outcome : PairOutcome)
  | complete
  | failed

/-- The executor's state for one pair, with the `action_attempts[0]` of its action in hand. -/
structure PairRun where
  exec : Executor.State := {}
  attempts : Nat := 0

structure State where
  used : Nat := 0
  log : List Entry := []
  calls : List Callback := []
  runs : Nat → PairRun := fun _ => {}
  main : Main := .entering 0
  stopped : Bool := false
  /-- the reason of a failed address preflight, until the first pair is told -/
  preflight : Option String := none
  findings : List PairOutcome := []
  history : List Event := []

/-- What the environment decides at a step of a callback. -/
inductive CallChoice where
  | verify (held authorized : Bool)
  | take
  | permit (monotonic : ℚ) (reading : GateReading) (recorded : Bool)
  | append (stored returned : Bool)

def State.setPhase (s : State) (id : Nat) (c : Callback) (phase : CallPhase) : State :=
  { s with calls := s.calls.set id { c with phase } }

def State.note (s : State) (e : Event) : State := { s with history := s.history ++ [e] }

def State.refuse (s : State) (id : Nat) (c : Callback) : State :=
  (s.setPhase id c .refused).note (.refused c.pair c.action)

/-- The executor's `before_attempt`: the counters where it grants. -/
def permit {P : Platform} (B : Bundle P) (run : PairRun) (c : Callback) (monotonic : ℚ)
    (reading : GateReading) : Option Counters :=
  let now : Executor.State := { run.exec with monotonic }
  match beforeAttempt B now c.action run.attempts c.attempt c.previous reading with
  | (t, none) =>
    match t.main with
    | .permitted _ _ => some t.counters
    | _ => none
  | (_, some _) => none

variable {P : Platform} (plan : Plan) (B : Nat → Bundle P)

/-- `gated` of `_ScopedTransport._request`, a step at a time. -/
def callStep (s : State) (id : Nat) (choice : CallChoice) : Option State :=
  match s.calls[id]? with
  | none => none
  | some c =>
    match c.phase, choice with
    | .entered, .verify held authorized =>
      if held && authorized then some ((s.setPhase id c .verified).note (.verified id))
      else some (s.refuse id c)
    | .verified, .take =>
      if plan.effectiveMaxOps ≤ s.used then some (s.refuse id c)
      else some { (s.setPhase id c (.took s.used)).note (.took id s.used) with used := s.used + 1 }
    | .took op, .permit monotonic reading recorded =>
      match permit (B c.pair) (s.runs c.pair) c monotonic reading with
      | none => some (s.refuse id c)
      | some counters =>
        -- the counters are spent even where the executor cannot log the attempt
        let run := s.runs c.pair
        let spent : State := { s with
          runs := Function.update s.runs c.pair
            { exec := { run.exec with counters }, attempts := c.attempt } }
        if recorded then some ((spent.setPhase id c (.permitted op)).note (.permitted id))
        else some (spent.refuse id c)
    | .permitted op, .append stored returned =>
      let entry : Entry := .request c.pair c.action c.attempt op
      let written : State := if stored || returned then { s with log := s.log ++ [entry] } else s
      if returned then some ((written.setPhase id c (.granted op)).note (.logged id op))
      else some (written.refuse id c)
    | _, _ => none

/-- What the environment decides at a step of the main thread. -/
inductive MainChoice where
  /-- at the head of the loop: is the scope still authorized? -/
  | enter (authorized : Bool)
  /-- the pair is refused before or after its run, without a result -/
  | reject
  | start
  /-- an exception inside the run of the executor; is a stop recorded? -/
  | raise (exc : Exc) (stopRecorded : Bool)
  | call (attempt : Nat) (previous : Option FailureCode)
  | resume
  | send
  | wireFailed
  | wireAnswered
  | respond
  | finish
  | judge (lower higher : Option PlanObservation) (assessment : String) (reason : Option String)
  | record (logged : Bool)
  | store (saved logged : Bool)
  /-- an exception that leaves `_execute` -/
  | crash

def notStarted (i : Nat) (reason : String) (continues : Bool) : PairOutcome where
  pair := i
  verdict := rowOne reason
  executionDisposition := "not_started"
  continues := continues
  notExecuted := true

def enterPair (s : State) (i : Nat) (authorized : Bool) : State :=
  match s.preflight with
  | some reason =>
    { s with preflight := none, stopped := true, main := .judged (notStarted i reason true) }
  | none =>
    if s.stopped then { s with main := .judged (notStarted i "stopped" true) }
    else if plan.effectiveMaxOps - s.used < 2 then
      { s with main := .judged (notStarted i "budget_exhausted" true) }
    else if authorized then { s with main := .acting i 0 }
    else { s with stopped := true, main := .judged (notStarted i "stopped" true) }

/-- What the handler of the executor settles on. -/
def raised (i : Nat) (exc : Exc) (stopRecorded : Bool) : Main :=
  let outcome := failureClass exc
  if outcome.disposition = .stopped ∧ stopRecorded = false then .executed i .failed .runnerFault
  else .executed i outcome.disposition outcome.errorCategory

/-- The conditions of `_execute` on a finding that it stores. -/
def PairOutcome.stores (o : PairOutcome) : Bool :=
  o.verdict.storesFinding && o.verdict.verdict = .finding &&
    (o.verdict.evidenceState = some .verified || o.verdict.evidenceState = some .observed) &&
    o.executionDisposition = "completed"

variable (W : Content.Words) (R : Allowance)

/-- `_run_pair` after the executor returned. -/
def judgePair (pair : Pair) (i : Nat) (disposition : Disposition) (category : ErrorCategory)
    (lower higher : Option PlanObservation) (assessment : String) (reason : Option String) :
    PairOutcome :=
  let observed (o : Option PlanObservation) := if disposition = .completed then o else none
  { pair := i
    verdict := evaluatePlanPair W R (observed lower) (observed higher) pair.method pair.marker
      ⟨disposition.name, assessment, reason⟩
    executionDisposition := disposition.name
    lower := observed lower, higher := observed higher
    continues := disposition = .completed ||
      (disposition = .failed && category = .containmentRejected) }

/-- The requests of an action: the client and the callback it waits for. -/
def clientStep (s : State) (i k : Nat) (client : Client) (choice : MainChoice) : Option State :=
  match client, choice with
  | .idle, .call attempt previous =>
    some { s with
      calls := s.calls ++ [{ pair := i, action := k, attempt, previous }]
      main := .requesting i k (.waiting s.calls.length) }
  | .waiting id, .resume =>
    match s.calls[id]? with
    | some c =>
      match c.phase with
      | .granted op => some { s with main := .requesting i k (.holding id op) }
      | _ => none
    | none => none
  | .holding id op, .send =>
    some ({ s with main := .requesting i k .sending }.note (.sent id op i k))
  | .sending, .wireFailed => some { s with main := .requesting i k .idle }
  | .sending, .wireAnswered => some { s with main := .requesting i k .answered }
  | .answered, .respond => some ({ s with main := .acting i (k + 1) }.note (.completed i k))
  | _, _ => none

def mainStep (s : State) (choice : MainChoice) : Option State :=
  match s.main, choice with
  | .complete, _ | .failed, _ => none
  | _, .crash => some { s with main := .failed }
  | .entering i, .enter authorized =>
    if i < plan.pairs.length then some (enterPair plan s i authorized)
    else some { s with log := s.log ++ [.runComplete s.used], main := .complete }
  | .acting i k, .reject | .requesting i k _, .reject =>
    some ({ s with main := .judged (notStarted i "executor_rejected" false) }.note (.abandoned i k))
  | .acting i k, .start =>
    if k < 2 then
      some { s with
        runs := Function.update s.runs i { s.runs i with attempts := 0 }
        main := .requesting i k .idle }
    else none
  | .acting i k, .raise exc stopRecorded | .requesting i k _, .raise exc stopRecorded =>
    some ({ s with main := raised i exc stopRecorded }.note (.abandoned i k))
  | .acting i k, .finish =>
    if k = 2 then some { s with main := .executed i .completed .none } else none
  | .requesting i k client, choice => clientStep s i k client choice
  | .executed i disposition category, .judge lower higher assessment reason =>
    match plan.pairs[i]? with
    | some pair => some { s with
        main := .judged (judgePair W R pair i disposition category lower higher assessment reason) }
    | none => none
  | .judged outcome, .record logged =>
    if logged then some { s with log := s.log ++ [.pair outcome.pair], main := .recorded outcome }
    else some { s with main := .failed }
  | .recorded outcome, .store saved logged =>
    let next : State :=
      { s with stopped := s.stopped || !outcome.continues, main := .entering (outcome.pair + 1) }
    if outcome.stores then
      if saved then
        let kept : State := { next with findings := s.findings ++ [outcome] }
        if logged then some { kept with log := s.log ++ [.finding outcome.pair] }
        else some { kept with main := .failed }
      else some { s with main := .failed }
    else some next
  | _, _ => none

inductive Step where
  | main (choice : MainChoice)
  | callback (id : Nat) (choice : CallChoice)

def step (s : State) : Step → Option State
  | .main choice => mainStep plan W R s choice
  | .callback id choice => callStep plan B s id choice

/-- An invocation: its threads step in any order. The preflight may have failed. -/
def invocation : Transition State Step where
  init s := ∃ preflight, s = { preflight }
  step s a t := step plan B W R s a = some t

end Heel.PlanExecution
