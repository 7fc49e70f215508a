import Heel.Host.Readback
import Heel.Lib.Transition

/-! `install` and `cleanup` of the policy installer (`deploy/host/h2_policy.py`) for one input: the
steps of the calls under way, what the helpers do to the namespace, and every interleaving. -/
namespace Heel.HostPolicy
open Lib Lib.JsonText Lib.Checks

abbrev Bytes := List UInt8
abbrev Identity := ℤ × ℤ

/-- `STATES`. -/
inductive OutcomeState where
  | new | identityOk | checked | installed | readbackOk | receiptReady | refusedInput
  | refusedPlatform | refusedReusedInput | unsupportedIpv6Only | identityMismatch
  | helperArgvInvalid | setnsFailed | helperExecFailed | checkRefused | installRefused
  | readbackMismatch | timeout | cleaned | quarantined
  deriving DecidableEq, Repr

/-- An outcome has a receipt when it is ready, and only then. -/
structure Outcome where
  state : OutcomeState
  receipt : Option Text
  tokens : List (String × String)
  sealed : receipt.isSome = true ↔ state = .receiptReady

def outcome (state : OutcomeState) (tokens : List (String × String))
    (h : state ≠ .receiptReady := by decide) : Outcome :=
  ⟨state, none, tokens, by simpa using h⟩

variable (policy : H2PolicyInput)

/-- `_receipt_document` in canonical bytes. -/
def receiptText : Text :=
  dumps (fun _ => []) (object [("schema", text "heel.h2a.receipt.v1"),
    ("generation_id", .str policy.generationId),
    ("namespace_dev", .int policy.namespaceIdentity.1),
    ("namespace_ino", .int policy.namespaceIdentity.2),
    ("bootstrap_fence", .str policy.bootstrapFence), ("installed", .bool true)])

inductive Batch where
  | check
  | install
  | readback
  | delete
  deriving DecidableEq, Repr

def Batch.writes : Batch → Bool
  | .install => true
  | .delete => true
  | _ => false

/-- How the child of a helper ends: its exit is seen in time, or it is killed for the time or for
its output, or an exception escapes and it is killed. -/
inductive Drive where
  | exited (status : ℤ) (output : Bytes)
  | timeout (reaped : Bool)
  | overflow (reaped : Bool)
  | raised (reaped : Bool)
  deriving DecidableEq, Repr

/-- What the host does to one helper; an identity that is not there is a descriptor that fails. -/
inductive Attempt where
  | outOfBudget
  | mismatched (identity : Option Identity)
  | execFailed
  | drove (drive : Drive)
  deriving DecidableEq, Repr

/-- Can it do so, for the identity of the input? -/
def Attempt.Possible (identity : Identity) : Attempt → Prop
  | .mismatched observed => observed ≠ some identity
  | _ => True

inductive Token where
  | exited
  | identityMismatch
  | helperExecFailed
  | timeout
  | overflow
  deriving DecidableEq, Repr

structure Run where
  token : Token
  status : Option ℤ := none
  output : Bytes := []
  reaped : Bool := true
  launched : Bool := false
  deriving DecidableEq, Repr

/-- `_helper`, or no run where an exception escapes. -/
def helper : Attempt → Option Run
  | .outOfBudget => some { token := .timeout }
  | .mismatched _ => some { token := .identityMismatch }
  | .execFailed => some { token := .helperExecFailed }
  | .drove (.exited status output) =>
    some { token := .exited, status := some status, output := output, launched := true }
  | .drove (.timeout reaped) => some { token := .timeout, reaped := reaped, launched := true }
  | .drove (.overflow reaped) => some { token := .overflow, reaped := reaped, launched := true }
  | .drove (.raised _) => none

def Attempt.launches : Attempt → Bool
  | .drove _ => true
  | _ => false

/-- Does the attempt leave a child that may still write? -/
def Attempt.loose : Attempt → Bool
  | .drove (.timeout reaped) => !reaped
  | .drove (.overflow reaped) => !reaped
  | .drove (.raised reaped) => !reaped
  | _ => false

/-- What a batch leaves of the table, by the bytes that list it: the check and the readback leave
it, an installed one is there, a deleted one is not. -/
def Batch.Applied : Batch → Option Bytes → Option Bytes → Prop
  | .check, before, after => after = before
  | .install, _, after => after.isSome = true
  | .readback, before, after => after = before
  | .delete, _, after => after = none

/-- A batch that exits with 0 was applied, and a readback printed the table; one that exits
otherwise was not; a killed one was or was not. -/
def Batch.Effect (batch : Batch) (attempt : Attempt) (before after : Option Bytes) : Prop :=
  match attempt with
  | .drove (.exited status output) =>
    if status = 0 then batch.Applied before after ∧ (batch = .readback → before = some output)
    else after = before
  | .drove _ => after = before ∨ batch.Applied before after
  | _ => after = before

/-- `HELPER_EXIT_CODES`. -/
def helperExitCode (status : ℤ) : Option OutcomeState :=
  if status = 124 then some .helperArgvInvalid
  else if status = 125 then some .setnsFailed
  else if status = 126 then some .helperExecFailed
  else none

/-- `_classify`: the failure state of a step, or none. -/
def classify (run : Run) (refused : OutcomeState) : Option OutcomeState :=
  match run.token with
  | .timeout => some .timeout
  | .overflow => some refused
  | .identityMismatch => some .identityMismatch
  | .helperExecFailed => some .helperExecFailed
  | .exited =>
    if run.status = some 0 then none else some ((run.status.bind helperExitCode).getD refused)

/-- `_parse`, to the depth that the interpreter allows. -/
def parse (depth : ℕ) (output : Bytes) : Value :=
  if output.all (· < 128) then
    let hooks : Hooks Unit := ⟨fun _ => .error (), uniquePairs ()⟩
    match loads hooks depth (output.map UInt8.toNat) with
    | .ok v => v
    | .error _ => .null
  else .null

inductive Phase where
  | check
  | install
  | readback
  deriving DecidableEq, Repr

def Phase.name : Phase → String
  | .check => "check"
  | .install => "install"
  | .readback => "readback"

def Phase.batch : Phase → Batch
  | .check => .check
  | .install => .install
  | .readback => .readback

def Phase.refused : Phase → OutcomeState
  | .check => .checkRefused
  | .install => .installRefused
  | .readback => .readbackMismatch

def OutcomeState.name : OutcomeState → String
  | .new => "new"
  | .identityOk => "identity_ok"
  | .checked => "checked"
  | .installed => "installed"
  | .readbackOk => "readback_ok"
  | .receiptReady => "receipt_ready"
  | .refusedInput => "refused_input"
  | .refusedPlatform => "refused_platform"
  | .refusedReusedInput => "refused_reused_input"
  | .unsupportedIpv6Only => "unsupported_ipv6_only"
  | .identityMismatch => "identity_mismatch"
  | .helperArgvInvalid => "helper_argv_invalid"
  | .setnsFailed => "setns_failed"
  | .helperExecFailed => "helper_exec_failed"
  | .checkRefused => "check_refused"
  | .installRefused => "install_refused"
  | .readbackMismatch => "readback_mismatch"
  | .timeout => "timeout"
  | .cleaned => "cleaned"
  | .quarantined => "quarantined"

/-- For what a table is removed: after a failed install, with its phase, cause and part, or in a
call of `cleanup`. -/
inductive Removal where
  | afterFailure (phase : String) (cause : OutcomeState) (part : String)
  | cleanup
  deriving DecidableEq, Repr

/-- The outcome of a removal with the given result. -/
def Removal.outcome (removal : Removal) (result : String) : Outcome :=
  let tokens := match removal with
    | .afterFailure phase cause part =>
      [("phase", phase), ("cause", cause.name), ("cleanup", result), ("readback", part)]
    | .cleanup => [("phase", "cleanup"), ("cleanup", result)]
  if result = "cleaned" then HostPolicy.outcome .cleaned tokens
  else HostPolicy.outcome .quarantined tokens

/-- The result of the helper that deletes the table. -/
def removalResult (run : Run) : String :=
  if classify run .installRefused = none then "cleaned"
  else if !run.reaped then "unreaped" else "refused"

/-- Where a call stands; `attempted` says that an install batch was launched. -/
inductive Frame where
  | entry
  | stepping (phase : Phase) (attempted : Bool)
  | final
  | removing (removal : Removal)
  | deleting (removal : Removal)
  | recording (outcome : Outcome)

def internal (tokens : List (String × String)) : Outcome := outcome .quarantined tokens

def installInternal : Outcome :=
  internal [("phase", "internal"), ("cause", "internal_error"), ("cleanup", "not_run")]

/-- What follows a look at the identity of the namespace. -/
def afterLook (identity : Option Identity) : Frame → Frame
  | .entry =>
    if identity ≠ some policy.namespaceIdentity then
      .recording (outcome .identityMismatch [("phase", "entry"), ("cleanup", "not_run")])
    else match renderTable policy with
      | .ok _ => .stepping .check false
      | .error _ => .recording installInternal
  | .final =>
    if identity ≠ some policy.namespaceIdentity then
      .removing (.afterFailure "final_identity" .identityMismatch "none")
    else .recording ⟨.receiptReady, some (receiptText policy),
      [("phase", "none"), ("readback", "exact")], by simp⟩
  | .removing removal =>
    if identity ≠ some policy.namespaceIdentity then
      .recording (removal.outcome "identity_mismatch")
    else .deleting removal
  | frame => frame

/-- The state of a step with its part, once its helper has run. -/
def stepState (depth : ℕ) (phase : Phase) (run : Run) : Option OutcomeState × String :=
  match classify run phase.refused with
  | some state => (some state, "none")
  | none =>
    if phase = .readback then
      match readback policy (parse depth run.output) with
      | .ok () => (none, "none")
      | .error part => (some .readbackMismatch, part)
    else (none, "none")

/-- What follows a step that does not fail. -/
def Phase.following : Phase → Bool → Frame
  | .check, attempted => .stepping .install attempted
  | .install, attempted => .stepping .readback attempted
  | .readback, _ => .final

/-- The failure state of a step as an outcome; it is never that of a receipt. -/
def failure (state : OutcomeState) (tokens : List (String × String)) : Outcome :=
  if h : state = .receiptReady then installInternal else outcome state tokens h

def afterStep (depth : ℕ) (phase : Phase) (attempted : Bool) (attempt : Attempt) : Frame :=
  match helper attempt with
  | none => .recording installInternal
  | some run =>
    let attempted := attempted || (phase = .install && run.launched)
    match stepState policy depth phase run with
    | (none, _) => phase.following attempted
    | (some state, part) =>
      if !run.reaped then
        .recording (outcome .quarantined
          [("phase", phase.name), ("cause", state.name), ("cleanup", "unknown_child")])
      else if !attempted then
        .recording (failure state [("phase", phase.name), ("cleanup", "not_run")])
      else .removing (.afterFailure phase.name state part)

/-- What follows the helper that deletes the table. -/
def afterDelete (removal : Removal) (attempt : Attempt) : Frame :=
  match helper attempt with
  | none =>
    match removal with
    | .afterFailure _ _ _ => .recording installInternal
    | .cleanup => .recording (removal.outcome "internal_error")
  | some run => .recording (removal.outcome (removalResult run))

inductive Call where
  | install
  | cleanup
  deriving DecidableEq, Repr

/-- A call that has returned, with the table at that time, whether some call and whether this one
had launched an install batch, and the identities that the call has seen. -/
structure Entry where
  call : Call
  outcome : Outcome
  table : Option Bytes
  launched : Bool
  own : Bool
  seen : List (Option Identity)

structure Active where
  call : Call
  frame : Frame
  own : Bool := false
  seen : List (Option Identity) := []

/-- The entry of the input in `_INPUTS`, the table of the namespace, and the calls under way; beside
them whether an install batch was ever launched, how many batches that write were, whether a child
that writes is not reaped, and the calls that have returned. -/
structure State where
  registry : Option OutcomeState := none
  table : Option Bytes
  active : List Active := []
  launched : Bool := false
  writes : ℕ := 0
  loose : Bool := false
  log : List Entry := []

def State.answer (s : State) (call : Call) (outcome : Outcome) : State :=
  { s with log := s.log ++ [⟨call, outcome, s.table, s.launched, false, []⟩] }

/-- The entry of `install` and of `cleanup`, with a descriptor or without one. -/
def State.begin (platform : Bool) (s : State) (descriptor : Bool) : Call → State
  | .install =>
    if !descriptor then s.answer .install (outcome .refusedInput [("phase", "entry")])
    else if ipv4EgressTargets policy = [] ∧ policy.controlOnly = false then
      s.answer .install (outcome .unsupportedIpv6Only [("phase", "entry")])
    else if !platform then s.answer .install (outcome .refusedPlatform [("phase", "entry")])
    else match s.registry with
      | some _ => s.answer .install (outcome .refusedReusedInput [("phase", "entry")])
      | none => { s with registry := some .new, active := s.active ++
          [⟨.install, .entry, false, []⟩] }
  | .cleanup =>
    if !descriptor then s.answer .cleanup (outcome .refusedInput [("phase", "cleanup")])
    else if !platform then s.answer .cleanup (outcome .refusedPlatform [("phase", "cleanup")])
    else match s.registry with
      | none => s.answer .cleanup
          (outcome .refusedInput [("phase", "cleanup"), ("cleanup", "not_installed")])
      | some .new => s.answer .cleanup
          (outcome .refusedReusedInput [("phase", "cleanup"), ("cleanup", "busy")])
      | some .receiptReady =>
        { s with
          registry := some .new
          active := s.active ++ [⟨.cleanup, .removing .cleanup, false, []⟩] }
      | some state => s.answer .cleanup (failure state [("phase", "cleanup"), ("cleanup", "noop")])

/-- The batch of the helper that a frame runs next. -/
def Frame.batch : Frame → Option Batch
  | .stepping phase _ => some phase.batch
  | .deleting _ => some .delete
  | _ => none

def afterRun (depth : ℕ) (attempt : Attempt) : Frame → Frame
  | .stepping phase attempted => afterStep policy depth phase attempted attempt
  | .deleting removal => afterDelete removal attempt
  | frame => frame

/-- The identity that a helper has seen of its descriptor. -/
def Attempt.saw (identity : Identity) : Attempt → List (Option Identity)
  | .outOfBudget => []
  | .mismatched observed => [observed]
  | _ => [some identity]

inductive Action where
  | begin (call : Call) (descriptor : Bool)
  | look (i : ℕ) (identity : Option Identity)
  | run (i : ℕ) (attempt : Attempt) (table : Option Bytes)
  | expire (i : ℕ)
  | raise (i : ℕ)
  | record (i : ℕ)
  | late (table : Option Bytes)

/-- The outcome that an exception makes of a frame. -/
def Frame.raised : Frame → Frame
  | .recording outcome => .recording outcome
  | .removing .cleanup => .recording (Removal.cleanup.outcome "internal_error")
  | .deleting .cleanup => .recording (Removal.cleanup.outcome "internal_error")
  | _ => .recording installInternal

def State.goes (s : State) (i : ℕ) (a : Active) : State := { s with active := s.active.set i a }

inductive Step (platform : Bool) (depth : ℕ) (s : State) : Action → State → Prop
  | begin (call : Call) (descriptor : Bool) :
      Step platform depth s (.begin call descriptor) (s.begin policy platform descriptor call)
  | look {i : ℕ} {a : Active} {identity : Option Identity} (ha : s.active[i]? = some a)
      (hframe : a.frame = .entry ∨ a.frame = .final ∨ ∃ removal, a.frame = .removing removal) :
      Step platform depth s (.look i identity)
        (s.goes i ⟨a.call, afterLook policy identity a.frame, a.own, a.seen ++ [identity]⟩)
  | run {i : ℕ} {a : Active} {batch : Batch} {attempt : Attempt} {table : Option Bytes}
      (ha : s.active[i]? = some a) (hbatch : a.frame.batch = some batch)
      (hpossible : attempt.Possible policy.namespaceIdentity)
      (heffect : batch.Effect attempt s.table table) :
      Step platform depth s (.run i attempt table)
        { s.goes i ⟨a.call, afterRun policy depth attempt a.frame,
            a.own || (decide (batch = .install) && attempt.launches),
            a.seen ++ attempt.saw policy.namespaceIdentity⟩ with
          table := table
          launched := s.launched || (decide (batch = .install) && attempt.launches)
          writes := s.writes + if batch.writes && attempt.launches then 1 else 0
          loose := s.loose || (batch.writes && attempt.loose) }
  /-- No time is left for the removal after a failure. -/
  | expire {i : ℕ} {a : Active} {phase part : String} {cause : OutcomeState}
      (ha : s.active[i]? = some a) (hframe : a.frame = .removing (.afterFailure phase cause part)) :
      Step platform depth s (.expire i) (s.goes i ⟨a.call,
        .recording ((Removal.afterFailure phase cause part).outcome "out_of_budget"),
        a.own, a.seen⟩)
  | raise {i : ℕ} {a : Active} (ha : s.active[i]? = some a) :
      Step platform depth s (.raise i) (s.goes i ⟨a.call, a.frame.raised, a.own, a.seen⟩)
  | record {i : ℕ} {a : Active} {outcome : Outcome} (ha : s.active[i]? = some a)
      (hframe : a.frame = .recording outcome) :
      Step platform depth s (.record i)
        { s with
          registry := some outcome.state
          active := s.active.eraseIdx i
          log := s.log ++ [⟨a.call, outcome, s.table, s.launched, a.own, a.seen⟩] }
  /-- A child that was killed and not reaped writes after all. -/
  | late {table : Option Bytes} (hloose : s.loose = true) :
      Step platform depth s (.late table) { s with table := table }

/-- The calls of one input, in any order, from a namespace with any table. -/
def installer (platform : Bool) (depth : ℕ) : Transition State Action where
  init s := s = { table := s.table }
  step s a t := Step policy platform depth s a t

end Heel.HostPolicy
