import Heel.Contracts.OperationalRun

/-! How Cloud judges one operational projection of a run against the last it accepted:
`_operational_within_budget` and `_source_state` of `heel/saas/canary_runs.py`. -/
namespace Heel.Cloud
open Lib.Checks Containment

def operationalWithinBudget (v : OperationalRun) (approval grant : Limits) : Bool :=
  let budgets := approval.budgets
  let c := v.counters
  decide (grant.budgets = budgets ∧ grant.retryPolicy = approval.retryPolicy ∧
    c.requestsStarted ≤ budgets.maximumRequests ∧
    c.remainingRequests = budgets.maximumRequests - c.requestsStarted ∧
    c.retriesUsed ≤ grant.retryPolicy.maximumRetries ∧
    c.actionsContained + c.retriesUsed = c.requestsStarted ∧
    c.responseBytesRead ≤ c.requestsCompleted * budgets.maximumResponseBytes ∧
    c.remainingWallMs ≤ budgets.wallTimeoutMs)

/-- The columns of a run that say what its runner last reported; a purged receipt is `none`. -/
structure Source where
  sourceEventSequence : Int := -1
  sourceProjectionDigest : Option String := none
  receipt : Option OperationalRun := none
  deriving DecidableEq, Repr

inductive SourceState where
  | replay | new
  deriving DecidableEq, Repr

def canaryRunError (code : String) : Refusal := ⟨.canaryRunError, code⟩

/-- What `_source_state` compares with the stored receipt. -/
def counterRegression (previous v : OperationalRun) : Bool :=
  decide (¬ Counters.Le previous.counters.toCounters v.counters.toCounters ∨
    previous.counters.remainingRequests < v.counters.remainingRequests ∨
    previous.counters.remainingWallMs < v.counters.remainingWallMs ∨
    v.redactionCount < previous.redactionCount)

def sourceState (row : Source) (v : OperationalRun) : Except Refusal SourceState :=
  if v.eventSequence = row.sourceEventSequence then
    if row.sourceProjectionDigest = some v.projectionDigest then .ok .replay
    else .error (canaryRunError "source_sequence_conflict")
  else do
    require (row.sourceEventSequence ≤ v.eventSequence) (canaryRunError "source_sequence_gap")
    match row.receipt with
    | none => .ok .new
    | some previous =>
      require (!counterRegression previous v) (canaryRunError "operational_counter_regression")
      require (previous.timestamps.updatedAtMs ≤ v.timestamps.updatedAtMs)
        (canaryRunError "operational_time_regression")
      .ok .new

/-- The source columns once a projection is accepted and its receipt stored. -/
def Source.after (_ : Source) (v : OperationalRun) : Source where
  sourceEventSequence := v.eventSequence
  sourceProjectionDigest := some v.projectionDigest
  receipt := some v

structure IsNews (P : Platform) (approval grant : Limits) (row : Source) (v : OperationalRun) :
    Prop where
  valid : OperationalRun.validate P v = .ok ()
  budget : operationalWithinBudget v approval grant = true
  new : sourceState row v = .ok .new

/-- Every projection of the list is news after those before it. -/
def AllNews (P : Platform) (approval grant : Limits) : Source → List OperationalRun → Prop
  | _, [] => True
  | row, v :: rest => IsNews P approval grant row v ∧ AllNews P approval grant (row.after v) rest

variable {P : Platform} {approval grant : Limits}

theorem allNews_concat {row : Source} {vs : List OperationalRun} {v : OperationalRun} :
    AllNews P approval grant row (vs ++ [v]) ↔
      AllNews P approval grant row vs ∧ IsNews P approval grant (vs.foldl Source.after row) v := by
  induction vs generalizing row with
  | nil => simp [AllNews]
  | cons w rest ih =>
    simp only [List.cons_append, AllNews, List.foldl_cons]
    rw [ih, and_assoc]

theorem foldl_after {row : Source} (vs : List OperationalRun) :
    vs.foldl Source.after row = match vs.getLast? with | none => row | some v => row.after v := by
  cases vs using List.reverseRecOn with
  | nil => rfl
  | append_singleton xs x => simp [Source.after]

/-- Nothing `_source_state` compares goes back from `w` to `v`. -/
structure Succeeds (w v : OperationalRun) : Prop where
  sequence : w.eventSequence < v.eventSequence
  counters : Counters.Le w.counters.toCounters v.counters.toCounters
  requests : v.counters.remainingRequests ≤ w.counters.remainingRequests
  wall : v.counters.remainingWallMs ≤ w.counters.remainingWallMs
  redaction : w.redactionCount ≤ v.redactionCount
  time : w.timestamps.updatedAtMs ≤ v.timestamps.updatedAtMs

theorem counterRegression_iff {w v : OperationalRun} : counterRegression w v = false ↔
    Counters.Le w.counters.toCounters v.counters.toCounters ∧
      v.counters.remainingRequests ≤ w.counters.remainingRequests ∧
      v.counters.remainingWallMs ≤ w.counters.remainingWallMs ∧
      w.redactionCount ≤ v.redactionCount := by
  simp [counterRegression]

theorem sourceState_new {vs : List OperationalRun} {v : OperationalRun} (hv : 0 ≤ v.eventSequence)
    (h : ∀ w, vs.getLast? = some w → Succeeds w v) :
    sourceState (vs.foldl Source.after {}) v = .ok .new := by
  rw [foldl_after]
  cases hl : vs.getLast? with
  | none =>
    have hne : v.eventSequence ≠ -1 := by omega
    simp only [sourceState, hne, if_false, bind_ok, require_ok, exists_const]
    exact ⟨by omega, trivial⟩
  | some w =>
    have hs := h w hl
    have hne : v.eventSequence ≠ w.eventSequence := by have := hs.sequence; omega
    have hreg : counterRegression w v = false :=
      counterRegression_iff.mpr ⟨hs.counters, hs.requests, hs.wall, hs.redaction⟩
    simp only [sourceState, Source.after, hne, if_false, bind_ok, require_ok, exists_const, hreg]
    exact ⟨(), (require_ok _ _ _).mpr hs.sequence.le, rfl, hs.time, trivial⟩

theorem noRegression_of_new {row : Source} {w v : OperationalRun}
    (h : sourceState (row.after w) v = .ok .new) : counterRegression w v = false := by
  unfold sourceState at h
  split at h
  · split at h <;> cases h
  · simp only [Source.after, bind_ok, require_ok, exists_const, Bool.not_eq_true'] at h
    obtain ⟨_, _, hreg, _⟩ := h
    exact hreg

end Heel.Cloud
