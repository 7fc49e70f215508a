import Heel.Saas.Quota

/-! The writers of a run's rows outside `CanaryRunService`: the lifecycle reaper
(`heel/saas/canary_reaper.py`), with its cycle of `expire_and_reconcile` and
`_request_authority_stops`, the revocation and the rotation of a runner in
`heel/saas/runner_auth.py`, and the nightly repair. -/
namespace Heel.Cloud
open Lib Lib.Checks

def heartbeatStaleMs : Int := 5000
def stopWindowMs : Int := 5000

/-- `updated_at` of a receipt, from which its retention is counted. -/
def ReceiptRow.updatedAt (r : ReceiptRow) : Int := r.purgeAt - operationalRetentionMs

variable (P : Platform) (env : Env)

/-! ### The transaction -/

/-- `_verification_digest_matches` of the reaper: a text that is purged does not match. -/
def liveDigestMatches (db : RunDb) : Bool :=
  match db.approval.projectionJson, db.grant.grantJson with
  | some approval, some grant => verificationDigestMatches env approval grant
  | _, _ => false

/-- The stop that a lost authority asks for, with the error category it leaves. -/
def lostAuthority (now : Int) (db : RunDb) : Option (StopReason × ErrorCategory) :=
  if env.runnerStatus ≠ .active ∨ ¬ env.keyActive ∨ env.keyRevoked then
    some (.runnerRevoked, db.run.errorCategory)
  else if ¬ liveDigestMatches env db then some (.targetRevoked, .versionMismatch)
  else if env.environmentStatus ≠ .verified ∨ env.proofRevoked then
    some (.targetRevoked, db.run.errorCategory)
  else if ¬ env.proofExpiresAtMs.any (now < ·) then some (.targetRevoked, .proofExpired)
  else if env.killActive ∨ db.run.binding.killSwitchGeneration ≠ env.controlGeneration then
    some (.killSwitch, db.run.errorCategory)
  else none

/-- A refund counts as made if its row is new or was there; what is told is whether it is new. -/
def refundReserved (db : RunDb) : Except Refusal (RunDb × Bool) := do
  let (created, ledger) ← db.ledger.settle db.run.binding.reservationId .refund
  if created ∨ ledger.has db.run.binding.reservationId .refund then
    return ({ db with ledger := ledger, run := { db.run with quotaState := .refunded } }, created)
  else return ({ db with ledger := ledger }, created)

/-- The unit of an unclaimed run that has lost its authority. -/
def refundCancelled (db : RunDb) : Except Refusal (RunDb × Bool) :=
  if db.run.quotaState = .reserved then do
    let (db, created) ← refundReserved db
    require (db.run.quotaState = .refunded)
      ⟨.runtimeError, "unclaimed canary refund could not be proven"⟩
    return (db, created)
  else .ok (db, false)

def unclaimedLost (now : Int) (db : RunDb) : Bool :=
  db.run.status = .approved ∧ db.grant.status ∈ [GrantStatus.prepared, .approved, .issued] ∧
    (lostAuthority env now db).isSome

def RunDb.cancelled (db : RunDb) (now : Int) : RunDb :=
  RunDb.appendEvent (RunDb.appendEvent { db with
    grant := { db.grant with status := .revoked, purgeAt := now + projectionRetentionMs }
    run := { db.run with status := .cancelled, updatedAt := max db.run.updatedAt now }
    approval := { db.approval with purgeAt := now + projectionRetentionMs } })

def cancelUnclaimed (now : Int) (db : RunDb) : Except Refusal RunDb :=
  if unclaimedLost env now db then do
    let (db, created) ← refundCancelled db
    db.run.binding.checkPurge (now + projectionRetentionMs)
    return if created then (db.cancelled now).appendEvent else db.cancelled now
  else .ok db

/-- The columns that tell when the runner of an acknowledged stop was last heard. -/
def RunDb.heard (db : RunDb) : List Int :=
  [db.run.lastHeartbeatAtMs, db.receipt.map ReceiptRow.updatedAt,
    db.run.stopAcknowledgedAtMs].reduceOption

def disconnected (now : Int) (db : RunDb) : Bool :=
  db.run.status = .finalizing ∧ db.run.stopReason ≠ .none ∧ db.run.stopAcknowledgedAtMs ≠ none ∧
    db.heard.all (· ≤ now - heartbeatStaleMs)

/-- The unit of a run whose last receipt reports that no request was started. -/
def refundUnstarted (db : RunDb) : Except Refusal (RunDb × Bool) :=
  if db.run.quotaState = .reserved ∧
      (db.receipt.bind ReceiptRow.receiptJson).any (·.counters.requestsStarted = 0) then
    refundReserved db
  else .ok (db, false)

def RunDb.abandoned (db : RunDb) (now : Int) : RunDb :=
  RunDb.appendEvent { db with
    run := { db.run with
      status := .terminal
      executionDisposition := some .stopped
      terminalAtMs := some now
      updatedAt := max db.run.updatedAt now }
    grant := { db.grant with status := .terminal, purgeAt := now + projectionRetentionMs }
    approval := { db.approval with purgeAt := now + projectionRetentionMs } }

/-- The sweep over runs that are silent since they acknowledged their stop. -/
def finalizeDisconnected (now : Int) (db : RunDb) : Except Refusal RunDb :=
  if disconnected now db then do
    let (db, created) ← refundUnstarted db
    db.run.binding.checkPurge (now + projectionRetentionMs)
    return if created then (db.abandoned now).appendEvent else db.abandoned now
  else .ok db

/-- The columns that tell when the runner of a live run was last heard. -/
def RunDb.alive (db : RunDb) : List Int :=
  [db.run.lastHeartbeatAtMs, db.receipt.map ReceiptRow.updatedAt, db.run.claimedAtMs].reduceOption

def stopCause (now : Int) (db : RunDb) : Option (StopReason × ErrorCategory) :=
  (lostAuthority env now db).or
    (if db.grant.status ≠ .claimed ∨ db.grant.expiresAt ≤ now then
      some (.cloudStop, db.run.errorCategory)
    else if db.alive ≠ [] ∧ db.alive.all (· ≤ now - heartbeatStaleMs) then
      some (.cloudStop, .cloudDisconnected)
    else none)

/-- The sweep over live runs without a stop. -/
def recordStop (now : Int) (db : RunDb) : RunDb :=
  if db.run.status ∈ [Phase.claimed, .running, .finalizing] ∧ db.run.stopReason = .none then
    match stopCause env now db with
    | none => db
    | some (reason, category) => RunDb.appendEvent { db with run := { db.run with
        status := stopStatus db.run.status
        errorCategory := category
        stopReason := reason
        stopGeneration := env.controlGeneration
        stopRequestedAtMs := coalesce db.run.stopRequestedAtMs (some now)
        stopDeadlineAtMs := coalesce db.run.stopDeadlineAtMs (some (now + stopWindowMs))
        updatedAt := max db.run.updatedAt now } }
  else db

/-- `_request_authority_stops` as this run sees it. -/
def requestAuthorityStops (now : Int) (db : RunDb) : Except Refusal RunDb := do
  let db ← cancelUnclaimed env now db
  let db ← finalizeDisconnected now db
  return recordStop env now db

/-! ### The runner's end -/

/-- `_revoke_unused_canary_grants_in_transaction` on the grant of this run; `audited` is what the
inserts of its audit rows answer, which are to be purged with the run. -/
def revokeUnusedGrant (now : Int) (audited : Except Refusal Unit) (db : RunDb) :
    Except Refusal RunDb :=
  if db.grant.status ∈ [GrantStatus.prepared, .approved, .issued] then do
    let (refunded, ledger) ← (if db.run.quotaState = .reserved then
      db.ledger.settle db.run.binding.reservationId .refund else .ok (false, db.ledger))
    db.run.binding.checkUpdated now
    audited
    let db' := RunDb.appendEvent (RunDb.appendEvent { db with
      ledger := ledger
      grant := { db.grant with status := .revoked }
      run := { db.run with
        status := .cancelled
        quotaState := if refunded ∨ db.run.quotaState = .refunded then .refunded
          else db.run.quotaState
        updatedAt := now } })
    return if refunded then db'.appendEvent else db'
  else .ok db

/-- `_stop_inflight_canary_runs_in_transaction`, for this run. -/
def stopInflight (now : Int) (audited : Except Refusal Unit) (db : RunDb) : Except Refusal RunDb :=
  if db.run.status ∈ [Phase.claimed, .running, .finalizing] ∧ db.run.stopReason = .none then do
    db.run.binding.checkUpdated now
    audited
    return (db.stopped env .runnerRevoked (stopStatus db.run.status) now).appendEvent
  else .ok db

/-- `revoke` of a runner, as its run sees it. -/
def revokeRunner (now : Int) (audited : Except Refusal Unit) (db : RunDb) :
    Except Refusal RunDb := do
  let db ← revokeUnusedGrant now audited db
  stopInflight env now audited db

/-- The transactions of others on the rows of a run. -/
inductive OutsideCall where
  | authorityStops (now : Int)
  | runnerRevoked (now : Int) (audited : Except Refusal Unit)
  | keyRotated (now : Int) (audited : Except Refusal Unit)
  | reconcileRefund (row : RunDb) (ledger : Ledger) (due : Bool)
  | reconcileCompensation (row : RunDb)

def outsideCall (db : RunDb) : OutsideCall → Except Refusal RunDb
  | .authorityStops now => requestAuthorityStops env now db
  | .runnerRevoked now audited => revokeRunner env now audited db
  | .keyRotated now audited => revokeUnusedGrant now audited db
  | .reconcileRefund row ledger due => reconcileRefund row ledger due db
  | .reconcileCompensation row => reconcileCompensation row db

/-- A transaction that raises leaves the rows as they were. -/
def RunDb.commit (db : RunDb) : Except Refusal RunDb → RunDb
  | .ok db' => db'
  | .error _ => db

def outsideTransact (db : RunDb) (c : OutsideCall) : RunDb := db.commit (outsideCall env db c)

/-! ### The cycle -/

/-- What a cycle finds. The clock is read once before its transactions, and again by
`expire_and_reconcile`. Each transaction sweeps the rows of every run, and raises if it raises for
another one: `contexts` is what the transaction of the runner contexts answers, which touches no
claimed run, and `reconciled` and `swept` what the two others answer for the other rows. -/
structure ReaperCycle where
  now : Int
  contexts : Except Refusal Unit := .ok ()
  reconcile : Env
  closing : Bool
  reconciled : Except Refusal Unit := .ok ()
  authority : Env
  swept : Except Refusal Unit := .ok ()

/-- The readings of the clock that decide on a run's stop. -/
def ReaperCycle.readings (c : ReaperCycle) : List Int := [c.now, c.reconcile.now .start]

/-- The second transaction of `_cycle`, on the rows of this run. -/
def ReaperCycle.reconcileRun (c : ReaperCycle) (db : RunDb) : Except Refusal RunDb := do
  let db ← expireAndReconcile c.reconcile c.closing db
  c.reconciled
  return db

def ReaperCycle.sweepRun (c : ReaperCycle) (db : RunDb) : Except Refusal RunDb := do
  let db ← requestAuthorityStops c.authority c.now db
  c.swept
  return db

/-- The rows of the run after `_cycle`: each transaction commits by itself, and the first that
raises ends the cycle. -/
def ReaperCycle.run (c : ReaperCycle) (db : RunDb) : RunDb :=
  match c.contexts, c.reconcileRun db with
  | .ok _, .ok mid => mid.commit (c.sweepRun mid)
  | _, _ => db

inductive ReapedCall where
  | call (c : Call)
  | outside (c : OutsideCall)
  /-- Other reservations' rows. -/
  | others (rows : Ledger)

/-- The rows after a transaction of the service, of another writer, or on other runs. -/
def reapedStep (db : RunDb) : ReapedCall → RunDb → Prop
  | .call c, t => t = serve P env db c
  | .outside c, t => t = outsideTransact env db c
  | .others rows, t => (∀ e ∈ rows, e.reservationId ≠ db.run.binding.reservationId) ∧
      t = { db with ledger := db.ledger ++ rows }

/-- Every interleaving of the transactions on one run whose grant is issued, those of the reaper, of
its runner's end and of the nightly repair among them. -/
def reaped : Transition RunDb (Env × ReapedCall) where
  init := Issued
  step db a db' := reapedStep P a.1 db a.2 db'

/-- A stop is recorded, its deadline has passed, and the runner has not been heard since. -/
structure Abandoned (now : Int) (db : RunDb) : Prop where
  stopped : db.run.stopReason ≠ .none
  status : db.run.status ∈ [Phase.stopRequested, .finalizing]
  deadline : db.run.stopDeadlineAtMs.any (· ≤ now)
  silent : ∀ heard ∈ db.heard, heard ≤ now - heartbeatStaleMs

/-- The run has ended as stopped, and its grant with it. -/
structure EndedStopped (db : RunDb) : Prop where
  status : db.run.status = .terminal
  disposition : db.run.executionDisposition = some .stopped
  grant : db.grant.status = .terminal

/-- The times a row of the reaper's own gets are no earlier than the row allows. -/
def Binding.Purgeable (b : Binding) (now : Int) : Prop :=
  b.issuedAt < now + projectionRetentionMs ∧ b.createdAt < now + projectionRetentionMs

/-- The first two transactions raise for no other row, and the stop is one that a sweep ends: it is
not acknowledged and the reconciler's clock is no earlier than the run, or its run is finalizing and
the third transaction raises for no other row; and that sweep's clock is less than a day before the
grant and the run. -/
def Reapable (c : ReaperCycle) (db : RunDb) : Prop :=
  c.contexts = .ok () ∧ c.reconciled = .ok () ∧
    ((db.run.stopAcknowledgedAtMs = none ∧ db.run.binding.createdAt ≤ c.reconcile.now .start ∧
        db.run.binding.Purgeable (c.reconcile.now .start)) ∨
      (db.run.stopAcknowledgedAtMs ≠ none ∧ db.run.status = .finalizing ∧ c.swept = .ok () ∧
        db.run.binding.Purgeable c.now))

/-! ### The columns of a stop -/

variable {P : Platform} {env : Env} {db db' : RunDb}

/-- What holds of a run between the transactions, the reaper's included. -/
structure StopInv (db : RunDb) : Prop where
  deadline : db.run.stopDeadlineAtMs ≠ none → db.run.stopReason ≠ .none
  acknowledged : db.run.stopAcknowledgedAtMs ≠ none → db.run.stopReason ≠ .none
  /-- A reserved unit is known to the ledger and not settled. -/
  unit : db.run.quotaState = .reserved →
    db.ledger.has db.run.binding.reservationId .reserve = true ∧
      db.ledger.has db.run.binding.reservationId .consume = false ∧
      db.ledger.has db.run.binding.reservationId .refund = false

structure RunUnit (db : RunDb) : Prop where
  deadline : db.run.stopDeadlineAtMs ≠ none → db.run.stopReason ≠ .none
  unit : db.run.quotaState = .reserved →
    db.ledger.has db.run.binding.reservationId .reserve = true ∧
      db.ledger.has db.run.binding.reservationId .consume = false ∧
      db.ledger.has db.run.binding.reservationId .refund = false

theorem StopInv.runUnit (h : StopInv db) : RunUnit db := ⟨h.deadline, h.unit⟩

theorem Settled.unreserved {error : ErrorCategory} {ledger : Ledger} {quota : QuotaState}
    (h : Settled db error ledger quota) : quota ≠ .reserved := by
  cases h with
  | kept hq => exact hq
  | refund => decide
  | compensate => decide

theorem Edit.unit {R : RunDb → Prop} {s t : RunDb} (hi : RunUnit s) (h : Edit P R s t) :
    RunUnit t := by
  cases h with
  | stop reason error generation now deadline hr => exact ⟨fun _ => hr, hi.unit⟩
  | consume ledger hq hl =>
    refine ⟨hi.deadline, ?_⟩
    rintro ⟨⟩
  | terminate disposition error reason requested started now grantPurge approvalPurge
      ledger quota hs
      hr hq =>
    refine ⟨fun hd => ?_, fun h => absurd h hq.unreserved⟩
    have hstop := hi.deadline hd
    exact (hr hstop).symm ▸ hstop
  | release now approvalPurge ledger quota hu hR hq =>
    exact ⟨hi.deadline, fun h => absurd h hq.unreserved⟩
  | _ => exact ⟨hi.deadline, hi.unit⟩

theorem transact_unit (c : Call) (hi : RunUnit db) : RunUnit (transact P env db c) := by
  obtain ⟨last, hlast, h⟩ : ∃ last, Edits P (fun _ => True) db last ∧
      (transact P env db c = last ∨ ∃ now, transact P env db c = last.purge now) :=
    transact_edits c (fun _ _ _ => trivial)
  have hkept := hlast.keep (fun s t hs he => Edit.unit hs he) hi
  rcases h with h | ⟨now, h⟩
  · rw [h]
    exact hkept
  · rw [h]
    exact ⟨hkept.deadline, hkept.unit⟩

theorem reconcileRefund_frame {row : RunDb} {ledger : Ledger} {due : Bool}
    (h : reconcileRefund row ledger due db = .ok db') : QuotaFrame db db' := by
  unfold reconcileRefund repairCanaryRefund at h
  split at h
  · split at h
    · cases h
      exact .refl db
    · simp only [bind_ok, pure, Except.pure, Except.ok.injEq] at h
      obtain ⟨⟨created, l'⟩, -, rfl⟩ := h
      cases created <;> exact ⟨rfl, rfl, rfl, rfl⟩
  · cases h
    exact .refl db

theorem reconcileCompensation_frame {row : RunDb}
    (h : reconcileCompensation row db = .ok db') : QuotaFrame db db' := by
  unfold reconcileCompensation repairCanaryCompensation at h
  split at h
  · split at h
    · cases h
      exact .refl db
    · simp only [bind_ok, pure, Except.pure, Except.ok.injEq] at h
      obtain ⟨⟨created, l'⟩, -, rfl⟩ := h
      cases created <;> exact ⟨rfl, rfl, rfl, rfl⟩
  · cases h
    exact .refl db

/-- The acknowledgement column, which one call writes. -/
def RunDb.ack (db : RunDb) : Option Int := db.run.stopAcknowledgedAtMs

theorem persistAuthorityStop_ack (reading : Reading) :
    (persistAuthorityStop env reading db).ack = db.ack := by
  unfold persistAuthorityStop
  split <;> rfl

theorem stopDiscoveryRound_ack (now : Int) : (stopDiscoveryRound env now db).ack = db.ack := by
  unfold stopDiscoveryRound persistDiscoveryStop
  split
  · split <;> rfl
  · split <;> rfl

theorem discoveryLiveCheck_ack (now : Int) : (discoveryLiveCheck env now db).ack = db.ack := by
  unfold discoveryLiveCheck
  split
  · rfl
  · split
    · rfl
    · exact stopDiscoveryRound_ack now

theorem gate_ack {answer : Gate} (h : gate env db = .ok (db', answer)) : db'.ack = db.ack := by
  simp only [gate, bind_ok, pure, Except.pure, Except.ok.injEq, Prod.mk.injEq] at h
  obtain ⟨_, -, rfl, -⟩ := h
  have hlive : (discoveryLiveCheck env (env.now .liveCheck) db).ack = db.ack :=
    discoveryLiveCheck_ack _
  rw [← hlive]
  unfold RunDb.ack
  dsimp only
  split
  · exact persistAuthorityStop_ack .gateStop
  · rfl

theorem claim_ack {first : Bool} {answer : Option Gate}
    (h : claim env first db = .ok (db', answer)) : db'.ack = db.ack := by
  have hlive : (if db.grant.status = .issued then discoveryLiveCheck env (env.now .start) db
      else db).ack = db.ack := by
    split
    · exact discoveryLiveCheck_ack _
    · rfl
  simp only [claim] at h
  rw [← hlive]
  generalize (if db.grant.status = .issued then discoveryLiveCheck env (env.now .start) db else db)
    = mid at h
  by_cases hfirst : first ∧ mid.grant.status = .issued ∧ env.now .start < mid.grant.expiresAt
  · rw [if_pos hfirst] at h
    simp only [bind_ok] at h
    obtain ⟨⟨out, g⟩, hclaim, h⟩ := h
    cases h
    obtain ⟨-, -, hgate⟩ := claimGrant_ok hclaim
    have hkept := gate_ack hgate
    exact hkept
  · rw [if_neg hfirst] at h
    cases h
    rfl

theorem QuotaFrame.ack (h : QuotaFrame db db') : db'.ack = db.ack := by
  unfold RunDb.ack
  rw [h.run]

theorem advanced_ack (v : OperationalRun) (receivedAt : Int) :
    (db.advanced env v receivedAt).ack = db.ack := by
  unfold RunDb.advanced
  dsimp only
  split
  · split <;> rfl
  · split <;> rfl

theorem acceptOperational_ack {operation : Operation} {v : OperationalRun} {how : Acceptance}
    (h : acceptOperational P env operation v db = .ok (db', how)) : db'.ack = db.ack := by
  simp only [acceptOperational, bind_ok, require_ok, exists_const] at h
  obtain ⟨⟨approval, grant⟩, -, _, -, -, -, -, h⟩ := h
  have hmid : (if (!verificationDigestMatches env approval grant) = true
      then persistAuthorityStop env .authorityStop db else db).ack = db.ack := by
    split
    · exact persistAuthorityStop_ack _
    · rfl
  rw [← hmid]
  generalize (if (!verificationDigestMatches env approval grant) = true
    then persistAuthorityStop env .authorityStop db else db) = mid at h
  split at h
  · cases h
    rfl
  split at h
  · cases h
    rfl
  split at h
  · simp only [preserveAfterStop, bind_ok] at h
    obtain ⟨state, -, h⟩ := h
    cases state with
    | replay =>
      cases h
      rfl
    | new =>
      simp only [bind_ok, require_ok, exists_const] at h
      obtain ⟨-, last, hlast, h⟩ := h
      cases h
      exact (consumeIfStarted_frame hlast).ack
  split at h
  · cases h
    rfl
  · simp only [acceptNews, bind_ok, require_ok, exists_const] at h
    obtain ⟨-, state, -, h⟩ := h
    cases state with
    | replay =>
      cases h
      rfl
    | new =>
      simp only [bind_ok, require_ok, exists_const] at h
      obtain ⟨-, last, hlast, h⟩ := h
      cases h
      exact (advanced_ack v _).trans (consumeIfStarted_frame hlast).ack

theorem heartbeat_ack {v : OperationalRun} {answer : Gate}
    (h : heartbeat P env v db = .ok (db', answer)) : db'.ack = db.ack := by
  simp only [heartbeat, bind_ok] at h
  obtain ⟨⟨mid, how⟩, hmid, hgate⟩ := h
  refine (gate_ack hgate).trans (Eq.trans ?_ (acceptOperational_ack hmid))
  split <;> rfl

theorem progress_ack {v : OperationalRun} (h : progress P env v db = .ok db') :
    db'.ack = db.ack := by
  simp only [progress, bind_ok, pure, Except.pure, Except.ok.injEq] at h
  obtain ⟨⟨mid, how⟩, hmid, rfl⟩ := h
  refine Eq.trans ?_ (acceptOperational_ack hmid)
  split <;> rfl

theorem requestStop_ack {reason : StopReason} {generation : Int}
    (h : requestStop env reason generation db = .ok db') : db'.ack = db.ack := by
  simp only [requestStop, bind_ok, require_ok, exists_const] at h
  obtain ⟨-, h⟩ := h
  split at h
  · simp only [bind_ok, require_ok, exists_const] at h
    obtain ⟨-, h⟩ := h
    cases h
    rfl
  · simp only [bind_ok, require_ok, exists_const] at h
    obtain ⟨-, -, h⟩ := h
    cases h
    rfl

theorem settleTerminalQuota_ack {v : OperationalRun} (h : settleTerminalQuota v db = .ok db') :
    db'.ack = db.ack := by
  unfold settleTerminalQuota at h
  split at h
  · simp only [bind_ok, require_ok, exists_const] at h
    obtain ⟨_, -, -, h⟩ := h
    cases h
    rfl
  split at h
  · simp only [bind_ok] at h
    obtain ⟨_, -, h⟩ := h
    split at h
    · cases h
      rfl
    · cases h
      rfl
  · cases h
    rfl

theorem result_ack {v : OperationalRun} {discovery : Except Refusal Unit}
    (h : result P env v discovery db = .ok db') : db'.ack = db.ack := by
  simp only [result, bind_ok] at h
  obtain ⟨⟨approval, grant⟩, -, _, -, h⟩ := h
  have hmid : (if (!verificationDigestMatches env approval grant) = true
      then persistAuthorityStop env .authorityStop db else db).ack = db.ack := by
    split
    · exact persistAuthorityStop_ack _
    · rfl
  rw [← hmid]
  generalize (if (!verificationDigestMatches env approval grant) = true
    then persistAuthorityStop env .authorityStop db else db) = mid at h
  split at h
  · cases h
    rfl
  simp only [bind_ok] at h
  obtain ⟨source, -, h⟩ := h
  split at h
  · simp only [bind_ok] at h
    obtain ⟨_, -, h⟩ := h
    cases h
    rfl
  · simp only [bind_ok, require_ok, exists_const] at h
    obtain ⟨-, _, -, started, hstarted, settled, hsettled, _, -, _, -, h⟩ := h
    cases h
    have hfinalizing : ∀ now, (started.enterFinalizing now).ack = started.ack := by
      intro now
      unfold RunDb.enterFinalizing
      split <;> rfl
    have hlast := ((settleTerminalQuota_ack hsettled).trans (hfinalizing _)).trans
      (consumeIfStarted_frame hstarted).ack
    refine Eq.trans ?_ hlast
    simp only [RunDb.ack, RunDb.terminated, RunDb.storeReceipt, RunDb.appendEvent, coalesce,
      Option.or_none]

theorem closeDueAuthorization_ack (closing : Bool) :
    (closeDueAuthorization env closing db).ack = db.ack := by
  unfold closeDueAuthorization
  split
  · exact stopDiscoveryRound_ack _
  · rfl

theorem finalizeOrphan_ack {now : Int} (h : finalizeOrphan now db = .ok db') :
    db'.ack = db.ack := by
  simp only [finalizeOrphan, bind_ok, pure, Except.pure, Except.ok.injEq] at h
  obtain ⟨mid, hmid, _, -, _, -, rfl⟩ := h
  obtain ⟨ledger, quota, events, -, rfl⟩ :
      ∃ ledger quota events, Settled (db.reapFinalizing now) .none ledger quota ∧ _ :=
    refundOrphan_settled hmid
  have hfinalizing : (db.reapFinalizing now).ack = db.ack := by
    unfold RunDb.reapFinalizing
    split <;> rfl
  exact hfinalizing

theorem releaseUnclaimed_ack {now : Int} (h : releaseUnclaimed now db = .ok db') :
    db'.ack = db.ack := by
  simp only [releaseUnclaimed, bind_ok, pure, Except.pure, Except.ok.injEq] at h
  obtain ⟨mid, hmid, _, -, rfl⟩ := h
  obtain ⟨ledger, quota, -, rfl⟩ := refundUnclaimed_settled hmid
  dsimp only
  split <;> rfl

theorem expireAndReconcile_ack {closing : Bool} (h : expireAndReconcile env closing db = .ok db') :
    db'.ack = db.ack := by
  simp only [expireAndReconcile, bind_ok, pure, Except.pure, Except.ok.injEq] at h
  obtain ⟨mid, hmid, last, hlast, rfl⟩ := h
  have h1 : mid.ack = (closeDueAuthorization env closing db).ack := by
    split at hmid
    · exact releaseUnclaimed_ack hmid
    · cases hmid
      rfl
  have h2 : last.ack = mid.ack := by
    split at hlast
    · exact finalizeOrphan_ack hlast
    · cases hlast
      rfl
  exact h2.trans (h1.trans (closeDueAuthorization_ack closing))

/-- The one call that writes the column finds a stop with a deadline. -/
theorem ackStop_acknowledged {v : OperationalRun} {late : Bool} (hi : RunUnit db)
    (h : ackStop P env v db = .ok (db', late)) :
    db'.ack = db.ack ∨ db'.run.stopReason ≠ .none := by
  simp only [ackStop, bind_ok] at h
  obtain ⟨⟨approval, grant⟩, -, _, hvalid, state, -, h⟩ := h
  have hmid : (if verificationDigestMatches env approval grant = true then db
      else persistAuthorityStop env .authorityStop db).ack = db.ack := by
    split
    · rfl
    · exact persistAuthorityStop_ack _
  have hunit : RunUnit (if verificationDigestMatches env approval grant = true then db
      else persistAuthorityStop env .authorityStop db) := by
    split
    · exact hi
    · exact (persistAuthorityStop_edits (P := P) (R := fun _ => True) _).keep
        (fun s t hs he => Edit.unit hs he) hi
  rw [← hmid]
  generalize (if verificationDigestMatches env approval grant = true then db
    else persistAuthorityStop env .authorityStop db) = mid at h hunit
  split at h
  · simp only [bind_ok, require_ok, exists_const] at h
    obtain ⟨_, -, -, h⟩ := h
    cases h
    exact Or.inl rfl
  · right
    have hedits : Edits P (fun _ => True) mid
        (localStop env v (serverReceiptTime (env.now .received) mid.run) mid) :=
      localStop_edits _
    have hlocal := hedits.keep (fun s t hs he => Edit.unit hs he) hunit
    generalize localStop env v (serverReceiptTime (env.now .received) mid.run) mid = stopped
      at h hlocal
    simp only [acknowledge, bind_ok, require_ok, exists_const] at h
    obtain ⟨-, -, -, h⟩ := h
    split at h
    · rename_i acknowledged deadline _ hdeadline
      have hstop : stopped.run.stopReason ≠ .none := hlocal.deadline (by simp [hdeadline])
      simp only [bind_ok, require_ok, exists_const] at h
      obtain ⟨-, h⟩ := h
      split at h
      · simp only [bind_ok, require_ok, exists_const] at h
        obtain ⟨-, h⟩ := h
        cases h
        exact hstop
      · simp only [bind_ok] at h
        obtain ⟨started, hstarted, h⟩ := h
        cases h
        have hframe := (consumeIfStarted_frame hstarted).run
        simp only [RunDb.acknowledged, RunDb.storeReceipt, RunDb.appendEvent]
        rw [hframe]
        exact hstop
    · cases h

theorem Edits.stopped {R : RunDb → Prop} (h : Edits P R db db') (hs : db.run.stopReason ≠ .none) :
    db'.run.stopReason ≠ .none := by
  refine h.keep (Q := fun s => s.run.stopReason ≠ .none) ?_ hs
  intro s t hs he
  cases he with
  | stop reason error generation now deadline hr => exact hr
  | terminate disposition error reason requested started now grantPurge approvalPurge
      ledger quota hf
      hr hq => exact (hr hs).symm ▸ hs
  | _ => exact hs

theorem transact_acknowledged (c : Call) (hi : StopInv db) :
    (transact P env db c).ack ≠ none → (transact P env db c).run.stopReason ≠ .none := by
  intro hack
  have hunit : RunUnit db := hi.runUnit
  obtain ⟨last, hlast, hlater⟩ : ∃ last, Edits P (fun _ => True) db last ∧
      (transact P env db c = last ∨ ∃ now, transact P env db c = last.purge now) :=
    transact_edits c (fun _ _ _ => trivial)
  have hkept : db.run.stopReason ≠ .none → (transact P env db c).run.stopReason ≠ .none := by
    intro hs
    have := hlast.stopped hs
    rcases hlater with h | ⟨now, h⟩
    · rwa [h]
    · rwa [h]
  have hcases : (transact P env db c).ack = db.ack ∨
      (transact P env db c).run.stopReason ≠ .none := by
    unfold transact
    split
    · rename_i out hout
      cases c with
      | claim first =>
        obtain ⟨answer, h⟩ := fst_ok hout
        exact Or.inl (claim_ack h)
      | heartbeat v =>
        obtain ⟨answer, h⟩ := fst_ok hout
        exact Or.inl (heartbeat_ack h)
      | progress v => exact Or.inl (progress_ack hout)
      | requestStop reason generation => exact Or.inl (requestStop_ack hout)
      | ackStop v =>
        obtain ⟨late, h⟩ := fst_ok hout
        exact ackStop_acknowledged hunit h
      | result v discovery => exact Or.inl (result_ack hout)
      | discoveryClosed =>
        cases hout
        exact Or.inl (stopDiscoveryRound_ack _)
      | expireAndReconcile closing => exact Or.inl (expireAndReconcile_ack hout)
    · exact Or.inl rfl
  rcases hcases with hsame | hstop
  · have hbefore : db.ack ≠ none := hsame ▸ hack
    exact hkept (hi.acknowledged hbefore)
  · exact hstop

theorem transact_stopInv (c : Call) (hi : StopInv db) : StopInv (transact P env db c) := by
  have hunit : RunUnit (transact P env db c) := transact_unit c hi.runUnit
  exact ⟨hunit.deadline, transact_acknowledged c hi, hunit.unit⟩

theorem serve_stopInv (c : Call) (hi : StopInv db) : StopInv (serve P env db c) := by
  unfold serve
  split
  · exact hi
  · exact transact_stopInv c hi

end Heel.Cloud
