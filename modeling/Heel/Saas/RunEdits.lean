import Heel.Saas.RunCalls

/-! What the transactions can do to the rows of a run: each is a sequence of the edits below,
so an invariant is checked against the edits once and not against every branch of every call. -/
namespace Heel.Cloud
open Lib Lib.Checks

/-- The statuses a run is never taken out of. -/
def ended : Phase → Bool
  | .terminal | .cancelled | .expired => true
  | _ => false

/-- The ledger and the quota state of a run once its unit is settled at its end; `error` is the
category the run ends with. -/
inductive Settled (db : RunDb) (error : ErrorCategory) : Ledger → QuotaState → Prop
  | kept (hq : db.run.quotaState ≠ .reserved) : Settled db error db.ledger db.run.quotaState
  | refund (answer : Bool) (ledger : Ledger) (hq : db.run.quotaState = .reserved)
      (hl : db.ledger.settle db.run.binding.reservationId .refund = .ok (answer, ledger)) :
      Settled db error ledger .refunded
  | compensate (ledger : Ledger) (hq : db.run.quotaState = .consumed)
      (he : faultCompensation error = true)
      (hl : db.ledger.refundConsumed db.run.binding.reservationId error.name =
        .ok (true, ledger)) : Settled db error ledger .compensated

/-- One edit, with what the code has checked when it makes it. `R` is what the reaper may
assume of a run whose grant it releases. -/
inductive Edit (P : Platform) (R : RunDb → Prop) : RunDb → RunDb → Prop
  /-- Liveness columns and the event counter. -/
  | live (db : RunDb) (heartbeat : Option Int) (updated : Int) (events : Nat) :
      Edit P R db { db with run := { db.run with
        lastHeartbeatAtMs := heartbeat, updatedAt := updated, cloudEventSequence := events } }
  /-- A gate is answered at a later server time than the one before. -/
  | gate (db : RunDb) (serverTime updated : Int)
      (h : ∀ previous, db.run.lastGateAtMs = some previous → previous < serverTime) :
      Edit P R db { db with run := { db.run with
        lastGateAtMs := some serverTime, updatedAt := updated } }
  | claim (db : RunDb) (now : Int) (hs : db.run.status = .approved)
      (hg : db.grant.status = .issued) (hn : db.grant.nonceConsumed = false) :
      Edit P R db { db with
        grant := { db.grant with status := .claimed, nonceConsumed := true }
        run := { db.run with status := .claimed, claimedAtMs := some now } }
  /-- The grant of an unclaimed discovery round. -/
  | revoke (db : RunDb) (hs : db.run.status = .approved) (hg : db.grant.status = .issued) :
      Edit P R db { db with grant := { db.grant with status := .revoked } }
  | stop (db : RunDb) (reason : StopReason) (error : ErrorCategory) (generation now deadline : Int)
      (hr : reason ≠ .none) (hs : ended db.run.status = false)
      (h : db.run.stopReason = .none ∨ db.run.status ∈ [Phase.claimed, .running]) :
      Edit P R db { db with run := { db.run with
        status := stopStatus db.run.status, errorCategory := error, stopReason := reason
        stopGeneration := generation, stopRequestedAtMs := some now
        stopDeadlineAtMs := some deadline } }
  /-- The move of a live run that a projection, or the reaper, reports. -/
  | move (db : RunDb) (status : Phase) (error : ErrorCategory)
      (hs : (db.run.status = .claimed ∧ status = .running ∧ db.run.stopReason = .none) ∨
        (db.run.status ∈ [Phase.claimed, .running] ∧ status = .stopRequested ∧
          db.run.stopReason ≠ .none) ∨
        (db.run.status ∈ [Phase.claimed, .running, .stopRequested, .finalizing] ∧
          (status = db.run.status ∨ status = .finalizing))) :
      Edit P R db { db with run := { db.run with status := status, errorCategory := error } }
  /-- A projection becomes the source and the receipt. -/
  | report (db : RunDb) (v : OperationalRun) (state : SourceState) (started : Option Int)
      (purgeAt : Int) (hv : v.validate P = .ok ()) (hs : sourceState db.source v = .ok state)
      (hl : ended db.run.status = false ∧ db.run.status ≠ .approved)
      (hq : 0 < v.counters.requestsStarted → db.run.quotaState ≠ .reserved) :
      Edit P R db { db with
        run := { db.run with
          sourceEventSequence := v.eventSequence
          sourceProjectionDigest := some v.projectionDigest, startedAtMs := started }
        receipt := some ⟨v.lifecyclePhase, v.errorCategory, purgeAt, some v⟩ }
  /-- An acknowledgement after the end moves the source columns only. -/
  | evidence (db : RunDb) (v : OperationalRun) (state : SourceState) (hv : v.validate P = .ok ())
      (hs : sourceState db.source v = .ok state) (hl : db.run.status = .terminal)
      (hq : db.run.quotaState = .refunded → v.counters.requestsStarted ≤ 0) :
      Edit P R db { db with run := { db.run with
        sourceEventSequence := v.eventSequence
        sourceProjectionDigest := some v.projectionDigest } }
  | acknowledge (db : RunDb) (sequence : Int) (digest : String) (at_ local_ : Int) (late : Bool)
      (h : db.run.stopAcknowledgedAtMs = none ∧ db.run.witness = {}) :
      Edit P R db { db with run := { db.run with
        stopAcknowledgedAtMs := some at_, stopAckLate := late
        witness := ⟨some sequence, some digest, some local_⟩ } }
  | consume (db : RunDb) (ledger : Ledger) (hq : db.run.quotaState = .reserved)
      (hl : db.ledger.consume db.run.binding.reservationId = .ok (true, ledger)) :
      Edit P R db { db with
        ledger := ledger, run := { db.run with quotaState := .consumed } }
  /-- A run ends with its unit settled. -/
  | terminate (db : RunDb) (disposition : Option Disposition) (error : ErrorCategory)
      (reason : StopReason) (requested started : Option Int) (now grantPurge approvalPurge : Int)
      (ledger : Ledger) (quota : QuotaState) (hs : db.run.status = .finalizing)
      (hr : db.run.stopReason ≠ .none → reason = db.run.stopReason)
      (hq : Settled db error ledger quota) :
      Edit P R db { db with
        run := { db.run with
          status := .terminal, executionDisposition := disposition, errorCategory := error
          stopReason := reason, stopRequestedAtMs := requested, startedAtMs := started
          terminalAtMs := some now, quotaState := quota }
        grant := { db.grant with status := .terminal, purgeAt := grantPurge }
        approval := { db.approval with purgeAt := approvalPurge }
        ledger := ledger }
  /-- An unclaimed grant and its run are closed with the unit settled. -/
  | release (db : RunDb) (now approvalPurge : Int) (ledger : Ledger) (quota : QuotaState)
      (hu : unclaimed now db = true) (hR : R db) (hq : Settled db .none ledger quota) :
      Edit P R db { db with
        grant := { db.grant with
          status := if db.grant.status = .issued then .expired else .revoked }
        run := { db.run with
          status := if db.grant.status = .issued then .expired else .cancelled
          quotaState := quota }
        approval := { db.approval with purgeAt := approvalPurge }
        ledger := ledger }

abbrev Edits (P : Platform) (R : RunDb → Prop) : RunDb → RunDb → Prop :=
  Relation.ReflTransGen (Edit P R)

variable {P : Platform} {R : RunDb → Prop} {env : Env} {db db' : RunDb}

theorem validate_started {v : OperationalRun} (h : v.validate P = .ok ()) :
    0 ≤ v.counters.requestsStarted := by
  simp only [OperationalRun.validate, bind_ok, require_ok, exists_const] at h
  obtain ⟨_, -, -, _, -, _, -, _, -, -, _, -, _, hcounters, -⟩ := h
  simp only [validateRunCounters, bind_ok] at hcounters
  obtain ⟨_, hvalues, -⟩ := hcounters
  have hstarted := forM_ok.mp hvalues v.counters.requestsStarted (by
    simp [RunCounters.values, Containment.CounterField.all, Containment.Counters.get])
  simp only [contractInteger, require_ok] at hstarted
  exact hstarted.1

theorem Settled.congr {error : ErrorCategory} {ledger : Ledger} {quota : QuotaState}
    (h : Settled db error ledger quota) (hl : db'.ledger = db.ledger)
    (hq : db'.run.quotaState = db.run.quotaState) (hb : db'.run.binding = db.run.binding) :
    Settled db' error ledger quota := by
  cases h with
  | kept h =>
    rw [← hl, ← hq]
    exact .kept (by rwa [hq])
  | refund answer ledger h hsettle => exact .refund answer ledger (by rwa [hq]) (by rwa [hl, hb])
  | compensate ledger h he hsettle => exact .compensate ledger (by rwa [hq]) he (by rwa [hl, hb])

theorem Edit.one (h : Edit P R db db') : Edits P R db db' := .single h

/-- A state condition the edits keep is kept by a sequence of them. -/
theorem Edits.keep {Q : RunDb → Prop} (h : Edits P R db db')
    (hstep : ∀ s t, Q s → Edit P R s t → Q t) (hq : Q db) : Q db' := by
  induction h with
  | refl => exact hq
  | tail _ he ih => exact hstep _ _ ih he

theorem appendEvent_edits : Edits P R db db.appendEvent :=
  (Edit.live db db.run.lastHeartbeatAtMs db.run.updatedAt
    (db.run.cloudEventSequence + 1)).one

theorem touch_edits (now : Int) : Edits P R db
    (RunDb.appendEvent { db with run := { db.run with updatedAt := now } }) :=
  (Edit.live db db.run.lastHeartbeatAtMs now
    (db.run.cloudEventSequence + 1)).one

theorem persistAuthorityStop_edits (reading : Reading) :
    Edits P R db (persistAuthorityStop env reading db) := by
  unfold persistAuthorityStop
  split
  · exact .refl
  · rename_i h
    simp only [List.mem_cons, List.not_mem_nil, or_false, not_or, not_not] at h
    obtain ⟨⟨h1, h2, h3⟩, hstop⟩ := h
    have hlive : ended db.run.status = false := by
      cases hs : db.run.status <;> simp_all [ended]
    exact ((Edit.stop db .targetRevoked .versionMismatch env.controlGeneration _ _ (by decide) hlive
      (.inl hstop)).one).trans (touch_edits _)

theorem persistDiscoveryStop_edits (now : Int) :
    Edits P R db (persistDiscoveryStop env now db) := by
  unfold persistDiscoveryStop
  split
  · rename_i h
    have hlive : ended db.run.status = false := by
      cases hs : db.run.status <;> simp_all [ended]
    exact ((Edit.stop db .cloudStop db.run.errorCategory env.controlGeneration _ _ (by decide)
      hlive (.inl h.1)).one).trans (touch_edits _)
  · exact .refl

theorem stopDiscoveryRound_edits (now : Int) :
    Edits P R db (stopDiscoveryRound env now db) := by
  unfold stopDiscoveryRound
  split
  · rename_i hs
    split
    · rename_i hg
      exact ((Edit.revoke db hs hg).one).trans appendEvent_edits
    · exact .refl
  · exact persistDiscoveryStop_edits now

theorem discoveryLiveCheck_edits (now : Int) :
    Edits P R db (discoveryLiveCheck env now db) := by
  unfold discoveryLiveCheck
  split
  · exact .refl
  · split
    · exact .refl
    · exact stopDiscoveryRound_edits now

theorem gateAnswer_later {mismatch : Bool} (previous : Int)
    (h : db.run.lastGateAtMs = some previous) :
    previous < (gateAnswer env mismatch db).serverTimeMs := by
  simp only [gateAnswer, h]
  omega

theorem gate_edits {answer : Gate} (h : gate env db = .ok (db', answer)) : Edits P R db db' := by
  simp only [gate, bind_ok, pure, Except.pure, Except.ok.injEq, Prod.mk.injEq] at h
  obtain ⟨⟨approval, grant⟩, -, h, -⟩ := h
  subst h
  have hlive : Edits P R db (discoveryLiveCheck env (env.now .liveCheck) db) :=
    discoveryLiveCheck_edits _
  generalize discoveryLiveCheck env (env.now .liveCheck) db = mid at hlive ⊢
  split
  · exact (hlive.trans (persistAuthorityStop_edits .gateStop)).tail (.gate _ _ _ gateAnswer_later)
  · exact hlive.tail (.gate _ _ _ gateAnswer_later)

theorem claimGrant_ok {now : Int} {answer : Gate} (h : claimGrant env now db = .ok (db', answer)) :
    db.run.status = .approved ∧ db.grant.nonceConsumed = false ∧
      gate env (RunDb.appendEvent { db with
        grant := { db.grant with status := .claimed, nonceConsumed := true }
        run := { db.run with status := .claimed, claimedAtMs := some now, updatedAt := now } }) =
          .ok (db', answer) := by
  simp only [claimGrant, bind_ok, require_ok, exists_const, Bool.not_eq_true] at h
  obtain ⟨⟨approval, grant⟩, -, _, -, -, hnonce, hs, _, -, hgate⟩ := h
  exact ⟨hs, hnonce, hgate⟩

theorem claim_gate {first : Bool} {answer : Option Gate}
    (h : claim env first db = .ok (db', answer)) : ∃ mid, Edits P R db mid ∧
      (db' = mid ∧ answer = none ∨ ∃ g, answer = some g ∧ gate env mid = .ok (db', g)) := by
  have hlive : Edits P R db (if db.grant.status = .issued then
      discoveryLiveCheck env (env.now .start) db else db) := by
    split
    · exact discoveryLiveCheck_edits _
    · exact .refl
  simp only [claim] at h
  generalize (if db.grant.status = .issued then discoveryLiveCheck env (env.now .start) db else db)
    = mid at hlive h
  by_cases hfirst : first ∧ mid.grant.status = .issued ∧ env.now .start < mid.grant.expiresAt
  · rw [if_pos hfirst] at h
    simp only [bind_ok] at h
    obtain ⟨⟨out, g⟩, hclaim, h⟩ := h
    cases h
    obtain ⟨hs, hnonce, hgate⟩ := claimGrant_ok hclaim
    exact ⟨_, hlive.trans ((Edit.claim _ _ hs hfirst.2.1 hnonce).one.trans (touch_edits _)),
      .inr ⟨g, rfl, hgate⟩⟩
  · rw [if_neg hfirst] at h
    cases h
    exact ⟨_, hlive, .inl ⟨rfl, rfl⟩⟩

theorem claim_edits {first : Bool} {answer : Option Gate}
    (h : claim env first db = .ok (db', answer)) : Edits P R db db' := by
  obtain ⟨mid, hmid, ⟨rfl, -⟩ | ⟨g, -, hgate⟩⟩ := claim_gate (P := P) (R := R) h
  · exact hmid
  · exact hmid.trans (gate_edits hgate)

/-! ### Projections -/

/-- What the quota unit and its event leave alone. -/
structure QuotaFrame (db db' : RunDb) : Prop where
  run : db'.run = { db.run with
    quotaState := db'.run.quotaState, cloudEventSequence := db'.run.cloudEventSequence }
  grant : db'.grant = db.grant
  approval : db'.approval = db.approval
  receipt : db'.receipt = db.receipt

theorem QuotaFrame.refl (db : RunDb) : QuotaFrame db db := ⟨rfl, rfl, rfl, rfl⟩

theorem consumeIfStarted_frame {v : OperationalRun} (h : consumeIfStarted v db = .ok db') :
    QuotaFrame db db' := by
  unfold consumeIfStarted at h
  split at h
  · cases h
    exact .refl db
  · simp only [bind_ok, require_ok, exists_const] at h
    obtain ⟨⟨settled, ledger⟩, -, -, h⟩ := h
    cases h
    exact ⟨rfl, rfl, rfl, rfl⟩

theorem consumeIfStarted_started {v : OperationalRun} (h : consumeIfStarted v db = .ok db')
    (hv : 0 < v.counters.requestsStarted) : db'.run.quotaState ≠ .reserved := by
  unfold consumeIfStarted at h
  split at h
  · rename_i hq
    cases h
    rcases hq with hq | hq
    · omega
    · exact hq
  · simp only [bind_ok, require_ok, exists_const] at h
    obtain ⟨⟨settled, ledger⟩, -, -, h⟩ := h
    cases h
    simp [RunDb.appendEvent]

theorem consumeIfStarted_edits {v : OperationalRun} (h : consumeIfStarted v db = .ok db') :
    Edits P R db db' := by
  unfold consumeIfStarted at h
  split at h
  · cases h
    exact .refl
  · rename_i hq
    simp only [not_or, not_not] at hq
    simp only [bind_ok, require_ok, exists_const] at h
    obtain ⟨⟨settled, ledger⟩, hsettle, hanswer, h⟩ := h
    cases h
    simp only at hanswer hsettle
    rw [hanswer] at hsettle
    exact ((Edit.consume db ledger hq.2 hsettle).one).trans appendEvent_edits

theorem QuotaFrame.source (h : QuotaFrame db db') : db'.source = db.source := by
  unfold RunDb.source
  rw [h.receipt, h.run]

theorem validateOperational_valid {v : OperationalRun}
    (h : validateOperational P env db v = .ok ()) : v.validate P = .ok () := by
  simp only [validateOperational, bind_ok, require_ok, exists_const] at h
  obtain ⟨a, ha⟩ := (accepts_iff _).mp h.1.1
  exact ha

/-- Receipt and source columns of a projection, as `report` writes them. -/
theorem sourced_edits {v : OperationalRun} {state : SourceState} (receivedAt : Int)
    (hv : v.validate P = .ok ()) (hs : sourceState db.source v = .ok state)
    (hl : ended db.run.status = false ∧ db.run.status ≠ .approved)
    (hq : 0 < v.counters.requestsStarted → db.run.quotaState ≠ .reserved) :
    Edits P R db ((db.storeReceipt v receivedAt).sourced v receivedAt) :=
  ((Edit.report db v state _ _ hv hs hl hq).one).tail
    (Edit.live _ db.run.lastHeartbeatAtMs receivedAt
      db.run.cloudEventSequence)

theorem preserveAfterStop_edits {v : OperationalRun} {how : Acceptance}
    (hv : v.validate P = .ok ()) (h : preserveAfterStop env v db = .ok (db', how)) :
    Edits P R db db' := by
  simp only [preserveAfterStop, bind_ok] at h
  obtain ⟨state, hstate, h⟩ := h
  cases state with
  | replay =>
    cases h
    exact .refl
  | new =>
    simp only [bind_ok, require_ok, exists_const] at h
    obtain ⟨⟨hs, -⟩, mid, hmid, h⟩ := h
    cases h
    have hframe := consumeIfStarted_frame hmid
    have hstatus : mid.run.status = db.run.status := by rw [hframe.run]
    rw [← hframe.source] at hstate
    refine (consumeIfStarted_edits hmid).trans (sourced_edits _ hv hstate ?_
      (consumeIfStarted_started hmid))
    rw [hstatus]
    simp only [List.mem_cons, List.not_mem_nil, or_false] at hs
    rcases hs with hs | hs <;> simp [hs, ended]

theorem coalesce_some (column : Option Int) (now : Int) :
    coalesce column (some now) = some (column.getD now) := by
  cases column <;> rfl

/-- The facts `_accept_operational` has checked before it writes news. -/
structure Admissible (db : RunDb) (v : OperationalRun) : Prop where
  phase : v.lifecyclePhase ∈ allowedPhases db.run.status
  stopped : v.lifecyclePhase = .stopRequested → v.stopReason ≠ .none
  stopping : v.stopReason ≠ .none → v.lifecyclePhase ∈ [Phase.stopRequested, .finalizing]
  open_ : v.lifecyclePhase ≠ .terminal
  agrees : db.run.stopReason = .none ∨ v.stopReason = db.run.stopReason

theorem Admissible.live {v : OperationalRun} (h : Admissible db v) :
    db.run.status ∈ [Phase.claimed, .running, .stopRequested, .finalizing] := by
  have hphase := h.phase
  have hopen := h.open_
  cases hs : db.run.status <;> simp_all [allowedPhases]

theorem Admissible.move {v : OperationalRun} (h : Admissible db v)
    (hstop : ¬ (v.stopReason ≠ .none ∧
    db.run.stopReason = .none)) :
    (db.run.status = .claimed ∧ nextStatus db.run.status v.lifecyclePhase = .running ∧
        db.run.stopReason = .none) ∨
      (db.run.status ∈ [Phase.claimed, .running] ∧
        nextStatus db.run.status v.lifecyclePhase = .stopRequested ∧ db.run.stopReason ≠ .none) ∨
      (db.run.status ∈ [Phase.claimed, .running, .stopRequested, .finalizing] ∧
        (nextStatus db.run.status v.lifecyclePhase = db.run.status ∨
          nextStatus db.run.status v.lifecyclePhase = .finalizing)) := by
  have hlive := h.live
  have hstopped := h.stopped
  have hstopping := h.stopping
  have hagrees := h.agrees
  by_cases hrun : v.lifecyclePhase = .running ∧ db.run.status = .claimed
  · left
    have hnone : v.stopReason = .none := by
      by_contra hne
      simpa [hrun.1] using hstopping hne
    refine ⟨hrun.2, by simp [nextStatus, hrun], ?_⟩
    rcases hagrees with h' | h'
    · exact h'
    · rw [← h', hnone]
  · by_cases hreq : v.lifecyclePhase = .stopRequested ∧ db.run.status ∈ [Phase.claimed, .running]
    · right; left
      refine ⟨hreq.2, by simp [nextStatus, hreq], ?_⟩
      intro hnone
      exact hstop ⟨hstopped hreq.1, hnone⟩
    · right; right
      refine ⟨hlive, ?_⟩
      unfold nextStatus
      rw [if_neg hrun, if_neg hreq]
      split
      · exact .inr rfl
      · exact .inl rfl

/-- A stop the runner brings takes the run on to the phase it reports. -/
theorem Admissible.moveStopped {v : OperationalRun} (h : Admissible db v)
    (hstop : v.stopReason ≠ .none) :
    stopStatus db.run.status ∈ [Phase.claimed, .running, .stopRequested, .finalizing] ∧
      (nextStatus db.run.status v.lifecyclePhase = stopStatus db.run.status ∨
        nextStatus db.run.status v.lifecyclePhase = .finalizing) := by
  have hlive := h.live
  have hstopping := h.stopping hstop
  have hphase := h.phase
  simp only [List.mem_cons, List.not_mem_nil, or_false] at hlive hstopping
  rcases hlive with hs | hs | hs | hs <;> rcases hstopping with hp | hp <;>
    simp_all [stopStatus, nextStatus, allowedPhases]

theorem advanced_edits {v : OperationalRun} {state : SourceState} (receivedAt : Int)
    (hv : v.validate P = .ok ()) (hs : sourceState db.source v = .ok state)
    (hq : 0 < v.counters.requestsStarted → db.run.quotaState ≠ .reserved)
    (h : Admissible db v) : Edits P R db (db.advanced env v receivedAt) := by
  have hlive := h.live
  have hl : ended db.run.status = false ∧ db.run.status ≠ .approved := by
    simp only [List.mem_cons, List.not_mem_nil, or_false] at hlive
    rcases hlive with hl | hl | hl | hl <;> simp [hl, ended]
  have hsourced := sourced_edits (R := R) receivedAt hv hs hl hq
  by_cases hent : v.stopReason ≠ .none ∧ db.run.stopReason = .none
  · have hstop := Edit.stop (P := P) (R := R) ((db.storeReceipt v receivedAt).sourced v receivedAt)
      v.stopReason v.errorCategory env.controlGeneration
      (db.run.stopRequestedAtMs.getD receivedAt)
      (db.run.stopDeadlineAtMs.getD (receivedAt + stopDeadlineMs)) hent.1 hl.1 (.inl hent.2)
    have hmove := Edit.move (P := P) (R := R) _ (nextStatus db.run.status v.lifecyclePhase)
      v.errorCategory (.inr (.inr ?_)) |> (hsourced.tail hstop).tail
    · refine hmove.tail ?_
      convert Edit.live _ db.run.lastHeartbeatAtMs receivedAt
        (db.advanced env v receivedAt).run.cloudEventSequence using 1
      unfold RunDb.advanced
      simp only [hent, ne_eq, not_false_eq_true, and_self, if_true, if_false, coalesce_some]
      split <;> rfl
    · exact h.moveStopped hent.1
  · have hmove := Edit.move (P := P) (R := R) ((db.storeReceipt v receivedAt).sourced v receivedAt)
      (nextStatus db.run.status v.lifecyclePhase) v.errorCategory (h.move hent)
    refine (hsourced.tail hmove).tail ?_
    convert Edit.live _ db.run.lastHeartbeatAtMs receivedAt
      (db.advanced env v receivedAt).run.cloudEventSequence using 1
    have hkeep : (if v.stopReason = .none then db.run.stopReason else v.stopReason) =
        db.run.stopReason := by
      split
      · rfl
      · rcases h.agrees with h' | h'
        · exact absurd ⟨‹_›, h'⟩ hent
        · exact h'
    unfold RunDb.advanced
    simp only [if_neg hent, hkeep]
    split <;> rfl

theorem acceptNews_edits {v : OperationalRun} {how : Acceptance} (hv : v.validate P = .ok ())
    (h1 : v.lifecyclePhase = .stopRequested → v.stopReason ≠ .none)
    (h2 : v.stopReason ≠ .none → v.lifecyclePhase ∈ [Phase.stopRequested, .finalizing])
    (h3 : v.lifecyclePhase ≠ .terminal) (h : acceptNews env v db = .ok (db', how)) :
    Edits P R db db' := by
  simp only [acceptNews, bind_ok, require_ok, exists_const] at h
  obtain ⟨hagrees, state, hstate, h⟩ := h
  cases state with
  | replay =>
    cases h
    exact .refl
  | new =>
    simp only [bind_ok, require_ok, exists_const] at h
    obtain ⟨hphase, mid, hmid, h⟩ := h
    cases h
    have hframe := consumeIfStarted_frame hmid
    have hadm : Admissible mid v := by
      constructor
      · rw [hframe.run]
        exact hphase
      · exact h1
      · exact h2
      · exact h3
      · rw [hframe.run]
        exact hagrees
    rw [← hframe.source] at hstate
    exact (consumeIfStarted_edits hmid).trans (advanced_edits _ hv hstate
      (consumeIfStarted_started hmid) hadm)

theorem acceptOperational_edits {operation : Operation} {v : OperationalRun} {how : Acceptance}
    (h : acceptOperational P env operation v db = .ok (db', how)) : Edits P R db db' := by
  simp only [acceptOperational, bind_ok, require_ok, exists_const] at h
  obtain ⟨⟨approval, grant⟩, -, _, hvalid, h1, h2, h3, h⟩ := h
  have hv := validateOperational_valid hvalid
  refine Relation.ReflTransGen.trans (b := if (!verificationDigestMatches env approval grant) = true
    then persistAuthorityStop env .authorityStop db else db) ?_ ?_
  · split
    · exact persistAuthorityStop_edits _
    · exact .refl
  · generalize (if (!verificationDigestMatches env approval grant) = true
      then persistAuthorityStop env .authorityStop db else db) = mid at h ⊢
    split at h
    · cases h
      exact .refl
    · split at h
      · cases h
        exact .refl
      · split at h
        · exact preserveAfterStop_edits hv h
        · split at h
          · cases h
            exact .refl
          · exact acceptNews_edits hv h1 h2 h3 h

theorem heartbeat_gate {v : OperationalRun} {answer : Gate}
    (h : heartbeat P env v db = .ok (db', answer)) :
    ∃ mid, Edits P R db mid ∧ gate env mid = .ok (db', answer) := by
  simp only [heartbeat, bind_ok] at h
  obtain ⟨⟨mid, how⟩, hmid, hgate⟩ := h
  refine ⟨_, (acceptOperational_edits hmid).trans ?_, hgate⟩
  split
  · exact (Edit.live mid _ mid.run.updatedAt _).one
  · exact (Edit.live mid _ mid.run.updatedAt mid.run.cloudEventSequence).one

theorem heartbeat_edits {v : OperationalRun} {answer : Gate}
    (h : heartbeat P env v db = .ok (db', answer)) : Edits P R db db' := by
  obtain ⟨mid, hmid, hgate⟩ := heartbeat_gate (R := R) h
  exact hmid.trans (gate_edits hgate)

theorem progress_edits {v : OperationalRun} (h : progress P env v db = .ok db') :
    Edits P R db db' := by
  simp only [progress, bind_ok] at h
  obtain ⟨⟨mid, how⟩, hmid, h⟩ := h
  cases h
  refine (acceptOperational_edits hmid).trans ?_
  split
  · exact appendEvent_edits
  · exact .refl

/-! ### Stops and acknowledgements -/

theorem stopped_edits {reason : StopReason} {error : ErrorCategory} (now : Int)
    (hr : reason ≠ .none) (hs : db.run.status ∈ [Phase.claimed, .running]) :
    Edits P R db (RunDb.appendEvent { db.stopped env reason .stopRequested now with
      run := { (db.stopped env reason .stopRequested now).run with errorCategory := error } }) := by
  have hlive : ended db.run.status = false ∧ stopStatus db.run.status = .stopRequested := by
    simp only [List.mem_cons, List.not_mem_nil, or_false] at hs
    rcases hs with hs | hs <;> simp [hs, ended, stopStatus]
  have hstop := Edit.stop (P := P) (R := R) db reason error env.controlGeneration now
    (now + stopDeadlineMs) hr hlive.1 (.inr hs)
  rw [hlive.2] at hstop
  exact (hstop.one).trans (touch_edits now)

theorem requestStop_edits {reason : StopReason} {generation : Int}
    (h : requestStop env reason generation db = .ok db') : Edits P R db db' := by
  simp only [requestStop, bind_ok, require_ok, exists_const] at h
  obtain ⟨hr, h⟩ := h
  split at h
  · simp only [bind_ok, require_ok, exists_const] at h
    cases h.2
    exact .refl
  · simp only [bind_ok, require_ok, exists_const] at h
    obtain ⟨-, hs, h⟩ := h
    cases h
    exact stopped_edits _ hr hs

theorem localStop_edits {v : OperationalRun} (arrival : Int) :
    Edits P R db (localStop env v arrival db) := by
  unfold localStop
  split
  · rename_i h
    split
    · exact stopped_edits _ (by decide) h.1
    · exact appendEvent_edits
  · exact .refl

theorem localStop_source {v : OperationalRun} (arrival : Int) :
    (localStop env v arrival db).source = db.source := by
  unfold localStop
  split
  · split <;> rfl
  · rfl

theorem acknowledged_edits {v : OperationalRun} {status : Phase} {arrival local_ : Int}
    {late : Bool} (hstatus : status = db.run.status)
      (hs : db.run.sourceEventSequence = v.eventSequence ∧
      db.run.sourceProjectionDigest = some v.projectionDigest)
    (hfirst : db.run.stopAcknowledgedAtMs = none ∧ db.run.witness = {}) :
    Edits P R db (db.acknowledged v status arrival local_ late) := by
  subst hstatus
  refine ((Edit.acknowledge db v.eventSequence v.projectionDigest arrival local_ late
    hfirst).one).tail ?_
  convert Edit.live _ db.run.lastHeartbeatAtMs arrival
    (db.run.cloudEventSequence + 1) using 1
  unfold RunDb.acknowledged RunDb.appendEvent
  simp only [← hs.1, ← hs.2]

theorem acknowledge_edits {v : OperationalRun} {arrival : Int} {late : Bool} {state : SourceState}
    (hv : v.validate P = .ok ()) (hstate : sourceState db.source v = .ok state)
    (h : acknowledge v arrival db = .ok (db', late)) : Edits P R db db' := by
  simp only [acknowledge, bind_ok, require_ok, exists_const] at h
  obtain ⟨hs, hphase, hfirst, h⟩ := h
  split at h
  · rename_i acknowledged deadline _ _
    simp only [bind_ok, require_ok, exists_const] at h
    obtain ⟨-, h⟩ := h
    by_cases hterm : db.run.status = .terminal
    · simp only [hterm, if_true, bind_ok, require_ok, exists_const] at h
      obtain ⟨hq, h⟩ := h
      cases h
      have hevidence := Edit.evidence (P := P) (R := R) db v state hv hstate hterm hq
      let known : RunDb := { db with run := { db.run with
          sourceEventSequence := v.eventSequence
          sourceProjectionDigest := some v.projectionDigest } }
      have hack : Edits P R known (known.acknowledged v .terminal arrival acknowledged
          (decide (deadline < arrival))) := acknowledged_edits hterm.symm ⟨rfl, rfl⟩ hfirst
      exact (hevidence.one).trans hack
    · simp only [hterm, if_false, bind_ok] at h
      obtain ⟨mid, hmid, h⟩ := h
      cases h
      have hframe := consumeIfStarted_frame hmid
      have hstatus : mid.run.status = db.run.status := by rw [hframe.run]
      simp only [List.mem_cons, List.not_mem_nil, or_false] at hs
      have hl : db.run.status = .stopRequested ∨ db.run.status = .finalizing := by
        rcases hs with h' | h' | h'
        · exact .inl h'
        · exact .inr h'
        · exact absurd h' hterm
      have hreport := Edit.report (P := P) (R := R) mid v state mid.run.startedAtMs
        (arrival + operationalRetentionMs) hv (by rw [hframe.source]; exact hstate)
        (by rw [hstatus]; rcases hl with h' | h' <;> simp [h', ended])
        (consumeIfStarted_started hmid)
      have hmove := Edit.move (P := P) (R := R) _ (if v.lifecyclePhase = .finalizing
        then .finalizing else mid.run.status) mid.run.errorCategory (.inr (.inr ?_)) |>
        ((consumeIfStarted_edits hmid).tail hreport).tail
      · refine hmove.trans ?_
        refine acknowledged_edits (v := v) rfl ⟨rfl, rfl⟩ ?_
        rw [hframe.run]
        exact hfirst
      · refine ⟨?_, ?_⟩
        · rcases hl with h' | h' <;> simp [hstatus, h']
        · split
          · exact .inr rfl
          · exact .inl rfl
  · cases h

theorem ackStop_edits {v : OperationalRun} {late : Bool}
    (h : ackStop P env v db = .ok (db', late)) : Edits P R db db' := by
  simp only [ackStop, bind_ok] at h
  obtain ⟨⟨approval, grant⟩, -, _, hvalid, state, hstate, h⟩ := h
  have hv := validateOperational_valid hvalid
  refine Relation.ReflTransGen.trans (b := if verificationDigestMatches env approval grant = true
    then db else persistAuthorityStop env .authorityStop db) ?_ ?_
  · split
    · exact .refl
    · exact persistAuthorityStop_edits _
  · generalize (if verificationDigestMatches env approval grant = true
      then db else persistAuthorityStop env .authorityStop db) = mid at h hstate ⊢
    split at h
    · simp only [bind_ok, require_ok, exists_const] at h
      obtain ⟨_, -, -, h⟩ := h
      cases h
      exact .refl
    · rw [← localStop_source] at hstate
      exact (localStop_edits _).trans (acknowledge_edits hv hstate h)

/-! ### The end of a run -/

/-- A run is settled with its result: of its unit nothing stays reserved. -/
theorem settleTerminalQuota_settled {v : OperationalRun} (hv : v.validate P = .ok ())
    (hstarted : 0 < v.counters.requestsStarted → db.run.quotaState ≠ .reserved)
    (h : settleTerminalQuota v db = .ok db') :
    ∃ ledger quota events, Settled db v.errorCategory ledger quota ∧
      db' = { db with ledger := ledger, run := { db.run with
        quotaState := quota, cloudEventSequence := events } } := by
  have hnonneg := validate_started hv
  unfold settleTerminalQuota at h
  by_cases hreserved : db.run.quotaState = .reserved
  · have hzero : v.counters.requestsStarted = 0 := by
      by_contra hne
      exact hstarted (by omega) hreserved
    rw [if_pos ⟨hreserved, hzero⟩] at h
    simp only [bind_ok, require_ok, exists_const] at h
    obtain ⟨⟨answer, ledger⟩, hl, -, h⟩ := h
    cases h
    exact ⟨ledger, .refunded, _, .refund answer ledger hreserved hl, rfl⟩
  · rw [if_neg (fun hq => hreserved hq.1)] at h
    split at h
    · rename_i hq
      simp only [bind_ok] at h
      obtain ⟨⟨answer, ledger⟩, hl, h⟩ := h
      cases answer with
      | true =>
        cases h
        exact ⟨ledger, .compensated, _, .compensate ledger hq.1 hq.2 hl, rfl⟩
      | false =>
        cases h
        exact ⟨_, _, _, .kept hreserved, rfl⟩
    · cases h
      exact ⟨_, _, _, .kept hreserved, rfl⟩

theorem RunDb.enterFinalizing_unit (db : RunDb) (now : Int) :
    (db.enterFinalizing now).ledger = db.ledger ∧
      (db.enterFinalizing now).run.quotaState = db.run.quotaState ∧
      (db.enterFinalizing now).run.binding = db.run.binding := by
  unfold RunDb.enterFinalizing
  split <;> exact ⟨rfl, rfl, rfl⟩

theorem terminated_edits {v : OperationalRun} {state : SourceState} {ledger : Ledger}
    {quota : QuotaState} (receivedAt : Int) (events : Nat)
    (hv : v.validate P = .ok ()) (hstate : sourceState db.source v = .ok state)
    (hs : db.run.status ∈ [Phase.claimed, .running, .stopRequested, .finalizing])
    (hr : db.run.stopReason ≠ .none → v.stopReason = db.run.stopReason)
    (hstarted : 0 < v.counters.requestsStarted → db.run.quotaState ≠ .reserved)
    (hq : Settled db v.errorCategory ledger quota) :
    Edits P R db ((RunDb.storeReceipt { db.enterFinalizing receivedAt with
      ledger := ledger
      run := { (db.enterFinalizing receivedAt).run with
        quotaState := quota, cloudEventSequence := events } } v receivedAt).terminated v
      receivedAt) := by
  have hl : ended db.run.status = false ∧ db.run.status ≠ .approved := by
    simp only [List.mem_cons, List.not_mem_nil, or_false] at hs
    rcases hs with hs | hs | hs | hs <;> simp [hs, ended]
  have hreport := Edit.report (R := R) db v state db.run.startedAtMs
    (receivedAt + operationalRetentionMs) hv hstate hl hstarted
  have hmove := Edit.move (P := P) (R := R) _ .finalizing db.run.errorCategory
    (.inr (.inr ⟨hs, .inr rfl⟩)) |> (hreport.one).tail
  let last := ((db.enterFinalizing receivedAt).storeReceipt v receivedAt).terminated v receivedAt
  have hterm := Edit.terminate (P := P) (R := R) _ v.executionDisposition v.errorCategory
    v.stopReason last.run.stopRequestedAtMs last.run.startedAtMs receivedAt
    last.grant.purgeAt last.approval.purgeAt ledger quota rfl hr
      (hq.congr rfl rfl rfl) |> hmove.tail
  refine hterm.tail ?_
  convert Edit.live _ db.run.lastHeartbeatAtMs receivedAt
    (events + 1) using 1
  simp only [last, RunDb.enterFinalizing]
  have hnone : ∀ a : Option Int, coalesce a none = a := fun a => by cases a <;> rfl
  split <;> simp [RunDb.terminated, RunDb.appendEvent, RunDb.storeReceipt, hnone]

theorem result_edits {v : OperationalRun} {discovery : Except Refusal Unit}
    (h : result P env v discovery db = .ok db') : Edits P R db db' := by
  simp only [result, bind_ok] at h
  obtain ⟨⟨approval, grant⟩, -, _, hvalid, h⟩ := h
  have hv := validateOperational_valid hvalid
  refine Relation.ReflTransGen.trans (b := if (!verificationDigestMatches env approval grant) = true
    then persistAuthorityStop env .authorityStop db else db) ?_ ?_
  · split
    · exact persistAuthorityStop_edits _
    · exact .refl
  · generalize (if (!verificationDigestMatches env approval grant) = true
      then persistAuthorityStop env .authorityStop db else db) = mid at h ⊢
    split at h
    · cases h
      exact .refl
    · simp only [bind_ok] at h
      obtain ⟨state, hstate, h⟩ := h
      split at h
      · simp only [bind_ok] at h
        obtain ⟨_, -, h⟩ := h
        cases h
        exact .refl
      · simp only [bind_ok, require_ok, exists_const] at h
        obtain ⟨⟨-, hs⟩, _, hagrees, started, hstarted, settled, hsettled, _, -, _, -, h⟩ := h
        cases h
        have hframe := consumeIfStarted_frame hstarted
        have hr : started.run.stopReason ≠ .none → v.stopReason = started.run.stopReason := by
          rw [hframe.run]
          simp only [resultAgrees, bind_ok, require_ok, exists_const] at hagrees
          exact fun hne => (hagrees.2.1 hne).1
        obtain ⟨hl, hq, hb⟩ := started.enterFinalizing_unit (serverReceiptTime (env.now .received)
          mid.run)
        have hreserved := consumeIfStarted_started hstarted
        obtain ⟨ledger, quota, events, hunit, rfl⟩ :=
          settleTerminalQuota_settled hv (by rw [hq]; exact hreserved) hsettled
        refine (consumeIfStarted_edits hstarted).trans (terminated_edits _ events hv
          (by rw [hframe.source]; exact hstate) (by rw [hframe.run]; exact hs) hr
          hreserved (hunit.congr hl.symm hq.symm hb.symm))

/-! ### The reaper -/

theorem refundUnclaimed_settled (h : refundUnclaimed db = .ok db') :
    ∃ ledger quota, Settled db .none ledger quota ∧
      db' = { db with ledger := ledger, run := { db.run with quotaState := quota } } := by
  unfold refundUnclaimed at h
  split at h
  · rename_i hq
    simp only [bind_ok, require_ok, exists_const] at h
    obtain ⟨⟨answer, ledger⟩, hl, -, h⟩ := h
    cases h
    exact ⟨ledger, .refunded, .refund answer ledger hq hl, rfl⟩
  · rename_i hq
    cases h
    exact ⟨_, _, .kept hq, rfl⟩

theorem releaseUnclaimed_edits {now : Int} (hu : unclaimed now db = true) (hR : R db)
    (h : releaseUnclaimed now db = .ok db') : Edits P R db db' := by
  simp only [releaseUnclaimed, bind_ok] at h
  obtain ⟨mid, hmid, _, -, h⟩ := h
  cases h
  have hevent : Edits P R (mid.released now) (if (mid.released now).run.quotaState = .refunded
      then (mid.released now).appendEvent else mid.released now) := by
    split
    · exact appendEvent_edits
    · exact .refl
  refine Relation.ReflTransGen.trans ?_ hevent
  obtain ⟨ledger, quota, hq, rfl⟩ := refundUnclaimed_settled hmid
  exact (Edit.release (P := P) db now (max now db.grant.expiresAt + projectionRetentionMs) ledger
    quota hu hR hq).one.trans (touch_edits now)

theorem refundOrphan_settled {error : ErrorCategory} (h : refundOrphan db = .ok db') :
    ∃ ledger quota events, Settled db error ledger quota ∧
      db' = { db with ledger := ledger, run := { db.run with
        quotaState := quota, cloudEventSequence := events } } := by
  unfold refundOrphan at h
  split at h
  · rename_i hq
    simp only [bind_ok] at h
    obtain ⟨⟨answer, ledger⟩, hl, h⟩ := h
    cases h
    exact ⟨ledger, .refunded, _, .refund answer ledger hq hl, rfl⟩
  · rename_i hq
    cases h
    exact ⟨_, _, _, .kept hq, rfl⟩

theorem reapFinalizing_edits {now : Int} (ho : orphaned now db = true) :
    Edits P R db (db.reapFinalizing now) ∧ (db.reapFinalizing now).run.status = .finalizing := by
  simp only [orphaned, Bool.decide_and, Bool.and_eq_true, decide_eq_true_eq] at ho
  have hs : db.run.status ∈ [Phase.claimed, .running, .stopRequested, .finalizing] := by
    have := ho.1
    simp_all
  unfold RunDb.reapFinalizing
  split
  · rename_i h
    exact ⟨.refl, h⟩
  · have hmove := (Edit.move (P := P) (R := R) db .finalizing db.run.errorCategory
      (.inr (.inr ⟨hs, .inr rfl⟩))).one
    exact ⟨hmove.trans (touch_edits now), rfl⟩

theorem finalizeOrphan_edits {now : Int} (ho : orphaned now db = true)
    (h : finalizeOrphan now db = .ok db') : Edits P R db db' := by
  simp only [finalizeOrphan, bind_ok] at h
  obtain ⟨mid, hmid, _, -, _, -, h⟩ := h
  cases h
  obtain ⟨hfinalizing, hstatus⟩ := reapFinalizing_edits (P := P) (R := R) ho
  refine hfinalizing.trans ?_
  generalize db.reapFinalizing now = open_ at hmid hstatus
  obtain ⟨ledger, quota, events, hq, rfl⟩ := refundOrphan_settled
    hmid
  have hterm := Edit.terminate (P := P) (R := R) open_ (some .stopped) open_.run.errorCategory
    open_.run.stopReason open_.run.stopRequestedAtMs open_.run.startedAtMs now
    (now + projectionRetentionMs) (now + projectionRetentionMs) ledger quota hstatus
    (fun _ => rfl) hq
  exact (hterm.one).tail (Edit.live _ open_.run.lastHeartbeatAtMs now
    (events + 1))

theorem expireAndReconcile_edits {closing : Bool}
    (hR : unclaimed (env.now .start) (closeDueAuthorization env closing db) = true →
      R (closeDueAuthorization env closing db))
    (h : expireAndReconcile env closing db = .ok db') :
    ∃ last, Edits P R db last ∧ db' = last.purge (env.now .start) := by
  simp only [expireAndReconcile, bind_ok] at h
  obtain ⟨mid, hmid, last, hlast, h⟩ := h
  cases h
  have hclose : Edits P R db (closeDueAuthorization env closing db) := by
    unfold closeDueAuthorization
    split
    · exact stopDiscoveryRound_edits _
    · exact .refl
  refine ⟨last, hclose.trans (.trans (b := mid) ?_ ?_), rfl⟩
  · split at hmid
    · rename_i hu
      exact releaseUnclaimed_edits hu (hR hu) hmid
    · cases hmid
      exact .refl
  · split at hlast
    · rename_i ho
      exact finalizeOrphan_edits ho hlast
    · cases hlast
      exact .refl

/-- Every transaction is a sequence of edits, in the reaper's case followed by a purge. -/
theorem transact_edits (c : Call)
    (hR : ∀ closing, c = .expireAndReconcile closing →
      unclaimed (env.now .start) (closeDueAuthorization env closing db) = true →
        R (closeDueAuthorization env closing db)) :
    ∃ last, Edits P R db last ∧
      (transact P env db c = last ∨ ∃ now, transact P env db c = last.purge now) := by
  unfold transact
  split
  · rename_i out hout
    cases c with
    | claim first =>
      obtain ⟨answer, h⟩ := fst_ok hout
      exact ⟨out, claim_edits h, .inl rfl⟩
    | heartbeat v =>
      obtain ⟨answer, h⟩ := fst_ok hout
      exact ⟨out, heartbeat_edits h, .inl rfl⟩
    | progress v => exact ⟨out, progress_edits hout, .inl rfl⟩
    | requestStop reason generation => exact ⟨out, requestStop_edits hout, .inl rfl⟩
    | ackStop v =>
      obtain ⟨late, h⟩ := fst_ok hout
      exact ⟨out, ackStop_edits h, .inl rfl⟩
    | result v discovery => exact ⟨out, result_edits hout, .inl rfl⟩
    | discoveryClosed =>
      cases hout
      exact ⟨_, stopDiscoveryRound_edits _, .inl rfl⟩
    | expireAndReconcile closing =>
      obtain ⟨last, hlast, h⟩ := expireAndReconcile_edits (hR closing rfl) hout
      exact ⟨last, hlast, .inr ⟨_, h⟩⟩
  · exact ⟨db, .refl, .inl rfl⟩

end Heel.Cloud
