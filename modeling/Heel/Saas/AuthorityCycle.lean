import Heel.Runner.Delivery
import Heel.Saas.AuthorityStops

/-! What a cycle of the lifecycle reaper does to an abandoned stopped run: when the sweeps raise,
and which of the stops they end. -/
namespace Heel.Cloud
open Lib Lib.Checks

variable {P : Platform} {env : Env} {db db' : RunDb}

/-! ### The refunds -/

theorem Ledger.has_reservation {l : Ledger} {id : String} (h : l.has id .reserve = true) :
    ∃ e, l.reservation id = some e := by
  rw [← Option.isSome_iff_exists, Ledger.reservation, List.find?_isSome]
  simpa only [Ledger.has, List.any_eq_true] using h

theorem refund_settles {l : Ledger} {id : String} (hreserve : l.has id .reserve = true)
    (hconsume : l.has id .consume = false) (hrefund : l.has id .refund = false) :
    ∃ l', l.settle id .refund = .ok (true, l') ∧ l'.has id .refund = true := by
  obtain ⟨e, he⟩ := Ledger.has_reservation hreserve
  obtain ⟨hid, -⟩ := Ledger.reservation_id he
  refine ⟨l ++ [{ e with kind := .refund, idempotencyKey := none, reason := none }], ?_, ?_⟩
  · simp only [Ledger.settle, he, hrefund, hconsume, Bool.false_eq_true, and_false, if_false]
  · rw [Ledger.has_append]
    simp [hid]

/-- A sweep that changes nothing of a run but its unit and its events. -/
structure Refunds (db db' : RunDb) : Prop where
  frame : QuotaFrame db db'
  unit : RunUnit db'

theorem Refunds.refl (hi : RunUnit db) : Refunds db db := ⟨.refl db, hi⟩

theorem RunUnit.refunded (hi : RunUnit db) (l' : Ledger) (events : Nat) :
    Refunds db { db with ledger := l', run := { db.run with
      quotaState := .refunded, cloudEventSequence := events } } := by
  refine ⟨⟨rfl, rfl, rfl, rfl⟩, hi.deadline, ?_⟩
  rintro ⟨⟩

theorem refundUnclaimed_refunds (hi : RunUnit db) :
    ∃ t, refundUnclaimed db = .ok t ∧ Refunds db t := by
  unfold refundUnclaimed
  split
  · rename_i hq
    obtain ⟨hreserve, hconsume, hrefund⟩ := hi.unit hq
    obtain ⟨l', hl, hnow⟩ := refund_settles hreserve hconsume hrefund
    refine ⟨_, ?_, hi.refunded l' db.run.cloudEventSequence⟩
    simp only [bind_ok, require_ok, exists_const]
    exact ⟨(true, l'), hl, hnow, rfl⟩
  · exact ⟨db, rfl, .refl hi⟩

theorem refundOrphan_refunds (hi : RunUnit db) : ∃ t, refundOrphan db = .ok t ∧ Refunds db t := by
  unfold refundOrphan
  split
  · rename_i hq
    obtain ⟨hreserve, hconsume, hrefund⟩ := hi.unit hq
    obtain ⟨l', hl, -⟩ := refund_settles hreserve hconsume hrefund
    refine ⟨_, ?_, hi.refunded l' (db.run.cloudEventSequence + 1)⟩
    simp only [bind_ok]
    exact ⟨(true, l'), hl, rfl⟩
  · exact ⟨db, rfl, .refl hi⟩

theorem refundReserved_refunds (hi : RunUnit db) (hq : db.run.quotaState = .reserved) :
    ∃ t, refundReserved db = .ok (t, true) ∧ Refunds db t ∧ t.run.quotaState = .refunded := by
  obtain ⟨hreserve, hconsume, hrefund⟩ := hi.unit hq
  obtain ⟨l', hl, -⟩ := refund_settles hreserve hconsume hrefund
  refine ⟨_, ?_, hi.refunded l' db.run.cloudEventSequence, rfl⟩
  simp only [refundReserved, bind_ok]
  exact ⟨(true, l'), hl, rfl⟩

theorem refundCancelled_refunds (hi : RunUnit db) :
    ∃ t created, refundCancelled db = .ok (t, created) ∧ Refunds db t := by
  unfold refundCancelled
  split
  · rename_i hq
    obtain ⟨t, ht, hrefunds, hquota⟩ := refundReserved_refunds hi hq
    refine ⟨t, true, ?_, hrefunds⟩
    simp only [bind_ok, require_ok, exists_const]
    exact ⟨(t, true), ht, hquota, rfl⟩
  · exact ⟨db, false, rfl, .refl hi⟩

theorem refundUnstarted_refunds (hi : RunUnit db) :
    ∃ t created, refundUnstarted db = .ok (t, created) ∧ Refunds db t := by
  unfold refundUnstarted
  split
  · rename_i hq
    obtain ⟨t, ht, hrefunds, -⟩ := refundReserved_refunds hi hq.1
    exact ⟨t, true, ht, hrefunds⟩
  · exact ⟨db, false, rfl, .refl hi⟩

theorem Refunds.status (h : Refunds db db') : db'.run.status = db.run.status := by
  rw [h.frame.run]

theorem Refunds.stopReason (h : Refunds db db') : db'.run.stopReason = db.run.stopReason := by
  rw [h.frame.run]

theorem Refunds.deadline (h : Refunds db db') :
    db'.run.stopDeadlineAtMs = db.run.stopDeadlineAtMs := by
  rw [h.frame.run]

theorem Refunds.stopInv (h : Refunds db db') (hi : StopInv db) : StopInv db' := by
  refine ⟨h.unit.deadline, ?_, h.unit.unit⟩
  intro hack
  rw [h.stopReason]
  have hbefore : db.ack ≠ none := h.frame.ack ▸ hack
  exact hi.acknowledged hbefore

theorem Refunds.binding (h : Refunds db db') : db'.run.binding = db.run.binding := by
  rw [h.frame.run]

/-! ### The sweeps -/

theorem Binding.checkPurge_purgeable {b : Binding} {now : Int} {u : Unit} :
    b.checkPurge (now + projectionRetentionMs) = .ok u ↔ b.Purgeable now :=
  Binding.checkPurge_ok

theorem cancelUnclaimed_keeps (hi : StopInv db) {now : Int}
    (h : cancelUnclaimed env now db = .ok db') :
    StopInv db' ∧ db'.ack = db.ack ∧ db'.run.stopReason = db.run.stopReason ∧
      (db'.run.status = db.run.status ∨ db'.run.status = .cancelled) := by
  unfold cancelUnclaimed at h
  split at h
  · obtain ⟨mid, created, hmid, hrefunds⟩ := refundCancelled_refunds hi.runUnit
    simp only [hmid, bind_ok, pure, Except.pure, Except.ok.injEq, exists_eq_left'] at h
    obtain ⟨_, -, rfl⟩ := h
    have hinv := hrefunds.stopInv hi
    have hack := hrefunds.frame.ack
    have hreason := hrefunds.stopReason
    cases created with
    | true => exact ⟨⟨hinv.deadline, hinv.acknowledged, hinv.unit⟩, hack, hreason, Or.inr rfl⟩
    | false => exact ⟨⟨hinv.deadline, hinv.acknowledged, hinv.unit⟩, hack, hreason, Or.inr rfl⟩
  · cases h
    exact ⟨hi, rfl, rfl, Or.inl rfl⟩

theorem cancelUnclaimed_claimed (h : db.run.status ≠ .approved) (now : Int) :
    cancelUnclaimed env now db = .ok db := by
  unfold cancelUnclaimed unclaimedLost
  rw [if_neg (by simp [h])]

/-- The sweep over a run that is silent since it acknowledged its stop, if no CHECK fails,
ends it. -/
theorem finalizeDisconnected_silent (hi : StopInv db) {now : Int} (h : disconnected now db = true) :
    ∃ t, EndedStopped t ∧ StopInv t ∧ t.run.stopReason = db.run.stopReason ∧
      finalizeDisconnected now db = (do
        db.run.binding.checkPurge (now + projectionRetentionMs)
        return t) := by
  obtain ⟨mid, created, hmid, hrefunds⟩ := refundUnstarted_refunds hi.runUnit
  have hinv := hrefunds.stopInv hi
  have hreason := hrefunds.stopReason
  refine ⟨if created then (mid.abandoned now).appendEvent else mid.abandoned now, ?_, ?_, ?_, ?_⟩
  · cases created with
    | true => exact ⟨rfl, rfl, rfl⟩
    | false => exact ⟨rfl, rfl, rfl⟩
  · cases created with
    | true => exact ⟨hinv.deadline, hinv.acknowledged, hinv.unit⟩
    | false => exact ⟨hinv.deadline, hinv.acknowledged, hinv.unit⟩
  · cases created with
    | true => exact hreason
    | false => exact hreason
  · unfold finalizeDisconnected
    rw [if_pos h, hmid, ← hrefunds.binding]
    rfl

theorem finalizeDisconnected_heard {now : Int} (h : disconnected now db = false) :
    finalizeDisconnected now db = .ok db := by
  unfold finalizeDisconnected
  rw [if_neg (by simp [h])]

theorem lostAuthority_reason {now : Int} {cause : StopReason × ErrorCategory}
    (h : lostAuthority env now db = some cause) : cause.1 ≠ .none := by
  unfold lostAuthority at h
  split_ifs at h
  all_goals
    cases h
    simp

theorem stopCause_reason {now : Int} {cause : StopReason × ErrorCategory}
    (h : stopCause env now db = some cause) : cause.1 ≠ .none := by
  unfold stopCause at h
  rcases Option.or_eq_some_iff.mp h with hlost | ⟨-, hsilent⟩
  · exact lostAuthority_reason hlost
  · split_ifs at hsilent
    all_goals
      cases hsilent
      simp

theorem recordStop_stopped (h : db.run.stopReason ≠ .none) (now : Int) :
    recordStop env now db = db := by
  unfold recordStop
  rw [if_neg (fun hlive => h hlive.2)]

theorem recordStop_inv (hi : StopInv db) (now : Int) : StopInv (recordStop env now db) := by
  unfold recordStop
  split
  · split
    · exact hi
    · rename_i reason category hcause
      have hne := stopCause_reason hcause
      exact ⟨fun _ => hne, fun _ => hne, hi.unit⟩
  · exact hi

theorem recordStop_live (h : db.run.status ≠ .terminal) (now : Int) :
    (recordStop env now db).run.status ≠ .terminal := by
  unfold recordStop
  split
  · split
    · exact h
    · simp only [RunDb.appendEvent, stopStatus]
      split <;> simp
  · exact h

theorem requestAuthorityStops_inv (hi : StopInv db) {now : Int}
    (h : requestAuthorityStops env now db = .ok db') : StopInv db' := by
  simp only [requestAuthorityStops, bind_ok, pure, Except.pure, Except.ok.injEq] at h
  obtain ⟨mid, hmid, last, hlast, rfl⟩ := h
  obtain ⟨hinv, -⟩ := cancelUnclaimed_keeps hi hmid
  refine recordStop_inv ?_ now
  cases hsilent : disconnected now mid with
  | true =>
    obtain ⟨t, -, hkept, -, heq⟩ := finalizeDisconnected_silent hinv hsilent
    simp only [heq, bind_ok, pure, Except.pure, Except.ok.injEq] at hlast
    obtain ⟨_, -, rfl⟩ := hlast
    exact hkept
  | false =>
    rw [finalizeDisconnected_heard hsilent] at hlast
    cases hlast
    exact hinv

theorem requestAuthorityStops_live (hi : StopInv db) {now : Int} (hack : db.ack = none)
    (hlive : db.run.status ≠ .terminal) (h : requestAuthorityStops env now db = .ok db') :
    db'.run.status ≠ .terminal := by
  simp only [requestAuthorityStops, bind_ok, pure, Except.pure, Except.ok.injEq] at h
  obtain ⟨mid, hmid, last, hlast, rfl⟩ := h
  obtain ⟨-, hmack, -, hstatus⟩ := cancelUnclaimed_keeps hi hmid
  have hquiet : disconnected now mid = false := by
    have hnone : mid.run.stopAcknowledgedAtMs = none := hmack.trans hack
    simp [disconnected, hnone]
  have hmlive : mid.run.status ≠ .terminal := by
    rcases hstatus with hsame | hcancelled
    · rwa [hsame]
    · simp [hcancelled]
  rw [finalizeDisconnected_heard hquiet] at hlast
  cases hlast
  exact recordStop_live hmlive now

theorem requestAuthorityStops_stopped (hs : db.run.status ≠ .approved)
    (hstop : db.run.stopReason ≠ .none) {now : Int} (hheard : disconnected now db = false) :
    requestAuthorityStops env now db = .ok db := by
  simp only [requestAuthorityStops, cancelUnclaimed_claimed hs, finalizeDisconnected_heard hheard,
    bind_ok, Except.ok.injEq, exists_eq_left', recordStop_stopped hstop]
  rfl

/-! ### The transactions of the others -/

theorem revokeUnusedGrant_inv (hi : StopInv db) {now : Int} {audited : Except Refusal Unit}
    (h : revokeUnusedGrant now audited db = .ok db') : StopInv db' := by
  unfold revokeUnusedGrant at h
  split at h
  · simp only [bind_ok, pure, Except.pure, Except.ok.injEq] at h
    obtain ⟨⟨refunded, ledger⟩, hsettle, _, -, _, -, rfl⟩ := h
    have hunit : (if refunded ∨ db.run.quotaState = .refunded then QuotaState.refunded
        else db.run.quotaState) ≠ .reserved := by
      by_cases hq : db.run.quotaState = .reserved
      · obtain ⟨hreserve, hconsume, hrefund⟩ := hi.unit hq
        obtain ⟨l', hl, -⟩ := refund_settles hreserve hconsume hrefund
        rw [if_pos hq, hl] at hsettle
        cases hsettle
        simp
      · split
        · simp
        · exact hq
    cases refunded with
    | true => exact ⟨hi.deadline, hi.acknowledged, fun hq => absurd hq hunit⟩
    | false => exact ⟨hi.deadline, hi.acknowledged, fun hq => absurd hq hunit⟩
  · cases h
    exact hi

theorem stopInflight_inv (hi : StopInv db) {now : Int} {audited : Except Refusal Unit}
    (h : stopInflight env now audited db = .ok db') : StopInv db' := by
  unfold stopInflight at h
  split at h
  · simp only [bind_ok, pure, Except.pure, Except.ok.injEq] at h
    obtain ⟨_, -, _, -, rfl⟩ := h
    have hne : StopReason.runnerRevoked ≠ .none := by decide
    exact ⟨fun _ => hne, fun _ => hne, hi.unit⟩
  · cases h
    exact hi

theorem reconcileRefund_inv (hi : StopInv db) {row : RunDb} {ledger : Ledger} {due : Bool}
    (h : reconcileRefund row ledger due db = .ok db') : StopInv db' := by
  unfold reconcileRefund repairCanaryRefund at h
  split at h
  · split at h
    · cases h
      exact hi
    · simp only [bind_ok, pure, Except.pure, Except.ok.injEq] at h
      obtain ⟨⟨created, l'⟩, -, rfl⟩ := h
      split
      · exact ⟨hi.deadline, hi.acknowledged, fun h => by cases h⟩
      · exact hi
  · cases h
    exact hi

theorem reconcileCompensation_inv (hi : StopInv db) {row : RunDb}
    (h : reconcileCompensation row db = .ok db') : StopInv db' := by
  unfold reconcileCompensation repairCanaryCompensation at h
  split at h
  · split at h
    · cases h
      exact hi
    · simp only [bind_ok, pure, Except.pure, Except.ok.injEq] at h
      obtain ⟨⟨created, l'⟩, -, rfl⟩ := h
      split
      · exact ⟨hi.deadline, hi.acknowledged, fun h => by cases h⟩
      · exact hi
  · cases h
    exact hi

theorem outsideTransact_inv (hi : StopInv db) (c : OutsideCall) :
    StopInv (outsideTransact env db c) := by
  unfold outsideTransact
  cases hout : outsideCall env db c with
  | ok out =>
    cases c with
    | authorityStops now => exact requestAuthorityStops_inv hi hout
    | runnerRevoked now audited =>
      simp only [outsideCall, revokeRunner, bind_ok] at hout
      obtain ⟨mid, hmid, hlast⟩ := hout
      exact stopInflight_inv (revokeUnusedGrant_inv hi hmid) hlast
    | keyRotated now audited => exact revokeUnusedGrant_inv hi hout
    | reconcileRefund row ledger due => exact reconcileRefund_inv hi hout
    | reconcileCompensation row => exact reconcileCompensation_inv hi hout
  | error e => exact hi

/-! ### The reconciliation -/

theorem unclaimed_stopped {now : Int} (hs : db.run.status ≠ .approved) (hw : Waiting db) :
    unclaimed now db = false := by
  have hg : db.grant.status ≠ .issued := fun h => hs (hw h).1
  simp [unclaimed, hs, hg]

theorem purge_heard (now : Int) : (db.purge now).heard = db.heard := by
  have hreceipt : (db.purge now).receipt.map ReceiptRow.updatedAt =
      db.receipt.map ReceiptRow.updatedAt := by
    cases h : db.receipt with
    | none => simp [RunDb.purge, h]
    | some r =>
      simp only [RunDb.purge, h, Option.map_some]
      split <;> rfl
  unfold RunDb.heard
  rw [hreceipt]
  rfl

theorem finalizeOrphan_ends (hi : RunUnit db) (now : Int) :
    ∃ t, EndedStopped t ∧ t.run.stopReason = db.run.stopReason ∧
      finalizeOrphan now db = (do
        db.run.binding.checkUpdated now
        db.run.binding.checkPurge (now + projectionRetentionMs)
        return t) := by
  have hkept : (db.reapFinalizing now).run.stopReason = db.run.stopReason ∧
      (db.reapFinalizing now).run.binding = db.run.binding := by
    unfold RunDb.reapFinalizing
    split <;> exact ⟨rfl, rfl⟩
  have hunit : RunUnit (db.reapFinalizing now) := by
    unfold RunDb.reapFinalizing
    split
    · exact hi
    · exact ⟨hi.deadline, hi.unit⟩
  obtain ⟨mid, hmid, hrefunds⟩ := refundOrphan_refunds hunit
  refine ⟨mid.reaped now, ⟨rfl, rfl, rfl⟩, hrefunds.stopReason.trans hkept.1, ?_⟩
  unfold finalizeOrphan
  rw [hmid, ← hkept.2, ← hrefunds.binding]
  rfl

theorem releaseUnclaimed_keeps (hi : RunUnit db) {now : Int}
    (h : releaseUnclaimed now db = .ok db') :
    db'.run.stopDeadlineAtMs = db.run.stopDeadlineAtMs ∧
      db'.run.status ∈ [Phase.expired, .cancelled] := by
  obtain ⟨mid, hmid, hrefunds⟩ := refundUnclaimed_refunds hi
  simp only [releaseUnclaimed, hmid, bind_ok, pure, Except.pure, Except.ok.injEq,
    exists_eq_left'] at h
  obtain ⟨_, -, rfl⟩ := h
  have hstatus : (mid.released now).run.status ∈ [Phase.expired, .cancelled] := by
    simp only [RunDb.released, RunDb.appendEvent]
    split <;> simp
  have hdeadline : (mid.released now).run.stopDeadlineAtMs = db.run.stopDeadlineAtMs :=
    hrefunds.deadline
  split
  · exact ⟨hdeadline, hstatus⟩
  · exact ⟨hdeadline, hstatus⟩

theorem closeDueAuthorization_stopped (hs : db.run.status ≠ .approved)
    (hstop : db.run.stopReason ≠ .none) (closing : Bool) :
    closeDueAuthorization env closing db = db := by
  unfold closeDueAuthorization
  split
  · exact stopDiscoveryRound_stopped hs hstop _
  · rfl

theorem closeDueAuthorization_unit (hi : RunUnit db) (closing : Bool) :
    RunUnit (closeDueAuthorization env closing db) := by
  unfold closeDueAuthorization
  split
  · exact (stopDiscoveryRound_edits (P := textPlatform)
      (R := fun _ => True) _).keep (fun s t hs he => Edit.unit hs he) hi
  · exact hi

/-- A stop that the reconciliation records itself is not due in it. -/
theorem closeDueAuthorization_unstopped (hd : db.run.stopDeadlineAtMs = none)
    (hlive : db.run.status ≠ .terminal) (closing : Bool) :
    (closeDueAuthorization env closing db).run.stopDeadlineAtMs.all (env.now .start < ·) ∧
      (closeDueAuthorization env closing db).run.status ≠ .terminal := by
  have hkept : db.run.stopDeadlineAtMs.all (env.now .start < ·) ∧ db.run.status ≠ .terminal :=
    ⟨by simp [hd], hlive⟩
  unfold closeDueAuthorization
  split
  · unfold stopDiscoveryRound
    split
    · split
      · exact hkept
      · exact hkept
    · unfold persistDiscoveryStop
      split
      · refine ⟨?_, ?_⟩
        · simp only [RunDb.appendEvent, RunDb.stopped, Option.all_some, decide_eq_true_eq,
            stopDeadlineMs]
          omega
        · simp only [RunDb.appendEvent, RunDb.stopped, stopStatus]
          split <;> simp
      · exact hkept
  · exact hkept

theorem orphaned_later {now : Int} (h : db.run.stopDeadlineAtMs.all (now < ·)) :
    orphaned now db = false := by
  have hdue : db.run.stopDeadlineAtMs.any (· ≤ now) = false := by
    cases hd : db.run.stopDeadlineAtMs with
    | none => rfl
    | some deadline =>
      simp only [hd, Option.all_some, decide_eq_true_eq] at h
      simp only [Option.any_some, decide_eq_false_iff_not]
      omega
  simp [orphaned, hdue]

theorem expireAndReconcile_inv (hi : StopInv db) {closing : Bool}
    (h : expireAndReconcile env closing db = .ok db') : StopInv db' := by
  have ht : transact textPlatform env db (.expireAndReconcile closing) = db' := by
    simp only [transact, call, h]
  rw [← ht]
  exact transact_stopInv _ hi

theorem expireAndReconcile_live (hi : StopInv db) (hnone : db.run.stopReason = .none)
    (hlive : db.run.status ≠ .terminal) {closing : Bool}
    (h : expireAndReconcile env closing db = .ok db') : db'.run.status ≠ .terminal := by
  have hd : db.run.stopDeadlineAtMs = none := by
    by_contra hd
    exact hi.deadline hd hnone
  obtain ⟨hlater, hstart⟩ :
      (closeDueAuthorization env closing db).run.stopDeadlineAtMs.all (env.now .start < ·) ∧ _ :=
    closeDueAuthorization_unstopped hd hlive closing
  have hclosed : RunUnit (closeDueAuthorization env closing db) :=
    closeDueAuthorization_unit hi.runUnit closing
  simp only [expireAndReconcile, bind_ok, pure, Except.pure, Except.ok.injEq] at h
  generalize closeDueAuthorization env closing db = start at h hlater hstart hclosed
  obtain ⟨mid, hmid, last, hlast, rfl⟩ := h
  have hkept : mid.run.stopDeadlineAtMs.all (env.now .start < ·) ∧ mid.run.status ≠ .terminal := by
    split at hmid
    · obtain ⟨hdeadline, hstatus⟩ := releaseUnclaimed_keeps hclosed hmid
      refine ⟨hdeadline ▸ hlater, ?_⟩
      intro hterminal
      simp [hterminal] at hstatus
    · cases hmid
      exact ⟨hlater, hstart⟩
  rw [if_neg (by simp [orphaned_later hkept.1])] at hlast
  cases hlast
  exact hkept.2

/-! ### A cycle over an abandoned run -/

theorem Abandoned.claimed {now : Int} (ha : Abandoned now db) : db.run.status ≠ .approved := by
  intro h
  have := ha.status
  simp [h] at this

theorem Abandoned.lives {now : Int} (ha : Abandoned now db) : ¬ EndedStopped db := by
  intro h
  have := ha.status
  simp [h.status] at this

/-- A cycle whose second transaction raises leaves the run as it was. -/
theorem ReaperCycle.run_error {c : ReaperCycle} {e : Refusal} (h : c.reconcileRun db = .error e) :
    c.run db = db := by
  cases hc : c.contexts <;> simp only [ReaperCycle.run, h, hc]

theorem ReaperCycle.run_contexts {c : ReaperCycle} (h : c.contexts ≠ .ok ()) : c.run db = db := by
  cases hc : c.contexts with
  | ok u => exact absurd hc h
  | error e => simp only [ReaperCycle.run, hc]

theorem ReaperCycle.run_ok {c : ReaperCycle} (hc : c.contexts = .ok ())
    (h : c.reconcileRun db = .ok db') :
    c.run db = db'.commit (c.sweepRun db') := by
  simp only [ReaperCycle.run, hc, h]

/-- The reconciliation of a stopped run whose grant nobody waits for. -/
theorem expireAndReconcile_stopped (hs : db.run.status ≠ .approved)
    (hstop : db.run.stopReason ≠ .none) (hw : Waiting db) (closing : Bool) :
    expireAndReconcile env closing db = (do
      let last ← (if orphaned (env.now .start) db then finalizeOrphan (env.now .start) db
        else .ok db)
      return last.purge (env.now .start)) := by
  simp only [expireAndReconcile, closeDueAuthorization_stopped hs hstop, unclaimed_stopped hs hw,
    Bool.false_eq_true, if_false]
  rfl

theorem purge_ended (now : Int) (h : EndedStopped db) : EndedStopped (db.purge now) := by
  refine ⟨h.status, h.disposition, ?_⟩
  have hgrant := h.grant
  simp only [RunDb.purge]
  split
  · exact hgrant
  · exact hgrant

theorem requestAuthorityStops_ended (hended : EndedStopped db) (hstop : db.run.stopReason ≠ .none)
    (now : Int) : requestAuthorityStops env now db = .ok db := by
  apply requestAuthorityStops_stopped
  · simp [hended.status]
  · exact hstop
  · simp [disconnected, hended.status]

/-- An unacknowledged stop past its deadline ends its run, unless the reconciliation raises. -/
theorem cycle_orphan (hi : StopInv db) (hw : Waiting db) {c : ReaperCycle}
    (ha : Abandoned (c.reconcile.now .start) db) (hack : db.ack = none) :
    EndedStopped (c.run db) ↔ c.contexts = .ok () ∧ c.reconciled = .ok () ∧
      db.run.binding.createdAt ≤ c.reconcile.now .start ∧
      db.run.binding.Purgeable (c.reconcile.now .start) := by
  have hnone : db.run.stopAcknowledgedAtMs = none := hack
  have horphaned : orphaned (c.reconcile.now .start) db = true := by
    simp only [orphaned, decide_eq_true_eq]
    exact ⟨ha.status, ha.stopped, hnone, ha.deadline⟩
  obtain ⟨out, hended, hreason, hout⟩ := finalizeOrphan_ends hi.runUnit (c.reconcile.now .start)
  have hreconcile : ∀ t, c.reconcileRun db = .ok t ↔
      (db.run.binding.createdAt ≤ c.reconcile.now .start ∧
        db.run.binding.Purgeable (c.reconcile.now .start) ∧ c.reconciled = .ok ()) ∧
      out.purge (c.reconcile.now .start) = t := by
    intro t
    simp only [ReaperCycle.reconcileRun, expireAndReconcile_stopped ha.claimed ha.stopped hw,
      horphaned, if_true, hout, bind_ok, Binding.checkUpdated_ok,
      Binding.checkPurge_purgeable, pure,
      Except.pure, Except.ok.injEq, exists_const]
    constructor
    · rintro ⟨_, ⟨last, ⟨hupdated, hpurge, rfl⟩, rfl⟩, _, hother, rfl⟩
      exact ⟨⟨hupdated, hpurge, hother⟩, rfl⟩
    · rintro ⟨⟨hupdated, hpurge, hother⟩, rfl⟩
      exact ⟨_, ⟨out, ⟨hupdated, hpurge, rfl⟩, rfl⟩, (), hother, rfl⟩
  have hstop : (out.purge (c.reconcile.now .start)).run.stopReason ≠ .none := by
    have hkept : out.run.stopReason ≠ .none := hreason.symm ▸ ha.stopped
    exact hkept
  constructor
  · intro hrun
    by_cases hc : c.contexts = .ok ()
    · cases hr : c.reconcileRun db with
      | ok t =>
        obtain ⟨⟨hupdated, hpurge, hother⟩, -⟩ := (hreconcile t).mp hr
        exact ⟨hc, hother, hupdated, hpurge⟩
      | error e =>
        rw [ReaperCycle.run_error hr] at hrun
        exact absurd hrun ha.lives
    · rw [ReaperCycle.run_contexts hc] at hrun
      exact absurd hrun ha.lives
  · rintro ⟨hc, hother, hupdated, hpurge⟩
    rw [ReaperCycle.run_ok hc ((hreconcile _).mpr ⟨⟨hupdated, hpurge, hother⟩, rfl⟩)]
    have hlast := purge_ended (c.reconcile.now .start) hended
    simp only [ReaperCycle.sweepRun, requestAuthorityStops_ended hlast hstop]
    -- whatever the sweeps say of the other rows, this run stays ended
    cases c.swept with
    | ok u => exact hlast
    | error e => exact hlast

theorem disconnected_purge {now : Int} (ha : Abandoned now db) (hack : db.ack ≠ none) (at_ : Int) :
    disconnected now (db.purge at_) = true ↔ db.run.status = .finalizing := by
  have hsome : db.run.stopAcknowledgedAtMs ≠ none := hack
  have hsilent : (db.purge at_).heard.all (· ≤ now - heartbeatStaleMs) = true := by
    rw [purge_heard, List.all_eq_true]
    intro heard hh
    exact decide_eq_true (ha.silent heard hh)
  simp only [disconnected, hsilent, decide_eq_true_eq]
  constructor
  · intro h
    exact h.1
  · intro h
    exact ⟨h, ha.stopped, hsome, trivial⟩

/-- What a cycle does to a stop that is acknowledged is left to its third transaction. -/
theorem cycle_acknowledged (hw : Waiting db) {c : ReaperCycle}
    (ha : Abandoned (c.reconcile.now .start) db) (hack : db.ack ≠ none) :
    c.reconcileRun db = (do
      c.reconciled
      return db.purge (c.reconcile.now .start)) := by
  have hsome : db.run.stopAcknowledgedAtMs ≠ none := hack
  have horphaned : orphaned (c.reconcile.now .start) db = false := by
    simp [orphaned, hsome]
  have hreconciled : expireAndReconcile c.reconcile c.closing db =
      .ok (db.purge (c.reconcile.now .start)) := by
    simp only [expireAndReconcile_stopped ha.claimed ha.stopped hw, horphaned, Bool.false_eq_true,
      if_false]
    rfl
  unfold ReaperCycle.reconcileRun
  rw [hreconciled]
  rfl

/-- Of the acknowledged stops the cycle ends those of a finalizing run, unless it raises. -/
theorem cycle_silent (hi : StopInv db) (hw : Waiting db) {c : ReaperCycle}
    (ha : Abandoned (c.reconcile.now .start) db) (hnow : Abandoned c.now db)
    (hack : db.ack ≠ none) :
    EndedStopped (c.run db) ↔ c.contexts = .ok () ∧ c.reconciled = .ok () ∧
      db.run.status = .finalizing ∧ c.swept = .ok () ∧ db.run.binding.Purgeable c.now := by
  have hreconcile := cycle_acknowledged hw ha hack
  have hstays : ¬ EndedStopped (db.purge (c.reconcile.now .start)) := by
    intro h
    have hterminal : db.run.status = .terminal := h.status
    have := ha.status
    simp [hterminal] at this
  by_cases hc : c.contexts = .ok ()
  · cases hother : c.reconciled with
    | error e =>
      rw [hother] at hreconcile
      rw [ReaperCycle.run_error hreconcile]
      simp [ha.lives]
    | ok u =>
      rw [hother] at hreconcile
      rw [ReaperCycle.run_ok hc hreconcile]
      have hpurged : StopInv (db.purge (c.reconcile.now .start)) :=
        ⟨hi.deadline, hi.acknowledged, hi.unit⟩
      have hclaimed : (db.purge (c.reconcile.now .start)).run.status ≠ .approved := ha.claimed
      cases hd : disconnected c.now (db.purge (c.reconcile.now .start)) with
      | true =>
        have hfinalizing := (disconnected_purge hnow hack _).mp hd
        obtain ⟨out, hended, -, hreason, hout⟩ := finalizeDisconnected_silent hpurged hd
        have hstop : out.run.stopReason ≠ .none := hreason.symm ▸ ha.stopped
        have hsweep : ∀ t, c.sweepRun (db.purge (c.reconcile.now .start)) = .ok t ↔
            (db.run.binding.Purgeable c.now ∧ c.swept = .ok ()) ∧ out = t := by
          intro t
          simp only [ReaperCycle.sweepRun, requestAuthorityStops, cancelUnclaimed_claimed hclaimed,
            hout, bind_ok, Except.ok.injEq, exists_eq_left', pure, Except.pure, exists_const,
            Binding.checkPurge_purgeable]
          constructor
          · rintro ⟨_, ⟨last, ⟨hpurge, rfl⟩, rfl⟩, _, hswept, rfl⟩
            exact ⟨⟨hpurge, hswept⟩, (recordStop_stopped hstop c.now).symm⟩
          · rintro ⟨⟨hpurge, hswept⟩, rfl⟩
            exact ⟨_, ⟨out, ⟨hpurge, rfl⟩, rfl⟩, (), hswept, recordStop_stopped hstop c.now⟩
        constructor
        · intro hrun
          cases hs : c.sweepRun (db.purge (c.reconcile.now .start)) with
          | ok t =>
            obtain ⟨⟨hpurge, hswept⟩, -⟩ := (hsweep t).mp hs
            exact ⟨hc, rfl, hfinalizing, hswept, hpurge⟩
          | error e =>
            rw [hs] at hrun
            exact absurd hrun hstays
        · rintro ⟨-, -, -, hswept, hpurge⟩
          rw [(hsweep out).mpr ⟨⟨hpurge, hswept⟩, rfl⟩]
          exact hended
      | false =>
        have hnot : db.run.status ≠ .finalizing := by
          intro hfinalizing
          rw [(disconnected_purge hnow hack _).mpr hfinalizing] at hd
          cases hd
        have hquiet : c.sweepRun (db.purge (c.reconcile.now .start)) = (do
            c.swept
            return db.purge (c.reconcile.now .start)) := by
          unfold ReaperCycle.sweepRun
          rw [requestAuthorityStops_stopped hclaimed ha.stopped hd]
          rfl
        rw [hquiet]
        constructor
        · intro hrun
          cases hs : c.swept with
          | ok u =>
            rw [hs] at hrun
            exact absurd hrun hstays
          | error e =>
            rw [hs] at hrun
            exact absurd hrun hstays
        · rintro ⟨-, -, hfinalizing, -⟩
          exact absurd hfinalizing hnot
  · rw [ReaperCycle.run_contexts hc]
    constructor
    · intro h
      exact absurd h ha.lives
    · intro h
      exact absurd h.1 hc

theorem cycle_live (hi : StopInv db) (c : ReaperCycle) (hnone : db.run.stopReason = .none)
    (hlive : db.run.status ≠ .terminal) : (c.run db).run.status ≠ .terminal := by
  have hack : db.ack = none := by
    by_contra hack
    exact hi.acknowledged hack hnone
  by_cases hc : c.contexts = .ok ()
  · cases hr : c.reconcileRun db with
    | error e =>
      rw [ReaperCycle.run_error hr]
      exact hlive
    | ok mid =>
      rw [ReaperCycle.run_ok hc hr]
      simp only [ReaperCycle.reconcileRun, bind_ok, pure, Except.pure, Except.ok.injEq] at hr
      obtain ⟨out, hmid, _, -, rfl⟩ := hr
      have hmlive := expireAndReconcile_live hi hnone hlive hmid
      cases hs : c.sweepRun out with
      | error e => exact hmlive
      | ok t =>
        simp only [ReaperCycle.sweepRun, bind_ok, pure, Except.pure, Except.ok.injEq] at hs
        obtain ⟨_, ht, _, -, rfl⟩ := hs
        exact requestAuthorityStops_live (expireAndReconcile_inv hi hmid)
          ((expireAndReconcile_ack hmid).trans hack) hmlive ht
  · rw [ReaperCycle.run_contexts hc]
    exact hlive

/-! ### The runs -/

theorem Issued.stopInv (h : Issued db) : StopInv db := by
  have hrun := h.run
  refine ⟨?_, ?_, ?_⟩
  · rw [hrun]
    simp
  · rw [hrun]
    simp
  · intro hq
    rcases h.unit with hunreserved | ⟨-, hreserve, hall⟩
    · rw [hunreserved] at hq
      cases hq
    · have hnot : ∀ kind, kind ≠ .reserve →
          db.ledger.has db.run.binding.reservationId kind = false := by
        intro kind hk
        rw [Bool.eq_false_iff]
        intro hrow
        simp only [Ledger.has, List.any_eq_true, decide_eq_true_eq] at hrow
        obtain ⟨e, he, hid, rfl⟩ := hrow
        exact hk (hall e he hid)
      exact ⟨hreserve, hnot .consume (by decide), hnot .refund (by decide)⟩

theorem reapedStep_inv {c : ReapedCall} (hi : StopInv db) (h : reapedStep P env db c db') :
    StopInv db' := by
  cases c with
  | call c =>
    cases h
    exact serve_stopInv c hi
  | outside c =>
    cases h
    exact outsideTransact_inv hi c
  | others rows =>
    obtain ⟨hothers, rfl⟩ := h
    refine ⟨hi.deadline, hi.acknowledged, ?_⟩
    intro hq
    simp only [has_others hothers]
    exact hi.unit hq

theorem requestAuthorityStops_waiting (hi : StopInv db) (hw : Waiting db) {now : Int}
    (h : requestAuthorityStops env now db = .ok db') : Waiting db' := by
  simp only [requestAuthorityStops, bind_ok, pure, Except.pure, Except.ok.injEq] at h
  obtain ⟨mid, hmid, last, hlast, rfl⟩ := h
  have hcancelled : Waiting mid := by
    unfold cancelUnclaimed at hmid
    split at hmid
    · simp only [bind_ok, pure, Except.pure, Except.ok.injEq] at hmid
      obtain ⟨⟨out, created⟩, -, _, -, rfl⟩ := hmid
      intro hissued
      cases created <;> cases hissued
    · cases hmid
      exact hw
  obtain ⟨hinv, -⟩ := cancelUnclaimed_keeps hi hmid
  have hended : Waiting last := by
    cases hsilent : disconnected now mid with
    | true =>
      obtain ⟨t, hended, -, -, heq⟩ := finalizeDisconnected_silent hinv hsilent
      simp only [heq, bind_ok, pure, Except.pure, Except.ok.injEq] at hlast
      obtain ⟨_, -, rfl⟩ := hlast
      intro hissued
      rw [hended.grant] at hissued
      cases hissued
    | false =>
      rw [finalizeDisconnected_heard hsilent] at hlast
      cases hlast
      exact hcancelled
  unfold recordStop
  split
  · rename_i hlive
    split
    · exact hended
    · -- only a claimed run is stopped, and its grant does not wait
      intro hissued
      have happroved := (hended hissued).1
      simp [happroved] at hlive
  · exact hended

theorem revokeUnusedGrant_waiting (hw : Waiting db) {now : Int} {audited : Except Refusal Unit}
    (h : revokeUnusedGrant now audited db = .ok db') : Waiting db' := by
  unfold revokeUnusedGrant at h
  split at h
  · simp only [bind_ok, pure, Except.pure, Except.ok.injEq] at h
    obtain ⟨⟨refunded, ledger⟩, -, _, -, _, -, rfl⟩ := h
    intro hissued
    cases refunded <;> cases hissued
  · cases h
    exact hw

theorem stopInflight_waiting (hw : Waiting db) {now : Int} {audited : Except Refusal Unit}
    (h : stopInflight env now audited db = .ok db') : Waiting db' := by
  unfold stopInflight at h
  split at h
  · rename_i hlive
    simp only [bind_ok, pure, Except.pure, Except.ok.injEq] at h
    obtain ⟨_, -, _, -, rfl⟩ := h
    intro hissued
    have happroved := (hw hissued).1
    simp [happroved] at hlive
  · cases h
    exact hw

theorem QuotaFrame.waiting (h : QuotaFrame db db') (hw : Waiting db) : Waiting db' := by
  intro hissued
  rw [h.grant] at hissued
  rw [h.run]
  exact hw hissued

theorem outsideTransact_waiting (hi : StopInv db) (hw : Waiting db) (c : OutsideCall) :
    Waiting (outsideTransact env db c) := by
  unfold outsideTransact
  cases hout : outsideCall env db c with
  | ok out =>
    cases c with
    | authorityStops now => exact requestAuthorityStops_waiting hi hw hout
    | runnerRevoked now audited =>
      simp only [outsideCall, revokeRunner, bind_ok] at hout
      obtain ⟨mid, hmid, hlast⟩ := hout
      exact stopInflight_waiting (revokeUnusedGrant_waiting hw hmid) hlast
    | keyRotated now audited => exact revokeUnusedGrant_waiting hw hout
    | reconcileRefund row ledger due => exact (reconcileRefund_frame hout).waiting hw
    | reconcileCompensation row => exact (reconcileCompensation_frame hout).waiting hw
  | error e => exact hw

theorem reapedStep_waiting {c : ReapedCall} (hi : StopInv db) (hw : Waiting db)
    (h : reapedStep P env db c db') : Waiting db' := by
  cases c with
  | call c =>
    cases h
    exact serve_waiting hw c
  | outside c =>
    cases h
    exact outsideTransact_waiting hi hw c
  | others rows =>
    obtain ⟨-, rfl⟩ := h
    exact hw

theorem reaped_inv {s : RunDb} (hs : (reaped P).Reachable s) : StopInv s ∧ Waiting s := by
  refine (reaped P).invariant (P := fun s => StopInv s ∧ Waiting s)
    (fun s h => ⟨Issued.stopInv h, Issued.waiting h⟩) ?_ hs
  rintro s ⟨env, c⟩ t ⟨hi, hw⟩ h
  exact ⟨reapedStep_inv hi h, reapedStep_waiting hi hw h⟩

section Acknowledged
open Containment Executor

def firstState : State := sampleState [] {} (.reporting 0)

theorem stored_sample (env : Env) (hr : env.recordsVerify = true) {db : RunDb}
    (hb : db.run.binding = sampleBinding) (ha : db.approval.projectionJson = some sampleApproval)
    (hg : db.grant.grantJson = some sampleGrant) :
    storedOperationalAuthority env db = .ok (sampleApproval, sampleGrant) := by
  simp only [storedOperationalAuthority, ha, hg, hb, hr, bind_ok, require_ok, exists_const]
  exact ⟨⟨trivial, rfl, rfl, rfl, rfl, rfl, rfl, rfl, rfl, rfl, rfl, rfl, rfl, rfl, rfl, rfl, rfl,
    rfl⟩, rfl⟩

theorem signatureVerifies_signed {P : Platform} {env : Env} {B : Bundle P} (hP : Lawful P)
    (hB : B.log.signer.Correct P) (hkey : env.publicKey = B.log.signer.publicKey)
    {v : OperationalRun} (h : v.Safe P) : signatureVerifies P env (signed B v) = true := by
  simp only [signatureVerifies, signed_bytes hP h, hkey]
  exact hB _

/-- The sample run, claimed and then stopped by Cloud. -/
def haltedRun : RunDb :=
  transact samplePlatform (sampleEnv 2000)
    (transact samplePlatform (sampleEnv 1000) sampleRun (.claim true)) (.requestStop .cloudStop 1)

/-- The runner's acknowledgement, sent before it finalizes. -/
def ackReport : OperationalRun :=
  { unsignedProjection sampleBundle firstState [] with
    lifecyclePhase := .stopRequested
    timestamps := ⟨some 1000, some 1000, 3000, some 2000, some 3000, none⟩
    counters := ⟨{}, 20, 60000⟩
    stopReason := .cloudStop }

theorem ackReport_safe : ackReport.Safe samplePlatform :=
  sampleProjection_safe (s := firstState) [] .stopRequested none
    ⟨some 1000, some 1000, 3000, some 2000, some 3000, none⟩
    ⟨{}, 20, 60000⟩ .none .cloudStop (by simp [Json.safeInt]) (by simp) (by decide) (by decide)
    (by decide) (by decide) (by simp [firstState, sampleState, Json.safeInt])

theorem ackReport_validated :
    validateOperational samplePlatform (sampleEnv 3000) haltedRun (signed sampleBundle ackReport) =
      .ok () := by
  have hvalid := signed_valid samplePlatform_lawful sampleLog_safe ackReport_safe
    (B := sampleBundle)
  have hsigned : signatureVerifies samplePlatform (sampleEnv 3000)
      (signed sampleBundle ackReport) = true :=
    signatureVerifies_signed samplePlatform_lawful sampleLog_correct rfl ackReport_safe
  have hbinding : haltedRun.run.binding = sampleBinding := rfl
  have hauthority := stored_sample (sampleEnv 3000) rfl hbinding rfl rfl
  simp only [validateOperational, hauthority, hbinding, hvalid, hsigned, bind_ok, require_ok,
    exists_const, Except.ok.injEq, exists_eq_left']
  exact ⟨⟨rfl, trivial⟩, ⟨rfl, rfl, by decide, rfl, rfl, rfl, rfl, rfl, rfl, rfl, rfl⟩, by decide⟩

def ackedRun (v : OperationalRun) : RunDb :=
  (haltedRun.storeReceipt v 3000).acknowledged v .stopRequested 3000 3000 false

example : haltedRun.run.status = .stopRequested := by decide +kernel

theorem halted_ackStop {v : OperationalRun}
    (hvalid : validateOperational samplePlatform (sampleEnv 3000) haltedRun v = .ok ())
    (hphase : v.lifecyclePhase = .stopRequested) (hstop : v.stopReason = .cloudStop)
    (hsequence : v.eventSequence = 0) (hstarted : v.counters.requestsStarted = 0)
    (hacked : v.timestamps.stopAcknowledgedAtMs = some 3000) :
    ackStop samplePlatform (sampleEnv 3000) v haltedRun = .ok (ackedRun v, false) := by
  have hauthority : storedOperationalAuthority (sampleEnv 3000) haltedRun =
      .ok (sampleApproval, sampleGrant) := stored_sample (sampleEnv 3000) rfl rfl rfl rfl
  have hmatch : verificationDigestMatches (sampleEnv 3000) sampleApproval sampleGrant = true := by
    decide
  have hnew : sourceState haltedRun.source v = .ok .new := by
    have hne : v.eventSequence ≠ haltedRun.source.sourceEventSequence := by
      rw [hsequence]
      decide
    simp only [sourceState, hne, if_false, bind_ok, require_ok, exists_const]
    exact ⟨by rw [hsequence]; decide, rfl⟩
  have hlocal : localStop (sampleEnv 3000) v 3000 haltedRun = haltedRun := by
    unfold localStop
    rw [if_neg (by simp [hstop])]
  have hstarted' : consumeIfStarted v haltedRun = .ok haltedRun := by
    simp [consumeIfStarted, hstarted]
  have harrival : serverReceiptTime ((sampleEnv 3000).now .received) haltedRun.run = 3000 := by
    decide
  have hdeadline : haltedRun.run.stopDeadlineAtMs = some 7000 := by decide
  have hstatus : haltedRun.run.status = .stopRequested := by decide
  have hreason : haltedRun.run.stopReason = .cloudStop := by decide
  have hack : acknowledge v 3000 haltedRun = .ok (ackedRun v, false) := by
    simp only [acknowledge, hacked, hdeadline, hstatus, hphase, hstop, hreason, hstarted', bind_ok,
      require_ok, exists_const]
    refine ⟨by simp, by simp, by decide, trivial, ?_⟩
    rw [if_neg (by simp)]
    simp only [bind_ok, Except.ok.injEq, exists_eq_left']
    rfl
  simp only [ackStop, hauthority, hmatch, hnew, hvalid, harrival, hlocal, bind_ok, if_true,
    Except.ok.injEq, exists_eq_left']
  refine ⟨(), trivial, ?_⟩
  rw [if_neg (by simp)]
  exact hack

def lateCycle : ReaperCycle where
  now := 20000
  reconcile := sampleEnv 20000
  closing := false
  authority := sampleEnv 20000

theorem lateCycle_readings {now : Int} (h : now ∈ lateCycle.readings) : now = 20000 := by
  simpa [ReaperCycle.readings, lateCycle, sampleEnv] using h

theorem haltedRun_reachable : (reaped samplePlatform).Reachable haltedRun := by
  have hclaimed : (reaped samplePlatform).Reachable
      (transact samplePlatform (sampleEnv 1000) sampleRun (.claim true)) :=
    .step (a := (sampleEnv 1000, .call (.claim true))) (.init sampleRun_approved.issued) rfl
  exact .step (a := (sampleEnv 2000, .call (.requestStop .cloudStop 1))) hclaimed rfl

end Acknowledged

end Heel.Cloud
