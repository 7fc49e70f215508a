import Heel.Contracts.CanonicalText
import Heel.Saas.RunEdits

/-! The lifecycle of a run under every interleaving of its transactions: the status only moves
forward, a stop is final, and what the runner has reported and acknowledged is never taken back. -/
namespace Heel.Cloud
open Lib Lib.Checks

/-- The place of a status in the order of a claimed run. -/
def stage : Phase → Option Nat
  | .approved => some 0
  | .claimed => some 1
  | .running => some 2
  | .stopRequested => some 3
  | .finalizing => some 4
  | .terminal => some 5
  | _ => none

/-- `approved < claimed < running < stop_requested < finalizing < terminal`, or from `approved`
to `cancelled` or `expired`. -/
def Forward (p q : Phase) : Prop :=
  p = q ∨ (∃ i j, stage p = some i ∧ stage q = some j ∧ i < j) ∨
    (p = .approved ∧ (q = .cancelled ∨ q = .expired))

theorem Forward.refl (p : Phase) : Forward p p := .inl rfl

theorem Forward.of_stage {p q : Phase} {i j : Nat} (hp : stage p = some i) (hq : stage q = some j)
    (h : i ≤ j) : Forward p q := by
  rcases Nat.lt_or_eq_of_le h with hlt | heq
  · exact .inr (.inl ⟨i, j, hp, hq, hlt⟩)
  · left
    subst heq
    cases p <;> cases q <;> simp_all [stage] <;> omega

theorem Forward.trans {p q r : Phase} (h1 : Forward p q) (h2 : Forward q r) : Forward p r := by
  rcases h1 with rfl | ⟨i, j, hi, hj, hij⟩ | ⟨rfl, hq⟩
  · exact h2
  · rcases h2 with rfl | ⟨j', k, hj', hk, hjk⟩ | ⟨rfl, -⟩
    · exact .inr (.inl ⟨i, j, hi, hj, hij⟩)
    · rw [hj] at hj'
      cases hj'
      exact .inr (.inl ⟨i, k, hi, hk, hij.trans hjk⟩)
    · cases hj
      omega
  · rcases h2 with rfl | ⟨j', k, hj', -, -⟩ | ⟨rfl, -⟩
    · exact .inr (.inr ⟨rfl, hq⟩)
    · rcases hq with rfl | rfl <;> cases hj'
    · rcases hq with hq | hq <;> cases hq

theorem Forward.ended {p q : Phase} (h : Forward p q) (hp : ended p = true) : q = p := by
  rcases h with rfl | ⟨i, j, hi, hj, hij⟩ | ⟨rfl, -⟩
  · rfl
  · cases p <;> cases q <;> simp_all [Cloud.ended, stage] <;> omega
  · cases hp

theorem Forward.placed {p q : Phase} (h : Forward p q)
    (hp : p ≠ .prepared ∧ p ≠ .awaitingExecutionApproval) :
    q ≠ .prepared ∧ q ≠ .awaitingExecutionApproval := by
  rcases h with rfl | ⟨i, j, hi, hj, hij⟩ | ⟨rfl, hq | hq⟩
  · exact hp
  · refine ⟨?_, ?_⟩ <;> rintro rfl <;> cases hj
  · simp [hq]
  · simp [hq]

/-- The receipt, unless it was never stored or is purged. -/
def RunDb.lastReceipt (db : RunDb) : Option OperationalRun :=
  db.receipt.bind ReceiptRow.receiptJson

/-- All four acknowledgement columns are empty, or all are set. -/
def Witnessed (r : Run) : Prop :=
  (r.stopAcknowledgedAtMs = none ∧ r.witness = {}) ∨
    ∃ at_ sequence digest local_, r.stopAcknowledgedAtMs = some at_ ∧
      r.witness = ⟨some sequence, some digest, some local_⟩

/-- What holds of the rows of a run between its transactions. -/
structure RunInv (P : Platform) (db : RunDb) : Prop where
  placed : db.run.status ≠ .prepared ∧ db.run.status ≠ .awaitingExecutionApproval
  stopped : db.run.stopReason ≠ .none →
    db.run.status ∈ [Phase.stopRequested, .finalizing, .terminal]
  witnessed : Witnessed db.run
  /-- Until the run ends its source columns are those of the stored receipt. -/
  receipt : ended db.run.status = false → ∀ w, db.lastReceipt = some w →
    w.validate P = .ok () ∧ db.run.sourceEventSequence = w.eventSequence ∧
      db.run.sourceProjectionDigest = some w.projectionDigest

/-- What never goes back from `s` to `t`. -/
structure Advances (s t : RunDb) : Prop where
  status : Forward s.run.status t.run.status
  stop : s.run.stopReason ≠ .none → t.run.stopReason = s.run.stopReason ∧
    t.run.stopDeadlineAtMs = s.run.stopDeadlineAtMs
  sequence : s.run.sourceEventSequence ≤ t.run.sourceEventSequence
  acknowledged : s.run.stopAcknowledgedAtMs ≠ none →
    t.run.stopAcknowledgedAtMs = s.run.stopAcknowledgedAtMs ∧ t.run.witness = s.run.witness

theorem Advances.refl (s : RunDb) : Advances s s :=
  ⟨.refl _, fun _ => ⟨rfl, rfl⟩, le_refl _, fun _ => ⟨rfl, rfl⟩⟩

theorem Advances.trans {s t u : RunDb} (h1 : Advances s t) (h2 : Advances t u) : Advances s u where
  status := h1.status.trans h2.status
  stop h := by
    obtain ⟨hr, hd⟩ := h1.stop h
    obtain ⟨hr', hd'⟩ := h2.stop (hr ▸ h)
    exact ⟨hr'.trans hr, hd'.trans hd⟩
  sequence := h1.sequence.trans h2.sequence
  acknowledged h := by
    obtain ⟨ha, hw⟩ := h1.acknowledged h
    obtain ⟨ha', hw'⟩ := h2.acknowledged (ha ▸ h)
    exact ⟨ha'.trans ha, hw'.trans hw⟩

/-- The receipt of `s` is succeeded by one whose counters are at least as high. -/
def Grows (s t : RunDb) : Prop :=
  ∀ w, s.lastReceipt = some w → ∃ v, t.lastReceipt = some v ∧
    Containment.Counters.Le w.counters.toCounters v.counters.toCounters

theorem Grows.refl (s : RunDb) : Grows s s := fun w hw => ⟨w, hw, .refl _⟩

theorem Grows.of_eq {s t : RunDb} (h : t.lastReceipt = s.lastReceipt) : Grows s t :=
  fun w hw => ⟨w, h.trans hw, .refl _⟩

theorem Grows.trans {s t u : RunDb} (h1 : Grows s t) (h2 : Grows t u) : Grows s u := by
  intro w hw
  obtain ⟨v, hv, hle⟩ := h1 w hw
  obtain ⟨x, hx, hle'⟩ := h2 v hv
  exact ⟨x, hx, hle.trans hle'⟩

/-! ### News and replays -/

/-- No two valid projections of different canonical text have one SHA-256 digest. -/
def CollisionFree (P : Platform) : Prop := ∀ v w : OperationalRun, v.validate P = .ok () →
  w.validate P = .ok () → v.projectionDigest = w.projectionDigest →
    Json.canonicalBytes P v.unsigned = Json.canonicalBytes P w.unsigned

variable {P : Platform} {row : Source} {v w : OperationalRun} {state : SourceState}

theorem sourceState_sequence (h : sourceState row v = .ok state) :
    row.sourceEventSequence ≤ v.eventSequence := by
  unfold sourceState at h
  split at h
  · omega
  · simp only [bind_ok, require_ok, exists_const] at h
    exact h.1

theorem validate_digest (h : v.validate P = .ok ()) :
    ∃ bytes, Json.canonicalBytes P v.unsigned = .ok bytes ∧ v.projectionDigest =
    P.sha256 bytes := by
  simp only [OperationalRun.validate, bind_ok, require_ok, exists_const] at h
  obtain ⟨_, -, -, _, -, _, -, _, -, -, _, -, _, -, _, -, _, -, _, -, _, -, _, -, _, -, _, -, -,
    digest, hdigest, heq⟩ := h
  simp only [Json.canonicalDigest, bind_ok, pure, Except.pure, Except.ok.injEq] at hdigest
  obtain ⟨bytes, hbytes, hsha⟩ := hdigest
  exact ⟨bytes, hbytes, heq.trans hsha.symm⟩

theorem counters_of_digest (hP : CollisionFree P) (hv : v.validate P = .ok ())
    (hw : w.validate P = .ok ()) (h : v.projectionDigest = w.projectionDigest) :
    Containment.Counters.Le w.counters.toCounters v.counters.toCounters := by
  obtain ⟨bytes, hb, -⟩ := validate_digest hv
  have hb' := (hP v w hv hw h).symm.trans hb
  exact fun f _ => (OperationalRun.counters_of_text hb' hb f).le

/-- What Cloud takes as new or as a replay reports at least what its receipt does. -/
theorem sourceState_grows (hP : CollisionFree P) (hv : v.validate P = .ok ())
    (hw : w.validate P = .ok ()) (hreceipt : row.receipt = some w)
    (hdigest : row.sourceProjectionDigest = some w.projectionDigest)
    (h : sourceState row v = .ok state) :
    Containment.Counters.Le w.counters.toCounters v.counters.toCounters := by
  unfold sourceState at h
  split at h
  · split at h
    · rename_i hsame
      rw [hdigest, Option.some.injEq] at hsame
      exact counters_of_digest hP hv hw hsame.symm
    · cases h
  · simp only [hreceipt, bind_ok, require_ok, exists_const, Bool.not_eq_true'] at h
    exact (counterRegression_iff.mp h.2.1).1

/-! ### What one edit keeps -/

/-- The reaper only releases grants of runs that are still approved. -/
def StillApproved (db : RunDb) : Prop := db.run.status = .approved

/-- What most edits leave alone: the source, the receipt and the acknowledgement. -/
structure Leaves (s t : RunDb) : Prop where
  sequence : t.run.sourceEventSequence = s.run.sourceEventSequence
  digest : t.run.sourceProjectionDigest = s.run.sourceProjectionDigest
  receipt : t.lastReceipt = s.lastReceipt
  acknowledged : t.run.stopAcknowledgedAtMs = s.run.stopAcknowledgedAtMs
  witness : t.run.witness = s.run.witness

theorem Leaves.keeps {s t : RunDb} (h : Leaves s t) (hs : RunInv P s)
    (hf : Forward s.run.status t.run.status)
    (hstop : s.run.stopReason ≠ .none → t.run.stopReason = s.run.stopReason ∧
      t.run.stopDeadlineAtMs = s.run.stopDeadlineAtMs)
    (hinv : t.run.stopReason ≠ .none →
      t.run.status ∈ [Phase.stopRequested, .finalizing, .terminal]) :
    RunInv P t ∧ Advances s t ∧ Grows s t := by
  refine ⟨⟨hf.placed hs.placed, hinv, ?_, ?_⟩, ⟨hf, hstop, h.sequence.ge,
    fun _ => ⟨h.acknowledged, h.witness⟩⟩, .of_eq h.receipt⟩
  · unfold Witnessed
    rw [h.acknowledged, h.witness]
    exact hs.witnessed
  · intro hlive w hw
    have hbefore : ended s.run.status = false := by
      by_contra hended
      rw [Bool.not_eq_false] at hended
      rw [hf.ended hended, hended] at hlive
      cases hlive
    rw [h.sequence, h.digest]
    exact hs.receipt hbefore w (h.receipt.symm.trans hw)

theorem RunInv.unstopped {s : RunDb} (hs : RunInv P s)
    (h : s.run.status ∈ [Phase.approved, .claimed, .running]) : s.run.stopReason = .none := by
  by_contra hne
  have := hs.stopped hne
  simp only [List.mem_cons, List.not_mem_nil, or_false] at h this
  rcases h with h | h | h <;> rw [h] at this <;> simp at this

theorem Edit.keeps (hP : CollisionFree P) {s t : RunDb} (h : Edit P StillApproved s t)
    (hs : RunInv P s) : RunInv P t ∧ Advances s t ∧ Grows s t := by
  cases h with
  | live heartbeat updated events =>
    exact Leaves.keeps ⟨rfl, rfl, rfl, rfl, rfl⟩ hs (.refl _) (fun _ => ⟨rfl, rfl⟩) hs.stopped
  | gate serverTime updated hg =>
    exact Leaves.keeps ⟨rfl, rfl, rfl, rfl, rfl⟩ hs (.refl _) (fun _ => ⟨rfl, rfl⟩) hs.stopped
  | claim now hst hg hn =>
    have hnone := hs.unstopped (by simp [hst])
    refine Leaves.keeps ⟨rfl, rfl, rfl, rfl, rfl⟩ hs ?_ (fun hne => absurd hnone hne)
      (fun hne => absurd hnone hne)
    exact Forward.of_stage (i := 0) (j := 1) (by rw [hst]; rfl) rfl (by omega)
  | revoke hst hg =>
    exact Leaves.keeps ⟨rfl, rfl, rfl, rfl, rfl⟩ hs (.refl _) (fun _ => ⟨rfl, rfl⟩) hs.stopped
  | stop reason error generation now deadline hr hst h =>
    have hnone : s.run.stopReason = .none := by
      rcases h with h | h
      · exact h
      · refine hs.unstopped ?_
        simp only [List.mem_cons, List.not_mem_nil, or_false] at h ⊢
        exact .inr h
    refine Leaves.keeps ⟨rfl, rfl, rfl, rfl, rfl⟩ hs ?_ (fun hne => absurd hnone hne) ?_
    · have hplaced := hs.placed
      simp only
      cases hcase : s.run.status <;> simp_all [ended, stopStatus, Forward, stage]
    · intro _
      simp only [stopStatus]
      split <;> simp
  | move status error hst =>
    rcases hst with ⟨hc, rfl, hnone⟩ | ⟨hc, rfl, hstop⟩ | ⟨hc, hto⟩
    · exact Leaves.keeps ⟨rfl, rfl, rfl, rfl, rfl⟩ hs
        (Forward.of_stage (i := 1) (j := 2) (by rw [hc]; rfl) rfl (by omega))
        (fun hne => absurd hnone hne) (fun hne => absurd hnone hne)
    · exact absurd (hs.unstopped (List.mem_cons_of_mem _ hc)) hstop
    · refine Leaves.keeps ⟨rfl, rfl, rfl, rfl, rfl⟩ hs ?_ (fun _ => ⟨rfl, rfl⟩) ?_
      · simp only [List.mem_cons, List.not_mem_nil, or_false] at hc
        rcases hto with rfl | rfl
        · exact .refl _
        · rcases hc with hc | hc | hc | hc <;> simp [hc, Forward, stage]
      · intro hne
        rcases hto with rfl | rfl
        · exact hs.stopped hne
        · simp
  | report v state started purgeAt hv hst hl hq =>
    refine ⟨⟨hs.placed, hs.stopped, hs.witnessed, ?_⟩, ⟨.refl _, fun _ => ⟨rfl, rfl⟩,
      sourceState_sequence hst, fun _ => ⟨rfl, rfl⟩⟩, ?_⟩
    · rintro - w hw
      cases hw
      exact ⟨hv, rfl, rfl⟩
    · intro w hw
      obtain ⟨hvalid, -, hdigest⟩ := hs.receipt hl.1 w hw
      exact ⟨v, rfl, sourceState_grows hP hv hvalid hw hdigest hst⟩
  | evidence v state hv hst hl hq =>
    refine ⟨⟨hs.placed, hs.stopped, hs.witnessed, ?_⟩, ⟨.refl _, fun _ => ⟨rfl, rfl⟩,
      sourceState_sequence hst, fun _ => ⟨rfl, rfl⟩⟩, .of_eq rfl⟩
    intro hlive
    simp only [hl] at hlive
    cases hlive
  | acknowledge sequence digest at_ local_ late h =>
    refine ⟨⟨hs.placed, hs.stopped, .inr ⟨at_, sequence, digest, local_, rfl, rfl⟩, hs.receipt⟩,
      ⟨.refl _, fun _ => ⟨rfl, rfl⟩, le_refl _, fun hne => absurd h.1 hne⟩, .of_eq rfl⟩
  | consume ledger hq hl =>
    exact Leaves.keeps ⟨rfl, rfl, rfl, rfl, rfl⟩ hs (.refl _) (fun _ => ⟨rfl, rfl⟩) hs.stopped
  | terminate disposition error reason requested started now grantPurge approvalPurge ledger quota
      hst hr hq =>
    refine Leaves.keeps ⟨rfl, rfl, rfl, rfl, rfl⟩ hs ?_ (fun hne => ⟨hr hne, rfl⟩) (by simp)
    exact Forward.of_stage (i := 4) (j := 5) (by rw [hst]; rfl) rfl (by omega)
  | release now approvalPurge ledger quota hu hR hq =>
    have hnone := hs.unstopped (by simp [show s.run.status = .approved from hR])
    refine Leaves.keeps ⟨rfl, rfl, rfl, rfl, rfl⟩ hs (.inr (.inr ⟨hR, ?_⟩))
      (fun hne => absurd hnone hne) (fun hne => absurd hnone hne)
    simp only
    split
    · exact .inr rfl
    · exact .inl rfl

theorem Edits.keeps (hP : CollisionFree P) {s t : RunDb} (h : Edits P StillApproved s t)
    (hs : RunInv P s) : RunInv P t ∧ Advances s t ∧ Grows s t := by
  induction h with
  | refl => exact ⟨hs, .refl s, .refl s⟩
  | tail _ he ih =>
    obtain ⟨hm, ha, hg⟩ := ih
    obtain ⟨ht, ha', hg'⟩ := he.keeps hP hm
    exact ⟨ht, ha.trans ha', hg.trans hg'⟩

/-! ### What one transaction keeps -/

/-- A grant that is still issued waits for a claim, and its run with it. -/
def Waiting (s : RunDb) : Prop :=
  s.grant.status = .issued → s.run.status = .approved ∧ s.run.claimedAtMs = none

variable {env : Env}

/-- Closing a discovery authorization never opens a grant again, nor takes a claimed run back. -/
theorem stopDiscoveryRound_cases (now : Int) (s : RunDb) :
    (s.run.status = .approved ∧ (stopDiscoveryRound env now s).run.status = .approved ∧
      (stopDiscoveryRound env now s).grant.status ≠ .issued) ∨
    (s.run.status ≠ .approved ∧ (stopDiscoveryRound env now s).grant = s.grant ∧
      (stopDiscoveryRound env now s).run.status ≠ .approved) := by
  unfold stopDiscoveryRound
  by_cases hs : s.run.status = .approved
  · left
    rw [if_pos hs]
    split
    · exact ⟨hs, hs, by simp [RunDb.appendEvent]⟩
    · rename_i hg
      exact ⟨hs, hs, hg⟩
  · right
    rw [if_neg hs]
    refine ⟨hs, ?_⟩
    unfold persistDiscoveryStop
    split
    · refine ⟨rfl, ?_⟩
      simp only [RunDb.appendEvent, RunDb.stopped, stopStatus]
      split <;> simp
    · exact ⟨rfl, hs⟩

theorem closeDueAuthorization_stillApproved {s : RunDb} {closing : Bool} (hw : Waiting s)
    (hu : unclaimed (env.now .start) (closeDueAuthorization env closing s) = true) :
    StillApproved (closeDueAuthorization env closing s) := by
  simp only [unclaimed, Bool.decide_or, Bool.decide_and, Bool.or_eq_true, Bool.and_eq_true,
    decide_eq_true_eq] at hu
  unfold closeDueAuthorization at hu ⊢
  split at hu
  · rename_i hclose
    rw [if_pos hclose]
    rcases hu with ⟨hissued, -⟩ | ⟨-, happroved⟩
    · rcases stopDiscoveryRound_cases (env.now .start) s with
        ⟨-, -, hnot⟩ | ⟨hs, hsame, -⟩
      · exact absurd hissued hnot
      · rw [hsame] at hissued
        exact absurd (hw hissued).1 hs
    · exact happroved
  · rename_i hclose
    rw [if_neg hclose]
    rcases hu with ⟨hissued, -⟩ | ⟨-, happroved⟩
    · exact (hw hissued).1
    · exact happroved

theorem purge_lastReceipt (s : RunDb) (now : Int) :
    (s.purge now).lastReceipt = none ∨ (s.purge now).lastReceipt = s.lastReceipt := by
  unfold RunDb.lastReceipt RunDb.purge
  cases s.receipt with
  | none => exact .inl rfl
  | some r =>
    simp only [Option.map_some, Option.bind_some]
    split
    · exact .inl rfl
    · exact .inr rfl

theorem purge_keeps {s : RunDb} (hs : RunInv P s) (now : Int) :
    RunInv P (s.purge now) ∧ Advances s (s.purge now) ∧
      ((s.purge now).lastReceipt ≠ none → Grows s (s.purge now)) := by
  refine ⟨⟨hs.placed, hs.stopped, hs.witnessed, ?_⟩, ⟨.refl _, fun _ => ⟨rfl, rfl⟩, le_refl _,
    fun _ => ⟨rfl, rfl⟩⟩, ?_⟩
  · intro hlive w hw
    rcases purge_lastReceipt s now with h | h
    · rw [h] at hw
      cases hw
    · exact hs.receipt hlive w (h.symm.trans hw)
  · intro hne
    rcases purge_lastReceipt s now with h | h
    · exact absurd h hne
    · exact .of_eq h

theorem transact_keeps (hP : CollisionFree P) {s : RunDb} (hs : RunInv P s) (hw : Waiting s)
    (c : Call) :
    RunInv P (transact P env s c) ∧ Advances s (transact P env s c) ∧
      ((transact P env s c).lastReceipt ≠ none → Grows s (transact P env s c)) := by
  obtain ⟨last, hlast, h⟩ := transact_edits (P := P) (R := StillApproved) c
    (fun _ _ => closeDueAuthorization_stillApproved hw)
  obtain ⟨hi, ha, hgrow⟩ := hlast.keeps hP hs
  rcases h with h | ⟨now, h⟩
  · rw [h]
    exact ⟨hi, ha, fun _ => hgrow⟩
  · rw [h]
    obtain ⟨hi', ha', hgrow'⟩ := purge_keeps hi now
    exact ⟨hi', ha.trans ha', fun hne => hgrow.trans (hgrow' hne)⟩

theorem serve_keeps (hP : CollisionFree P) {s : RunDb} (hs : RunInv P s) (hw : Waiting s)
    (c : Call) :
    RunInv P (serve P env s c) ∧ Advances s (serve P env s c) ∧
      ((serve P env s c).lastReceipt ≠ none → Grows s (serve P env s c)) := by
  unfold serve
  split
  · exact ⟨hs, .refl s, fun _ => .refl s⟩
  · exact transact_keeps hP hs hw c

theorem Issued.runInv {s : RunDb} (h : Issued s) : RunInv P s := by
  have hrun := h.run
  refine ⟨?_, ?_, ?_, ?_⟩
  · rw [hrun]
    simp
  · rw [hrun]
    simp
  · rw [hrun]
    exact .inl ⟨rfl, rfl⟩
  · intro _ w hw
    simp [RunDb.lastReceipt, h.receipt] at hw

/-! ### A grant that waits -/

theorem Edit.unissued {R : RunDb → Prop} {s t : RunDb} (h : Edit P R s t)
    (hs : s.grant.status ≠ .issued) : t.grant.status ≠ .issued := by
  cases h with
  | claim => simp
  | revoke => simp
  | terminate => simp
  | release => simp [hs]
  | _ => exact hs

theorem transact_unissued {s : RunDb} (c : Call) (hs : s.grant.status ≠ .issued) :
    (transact P env s c).grant.status ≠ .issued := by
  obtain ⟨last, hlast, h⟩ : ∃ last, Edits P (fun _ => True) s last ∧
      (transact P env s c = last ∨ ∃ now, transact P env s c = last.purge now) :=
    transact_edits c (fun _ _ _ => trivial)
  have hkept : last.grant.status ≠ .issued := hlast.keep (fun _ _ hs he => Edit.unissued he hs) hs
  rcases h with h | ⟨now, h⟩
  · rw [h]
    exact hkept
  · rw [h]
    unfold RunDb.purge
    simp only
    split <;> exact hkept

theorem stopDiscoveryRound_waiting {s : RunDb} (hw : Waiting s) (now : Int) :
    Waiting (stopDiscoveryRound env now s) := by
  intro hissued
  rcases stopDiscoveryRound_cases now s with ⟨-, -, hnot⟩ | ⟨hs, hsame, -⟩
  · exact absurd hissued hnot
  · rw [hsame] at hissued
    exact absurd (hw hissued).1 hs

theorem discoveryLiveCheck_waiting {s : RunDb} (hw : Waiting s) (now : Int) :
    Waiting (discoveryLiveCheck env now s) := by
  unfold discoveryLiveCheck
  split
  · exact hw
  · split
    · exact hw
    · exact stopDiscoveryRound_waiting hw now

theorem claim_waiting (P : Platform) {s t : RunDb} {first : Bool} {answer : Option Gate}
    (hw : Waiting s)
    (h : claim env first s = .ok (t, answer)) : Waiting t := by
  have hlive : Waiting (if s.grant.status = .issued then discoveryLiveCheck env (env.now .start) s
      else s) := by
    split
    · exact discoveryLiveCheck_waiting hw _
    · exact hw
  simp only [claim] at h
  generalize (if s.grant.status = .issued then discoveryLiveCheck env (env.now .start) s else s)
    = mid at hlive h
  by_cases hfirst : first ∧ mid.grant.status = .issued ∧ env.now .start < mid.grant.expiresAt
  · rw [if_pos hfirst] at h
    simp only [bind_ok] at h
    obtain ⟨⟨out, g⟩, hclaim, h⟩ := h
    cases h
    obtain ⟨-, -, hgate⟩ := claimGrant_ok hclaim
    have hedits := gate_edits (P := P) (R := fun _ => True) hgate
    have hclaimed := hedits.keep (Q := fun s => s.grant.status ≠ .issued)
      (fun _ _ hs he => Edit.unissued he hs) (by simp [RunDb.appendEvent])
    exact fun hissued => absurd hissued hclaimed
  · rw [if_neg hfirst] at h
    cases h
    exact hlive

theorem requestStop_waiting {s t : RunDb} {reason : StopReason} {generation : Int}
    (hw : Waiting s) (h : requestStop env reason generation s = .ok t) : Waiting t := by
  simp only [requestStop, bind_ok, require_ok, exists_const] at h
  obtain ⟨-, h⟩ := h
  split at h
  · simp only [bind_ok, require_ok, exists_const] at h
    obtain ⟨-, h⟩ := h
    cases h
    exact hw
  · simp only [bind_ok, require_ok, exists_const] at h
    obtain ⟨-, hlive, h⟩ := h
    cases h
    intro hissued
    have happroved := (hw hissued).1
    simp [happroved] at hlive

theorem releaseUnclaimed_unissued {s t : RunDb} {now : Int} (h : releaseUnclaimed now s = .ok t) :
    t.grant.status ≠ .issued := by
  simp only [releaseUnclaimed, bind_ok, pure, Except.pure, Except.ok.injEq] at h
  obtain ⟨mid, -, _, -, rfl⟩ := h
  have hreleased : (mid.released now).grant.status ≠ .issued := by
    simp only [RunDb.released, RunDb.appendEvent]
    split <;> simp
  split
  · exact hreleased
  · exact hreleased

theorem expireAndReconcile_waiting (P : Platform) {s t : RunDb} {closing : Bool} (hw : Waiting s)
    (h : expireAndReconcile env closing s = .ok t) : Waiting t := by
  simp only [expireAndReconcile, bind_ok, pure, Except.pure, Except.ok.injEq] at h
  obtain ⟨mid, hmid, last, hlast, rfl⟩ := h
  have hclose : Waiting (closeDueAuthorization env closing s) := by
    unfold closeDueAuthorization
    split
    · exact stopDiscoveryRound_waiting hw _
    · exact hw
  have hreleased : Waiting mid := by
    split at hmid
    · exact fun hissued => absurd hissued (releaseUnclaimed_unissued hmid)
    · cases hmid
      exact hclose
  have hended : Waiting last := by
    split at hlast
    · rename_i horphan
      -- an orphan is no run that waits, and its grant is not issued again
      have hunissued : mid.grant.status ≠ .issued := by
        intro hissued
        simp [orphaned, (hreleased hissued).1] at horphan
      have hedits := finalizeOrphan_edits (P := P) (R := fun _ => True) horphan hlast
      have hkept := hedits.keep (Q := fun s => s.grant.status ≠ .issued)
        (fun _ _ hs he => Edit.unissued he hs) hunissued
      exact fun hissued => absurd hissued hkept
    · cases hlast
      exact hreleased
  intro hissued
  refine hended ?_
  unfold RunDb.purge at hissued
  simp only at hissued
  split at hissued <;> exact hissued

/-- What comes in leaves a waiting grant with its run, or takes it. -/
theorem serve_waiting {s : RunDb} (hw : Waiting s) (c : Call) : Waiting (serve P env s c) := by
  unfold serve
  split
  · exact hw
  · rename_i hserved
    by_cases hissued : s.grant.status = .issued
    · have hquiet : c.projection = none := by
        have hnone := (hw hissued).2
        simpa [hnone] using hserved
      unfold transact
      split
      · rename_i out hout
        cases c with
        | claim first =>
          obtain ⟨answer, h⟩ := fst_ok hout
          exact claim_waiting P hw h
        | requestStop reason generation => exact requestStop_waiting hw hout
        | discoveryClosed =>
          cases hout
          exact stopDiscoveryRound_waiting hw _
        | expireAndReconcile closing => exact expireAndReconcile_waiting P hw hout
        | heartbeat v => cases hquiet
        | progress v => cases hquiet
        | ackStop v => cases hquiet
        | result v discovery => cases hquiet
      · exact hw
    · exact fun h => absurd h (transact_unissued c hissued)

theorem Approved.issued {s : RunDb} (h : Approved s) : Issued s := by
  have hquota : s.run.quotaState = .reserved := by rw [h.run]
  refine ⟨?_, h.grant, h.receipt, .inr ⟨hquota, h.ledger⟩⟩
  rw [hquota]
  exact h.run

theorem Issued.waiting {s : RunDb} (h : Issued s) : Waiting s := by
  intro _
  rw [h.run]
  exact ⟨rfl, rfl⟩

/-! ### A projection of another stop -/

/-- The row less what a heartbeat moves: the columns of liveness. -/
def Run.durable (r : Run) : Run :=
  { r with lastHeartbeatAtMs := none, lastGateAtMs := none, updatedAt := 0 }

/-- The row less what a runner's last snapshot from before a stop moves: liveness, the source,
the start and the quota unit of a request already sent. -/
def Run.authority (r : Run) : Run :=
  { r.durable with
    sourceEventSequence := -1, sourceProjectionDigest := none, startedAtMs := none
    quotaState := .reserved, cloudEventSequence := 0 }

/-- The documented liveness path: a delayed heartbeat or a snapshot from before the stop moves no
column of the run's authority, and no evidence either unless it is newer than the source. -/
structure LivenessPath (s t : RunDb) (v : OperationalRun) : Prop where
  snapshot : v.stopReason = .none ∨ v.eventSequence < s.run.sourceEventSequence
  authority : t.run.authority = s.run.authority
  grant : t.grant = s.grant
  approval : t.approval = s.approval
  older : v.eventSequence ≤ s.run.sourceEventSequence →
    t.run.durable = s.run.durable ∧ t.receipt = s.receipt ∧ t.ledger = s.ledger

theorem LivenessPath.tail {s t u : RunDb} (h : LivenessPath s t v)
    (hrun : u.run.durable = t.run.durable) (hgrant : u.grant = t.grant)
    (happroval : u.approval = t.approval) (hreceipt : u.receipt = t.receipt)
    (hledger : u.ledger = t.ledger) : LivenessPath s u v where
  snapshot := h.snapshot
  authority := by
    rw [← h.authority]
    simp only [Run.authority, hrun]
  grant := hgrant.trans h.grant
  approval := happroval.trans h.approval
  older hle := by
    obtain ⟨h1, h2, h3⟩ := h.older hle
    exact ⟨hrun.trans h1, hreceipt.trans h2, hledger.trans h3⟩

variable {s t : RunDb}

theorem persistAuthorityStop_stopped (hstop : s.run.stopReason ≠ .none) (reading : Reading) :
    persistAuthorityStop env reading s = s := by
  unfold persistAuthorityStop
  rw [if_pos (.inr hstop)]

theorem stopDiscoveryRound_stopped (hs : s.run.status ≠ .approved)
    (hstop : s.run.stopReason ≠ .none) (now : Int) : stopDiscoveryRound env now s = s := by
  unfold stopDiscoveryRound persistDiscoveryStop
  rw [if_neg hs, if_neg (fun h => hstop h.1)]

theorem discoveryLiveCheck_stopped (hs : s.run.status ≠ .approved)
    (hstop : s.run.stopReason ≠ .none) (now : Int) : discoveryLiveCheck env now s = s := by
  unfold discoveryLiveCheck
  split
  · rfl
  · split
    · rfl
    · exact stopDiscoveryRound_stopped hs hstop now

theorem gate_stopped {answer : Gate} (hs : s.run.status ≠ .approved)
    (hstop : s.run.stopReason ≠ .none)
    (h : gate env s = .ok (t, answer)) : t.run.durable = s.run.durable ∧ t.grant = s.grant ∧
      t.approval = s.approval ∧ t.receipt = s.receipt ∧ t.ledger = s.ledger := by
  simp only [gate, discoveryLiveCheck_stopped hs hstop, persistAuthorityStop_stopped hstop,
    ite_self, bind_ok, pure, Except.pure, Except.ok.injEq, Prod.mk.injEq] at h
  obtain ⟨_, -, h, -⟩ := h
  subst h
  exact ⟨rfl, rfl, rfl, rfl, rfl⟩

theorem preserveAfterStop_liveness {how : Acceptance} (hnone : v.stopReason = .none)
    (h : preserveAfterStop env v s = .ok (t, how)) :
    LivenessPath s t v ∧ (how = .liveness ∨ how = .livenessNew) := by
  simp only [preserveAfterStop, bind_ok] at h
  obtain ⟨state, hstate, h⟩ := h
  cases state with
  | replay =>
    cases h
    exact ⟨⟨.inl hnone, rfl, rfl, rfl, fun _ => ⟨rfl, rfl, rfl⟩⟩, .inl rfl⟩
  | new =>
    simp only [bind_ok, require_ok, exists_const] at h
    obtain ⟨-, mid, hmid, h⟩ := h
    cases h
    have hframe := consumeIfStarted_frame hmid
    refine ⟨⟨.inl hnone, ?_, hframe.grant, hframe.approval, ?_⟩, .inr rfl⟩
    · simp only [RunDb.sourced, RunDb.storeReceipt, Run.authority, Run.durable]
      rw [hframe.run]
    · -- a new projection is not older than the source
      intro hle
      unfold sourceState at hstate
      split at hstate
      · split at hstate <;> cases hstate
      · rename_i hne
        simp only [bind_ok, require_ok, exists_const] at hstate
        have hge : s.run.sourceEventSequence ≤ v.eventSequence := hstate.1
        exact absurd (le_antisymm hle hge) hne

theorem acceptOperational_foreign {operation : Operation} {how : Acceptance}
    (hstop : s.run.stopReason ≠ .none) (hne : v.stopReason ≠ s.run.stopReason)
    (h : acceptOperational P env operation v s = .ok (t, how)) :
    LivenessPath s t v ∧ how ∉ [Acceptance.new, .replay] := by
  simp only [acceptOperational, persistAuthorityStop_stopped hstop, ite_self, bind_ok, require_ok,
    exists_const] at h
  obtain ⟨_, -, _, -, -, -, -, h⟩ := h
  split at h
  · rename_i hstale
    cases h
    exact ⟨⟨.inr hstale.2, rfl, rfl, rfl, fun _ => ⟨rfl, rfl, rfl⟩⟩, by decide⟩
  · split at h
    · rename_i hstale
      cases h
      exact ⟨⟨.inr hstale.2.1, rfl, rfl, rfl, fun _ => ⟨rfl, rfl, rfl⟩⟩, by decide⟩
    · split at h
      · rename_i hpre
        obtain ⟨hlive, hhow⟩ := preserveAfterStop_liveness hpre.2 h
        refine ⟨hlive, ?_⟩
        rcases hhow with rfl | rfl <;> decide
      · rename_i hpre
        split at h
        · rename_i hmis
          exact absurd ⟨hstop, hmis.2⟩ hpre
        · simp only [acceptNews, bind_ok, require_ok, exists_const] at h
          rcases h.1 with hnone | hsame
          · exact absurd hnone hstop
          · exact absurd hsame hne

theorem heartbeat_foreign {answer : Gate} (hs : s.run.status ≠ .approved)
    (hstop : s.run.stopReason ≠ .none) (hne : v.stopReason ≠ s.run.stopReason)
    (h : heartbeat P env v s = .ok (t, answer)) : LivenessPath s t v := by
  simp only [heartbeat, bind_ok] at h
  obtain ⟨⟨mid, how⟩, hmid, hgate⟩ := h
  obtain ⟨hlive, hhow⟩ := acceptOperational_foreign hstop hne hmid
  have hstatus : mid.run.status = s.run.status :=
    show mid.run.authority.status = s.run.authority.status by rw [hlive.authority]
  have hreason : mid.run.stopReason = s.run.stopReason :=
    show mid.run.authority.stopReason = s.run.authority.stopReason by rw [hlive.authority]
  simp only [hhow, if_false] at hgate
  obtain ⟨h1, h2, h3, h4, h5⟩ := gate_stopped (by exact hstatus ▸ hs)
    (by exact hreason ▸ hstop) hgate
  exact hlive.tail h1 h2 h3 h4 h5

theorem ackStop_foreign {late : Bool} (hs : RunInv P s) (hstop : s.run.stopReason ≠ .none)
    (hne : v.stopReason ≠ s.run.stopReason) (h : ackStop P env v s = .ok (t, late)) : t = s := by
  simp only [ackStop, persistAuthorityStop_stopped hstop, ite_self, bind_ok] at h
  obtain ⟨_, -, _, -, state, -, h⟩ := h
  split at h
  · simp only [bind_ok, require_ok, exists_const] at h
    obtain ⟨_, -, -, h⟩ := h
    cases h
    rfl
  · have hquiet : localStop env v (serverReceiptTime (env.now .received) s.run) s = s := by
      unfold localStop
      rw [if_neg]
      rintro ⟨hlive, -⟩
      exact hstop (hs.unstopped (List.mem_cons_of_mem _ hlive))
    simp only [hquiet, acknowledge, bind_ok, require_ok, exists_const] at h
    obtain ⟨-, -, -, h⟩ := h
    split at h
    · simp only [bind_ok, require_ok, exists_const] at h
      exact absurd h.1 hne
    · cases h

theorem result_foreign {discovery : Except Refusal Unit} (hstop : s.run.stopReason ≠ .none)
    (hne : v.stopReason ≠ s.run.stopReason) (h : result P env v discovery s = .ok t) : t = s := by
  simp only [result, persistAuthorityStop_stopped hstop, ite_self, bind_ok] at h
  obtain ⟨_, -, _, -, h⟩ := h
  split at h
  · cases h
    rfl
  · simp only [bind_ok] at h
    obtain ⟨state, -, h⟩ := h
    split at h
    · simp only [bind_ok] at h
      obtain ⟨_, -, h⟩ := h
      cases h
      rfl
    · simp only [bind_ok, require_ok, exists_const] at h
      obtain ⟨-, _, hagrees, -⟩ := h
      simp only [resultAgrees, bind_ok, require_ok, exists_const] at hagrees
      exact absurd (hagrees.2.1 hstop).1 hne

/-- A projection of another stop changes nothing, but for the liveness path. -/
theorem transact_foreign (hs : RunInv P s) (hstop : s.run.stopReason ≠ .none) {c : Call}
    (hv : c.projection = some v) (hne : v.stopReason ≠ s.run.stopReason) :
    transact P env s c = s ∨ ((c = .heartbeat v ∨ c = .progress v) ∧
      LivenessPath s (transact P env s c) v) := by
  have hstatus : s.run.status ≠ .approved := fun h => hstop (hs.unstopped (by simp [h]))
  cases hc : call P env s c with
  | error e => exact .inl (by simp [transact, hc])
  | ok t =>
    have ht : transact P env s c = t := by simp [transact, hc]
    rw [ht]
    cases c with
    | claim first => cases hv
    | requestStop reason generation => cases hv
    | discoveryClosed => cases hv
    | expireAndReconcile closing => cases hv
    | heartbeat w =>
      cases hv
      simp only [call] at hc
      cases hh : heartbeat P env v s with
      | error e => simp [hh, Functor.map, Except.map] at hc
      | ok out =>
        simp only [hh, Functor.map, Except.map, Except.ok.injEq] at hc
        exact .inr ⟨.inl rfl, hc ▸ heartbeat_foreign hstatus hstop hne hh⟩
    | progress w =>
      cases hv
      simp only [call, progress, bind_ok] at hc
      obtain ⟨⟨mid, how⟩, hmid, hc⟩ := hc
      obtain ⟨hlive, hhow⟩ := acceptOperational_foreign hstop hne hmid
      have hnew : how ≠ .new := fun h => hhow (by simp [h])
      simp only [hnew, if_false, pure, Except.pure, Except.ok.injEq] at hc
      exact .inr ⟨.inr rfl, hc ▸ hlive⟩
    | ackStop w =>
      cases hv
      simp only [call] at hc
      cases hh : ackStop P env v s with
      | error e => simp [hh, Functor.map, Except.map] at hc
      | ok out =>
        simp only [hh, Functor.map, Except.map, Except.ok.injEq] at hc
        exact .inl (hc ▸ ackStop_foreign hs hstop hne hh)
    | result w discovery =>
      cases hv
      exact .inl (result_foreign hstop hne hc)

/-! ### Runs -/

/-- `t` is reached from `s` while the receipt is not purged. -/
def Kept (P : Platform) : RunDb → RunDb → Prop :=
  Relation.ReflTransGen fun s t => (lifecycle P).Next s t ∧ t.lastReceipt ≠ none

theorem lifecycle_inv (hP : CollisionFree P) (h : (lifecycle P).Reachable s) :
    RunInv P s ∧ Waiting s := by
  refine (lifecycle P).invariant (P := fun s => RunInv P s ∧ Waiting s)
    (fun s hs => ⟨Issued.runInv hs, Issued.waiting hs⟩) ?_ h
  rintro s ⟨env, c⟩ t ⟨hs, hw⟩ rfl
  exact ⟨(serve_keeps hP hs hw c).1, serve_waiting hw c⟩

theorem lifecycle_advances (hP : CollisionFree P) (hs : (lifecycle P).Reachable s)
    (h : (lifecycle P).Later s t) : Advances s t := by
  refine (lifecycle P).later_rel Advances.refl (fun _ _ _ => Advances.trans) ?_ hs h
  rintro s ⟨env, c⟩ t hs rfl
  obtain ⟨hi, hw⟩ := lifecycle_inv hP hs
  exact (serve_keeps hP hi hw c).2.1

theorem lifecycle_grows (hP : CollisionFree P) (hs : (lifecycle P).Reachable s)
    (h : Kept P s t) : (lifecycle P).Reachable t ∧ Grows s t := by
  induction h with
  | refl => exact ⟨hs, .refl s⟩
  | tail _ h ih =>
    obtain ⟨⟨⟨env, c⟩, hstep⟩, hkept⟩ := h
    refine ⟨.step ih.1 hstep, ih.2.trans ?_⟩
    obtain rfl := hstep
    obtain ⟨hi, hw⟩ := lifecycle_inv hP ih.1
    exact (serve_keeps hP hi hw c).2.2 hkept

/-- The lifecycle of a run is monotone and a stop is sticky: the status moves forward and an end is
never left, a stop and its deadline stay, the source sequence and, until a purge, the receipt's
counters do not decrease, the acknowledgement is written once and whole, and a projection of another
stop changes nothing outside the liveness path. -/
theorem lifecycle_monotone (hP : CollisionFree P) {s : RunDb} (hs : (lifecycle P).Reachable s) :
    Witnessed s.run ∧
    (∀ t, (lifecycle P).Later s t →
      Advances s t ∧ (ended s.run.status = true → t.run.status = s.run.status)) ∧
    (∀ t, Kept P s t → Grows s t) ∧
    (s.run.stopReason ≠ .none → ∀ env c v, c.projection = some v →
      v.stopReason ≠ s.run.stopReason →
        serve P env s c = s ∨ ((c = .heartbeat v ∨ c = .progress v) ∧
          LivenessPath s (serve P env s c) v)) := by
  obtain ⟨hinv, -⟩ := lifecycle_inv hP hs
  refine ⟨hinv.witnessed, ?_, ?_, ?_⟩
  · intro t ht
    have hadvances := lifecycle_advances hP hs ht
    exact ⟨hadvances, hadvances.status.ended⟩
  · intro t ht
    exact (lifecycle_grows hP hs ht).2
  · intro hstop env c v hv hne
    unfold serve
    split
    · exact .inl rfl
    · exact transact_foreign hinv hstop hv hne

/-! ### An approved run, claimed and stopped -/

def sampleDigest : String := "0000000000000000000000000000000000000000000000000000000000000000"

def sampleTarget : Target := ⟨"environment_1", sampleDigest⟩

def sampleLimits : Limits := ⟨⟨20, 60000, 262144⟩, ⟨0, []⟩⟩

def sampleKeyId : String := "ed25519:0011223344556677"

def sampleApproval : Approval where
  workspaceId := "workspace_1"
  projectId := "project_1"
  projectionDigest := sampleDigest
  manifestDigest := sampleDigest
  runnerId := "runner_1"
  runnerKeyId := sampleKeyId
  environment := sampleTarget
  limits := sampleLimits

def sampleGrant : Grant where
  grantId := "grant_1"
  grantDigest := sampleDigest
  runId := "run_1"
  workspaceId := "workspace_1"
  projectId := "project_1"
  projectionDigest := sampleDigest
  manifestDigest := sampleDigest
  runnerId := "runner_1"
  runnerKeyId := sampleKeyId
  environment := sampleTarget
  limits := sampleLimits
  killSwitchGeneration := 1

def sampleBinding : Binding where
  runId := "run_1"
  workspaceId := "workspace_1"
  projectRef := "project_1"
  grantId := "grant_1"
  runnerId := "runner_1"
  runnerKeyId := sampleKeyId
  grantDigest := sampleDigest
  approvalProjectionDigest := sampleDigest
  manifestDigest := sampleDigest
  reservationId := "resv_1"
  killSwitchGeneration := 1
  createdAt := 0
  issuedAt := 0

def sampleRun : RunDb where
  run := { binding := sampleBinding, updatedAt := 0 }
  grant := { expiresAt := 600000, purgeAt := 87000000, grantJson := some sampleGrant }
  approval := ⟨87000000, some sampleApproval⟩
  ledger := [{ workspaceId := "workspace_1", meter := .canaryRuns, period := "1970-01",
               kind := .reserve
               amount := 1, reservationId := "resv_1", ref := some "run_1" }]

theorem sampleRun_approved : Approved sampleRun :=
  ⟨rfl, rfl, rfl, by decide, by decide⟩

/-- A verified environment and an active runner, at one time of the clock. -/
def sampleEnv (now : Int) : Env where
  now _ := now
  controlGeneration := 1
  killActive := false
  verificationRecordDigest := some sampleDigest
  environmentStatus := .verified
  proofRevoked := false
  proofExpiresAtMs := some 10000000
  runnerStatus := .active
  keyActive := true
  keyRevoked := false
  publicKey := List.replicate 32 1
  recordsVerify := true
  round := none

/-- A platform whose digest is the text itself. -/
def textPlatform : Platform where
  nfc := id
  sha256 := String.ofList
  verify _ _ _ := true

theorem textPlatform_collisionFree : CollisionFree textPlatform := by
  intro v w hv hw h
  obtain ⟨bytes, hb, hd⟩ := validate_digest hv
  obtain ⟨bytes', hb', hd'⟩ := validate_digest hw
  rw [hb, hb', String.ofList_injective (hd.symm.trans (h.trans hd'))]

/-- The run of a discovery round: it holds no unit of its own. -/
def sampleRound : RunDb :=
  { sampleRun with run := { sampleRun.run with quotaState := .unreserved }, ledger := [] }

theorem sampleRound_issued : Issued sampleRound := ⟨rfl, rfl, rfl, .inl rfl⟩

/-- The round once its run is claimed, and once its authorization is closed. -/
def claimedRound : RunDb := serve textPlatform (sampleEnv 1000) sampleRound (.claim true)

def closedRound : RunDb := serve textPlatform (sampleEnv 2000) claimedRound .discoveryClosed

theorem lifecycle_monotone_sample :
    Witnessed closedRound.run ∧ Advances claimedRound closedRound ∧
      ∀ env v, v.stopReason ≠ .cloudStop →
        serve textPlatform env closedRound (.result v (.ok ())) = closedRound := by
  have h0 : (lifecycle textPlatform).Reachable sampleRound := .init sampleRound_issued
  have h1 : (lifecycle textPlatform).Reachable claimedRound :=
    .step (a := (sampleEnv 1000, .claim true)) h0 rfl
  have h2 : (lifecycle textPlatform).Reachable closedRound :=
    .step (a := (sampleEnv 2000, .discoveryClosed)) h1 rfl
  have hlater : (lifecycle textPlatform).Later claimedRound closedRound :=
    .single ⟨(sampleEnv 2000, .discoveryClosed), rfl⟩
  have hstop : closedRound.run.stopReason = .cloudStop := by decide
  obtain ⟨hwitnessed, -, -, hforeign⟩ := lifecycle_monotone textPlatform_collisionFree h2
  refine ⟨hwitnessed, ((lifecycle_monotone textPlatform_collisionFree h1).2.1 _ hlater).1, ?_⟩
  intro env v hne
  rcases hforeign (by rw [hstop]; decide) env (.result v (.ok ())) v rfl (by rwa [hstop]) with
    hsame | ⟨hcall | hcall, -⟩
  · exact hsame
  · cases hcall
  · cases hcall

end Heel.Cloud
