import Heel.Saas.Lifecycle

/-! The unit of an approved run: `quota_state` against the rows of the usage ledger, under every
interleaving of the run's transactions with the nightly repair of `heel/saas/reconcile.py`. -/
namespace Heel.Cloud
open Lib Lib.Checks

/-- `_unsettled`, for one reservation. -/
def unsettled (ledger : Ledger) (reservationId : String) : Bool :=
  ledger.has reservationId .reserve ∧ ¬ ledger.has reservationId .consume ∧
    ¬ ledger.has reservationId .refund

def provesCanaryRefund (row : RunDb) : Bool :=
  row.run.quotaState = .reserved ∧
    ((row.run.status ∈ [Phase.cancelled, .expired] ∧ row.run.claimedAtMs = none) ∨
      (row.run.status = .terminal ∧ row.receipt.any fun o =>
        o.lifecyclePhase = .terminal ∧ o.receiptJson.any (·.counters.requestsStarted = 0)))

/-- `_compensable_canaries`, for one run. -/
def compensable (row : RunDb) : Bool :=
  let reservationId := row.run.binding.reservationId
  row.run.status = .terminal ∧ row.run.quotaState = .consumed ∧
    faultCompensation row.run.errorCategory ∧ row.ledger.has reservationId .consume ∧
    ¬ row.ledger.has reservationId .refund ∧ ¬ row.ledger.has reservationId .platformFaultRefund

def provesCanaryCompensation (row : RunDb) : Bool :=
  row.receipt.any fun o => o.lifecyclePhase = .terminal ∧
    o.errorCategory = row.run.errorCategory ∧ o.receiptJson.any fun v =>
      v.errorCategory = row.run.errorCategory ∧ 0 < v.counters.requestsStarted

/-- `_repair_canary_refund`; `row` is what the report read before its transaction. -/
def repairCanaryRefund (row db : RunDb) : Except Refusal RunDb :=
  if ended db.run.status = false ∨ db.run.quotaState ≠ .reserved then .ok db
  else do
    let (created, ledger) ← db.ledger.settle row.run.binding.reservationId .refund
    return if created then
        { db with ledger := ledger, run := { db.run with quotaState := .refunded } }
      else db

def repairCanaryCompensation (row db : RunDb) : Except Refusal RunDb :=
  if db.run.status ≠ .terminal ∨ db.run.quotaState ≠ .consumed ∨
      db.run.errorCategory ≠ row.run.errorCategory then .ok db
  else do
    let (created, ledger) ←
      db.ledger.refundConsumed row.run.binding.reservationId row.run.errorCategory.name
    return if created then
        { db with ledger := ledger, run := { db.run with quotaState := .compensated } }
      else db

/-- The third check of `reconcile(repair=True)` for a run it found among the canaries: `row` and
`ledger` are its two readings, `due` that the reservation is stale and no job holds it. -/
def reconcileRefund (row : RunDb) (ledger : Ledger) (due : Bool) (db : RunDb) :
    Except Refusal RunDb :=
  if unsettled ledger row.run.binding.reservationId ∧ due ∧ ended row.run.status ∧
      provesCanaryRefund row then repairCanaryRefund row db
  else .ok db

/-- The compensations of `reconcile(repair=True)`. -/
def reconcileCompensation (row db : RunDb) : Except Refusal RunDb :=
  if compensable row ∧ provesCanaryCompensation row then repairCanaryCompensation row db
  else .ok db

/-- The kinds of settlement rows a state stands for. -/
def QuotaState.rows : QuotaState → EntryKind → Bool
  | .refunded, .refund => true
  | .consumed, .consume => true
  | .compensated, .consume | .compensated, .platformFaultRefund => true
  | _, _ => false

/-- The state of a reservation's unit is read off its rows. -/
def TellsLedger (l : Ledger) (reservationId : String) (q : QuotaState) : Prop :=
  q ≠ .unreserved ∧ ∀ kind, kind ≠ .reserve → l.has reservationId kind = q.rows kind

def Entry.givesBack (e : Entry) : Bool := e.kind = .refund ∨ e.kind = .platformFaultRefund

/-- How often the unit of a reservation was given back. -/
def Ledger.givenBack (l : Ledger) (reservationId : String) : Nat :=
  l.countP fun e => e.reservationId = reservationId ∧ e.givesBack

/-- How often a unit in this state was given back. -/
def QuotaState.givenBack (q : QuotaState) : Nat :=
  if q = .refunded ∨ q = .compensated then 1 else 0

variable {l l' : Ledger} {reservationId : String} {q : QuotaState}

theorem TellsLedger.append (h : TellsLedger l reservationId q) {q' : QuotaState} {e : Entry}
    (he : e.reservationId = reservationId) (hq' : q' ≠ .unreserved)
    (hrows : ∀ kind, kind ≠ .reserve → q'.rows kind = (q.rows kind || decide (e.kind = kind))) :
    TellsLedger (l ++ [e]) reservationId q' := by
  refine ⟨hq', fun kind hkind => ?_⟩
  rw [Ledger.has_append, h.2 kind hkind, hrows kind hkind]
  simp [he]

theorem givenBack_append {e : Entry} (he : e.reservationId = reservationId) :
    Ledger.givenBack (l ++ [e]) reservationId =
      l.givenBack reservationId + if e.givesBack then 1 else 0 := by
  simp [Ledger.givenBack, he, List.countP_append, List.countP_cons]

theorem has_others {rows : Ledger} (h : ∀ e ∈ rows, e.reservationId ≠ reservationId)
    (kind : EntryKind) : Ledger.has (l ++ rows) reservationId kind = l.has reservationId kind := by
  have hrows : Ledger.has rows reservationId kind = false := by
    simp only [Ledger.has, List.any_eq_false, decide_eq_true_eq, not_and]
    intro e he hid
    exact absurd hid (h e he)
  simp only [Ledger.has, List.any_append] at hrows ⊢
  rw [hrows, Bool.or_false]

theorem givenBack_others {rows : Ledger} (h : ∀ e ∈ rows, e.reservationId ≠ reservationId) :
    Ledger.givenBack (l ++ rows) reservationId = l.givenBack reservationId := by
  have hrows : Ledger.givenBack rows reservationId = 0 := by
    simp only [Ledger.givenBack, List.countP_eq_zero, decide_eq_true_eq, not_and]
    intro e he hid
    exact absurd hid (h e he)
  simp only [Ledger.givenBack, List.countP_append] at hrows ⊢
  rw [hrows, Nat.add_zero]

/-- A consumed unit: `consume` answers true of a reserved unit only. -/
theorem consume_reserved (ht : TellsLedger l reservationId .reserved)
    (h : l.consume reservationId = .ok (true, l')) :
    TellsLedger l' reservationId .consumed ∧
      l'.givenBack reservationId = l.givenBack reservationId := by
  rcases Ledger.settle_ok h with ⟨hfalse, -⟩ | ⟨-, -, -, -, e, he, hkind, rfl⟩
  · cases hfalse
  · refine ⟨ht.append he (by simp) fun kind hk => ?_, ?_⟩
    · rw [hkind]
      cases kind <;> simp_all [QuotaState.rows]
    · simp [givenBack_append he, Entry.givesBack, hkind]

theorem refund_reserved {answer : Bool} (ht : TellsLedger l reservationId .reserved)
    (h : l.settle reservationId .refund = .ok (answer, l')) :
    TellsLedger l' reservationId .refunded ∧
      l'.givenBack reservationId = l.givenBack reservationId + 1 := by
  rcases Ledger.settle_ok h with ⟨-, -, hrow⟩ | ⟨-, -, -, -, e, he, hkind, rfl⟩
  · rw [ht.2 .refund (by simp), ht.2 .consume (by simp)] at hrow
    simp [QuotaState.rows] at hrow
  · refine ⟨ht.append he (by simp) fun kind hk => ?_, ?_⟩
    · rw [hkind]
      cases kind <;> simp_all [QuotaState.rows]
    · simp [givenBack_append he, Entry.givesBack, hkind]

theorem compensate_consumed {reason : String} (ht : TellsLedger l reservationId .consumed)
    (h : l.refundConsumed reservationId reason = .ok (true, l')) :
    TellsLedger l' reservationId .compensated ∧
      l'.givenBack reservationId = l.givenBack reservationId + 1 := by
  rcases (Ledger.refundConsumed_ok h).2 with ⟨hfalse, -⟩ | ⟨-, -, -, -, e, he, hkind, rfl⟩
  · cases hfalse
  · refine ⟨ht.append he (by simp) fun kind hk => ?_, ?_⟩
    · rw [hkind]
      cases kind <;> simp_all [QuotaState.rows]
    · simp [givenBack_append he, Entry.givesBack, hkind]

/-- A unit whose first request has started. -/
def QuotaState.spent (q : QuotaState) : Prop := q = .consumed ∨ q = .compensated

structure QuotaInv (P : Platform) (db : RunDb) : Prop where
  tells : TellsLedger db.ledger db.run.binding.reservationId db.run.quotaState
  once : db.ledger.givenBack db.run.binding.reservationId = db.run.quotaState.givenBack
  /-- The projection the source columns name has paid for its requests. -/
  accepted : ∀ w : OperationalRun, w.validate P = .ok () →
    db.run.sourceProjectionDigest = some w.projectionDigest →
      0 < w.counters.requestsStarted → db.run.quotaState.spent
  refunded : db.run.quotaState = .refunded → ended db.run.status = true
  compensated : db.run.quotaState = .compensated → db.run.status = .terminal ∧
    faultCompensation db.run.errorCategory = true
  closed : db.run.status = .terminal → db.grant.status = .terminal
  settled : ended db.run.status = true → db.run.quotaState ≠ .reserved

variable {P : Platform} {s t : RunDb}

/-- Edits of a run that goes on leave the invariant of its unit alone. -/
theorem QuotaInv.live (h : QuotaInv P s) (hs : ended s.run.status = false)
    (ht : ended t.run.status = false) (hledger : t.ledger = s.ledger)
    (hbinding : t.run.binding = s.run.binding) (hquota : t.run.quotaState = s.run.quotaState)
    (hdigest : t.run.sourceProjectionDigest = s.run.sourceProjectionDigest) : QuotaInv P t where
  tells := by rw [hledger, hbinding, hquota]; exact h.tells
  once := by rw [hledger, hbinding, hquota]; exact h.once
  accepted := by rw [hdigest, hquota]; exact h.accepted
  refunded hq := by
    rw [hquota] at hq
    rw [h.refunded hq] at hs
    cases hs
  compensated hq := by
    rw [hquota] at hq
    rw [(h.compensated hq).1] at hs
    cases hs
  closed hterm := by
    rw [hterm] at ht
    cases ht
  settled hended := by
    rw [ht] at hended
    cases hended

/-- The unit of a run that has neither ended nor is reserved is spent. -/
theorem QuotaInv.spent (h : QuotaInv P s) (hr : s.run.quotaState ≠ .reserved)
    (hf : s.run.quotaState ≠ .refunded) : s.run.quotaState.spent := by
  have hu := h.tells.1
  cases hq : s.run.quotaState <;> simp_all [QuotaState.spent]

theorem QuotaInv.end_ (h : QuotaInv P s) {error : ErrorCategory} {ledger : Ledger}
    (hq : Settled s error ledger q) (hcomp : s.run.quotaState ≠ .compensated) :
    TellsLedger ledger s.run.binding.reservationId q ∧
      ledger.givenBack s.run.binding.reservationId = q.givenBack ∧
      (s.run.quotaState.spent → q.spent) ∧ q ≠ .reserved ∧
      (q = .compensated → faultCompensation error = true) := by
  have htells := h.tells
  have honce := h.once
  cases hq with
  | kept hr => exact ⟨htells, honce, id, hr, fun hc => absurd hc hcomp⟩
  | refund answer ledger hr hl =>
    rw [hr] at htells honce
    obtain ⟨ht, hg⟩ := refund_reserved htells hl
    refine ⟨ht, by rw [hg, honce]; rfl, ?_, by simp, by simp⟩
    rw [hr]
    rintro (hc | hc) <;> cases hc
  | compensate ledger hc he hl =>
    rw [hc] at htells honce
    obtain ⟨ht, hg⟩ := compensate_consumed htells hl
    exact ⟨ht, by rw [hg, honce]; rfl, fun _ => .inr rfl, by simp, fun _ => he⟩

theorem Edit.keepsQuota {R : RunDb → Prop} (hP : CollisionFree P) (h : Edit P R s t)
    (hs : QuotaInv P s) : QuotaInv P t := by
  cases h with
  | live heartbeat updated events => exact { hs with }
  | gate serverTime updated hg => exact { hs with }
  | claim now hst hg hn => exact hs.live (by simp [hst, ended]) rfl rfl rfl rfl rfl
  | revoke hst hg => exact hs.live (by simp [hst, ended]) (by simp [hst, ended]) rfl rfl rfl rfl
  | stop reason error generation now deadline hr hst h =>
    refine hs.live hst ?_ rfl rfl rfl rfl
    simp only [stopStatus]
    split <;> rfl
  | move status error hst =>
    have hlive : ended s.run.status = false ∧ ended status = false := by
      simp only [List.mem_cons, List.not_mem_nil, or_false] at hst
      rcases hst with ⟨hc, rfl, -⟩ | ⟨hc, rfl, -⟩ | ⟨hc, hto⟩
      · simp [hc, ended]
      · rcases hc with hc | hc <;> simp [hc, ended]
      · rcases hc with hc | hc | hc | hc <;> rcases hto with rfl | rfl <;> simp [hc, ended]
    exact hs.live hlive.1 hlive.2 rfl rfl rfl rfl
  | report v state started purgeAt hv hst hl hq =>
    refine { hs with accepted := fun w hw hdigest hstarted => ?_ }
    have hsame : w.counters.requestsStarted ≤ v.counters.requestsStarted :=
      (counters_of_digest hP hv hw (Option.some.inj hdigest)).get .requestsStarted
    refine hs.spent (hq (lt_of_lt_of_le hstarted hsame)) fun hf => ?_
    rw [hs.refunded hf] at hl
    cases hl.1
  | evidence v state hv hst hl hq =>
    refine { hs with accepted := fun w hw hdigest hstarted => ?_ }
    have hsame : w.counters.requestsStarted ≤ v.counters.requestsStarted :=
      (counters_of_digest hP hv hw (Option.some.inj hdigest)).get .requestsStarted
    refine hs.spent (hs.settled (by simp [hl, ended])) fun hf => ?_
    exact absurd (lt_of_lt_of_le hstarted hsame) (not_lt.mpr (hq hf))
  | acknowledge sequence digest at_ local_ late h => exact { hs with }
  | consume ledger hq hl =>
    have htells := hs.tells
    have honce := hs.once
    rw [hq] at htells honce
    obtain ⟨ht, hg⟩ := consume_reserved htells hl
    exact ⟨ht, by rw [hg, honce]; rfl, fun _ _ _ _ => .inl rfl, by simp, by simp, hs.closed,
      by simp⟩
  | terminate disposition error reason requested started now grantPurge approvalPurge ledger quota
      hst hr hq =>
    have hcomp : s.run.quotaState ≠ .compensated := fun hc => by
      rw [(hs.compensated hc).1] at hst
      cases hst
    obtain ⟨ht, hg, hspent, hne, hfault⟩ := hs.end_ hq hcomp
    exact ⟨ht, hg, fun w hw hd h0 => hspent (hs.accepted w hw hd h0), fun _ => rfl,
      fun hc => ⟨rfl, hfault hc⟩, fun _ => rfl, fun _ => hne⟩
  | release now approvalPurge ledger quota hu hR hq =>
    have hcomp : s.run.quotaState ≠ .compensated := fun hc => by
      simp [unclaimed, hs.closed (hs.compensated hc).1] at hu
    obtain ⟨ht, hg, hspent, hne, hfault⟩ := hs.end_ hq hcomp
    refine ⟨ht, hg, fun w hw hd h0 => hspent (hs.accepted w hw hd h0), fun _ => ?_,
      fun hc => ?_, fun hterm => ?_, fun _ => hne⟩
    · simp only
      split <;> rfl
    · cases hfault hc
    · simp only at hterm
      split at hterm <;> cases hterm

theorem purge_keepsQuota (hs : QuotaInv P s) (now : Int) : QuotaInv P (s.purge now) := by
  refine { hs with closed := fun hterm => ?_ }
  simp only [RunDb.purge]
  split <;> exact hs.closed hterm

theorem transact_keepsQuota (hP : CollisionFree P) (hs : QuotaInv P s) (env : Env) (c : Call) :
    QuotaInv P (transact P env s c) := by
  obtain ⟨last, hlast, h⟩ := transact_edits (P := P) (R := fun _ => True) c
    (fun _ _ _ => trivial)
  have hkept := hlast.keep (fun _ _ hq he => he.keepsQuota hP hq) hs
  rcases h with h | ⟨now, h⟩
  · rw [h]
    exact hkept
  · rw [h]
    exact purge_keepsQuota hkept now

/-- An ended run's unit is never still reserved, so the repair finds nothing to refund. -/
theorem reconcileRefund_idle {row : RunDb} {ledger : Ledger} {due : Bool} (hs : QuotaInv P s)
    (h : reconcileRefund row ledger due s = .ok t) : t = s := by
  have hidle : ended s.run.status = false ∨ s.run.quotaState ≠ .reserved := by
    cases hended : ended s.run.status with
    | false => exact .inl rfl
    | true => exact .inr (hs.settled hended)
  unfold reconcileRefund repairCanaryRefund at h
  rw [if_pos hidle, ite_self] at h
  cases h
  rfl

theorem reconcileCompensation_keepsQuota {row : RunDb} (hs : QuotaInv P s)
    (hrow : row.run.binding = s.run.binding) (h : reconcileCompensation row s = .ok t) :
    QuotaInv P t := by
  unfold reconcileCompensation at h
  split at h
  · rename_i hproof
    unfold repairCanaryCompensation at h
    split at h
    · cases h
      exact hs
    · rename_i hcurrent
      simp only [not_or, not_not] at hcurrent
      obtain ⟨hterm, hconsumed, herror⟩ := hcurrent
      simp only [bind_ok] at h
      obtain ⟨⟨created, ledger⟩, hl, h⟩ := h
      cases created with
      | false =>
        cases h
        exact hs
      | true =>
        cases h
        have htells := hs.tells
        have honce := hs.once
        rw [hconsumed] at htells honce
        rw [hrow] at hl
        obtain ⟨ht, hg⟩ := compensate_consumed htells hl
        have hfault : faultCompensation s.run.errorCategory = true := by
          rw [herror]
          simp only [compensable, Bool.decide_and, Bool.and_eq_true, decide_eq_true_eq] at hproof
          exact hproof.1.2.2.1
        exact ⟨ht, hg.trans (by rw [honce]; rfl), fun _ _ _ _ => .inr rfl, by simp,
          fun _ => ⟨hterm, hfault⟩, hs.closed, by simp⟩
  · cases h
    exact hs

theorem settle_appends {kind : EntryKind} {answer : Bool}
    (h : l.settle reservationId kind = .ok (answer, l')) : l <+: l' := by
  rcases Ledger.settle_ok h with ⟨-, rfl, -⟩ | ⟨-, -, -, -, e, -, -, rfl⟩
  · exact List.prefix_rfl
  · exact List.prefix_append l [e]

theorem refundConsumed_appends {reason : String} {answer : Bool}
    (h : l.refundConsumed reservationId reason = .ok (answer, l')) : l <+: l' := by
  rcases (Ledger.refundConsumed_ok h).2 with ⟨-, rfl⟩ | ⟨-, -, -, -, e, -, -, rfl⟩
  · exact List.prefix_rfl
  · exact List.prefix_append l [e]

/-- Rows stay, and a run keeps its reservation. -/
structure AppendOnly (s t : RunDb) : Prop where
  ledger : s.ledger <+: t.ledger
  binding : t.run.binding = s.run.binding

theorem AppendOnly.refl (s : RunDb) : AppendOnly s s := ⟨List.prefix_rfl, rfl⟩

theorem AppendOnly.trans {u : RunDb} (h1 : AppendOnly s t) (h2 : AppendOnly t u) :
    AppendOnly s u :=
  ⟨h1.ledger.trans h2.ledger, h2.binding.trans h1.binding⟩

theorem Settled.appends {error : ErrorCategory} {ledger : Ledger} (h : Settled s error ledger q) :
    s.ledger <+: ledger := by
  cases h with
  | kept hq => exact List.prefix_rfl
  | refund answer ledger hq hl => exact settle_appends hl
  | compensate ledger hq he hl => exact refundConsumed_appends hl

theorem Edit.appendOnly {R : RunDb → Prop} (h : Edit P R s t) : AppendOnly s t := by
  cases h with
  | consume ledger hq hl => exact ⟨settle_appends hl, rfl⟩
  | terminate disposition error reason requested started now grantPurge approvalPurge ledger quota
      hst hr hq => exact ⟨hq.appends, rfl⟩
  | release now approvalPurge ledger quota hu hR hq => exact ⟨hq.appends, rfl⟩
  | _ => exact ⟨List.prefix_rfl, rfl⟩

theorem transact_appendOnly (env : Env) (c : Call) : AppendOnly s (transact P env s c) := by
  obtain ⟨last, hlast, h⟩ := transact_edits (P := P) (R := fun _ => True) c
    (fun _ _ _ => trivial)
  have hkept : AppendOnly s last :=
    hlast.keep (fun _ _ hm he => hm.trans he.appendOnly) (.refl s)
  rcases h with h | ⟨now, h⟩
  · rw [h]
    exact hkept
  · rw [h]
    exact ⟨hkept.ledger, hkept.binding⟩

theorem reconcileCompensation_appendOnly {row : RunDb} (h : reconcileCompensation row s = .ok t) :
    AppendOnly s t := by
  unfold reconcileCompensation at h
  split at h
  · unfold repairCanaryCompensation at h
    split at h
    · cases h
      exact .refl s
    · simp only [bind_ok] at h
      obtain ⟨⟨created, ledger⟩, hl, h⟩ := h
      cases created with
      | false =>
        cases h
        exact .refl s
      | true =>
        cases h
        exact ⟨refundConsumed_appends hl, rfl⟩
  · cases h
    exact .refl s

theorem AppendOnly.spent (h : AppendOnly s t) (hs : QuotaInv P s) (ht : QuotaInv P t)
    (hspent : s.run.quotaState.spent) : t.run.quotaState.spent := by
  have hrow : s.ledger.has s.run.binding.reservationId .consume = true := by
    rw [hs.tells.2 .consume (by simp)]
    rcases hspent with hq | hq <;> rw [hq] <;> rfl
  have hkept : t.ledger.has t.run.binding.reservationId .consume = true := by
    obtain ⟨rows, hrows⟩ := h.ledger
    rw [h.binding, ← hrows]
    simp only [Ledger.has, List.any_append] at hrow ⊢
    rw [hrow, Bool.true_or]
  rw [ht.tells.2 .consume (by simp)] at hkept
  cases hq : t.run.quotaState <;> simp_all [QuotaState.rows, QuotaState.spent]

inductive QuotaAct where
  | call (env : Env) (c : Call)
  /-- A refund of `reconcile(repair=True)`, decided on two earlier readings. -/
  | reconcileRefund (row : RunDb) (ledger : Ledger) (due : Bool)
  | reconcileCompensation (row : RunDb)
  /-- Other reservations' rows. -/
  | others (rows : Ledger)

/-- The rows after a call, or after a repair that may have read an older state of the run. -/
def quotaStep (P : Platform) (s : RunDb) : QuotaAct → RunDb → Prop
  | .call env c, t => t = transact P env s c
  | .reconcileRefund row ledger due, t => row.run.binding = s.run.binding ∧
      (reconcileRefund row ledger due s = .ok t ∨ t = s)
  | .reconcileCompensation row, t => row.run.binding = s.run.binding ∧
      (reconcileCompensation row s = .ok t ∨ t = s)
  | .others rows, t => (∀ e ∈ rows, e.reservationId ≠ s.run.binding.reservationId) ∧
      t = { s with ledger := s.ledger ++ rows }

/-- The transactions on a run approved with a reservation of its own, the nightly repair, and the
ledger rows of everyone else. -/
def quotaLifecycle (P : Platform) : Transition RunDb QuotaAct where
  init := Approved
  step := quotaStep P

theorem Approved.quotaInv (h : Approved s) : QuotaInv P s := by
  have hrun := h.run
  have hnone : ∀ kind, kind ≠ .reserve →
      s.ledger.has s.run.binding.reservationId kind = false := by
    intro kind hkind
    simp only [Ledger.has, List.any_eq_false, decide_eq_true_eq, not_and]
    intro e he hid hk
    exact hkind (hk.symm.trans (h.ledger.2 e he hid))
  have hquota : s.run.quotaState = .reserved := by rw [hrun]
  have hstatus : s.run.status = .approved := by rw [hrun]
  have hdigest : s.run.sourceProjectionDigest = none := by rw [hrun]
  refine ⟨⟨by simp [hquota], fun kind hk => ?_⟩, ?_, ?_, ?_, ?_, ?_, ?_⟩
  · rw [hnone kind hk, hquota]
    cases kind <;> rfl
  · rw [hquota]
    simp only [Ledger.givenBack, QuotaState.givenBack]
    rw [if_neg (by simp), List.countP_eq_zero]
    intro e he
    simp only [decide_eq_true_eq, not_and]
    intro hid
    simp [Entry.givesBack, h.ledger.2 e he hid]
  · simp [hdigest]
  · simp [hquota]
  · simp [hquota]
  · simp [hstatus]
  · simp [hstatus, ended]

theorem quotaStep_keeps (hP : CollisionFree P) (hs : QuotaInv P s) {a : QuotaAct}
    (h : quotaStep P s a t) : QuotaInv P t ∧ AppendOnly s t := by
  cases a with
  | call env c =>
    cases h
    exact ⟨transact_keepsQuota hP hs env c, transact_appendOnly env c⟩
  | reconcileRefund row ledger due =>
    rcases h.2 with h | rfl
    · rw [reconcileRefund_idle hs h]
      exact ⟨hs, .refl s⟩
    · exact ⟨hs, .refl t⟩
  | reconcileCompensation row =>
    obtain ⟨hrow, h | rfl⟩ := h
    · exact ⟨reconcileCompensation_keepsQuota hs hrow h, reconcileCompensation_appendOnly h⟩
    · exact ⟨hs, .refl t⟩
  | others rows =>
    obtain ⟨hothers, rfl⟩ := h
    refine ⟨{ hs with tells := ⟨hs.tells.1, ?_⟩, once := ?_ }, ⟨List.prefix_append _ _, rfl⟩⟩
    · intro kind hk
      rw [has_others hothers]
      exact hs.tells.2 kind hk
    · exact (givenBack_others hothers).trans hs.once

theorem quota_reachable (hP : CollisionFree P) (hs : (quotaLifecycle P).Reachable s) :
    QuotaInv P s :=
  (quotaLifecycle P).invariant (fun _ => Approved.quotaInv)
    (fun _ _ _ hs h => (quotaStep_keeps hP hs h).1) hs

theorem spent_later (hP : CollisionFree P) (hs : (quotaLifecycle P).Reachable s)
    (h : (quotaLifecycle P).Later s t) : s.run.quotaState.spent → t.run.quotaState.spent := by
  refine (quotaLifecycle P).later_rel (R := fun s t => s.run.quotaState.spent →
    t.run.quotaState.spent) (fun _ => id) (fun _ _ _ h1 h2 => h2 ∘ h1) ?_ hs h
  intro s a t hs hstep
  have hinv := quota_reachable hP hs
  obtain ⟨ht, happend⟩ := quotaStep_keeps hP hinv hstep
  exact happend.spent hinv ht

/-- A call takes a projection in: it returns, and the source columns name the projection. -/
structure Accepts (P : Platform) (env : Env) (c : Call) (v : OperationalRun) (s t : RunDb) :
    Prop where
  returns : call P env s c = .ok t
  carries : c.projection = some v
  sequence : t.run.sourceEventSequence = v.eventSequence
  digest : t.run.sourceProjectionDigest = some v.projectionDigest

theorem call_valid {env : Env} {c : Call} {v : OperationalRun} (h : call P env s c = .ok t)
    (hc : c.projection = some v) : v.validate P = .ok () := by
  cases c with
  | claim first => cases hc
  | requestStop reason generation => cases hc
  | discoveryClosed => cases hc
  | expireAndReconcile closing => cases hc
  | heartbeat w =>
    cases hc
    simp only [call] at h
    cases hh : heartbeat P env v s with
    | error e => simp [hh, Functor.map, Except.map] at h
    | ok out =>
      simp only [heartbeat, acceptOperational, bind_ok] at hh
      obtain ⟨_, ⟨_, -, _, hvalid, -⟩, -⟩ := hh
      exact validateOperational_valid hvalid
  | progress w =>
    cases hc
    simp only [call, progress, acceptOperational, bind_ok] at h
    obtain ⟨_, ⟨_, -, _, hvalid, -⟩, -⟩ := h
    exact validateOperational_valid hvalid
  | ackStop w =>
    cases hc
    simp only [call] at h
    cases hh : ackStop P env v s with
    | error e => simp [hh, Functor.map, Except.map] at h
    | ok out =>
      simp only [ackStop, bind_ok] at hh
      obtain ⟨_, -, _, hvalid, -⟩ := hh
      exact validateOperational_valid hvalid
  | result w discovery =>
    cases hc
    simp only [call, result, bind_ok] at h
    obtain ⟨_, -, _, hvalid, -⟩ := h
    exact validateOperational_valid hvalid

/-- `quota_state` tells what the ledger holds, in every reachable state: the four states are read
off the settlement rows, the unit is given back at most once, a run that was accepted with a
request started is never refunded, and only a fault of a terminal run is compensated. -/
theorem quota_tells_ledger (hP : CollisionFree P) (hs : (quotaLifecycle P).Reachable s) :
    let has := s.ledger.has s.run.binding.reservationId
    ((s.run.quotaState = .reserved ↔
        ¬ has .consume ∧ ¬ has .refund ∧ ¬ has .platformFaultRefund) ∧
      (s.run.quotaState = .refunded ↔ has .refund) ∧
      (s.run.quotaState = .consumed ↔ has .consume ∧ ¬ has .platformFaultRefund) ∧
      (s.run.quotaState = .compensated ↔ has .consume ∧ has .platformFaultRefund)) ∧
    s.ledger.givenBack s.run.binding.reservationId ≤ 1 ∧
    (∀ env c v t u, Accepts P env c v s t → 0 < v.counters.requestsStarted →
      (quotaLifecycle P).Later t u → u.run.quotaState ≠ .refunded) ∧
    (s.run.quotaState = .compensated → s.run.status = .terminal ∧
      s.run.errorCategory ∈ [ErrorCategory.platformFault, .runnerFault]) := by
  have hinv := quota_reachable hP hs
  refine ⟨?_, ?_, ?_, ?_⟩
  · have hunreserved := hinv.tells.1
    have hconsume := hinv.tells.2 .consume (by simp)
    have hrefund := hinv.tells.2 .refund (by simp)
    have hcompensate := hinv.tells.2 .platformFaultRefund (by simp)
    simp only [hconsume, hrefund, hcompensate]
    cases hq : s.run.quotaState <;> simp_all [QuotaState.rows]
  · rw [hinv.once, QuotaState.givenBack]
    split <;> omega
  · intro env c v t u haccept hstarted hlater hrefunded
    have hstep : (quotaLifecycle P).step s (.call env c) t := by
      show t = transact P env s c
      rw [transact, haccept.returns]
    have ht : (quotaLifecycle P).Reachable t := .step hs hstep
    have hvalid := call_valid haccept.returns haccept.carries
    have hspent := spent_later hP ht hlater
      ((quota_reachable hP ht).accepted v hvalid haccept.digest hstarted)
    rcases hspent with hq | hq <;> rw [hq] at hrefunded <;> cases hrefunded
  · intro hq
    obtain ⟨hterm, hfault⟩ := hinv.compensated hq
    refine ⟨hterm, ?_⟩
    simpa [faultCompensation] using hfault

/-- The grant of a run nobody claimed expires. -/
theorem quota_tells_ledger_sample :
    let t := transact textPlatform (sampleEnv 700000) sampleRun (.expireAndReconcile false)
    t.run.quotaState = .refunded ↔ t.ledger.has t.run.binding.reservationId .refund = true := by
  have h0 : (quotaLifecycle textPlatform).Reachable sampleRun := .init sampleRun_approved
  have h1 : (quotaLifecycle textPlatform).Reachable
      (transact textPlatform (sampleEnv 700000) sampleRun (.expireAndReconcile false)) :=
    .step (a := .call (sampleEnv 700000) (.expireAndReconcile false)) h0 rfl
  exact (quota_tells_ledger textPlatform_collisionFree h1).1.2.1

example : (transact textPlatform (sampleEnv 700000) sampleRun
    (.expireAndReconcile false)).run.quotaState = .refunded := by
  decide

end Heel.Cloud
