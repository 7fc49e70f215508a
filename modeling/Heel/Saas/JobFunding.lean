import Heel.Saas.Jobs

/-! Which jobs a reservation funds, over whole runs of the job plane: one, unless a key is enqueued
again once its job has been purged. -/
namespace Heel.Cloud
open Lib Lib.Checks

/-- What `reserve_run` has answered for a key. -/
structure Answer where
  workspaceId : String
  key : String
  reservationIds : List String
  deriving DecidableEq, Repr

/-- The database, what callers have been answered, and every job that was ever recorded. -/
structure PlaneState where
  db : PlaneDb := {}
  answers : List Answer := []
  recorded : List JobIdentity := []
  deriving DecidableEq, Repr

inductive PlaneCall where
  | reserveRun (caps : GlobalCaps) (q : RunRequest) (key : String)
  | enqueue (q : EnqueueRequest) (key : String)
  | claim (workerId : String) (workspaceId : Option String) (leaseS : ℚ)
  | heartbeat (jobId workerId : String) (leaseS : ℚ)
  | complete (jobId workerId outcome : String)
  | fail (jobId workerId outcome : String)
  | reapExpired
  | purgeRetention
  | reconcile

/-- `reserve_run` under a key; its answer, if there is one, is the caller's. -/
def PlaneState.reserve (s : PlaneState) (caps : GlobalCaps) (q : RunRequest) (key : String) :
    PlaneState :=
  let (ledger, answer) := reserveRun caps { q with idempotencyKey := some key } s.db.ledger
  { s with
    db := { s.db with ledger := ledger }
    answers := match answer with
      | .ok ids => s.answers ++ [⟨q.sub.workspaceId, key, ids⟩]
      | .error _ => s.answers }

/-- `enqueue` under a key. -/
def PlaneState.enqueue (s : PlaneState) (env : PlaneEnv) (q : EnqueueRequest) (key : String) :
    PlaneState :=
  match Cloud.enqueue env { q with idempotencyKey := some key } s.db with
  | .ok (.created job) => { s with
      db := { s.db with jobs := s.db.jobs ++ [job] }, recorded := s.recorded ++
      [job.toJobIdentity] }
  | _ => s

def PlaneState.call (s : PlaneState) (env : PlaneEnv) : PlaneCall → PlaneState
  | .reserveRun caps q key => s.reserve caps q key
  | .enqueue q key => s.enqueue env q key
  | .claim workerId workspaceId leaseS =>
    { s with db := claimJob env workerId workspaceId leaseS s.db }
  | .heartbeat jobId workerId leaseS => { s with db := heartbeatJob env jobId workerId leaseS s.db }
  | .complete jobId workerId outcome =>
    { s with db := settleJob env jobId (some workerId) .succeeded outcome .consume s.db }
  | .fail jobId workerId outcome =>
    { s with db := settleJob env jobId (some workerId) .failed outcome .refund s.db }
  | .reapExpired => { s with db := reapExpired env s.db }
  | .purgeRetention => { s with db := purgeRetention env s.db }
  | .reconcile => { s with db := reconcile env s.db }

/-- Identifiers that are drawn are new, and a job is enqueued with what its key was answered. -/
def PlaneState.Admits (s : PlaneState) (env : PlaneEnv) : PlaneCall → Prop
  | .reserveRun _ q _ => q.freshRuns ≠ q.freshVerified ∧
      ∀ e ∈ s.db.ledger, e.reservationId ≠ q.freshRuns ∧ e.reservationId ≠ q.freshVerified
  | .enqueue q key => ⟨q.workspaceId, key, q.reservationIds⟩ ∈ s.answers ∧
      ∀ job ∈ s.recorded, job.jobId ≠ env.freshJob
  | _ => True

def jobPlane : Transition PlaneState (PlaneEnv × PlaneCall) where
  init s := s = {}
  step s a t := s.Admits a.1 a.2 ∧ t = s.call a.1 a.2

/-- No reservation is recorded in two jobs. -/
def FundsOneJob (s : PlaneState) : Prop :=
  ∀ a ∈ s.recorded, ∀ b ∈ s.recorded, ∀ id ∈ a.reservations, id ∈ b.reservations → a = b

/-- The job of a key that is enqueued again is still there. -/
def JobStillThere (s : PlaneState) (a : PlaneEnv × PlaneCall) : Prop :=
  ∀ q key, a.2 = .enqueue q key → ∀ job ∈ s.recorded, job.workspaceId = q.workspaceId →
    job.idempotencyKey = some key → ∃ j ∈ s.db.jobs, j.jobId = job.jobId

variable {l t : Ledger} {id : String} {kind : EntryKind}

theorem reachable_settle (hs : usageLedger.Reachable l) (hkind : kind = .consume ∨ kind = .refund)
    {answer : Bool} (h : l.settle id kind = .ok (answer, t)) : usageLedger.Reachable t := by
  rcases hkind with rfl | rfl
  · refine .step (a := .consume id) hs ⟨fun q' hq' => (by cases hq'), ?_⟩
    rw [Ledger.transact, Ledger.call, Ledger.consume, h]
    rfl
  · exact reachable_refund hs h

theorem settleAll_reachable (hs : usageLedger.Reachable l)
    (hkind : kind = .consume ∨ kind = .refund)
    (ids : List String) : usageLedger.Reachable (settleAll kind ids l) := by
  induction ids generalizing l with
  | nil => exact hs
  | cons id rest ih =>
    unfold settleAll
    split
    · rename_i answer t ht
      exact ih (reachable_settle hs hkind ht)
    · exact hs

theorem settle_reserves {answer : Bool} (hkind : kind ≠ .reserve)
    (h : l.settle id kind = .ok (answer, t)) : t.reserves = l.reserves := by
  rcases Ledger.settle_ok h with ⟨-, rfl, -⟩ | ⟨-, -, -, -, e, -, hk, rfl⟩
  · rfl
  · exact reserves_append (hk ▸ hkind)

theorem settleAll_reserves (ids : List String) (hkind : kind ≠ .reserve) :
    (settleAll kind ids l).reserves = l.reserves := by
  induction ids generalizing l with
  | nil => rfl
  | cons id rest ih =>
    unfold settleAll
    split
    · rename_i answer t ht
      exact ih.trans (settle_reserves hkind ht)
    · rfl

/-- The reservation is one of those made under a key. -/
def Ledger.FundedBy (l : Ledger) (workspaceId key id : String) : Prop :=
  ∃ r ∈ l.reserves, r.reservationId = id ∧ r.workspaceId = workspaceId ∧
    ((r.meter = .runs ∧ r.idempotencyKey = some key) ∨
      (r.meter = .verifiedRuns ∧ r.idempotencyKey = verifiedKey (some key)))

theorem verifiedKey_inj {a b : String} (h : verifiedKey (some a) = verifiedKey (some b)) :
    a = b := by
  by_cases ha : a = ""
  · by_cases hb : b = ""
    · rw [ha, hb]
    · simp [verifiedKey, ha, hb] at h
  · by_cases hb : b = ""
    · simp [verifiedKey, ha, hb] at h
    · simp only [verifiedKey, Option.bind_some, if_neg ha, if_neg hb, Option.some.injEq] at h
      exact (String.append_left_inj _).mp h

theorem UsageInv.fundedBy_eq (hi : UsageInv l) {w w' key key' : String} (h : l.FundedBy w key id)
    (h' : l.FundedBy w' key' id) : w = w' ∧ key = key' := by
  obtain ⟨r, hr, hid, hw, hkey⟩ := h
  obtain ⟨r', hr', hid', hw', hkey'⟩ := h'
  obtain rfl : r = r' := Table.eq_of_key hi.ids hr hr' (hid.trans hid'.symm)
  refine ⟨hw.symm.trans hw', ?_⟩
  rcases hkey with ⟨hm, hk⟩ | ⟨hm, hk⟩ <;> rcases hkey' with ⟨hm', hk'⟩ | ⟨hm', hk'⟩
  · exact Option.some.inj (hk.symm.trans hk')
  · rw [hm] at hm'
    cases hm'
  · rw [hm] at hm'
    cases hm'
  · exact verifiedKey_inj (hk.symm.trans hk')

theorem Ledger.FundedBy.mono {w key : String} (h : l.FundedBy w key id)
    (hsub : ∀ r ∈ l.reserves, r ∈ t.reserves) : t.FundedBy w key id := by
  obtain ⟨r, hr, hspec⟩ := h
  exact ⟨r, hsub r hr, hspec⟩

/-- The reservation a request is answered is one of its meter under its key. -/
theorem reserve_answer {q : Ledger.ReserveRequest} (h : l.reserve q = .ok (id, t)) :
    (∀ r ∈ l.reserves, r ∈ t.reserves) ∧ ∃ r ∈ t.reserves, r.reservationId = id ∧
      r.workspaceId = q.workspaceId ∧ r.meter = q.meter ∧ r.idempotencyKey = q.idempotencyKey := by
  have hpos : 0 < q.amount := by
    simp only [Ledger.reserve, bind_ok, require_ok, exists_const] at h
    exact h.1
  cases hprior : q.prior l with
  | some r =>
    rw [reserve_replay hpos hprior] at h
    split at h
    · cases h
    · cases h
      obtain ⟨hmem, hspec⟩ := prior_mem hprior
      exact ⟨fun _ hr => hr, r, hmem, rfl, hspec⟩
  | none =>
    obtain ⟨hok, herr⟩ := reserve_new hpos hprior
    by_cases hfits : q.Fits l
    · rw [hok hfits] at h
      cases h
      refine ⟨fun r hr => ?_, q.entry, mem_reserves.mpr ⟨by simp, rfl⟩, rfl, rfl, rfl, rfl⟩
      obtain ⟨hmem, hkind⟩ := mem_reserves.mp hr
      exact mem_reserves.mpr ⟨List.mem_append_left _ hmem, hkind⟩
    · obtain ⟨e, he, -⟩ := herr hfits
      rw [he] at h
      cases h

theorem reserveRun_answer {caps : GlobalCaps} {q : RunRequest}
    {answer : Except Refusal (List String)}
    {key : String} (hkey : q.idempotencyKey = some key) (h : reserveRun caps q l = (t, answer)) :
    (∀ r ∈ l.reserves, r ∈ t.reserves) ∧
      ∀ ids, answer = .ok ids → ∀ id ∈ ids, t.FundedBy q.sub.workspaceId key id := by
  unfold reserveRun at h
  split at h
  · cases h
    exact ⟨fun _ hr => hr, fun _ h => by cases h⟩
  · rename_i plan hplan
    split at h
    · cases h
      exact ⟨fun _ hr => hr, fun _ h => by cases h⟩
    · rename_i runsId mid hruns
      obtain ⟨hsub, r, hr, hid, hw, hm, hk⟩ := reserve_answer hruns
      have hfunded : mid.FundedBy q.sub.workspaceId key runsId :=
        ⟨r, hr, hid, hw, .inl ⟨hm, hk.trans hkey⟩⟩
      split at h
      · unfold reserveVerified at h
        split at h
        · rename_i vid last hverified
          obtain ⟨hsub', v, hv, hvid, hvw, hvm, hvk⟩ := reserve_answer hverified
          cases h
          refine ⟨fun o ho => hsub' o (hsub o ho), fun ids hids i hi => ?_⟩
          cases hids
          simp only [List.mem_cons, List.not_mem_nil, or_false] at hi
          rcases hi with rfl | rfl
          · exact hfunded.mono hsub'
          · exact ⟨v, hv, hvid, hvw, .inr ⟨hvm, hvk.trans (congrArg verifiedKey hkey)⟩⟩
        · split at h
          · split at h
            · rename_i hrefund
              cases h
              rw [settle_reserves (by decide) hrefund]
              exact ⟨hsub, fun _ h => by cases h⟩
            · cases h
              exact ⟨hsub, fun _ h => by cases h⟩
          · cases h
            exact ⟨hsub, fun _ h => by cases h⟩
      · cases h
        refine ⟨hsub, fun ids hids i hi => ?_⟩
        cases hids
        rw [List.mem_singleton.mp hi]
        exact hfunded

/-- Jobs keep their identity, or go; reservations stay. -/
structure JobMove (db t : PlaneDb) : Prop where
  jobs : ∀ j ∈ t.jobs, ∃ o ∈ db.jobs, j.toJobIdentity = o.toJobIdentity
  reserves : t.ledger.reserves = db.ledger.reserves
  ledger : usageLedger.Reachable db.ledger → usageLedger.Reachable t.ledger

theorem JobMove.refl (db : PlaneDb) : JobMove db db := ⟨fun j hj => ⟨j, hj, rfl⟩, rfl, id⟩

theorem JobMove.trans {db mid t : PlaneDb} (h : JobMove db mid) (h' : JobMove mid t) :
    JobMove db t := by
  refine ⟨fun j hj => ?_, h'.reserves.trans h.reserves, fun hs => h'.ledger (h.ledger hs)⟩
  obtain ⟨o, ho, hsame⟩ := h'.jobs j hj
  obtain ⟨o', ho', hsame'⟩ := h.jobs o ho
  exact ⟨o', ho', hsame.trans hsame'⟩

variable {env : PlaneEnv} {db : PlaneDb}

theorem updated_jobs {p : JobRow → Bool} {f : JobRow → JobRow} {jobs : List JobRow}
    (hf : ∀ j, (f j).toJobIdentity = j.toJobIdentity) :
    ∀ j ∈ Table.update p f jobs, ∃ o ∈ jobs, j.toJobIdentity = o.toJobIdentity := by
  intro j hj
  obtain ⟨o, ho, rfl⟩ := Table.mem_update.mp hj
  refine ⟨o, ho, ?_⟩
  split
  · exact hf o
  · rfl

theorem claimJob_move (workerId : String) (workspaceId : Option String) (leaseS : ℚ) :
    JobMove db (claimJob env workerId workspaceId leaseS db) := by
  unfold claimJob
  split
  · exact .refl db
  · exact ⟨updated_jobs fun _ => rfl, rfl, id⟩

theorem heartbeatJob_move (jobId workerId : String) (leaseS : ℚ) :
    JobMove db (heartbeatJob env jobId workerId leaseS db) :=
  ⟨updated_jobs fun _ => rfl, rfl, id⟩

theorem settleJob_move (jobId : String) (workerId : Option String) (state : JobState)
    (outcome : String) (hkind : kind = .consume ∨ kind = .refund) :
    JobMove db (settleJob env jobId workerId state outcome kind db) := by
  unfold settleJob
  simp only
  split
  · exact .refl db
  · refine ⟨updated_jobs fun _ => rfl, settleAll_reserves _ ?_, fun hs =>
    settleAll_reachable hs hkind _⟩
    rcases hkind with rfl | rfl <;> decide

theorem reapExpired_move : JobMove db (reapExpired env db) := by
  unfold reapExpired
  generalize db.jobs.filter _ = rows
  induction rows generalizing db with
  | nil => exact .refl db
  | cons j rest ih =>
    rw [List.foldl_cons]
    exact (settleJob_move j.jobId none .expired "lease_expired" (.inr rfl)).trans ih

theorem purgeRetention_move : JobMove db (purgeRetention env db) :=
  ⟨fun j hj => ⟨j, List.mem_of_mem_filter hj, rfl⟩, rfl, id⟩

theorem reconcile_move : JobMove db (reconcile env db) :=
  ⟨fun j hj => ⟨j, hj, rfl⟩, settleAll_reserves _ (by decide),
    fun hs => settleAll_reachable hs (.inr rfl) _⟩

structure PlaneInv (s : PlaneState) : Prop where
  ledger : usageLedger.Reachable s.db.ledger
  answers : ∀ a ∈ s.answers, ∀ id ∈ a.reservationIds, s.db.ledger.FundedBy a.workspaceId a.key id
  recorded : ∀ job ∈ s.recorded, ∃ key, job.idempotencyKey = some key ∧
    ⟨job.workspaceId, key, job.reservations⟩ ∈ s.answers
  keys : (s.recorded.map fun job => (job.workspaceId, job.idempotencyKey)).Nodup
  ids : (s.recorded.map (·.jobId)).Nodup
  jobs : ∀ j ∈ s.db.jobs, j.toJobIdentity ∈ s.recorded

variable {s : PlaneState}

theorem PlaneInv.moved (h : PlaneInv s) {db : PlaneDb} (hmove : JobMove s.db db) :
    PlaneInv { s with db := db } := by
  refine { h with ledger := hmove.ledger h.ledger, answers := ?_, jobs := ?_ }
  · intro a ha id hid
    exact (h.answers a ha id hid).mono fun r hr => hmove.reserves.symm ▸ hr
  · intro j hj
    obtain ⟨o, ho, hsame⟩ := hmove.jobs j hj
    exact hsame.symm ▸ h.jobs o ho

theorem PlaneInv.reserve (h : PlaneInv s) {caps : GlobalCaps} {q : RunRequest} {key : String}
    (hadmits : s.Admits env (.reserveRun caps q key)) : PlaneInv (s.reserve caps q key) := by
  have hreachable : usageLedger.Reachable
      (reserveRun caps { q with idempotencyKey := some key } s.db.ledger).1 :=
    reserveRun_reachable caps h.ledger hadmits.2 hadmits.1
  rcases hrun : reserveRun caps { q with idempotencyKey := some key } s.db.ledger
    with ⟨ledger, answer⟩
  rw [hrun] at hreachable
  obtain ⟨hsub, hfunded⟩ := reserveRun_answer rfl hrun
  have hold : ∀ a ∈ s.answers, ∀ id ∈ a.reservationIds, ledger.FundedBy a.workspaceId a.key id :=
    fun a ha id hid => (h.answers a ha id hid).mono hsub
  unfold PlaneState.reserve
  rw [hrun]
  cases answer with
  | error e => exact { h with ledger := hreachable, answers := hold }
  | ok ids =>
    refine { h with ledger := hreachable, answers := ?_, recorded := ?_ }
    · intro a ha id hid
      rcases List.mem_append.mp ha with ha | ha
      · exact hold a ha id hid
      · rw [List.mem_singleton.mp ha] at hid ⊢
        exact hfunded ids rfl id hid
    · intro job hjob
      obtain ⟨k, hk, ha⟩ := h.recorded job hjob
      exact ⟨k, hk, List.mem_append_left _ ha⟩

theorem enqueue_created {q : EnqueueRequest} {job : JobRow}
    (h : enqueue env q db = .ok (.created job)) :
    q.idempotencyKey.bind (db.priorJob q.workspaceId) = none ∧
      job.toJobIdentity = ⟨env.freshJob, q.workspaceId, q.idempotencyKey, q.reservationIds⟩ := by
  unfold enqueue at h
  split at h
  · cases h
  · simp only [bind_ok, require_ok, exists_const] at h
    obtain ⟨-, h⟩ := h
    split at h
    · cases h
    · rename_i hnone
      simp only [bind_ok] at h
      obtain ⟨⟨target, budget⟩, -, h⟩ := h
      cases h
      exact ⟨hnone, rfl⟩

theorem PlaneInv.enqueue (h : PlaneInv s) {q : EnqueueRequest} {key : String}
    (hadmits : s.Admits env (.enqueue q key)) (hthere : JobStillThere s (env, .enqueue q key)) :
    PlaneInv (s.enqueue env q key) := by
  unfold PlaneState.enqueue
  split
  · rename_i job hcreated
    obtain ⟨hnone, hidentity⟩ := enqueue_created hcreated
    have hnew : ∀ o ∈ s.recorded,
        ¬ (o.workspaceId = q.workspaceId ∧ o.idempotencyKey = some key) := by
      rintro o ho ⟨hw, hk⟩
      -- the row of that key would have been found
      obtain ⟨j, hj, hid⟩ := hthere q key rfl o ho hw hk
      have hsame : j.toJobIdentity = o := Table.eq_of_key h.ids (h.jobs j hj) ho hid
      simp only [Option.bind_some, PlaneDb.priorJob, List.find?_eq_none] at hnone
      have hwj : j.workspaceId = o.workspaceId := congrArg (·.workspaceId) hsame
      have hkj : j.idempotencyKey = o.idempotencyKey := congrArg (·.idempotencyKey) hsame
      exact hnone j hj (decide_eq_true ⟨hwj.trans hw, hkj.trans hk⟩)
    refine { h with recorded := ?_, keys := ?_, ids := ?_, jobs := ?_ }
    · intro o ho
      rcases List.mem_append.mp ho with ho | ho
      · exact h.recorded o ho
      · rw [List.mem_singleton.mp ho, hidentity]
        exact ⟨key, rfl, hadmits.1⟩
    · rw [List.map_append]
      refine List.nodup_append.mpr ⟨h.keys, by simp, ?_⟩
      rintro _ hin _ hlast rfl
      obtain ⟨o, ho, hkey⟩ := List.mem_map.mp hin
      rw [hidentity] at hlast
      have hboth := hkey.trans (List.mem_singleton.mp hlast)
      exact hnew o ho ⟨congrArg (·.1) hboth, congrArg (·.2) hboth⟩
    · rw [List.map_append]
      refine List.nodup_append.mpr ⟨h.ids, by simp, ?_⟩
      rintro _ hin _ hlast rfl
      obtain ⟨o, ho, hid⟩ := List.mem_map.mp hin
      rw [hidentity] at hlast
      exact hadmits.2 o ho (hid.trans (List.mem_singleton.mp hlast))
    · intro j hj
      rcases List.mem_append.mp hj with hj | hj
      · exact List.mem_append_left _ (h.jobs j hj)
      · rw [List.mem_singleton.mp hj]
        exact List.mem_append_right _ (List.mem_singleton.mpr rfl)
  · exact h

theorem PlaneInv.step (h : PlaneInv s) {call : PlaneCall} (hadmits : s.Admits env call)
    (hthere : JobStillThere s (env, call)) : PlaneInv (s.call env call) := by
  cases call with
  | reserveRun caps q key => exact h.reserve hadmits
  | enqueue q key => exact h.enqueue hadmits hthere
  | claim workerId workspaceId leaseS => exact h.moved (claimJob_move _ _ _)
  | heartbeat jobId workerId leaseS => exact h.moved (heartbeatJob_move _ _ _)
  | complete jobId workerId outcome => exact h.moved (settleJob_move _ _ _ _ (.inl rfl))
  | fail jobId workerId outcome => exact h.moved (settleJob_move _ _ _ _ (.inr rfl))
  | reapExpired => exact h.moved reapExpired_move
  | purgeRetention => exact h.moved purgeRetention_move
  | reconcile => exact h.moved reconcile_move

theorem jobPlane_inv (hs : (jobPlane.restrict JobStillThere).Reachable s) : PlaneInv s := by
  refine Transition.invariant _ ?_ ?_ hs
  · rintro s rfl
    refine ⟨.init rfl, ?_, ?_, ?_, ?_, ?_⟩ <;> simp
  · rintro s ⟨env, call⟩ t h ⟨⟨hadmits, rfl⟩, hthere⟩
    exact h.step hadmits hthere

theorem PlaneInv.fundsOne (h : PlaneInv s) : FundsOneJob s := by
  intro a ha b hb id hia hib
  obtain ⟨key, hkey, hanswer⟩ := h.recorded a ha
  obtain ⟨key', hkey', hanswer'⟩ := h.recorded b hb
  obtain ⟨hw, hk⟩ := (usageLedger_inv h.ledger).fundedBy_eq (h.answers _ hanswer id hia)
    (h.answers _ hanswer' id hib)
  refine Table.eq_of_key h.keys ha hb ?_
  simp only at hw hk
  rw [hkey, hkey', hw, hk]

/-- A reservation funds one job, as long as no key is enqueued again whose job was purged. -/
theorem reservation_funds_one_job (hs : (jobPlane.restrict JobStillThere).Reachable s) :
    FundsOneJob s :=
  (jobPlane_inv hs).fundsOne

section Sample

instance (s : PlaneState) (env : PlaneEnv) (call : PlaneCall) : Decidable (s.Admits env call) :=
  match call with
  | .reserveRun _ q _ => inferInstanceAs (Decidable (q.freshRuns ≠ q.freshVerified ∧
      ∀ e ∈ s.db.ledger, e.reservationId ≠ q.freshRuns ∧ e.reservationId ≠ q.freshVerified))
  | .enqueue q key =>
    inferInstanceAs (Decidable (⟨q.workspaceId, key, q.reservationIds⟩ ∈ s.answers ∧
      ∀ job ∈ s.recorded, job.jobId ≠ env.freshJob))
  | .claim .. | .heartbeat .. | .complete .. | .fail .. | .reapExpired | .purgeRetention
  | .reconcile => .isTrue trivial

def planeEnv (now : ℚ) (fresh : String) : PlaneEnv where
  now := now
  scopeValidator := none
  concurrencyLimit := none
  retentionDays _ := 7
  stale _ := false
  canary _ := false
  freshJob := fresh

def syntheticJob : EnqueueRequest :=
  ⟨"workspace_1", "synthetic", ["resv_1"], none, false, none, none, none⟩

def enqueuedPlane : PlaneState :=
  let reserved := PlaneState.call {} (planeEnv 0 "") (.reserveRun sampleCaps syntheticRun "key_1")
  reserved.call (planeEnv 0 "job_1") (.enqueue syntheticJob "key_1")

/-- A run is reserved, enqueued, claimed and completed. -/
def completedPlane : PlaneState :=
  let claimed := enqueuedPlane.call (planeEnv 1 "") (.claim "worker_1" none 120)
  claimed.call (planeEnv 2 "") (.complete "job_1" "worker_1" "ok")

theorem completedPlane_reachable : (jobPlane.restrict JobStillThere).Reachable completedPlane := by
  have h0 : (jobPlane.restrict JobStillThere).Reachable {} := .init rfl
  have h1 := h0.step (a := (planeEnv 0 "", .reserveRun sampleCaps syntheticRun "key_1"))
    ⟨⟨by decide, rfl⟩, fun _ _ h => by cases h⟩
  have h2 := h1.step (a := (planeEnv 0 "job_1", .enqueue syntheticJob "key_1"))
    ⟨⟨by decide, rfl⟩, fun _ _ _ job hjob => absurd hjob (by
      have : PlaneState.recorded (PlaneState.call {} (planeEnv 0 "")
        (.reserveRun sampleCaps syntheticRun "key_1")) = [] := rfl
      rw [this]
      exact List.not_mem_nil)⟩
  have h3 := h2.step (a := (planeEnv 1 "", .claim "worker_1" none 120))
    ⟨⟨by exact trivial, rfl⟩, fun _ _ h => by cases h⟩
  exact h3.step (a := (planeEnv 2 "", .complete "job_1" "worker_1" "ok"))
    ⟨⟨by exact trivial, rfl⟩, fun _ _ h => by cases h⟩

instance (s : PlaneState) (a : PlaneEnv × PlaneCall) : Decidable (JobStillThere s a) :=
  match a with
  | ⟨_, .enqueue q key⟩ => decidable_of_iff (∀ job ∈ s.recorded, job.workspaceId = q.workspaceId →
      job.idempotencyKey = some key → ∃ j ∈ s.db.jobs, j.jobId = job.jobId)
    ⟨fun h _ _ heq => by cases heq; exact h, fun h => h _ _ rfl⟩
  | ⟨_, .reserveRun ..⟩ | ⟨_, .claim ..⟩ | ⟨_, .heartbeat ..⟩ | ⟨_, .complete ..⟩ | ⟨_, .fail ..⟩
  | ⟨_, .reapExpired⟩ | ⟨_, .purgeRetention⟩ | ⟨_, .reconcile⟩ => .isTrue fun _ _ h => by cases h

/-- Calls that are all admitted, with the job of a key there whenever the key is enqueued again. -/
def PlaneState.Runs : PlaneState → List (PlaneEnv × PlaneCall) → Prop
  | _, [] => True
  | s, a :: rest => s.Admits a.1 a.2 ∧ JobStillThere s a ∧ (s.call a.1 a.2).Runs rest

instance decidableRuns : ∀ (s : PlaneState) (calls : List (PlaneEnv × PlaneCall)),
    Decidable (s.Runs calls)
  | _, [] => .isTrue trivial
  | s, a :: rest =>
    have := decidableRuns (s.call a.1 a.2) rest
    inferInstanceAs (Decidable (_ ∧ _ ∧ _))

theorem PlaneState.Runs.reachable {calls : List (PlaneEnv × PlaneCall)}
    (hs : (jobPlane.restrict JobStillThere).Reachable s) (h : s.Runs calls) :
    (jobPlane.restrict JobStillThere).Reachable (calls.foldl (fun s a => s.call a.1 a.2) s) := by
  induction calls generalizing s with
  | nil => exact hs
  | cons a rest ih => exact ih (hs.step ⟨⟨h.1, rfl⟩, h.2.1⟩) h.2.2

/-- A run that is reserved and enqueued twice under each of two keys, once while its job works. -/
def retriedCalls : List (PlaneEnv × PlaneCall) :=
  let again : RunRequest := { syntheticRun with freshRuns := "resv_5", freshVerified := "resv_6" }
  let second : RunRequest := { syntheticRun with freshRuns := "resv_3", freshVerified := "resv_4" }
  let secondJob : EnqueueRequest := { syntheticJob with reservationIds := ["resv_3"] }
  [(planeEnv 0 "", .reserveRun sampleCaps syntheticRun "key_1"),
    (planeEnv 0 "job_1", .enqueue syntheticJob "key_1"),
    (planeEnv 1 "", .claim "worker_1" none 120),
    (planeEnv 2 "", .reserveRun sampleCaps again "key_1"),
    (planeEnv 2 "job_2", .enqueue syntheticJob "key_1"),
    (planeEnv 3 "", .reserveRun sampleCaps second "key_2"),
    (planeEnv 3 "job_2", .enqueue secondJob "key_2"),
    (planeEnv 4 "", .complete "job_1" "worker_1" "ok"),
    (planeEnv 5 "job_3", .enqueue syntheticJob "key_1"),
    (planeEnv 5 "job_3", .enqueue secondJob "key_2"),
    (planeEnv 6 "", .claim "worker_1" none 120),
    (planeEnv 7 "", .complete "job_2" "worker_1" "ok")]

def retriedPlane : PlaneState := retriedCalls.foldl (fun s a => s.call a.1 a.2) {}

theorem retriedPlane_reachable : (jobPlane.restrict JobStillThere).Reachable retriedPlane :=
  PlaneState.Runs.reachable (.init rfl) (by decide +kernel)

theorem reservation_funds_one_job_sample : FundsOneJob retriedPlane ∧
    retriedPlane.answers.map (·.reservationIds) = [["resv_1"], ["resv_1"], ["resv_3"]] ∧
    retriedPlane.recorded.map (fun j => (j.jobId, j.reservations)) =
      [("job_1", ["resv_1"]), ("job_2", ["resv_3"])] ∧
    retriedPlane.db.jobs.map (·.state) = [.succeeded, .succeeded] :=
  ⟨reservation_funds_one_job retriedPlane_reachable, by decide +kernel⟩

/-- Retention purges the job, and its key is used again. -/
def secondJobPlane : PlaneState :=
  let purged := completedPlane.call (planeEnv 700000 "") .purgeRetention
  let reserved := purged.call (planeEnv 700000 "") (.reserveRun sampleCaps
    { syntheticRun with freshRuns := "resv_3", freshVerified := "resv_4" } "key_1")
  reserved.call (planeEnv 700000 "job_2") (.enqueue syntheticJob "key_1")

theorem secondJobPlane_reachable : jobPlane.Reachable secondJobPlane := by
  have h0 := completedPlane_reachable.of_restrict
  have h1 := h0.step (a := (planeEnv 700000 "", .purgeRetention)) ⟨by exact trivial, rfl⟩
  have h2 := h1.step (a := (planeEnv 700000 "", .reserveRun sampleCaps
    { syntheticRun with freshRuns := "resv_3", freshVerified := "resv_4" } "key_1"))
    ⟨by decide, rfl⟩
  exact h2.step (a := (planeEnv 700000 "job_2", .enqueue syntheticJob "key_1")) ⟨by decide, rfl⟩

/-- The reservation of a purged job funds a second one. -/
theorem purged_key_funds_second_job : jobPlane.Reachable secondJobPlane ∧
    secondJobPlane.recorded.map (fun j => (j.jobId, j.reservations)) =
      [("job_1", ["resv_1"]), ("job_2", ["resv_1"])] ∧ ¬ FundsOneJob secondJobPlane := by
  have hrecorded : secondJobPlane.recorded = [⟨"job_1", "workspace_1", some "key_1", ["resv_1"]⟩,
      ⟨"job_2", "workspace_1", some "key_1", ["resv_1"]⟩] := by decide +kernel
  refine ⟨secondJobPlane_reachable, by rw [hrecorded]; rfl, fun h => ?_⟩
  rw [FundsOneJob, hrecorded] at h
  exact absurd (h _ (.head _) _ (.tail _ (.head _)) "resv_1" (by decide) (by decide)) (by decide)

end Sample

end Heel.Cloud
