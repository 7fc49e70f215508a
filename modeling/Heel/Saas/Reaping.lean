import Heel.Lib.Transition
import Heel.Saas.Jobs

/-! One pass of `reap_expired` of `heel/saas/jobs.py` statement by statement, among the heartbeats
and settlements of the workers: whose job it expires under a lease that is still running. -/
namespace Heel.Cloud
open Lib

/-! ### The statements -/

/-- The `UPDATE` of `_settle`: the job it found running, and the jobs it leaves. -/
def settleUpdate (now : ℚ) (jobId : String) (workerId : Option String) (state : JobState)
    (outcome : String) (jobs : List JobRow) : Option (JobRow × List JobRow) :=
  let mine (j : JobRow) : Bool :=
    j.jobId = jobId ∧ j.state = .running ∧ workerId.all (j.workerId = some ·)
  (jobs.find? mine).map fun job => (job, Table.update mine (fun j => { j with
    state := state, finishedAt := some now, outcome := some outcome }) jobs)

/-- A pass: the time it compared against, the jobs it has selected and not come to, and the
reservations that it still has to refund of the job before. -/
structure ReaperPass where
  comparedAt : ℚ
  selected : List String
  refunds : List String := []
  deriving DecidableEq, Repr

/-- What a worker's call has left to do once its update is committed. -/
structure Settling where
  kind : EntryKind
  reservations : List String
  deriving DecidableEq, Repr

/-- A lease that a heartbeat has confirmed by answering True. -/
structure LeaseGrant where
  jobId : String
  leaseUntil : ℚ
  deriving DecidableEq, Repr

/-- An update of `_settle` that found its job running: what it wrote, and what held of the lease
at that moment. -/
structure Settlement where
  jobId : String
  state : JobState
  kind : EntryKind
  reservations : List String
  settledAt : ℚ
  comparedAt : Option ℚ
  leaseUntil : Option ℚ
  granted : Option ℚ
  deriving DecidableEq, Repr

/-- The database, the pass and the workers' calls in flight; then the database at the start, the
confirmed leases with the newest first, and the settlements. -/
structure ReapingState where
  db : PlaneDb
  pass : Option ReaperPass := none
  calls : List Settling := []
  initial : PlaneDb := db
  granted : List LeaseGrant := []
  settlements : List Settlement := []
  deriving DecidableEq, Repr

inductive ReapingCall where
  | select (now : ℚ)
  | expire (now : ℚ)
  | refund
  | heartbeat (now : ℚ) (jobId workerId : String) (leaseS : ℚ)
  | complete (now : ℚ) (jobId workerId outcome : String)
  | fail (now : ℚ) (jobId workerId outcome : String)
  | settle (i : Nat)
  deriving DecidableEq, Repr

namespace ReapingState
variable (s : ReapingState)

/-- The newest lease that was confirmed for a job. -/
def lastGrant (jobId : String) : Option ℚ :=
  (s.granted.find? fun g => g.jobId = jobId).map (·.leaseUntil)

def settlement (job : JobRow) (state : JobState) (kind : EntryKind) (now : ℚ)
    (comparedAt : Option ℚ) : Settlement where
  jobId := job.jobId
  state := state
  kind := kind
  reservations := job.reservations
  settledAt := now
  comparedAt := comparedAt
  leaseUntil := job.leaseUntil
  granted := s.lastGrant job.jobId

def expiredJobs (now : ℚ) : List String :=
  (s.db.jobs.filter fun j => j.state = .running ∧ j.leaseUntil.any (· < now)).map (·.jobId)

def holds (jobId workerId : String) : Bool :=
  s.db.jobs.any fun j => j.jobId = jobId ∧ j.workerId = some workerId ∧ j.state = .running

/-- `heartbeat`, which answers True if it found the job. -/
def heartbeat (now : ℚ) (jobId workerId : String) (leaseS : ℚ) : ReapingState :=
  if s.holds jobId workerId then { s with
    db := { s.db with
      jobs := Table.update (fun j : JobRow => j.jobId = jobId ∧ j.workerId = some workerId ∧
        j.state = .running) (fun j => { j with leaseUntil := some (now + leaseS) }) s.db.jobs }
    granted := ⟨jobId, now + leaseS⟩ :: s.granted }
  else s

/-- The update of a worker's `complete` or `fail`. -/
def finish (now : ℚ) (jobId workerId : String) (state : JobState) (outcome : String)
    (kind : EntryKind) : ReapingState :=
  match settleUpdate now jobId (some workerId) state outcome s.db.jobs with
  | none => s
  | some (job, jobs) => { s with
      db := { s.db with jobs := jobs }
      calls := s.calls ++ [⟨kind, job.reservations⟩]
      settlements := s.settlements ++ [s.settlement job state kind now none] }

/-- The update of the pass for its next job. -/
def expireNext (now : ℚ) (p : ReaperPass) (jobId : String) (rest : List String) : ReapingState :=
  match settleUpdate now jobId none .expired "lease_expired" s.db.jobs with
  | none => { s with pass := some { p with selected := rest } }
  | some (job, jobs) => { s with
      db := { s.db with jobs := jobs }
      pass := some { p with selected := rest, refunds := job.reservations }
      settlements := s.settlements ++ [s.settlement job .expired .refund now (some p.comparedAt)] }

/-- One statement; `none` if nobody is at it. -/
def step : ReapingCall → Option ReapingState
  | .select now =>
    if s.pass.all fun p => p.selected = [] ∧ p.refunds = [] then
      some { s with pass := some ⟨now, s.expiredJobs now, []⟩ }
    else none
  | .expire now =>
    match s.pass with
    | some ⟨comparedAt, jobId :: rest, []⟩ =>
      some (s.expireNext now ⟨comparedAt, jobId :: rest, []⟩ jobId rest)
    | _ => none
  | .refund =>
    match s.pass with
    | some ⟨comparedAt, selected, id :: ids⟩ =>
      match s.db.ledger.settle id .refund with
      | .ok (_, ledger) => some { s with
          db := { s.db with ledger := ledger }, pass := some ⟨comparedAt, selected, ids⟩ }
      -- the exception leaves the pass
      | .error _ => some { s with pass := none }
    | _ => none
  | .heartbeat now jobId workerId leaseS => some (s.heartbeat now jobId workerId leaseS)
  | .complete now jobId workerId outcome =>
    some (s.finish now jobId workerId .succeeded outcome .consume)
  | .fail now jobId workerId outcome => some (s.finish now jobId workerId .failed outcome .refund)
  | .settle i =>
    match s.calls[i]? with
    | some ⟨kind, id :: ids⟩ =>
      match s.db.ledger.settle id kind with
      | .ok (_, ledger) => some { s with
          db := { s.db with ledger := ledger }, calls := s.calls.set i ⟨kind, ids⟩ }
      | .error _ => some { s with calls := s.calls.set i ⟨kind, []⟩ }
    | _ => none

end ReapingState

def reaping : Transition ReapingState ReapingCall where
  init s := s.pass = none ∧ s.calls = [] ∧ s.granted = [] ∧ s.settlements = [] ∧
    s.initial = s.db ∧ (s.db.jobs.map (·.jobId)).Nodup
  step s a t := s.step a = some t

/-! ### What the pass owes the workers -/

/-- Jobs are expired once, under leases that have run out, and refunded for nothing else. -/
structure LeasesRespected (s : ReapingState) : Prop where
  lapsed : ∀ e ∈ s.settlements, e.state = .expired → ∃ lease comparedAt,
    e.leaseUntil = some lease ∧ e.comparedAt = some comparedAt ∧ lease < comparedAt
  held : ∀ e ∈ s.settlements, e.state = .expired → ∀ lease, e.granted = some lease →
    lease < e.settledAt
  once : (s.settlements.map (·.jobId)).Nodup
  expired : ∀ j ∈ s.db.jobs, j.state = .expired → (∃ o ∈ s.initial.jobs, o.jobId = j.jobId ∧
    o.state = .expired) ∨ ∃ e ∈ s.settlements, e.jobId = j.jobId ∧ e.state = .expired
  settled : ∀ e ∈ s.db.ledger, e ∈ s.initial.ledger ∨ ∃ m ∈ s.settlements,
    e.reservationId ∈ m.reservations ∧ e.kind = m.kind

/-- No heartbeat renews, beyond the time the pass compared against, the lease of a job that the
pass has selected and not come to; and the clock of an update of the pass does not read an earlier
time. -/
def NoLateRenewal (s : ReapingState) (a : ReapingCall) : Prop :=
  ∀ p, s.pass = some p →
    (∀ now jobId workerId leaseS, a = .heartbeat now jobId workerId leaseS → jobId ∈ p.selected →
      s.holds jobId workerId = true → now + leaseS < p.comparedAt) ∧
    (∀ now, a = .expire now → p.comparedAt ≤ now)

/-! ### The rows a statement leaves -/

variable {s t : ReapingState} {job : JobRow} {jobs rows : List JobRow} {jobId outcome : String}
  {workerId : Option String} {state : JobState} {now : ℚ}

theorem settleUpdate_some (hids : (jobs.map (·.jobId)).Nodup)
    (h : settleUpdate now jobId workerId state outcome jobs = some (job, rows)) :
    job ∈ jobs ∧ job.jobId = jobId ∧ job.state = .running ∧
      rows.map (·.jobId) = jobs.map (·.jobId) ∧
      ∀ j ∈ rows, (j.jobId = jobId ∧ j.state = state) ∨ (j.jobId ≠ jobId ∧ j ∈ jobs) := by
  simp only [settleUpdate, Option.map_eq_some_iff, Prod.mk.injEq] at h
  obtain ⟨found, hfind, rfl, rfl⟩ := h
  have hmem := List.mem_of_find?_eq_some hfind
  have hmine := List.find?_some hfind
  have hfound := of_decide_eq_true hmine
  refine ⟨hmem, hfound.1, hfound.2.1, Table.map_update fun _ _ => rfl, ?_⟩
  intro j hj
  obtain ⟨o, ho, rfl⟩ := Table.mem_update.mp hj
  by_cases hid : o.jobId = jobId
  · -- the key names the row that was found
    have hsame : o = found := Table.eq_of_key hids ho hmem (hid.trans hfound.1.symm)
    subst hsame
    rw [if_pos hmine]
    exact .inl ⟨hid, rfl⟩
  · rw [if_neg fun ho' => hid (of_decide_eq_true ho').1]
    exact .inr ⟨hid, ho⟩

/-- What holds in every state, whatever the heartbeats do. -/
structure ReapingInv (s : ReapingState) : Prop where
  ids : (s.db.jobs.map (·.jobId)).Nodup
  once : (s.settlements.map (·.jobId)).Nodup
  ended : ∀ e ∈ s.settlements, ∀ j ∈ s.db.jobs, j.jobId = e.jobId → j.state ≠ .running
  expired : ∀ j ∈ s.db.jobs, j.state = .expired → (∃ o ∈ s.initial.jobs, o.jobId = j.jobId ∧
    o.state = .expired) ∨ ∃ e ∈ s.settlements, e.jobId = j.jobId ∧ e.state = .expired
  settled : ∀ e ∈ s.db.ledger, e ∈ s.initial.ledger ∨ ∃ m ∈ s.settlements,
    e.reservationId ∈ m.reservations ∧ e.kind = m.kind
  due : ∀ p, s.pass = some p → ∀ id ∈ p.refunds, ∃ m ∈ s.settlements,
    id ∈ m.reservations ∧ m.kind = .refund
  owed : ∀ c ∈ s.calls, ∀ id ∈ c.reservations, ∃ m ∈ s.settlements,
    id ∈ m.reservations ∧ m.kind = c.kind
  granted : ∀ j ∈ s.db.jobs, j.state = .running → ∀ lease, s.lastGrant j.jobId = some lease →
    j.leaseUntil = some lease

/-- What holds as long as no selected lease is renewed late. -/
structure LeaseInv (s : ReapingState) : Prop where
  selected : ∀ p, s.pass = some p → ∀ j ∈ s.db.jobs, j.jobId ∈ p.selected → j.state = .running →
    ∃ lease, j.leaseUntil = some lease ∧ lease < p.comparedAt
  lapsed : ∀ e ∈ s.settlements, e.state = .expired → ∃ lease comparedAt,
    e.leaseUntil = some lease ∧ e.comparedAt = some comparedAt ∧ lease < comparedAt
  held : ∀ e ∈ s.settlements, e.state = .expired → ∀ lease, e.granted = some lease →
    lease < e.settledAt

/-- A job that is found running has not been settled, and is settled now. -/
theorem ReapingInv.record (h : ReapingInv s) {kind : EntryKind} {comparedAt : Option ℚ}
    (hstate : state ≠ .running)
    (hupdate : settleUpdate now jobId workerId state outcome s.db.jobs = some (job, rows))
    (ht : t.db = { s.db with jobs := rows } ∧ t.initial = s.initial ∧ t.granted = s.granted)
    (hsettlements : t.settlements = s.settlements ++ [s.settlement job state kind now comparedAt])
    (hdue : ∀ p, t.pass = some p → ∀ id ∈ p.refunds, ∃ m ∈ t.settlements,
      id ∈ m.reservations ∧ m.kind = .refund)
    (howed : ∀ c ∈ t.calls, ∀ id ∈ c.reservations, ∃ m ∈ t.settlements,
      id ∈ m.reservations ∧ m.kind = c.kind) : ReapingInv t := by
  obtain ⟨hdb, hinitial, hgranted⟩ := ht
  obtain ⟨hmem, hid, hrunning, hkeys, hrows⟩ := settleUpdate_some h.ids hupdate
  have hnew : ∀ e ∈ s.settlements, e.jobId ≠ job.jobId := by
    intro e he hsame
    exact h.ended e he job hmem hsame.symm hrunning
  refine ⟨?_, ?_, ?_, ?_, ?_, hdue, howed, ?_⟩
  · rw [hdb]
    exact hkeys.symm ▸ h.ids
  · rw [hsettlements, List.map_append]
    refine List.nodup_append.mpr ⟨h.once, by simp, ?_⟩
    rintro _ hin _ hlast rfl
    obtain ⟨e, he, hkey⟩ := List.mem_map.mp hin
    exact hnew e he (hkey.trans (List.mem_singleton.mp hlast))
  · intro e he j hj hsame
    rw [hdb] at hj
    cases hrows j hj with
    | inl hset =>
      rw [hset.2]
      exact hstate
    | inr hold =>
      rw [hsettlements] at he
      cases List.mem_append.mp he with
      | inl he => exact h.ended e he j hold.2 hsame
      | inr he =>
        rw [List.mem_singleton.mp he] at hsame
        exact absurd (hsame.trans hid) hold.1
  · intro j hj hexpired
    rw [hdb] at hj
    rw [hinitial, hsettlements]
    cases hrows j hj with
    | inl hset =>
      refine .inr ⟨_, List.mem_append_right _ (List.mem_singleton.mpr rfl), ?_, ?_⟩
      · exact hid.trans hset.1.symm
      · exact hset.2.symm.trans hexpired
    | inr hold =>
      refine (h.expired j hold.2 hexpired).imp_right ?_
      rintro ⟨e, he, hkey⟩
      exact ⟨e, List.mem_append_left _ he, hkey⟩
  · intro e he
    rw [hdb] at he
    rw [hinitial, hsettlements]
    refine (h.settled e he).imp_right ?_
    rintro ⟨m, hm, hkey⟩
    exact ⟨m, List.mem_append_left _ hm, hkey⟩
  · intro j hj hrun lease hlease
    rw [hdb] at hj
    rw [ReapingState.lastGrant, hgranted] at hlease
    cases hrows j hj with
    | inl hset => exact absurd (hset.2.symm.trans hrun) hstate
    | inr hold => exact h.granted j hold.2 hrun lease hlease

theorem owed_append (m : Settlement) {ids : List String} {kind : EntryKind}
    (hids : ∀ id ∈ ids, ∃ o ∈ s.settlements, id ∈ o.reservations ∧ o.kind = kind) :
    ∀ id ∈ ids, ∃ o ∈ s.settlements ++ [m], id ∈ o.reservations ∧ o.kind = kind := by
  intro id hid
  obtain ⟨o, ho, hkey⟩ := hids id hid
  exact ⟨o, List.mem_append_left _ ho, hkey⟩

theorem ReapingInv.finish (h : ReapingInv s) {workerId : String} {kind : EntryKind}
    (hstate : state ≠ .running) : ReapingInv (s.finish now jobId workerId state outcome kind) := by
  unfold ReapingState.finish
  split
  · exact h
  · rename_i job rows hupdate
    refine h.record hstate hupdate ⟨rfl, rfl, rfl⟩ rfl ?_ ?_
    · intro p hp
      exact owed_append _ (h.due p hp)
    · intro c hc
      cases List.mem_append.mp hc with
      | inl hc => exact owed_append _ (h.owed c hc)
      | inr hc =>
        rw [List.mem_singleton.mp hc]
        intro id hid
        exact ⟨_, List.mem_append_right _ (List.mem_singleton.mpr rfl), hid, rfl⟩

theorem ReapingInv.expireNext (h : ReapingInv s) {p : ReaperPass} {rest : List String}
    (hpass : s.pass = some p) : ReapingInv (s.expireNext now p jobId rest) := by
  unfold ReapingState.expireNext
  split
  · refine { h with due := ?_ }
    intro p' hp'
    cases hp'
    exact h.due p hpass
  · rename_i job rows hupdate
    refine h.record (by decide) hupdate ⟨rfl, rfl, rfl⟩ rfl ?_ ?_
    · intro p' hp' id hid
      cases hp'
      exact ⟨_, List.mem_append_right _ (List.mem_singleton.mpr rfl), hid, rfl⟩
    · intro c hc
      exact owed_append _ (h.owed c hc)

theorem ReapingInv.heartbeat (h : ReapingInv s) {workerId : String} {leaseS : ℚ} :
    ReapingInv (s.heartbeat now jobId workerId leaseS) := by
  unfold ReapingState.heartbeat
  split
  · rename_i hholds
    obtain ⟨held, hheld, hmine⟩ := List.any_eq_true.mp hholds
    have hkey := (of_decide_eq_true hmine).1
    have hsame : ∀ j ∈ Table.update
        (fun j : JobRow => j.jobId = jobId ∧ j.workerId = some workerId ∧
        j.state = .running) (fun j => { j with leaseUntil := some (now + leaseS) }) s.db.jobs,
        ∃ o ∈ s.db.jobs, o.jobId = j.jobId ∧ o.state = j.state ∧
          ((j.jobId = jobId ∧ j.leaseUntil = some (now + leaseS)) ∨ (j.jobId ≠ jobId ∧ j = o)) := by
      intro j hj
      obtain ⟨o, ho, rfl⟩ := Table.mem_update.mp hj
      by_cases hid : o.jobId = jobId
      · obtain rfl : o = held := Table.eq_of_key h.ids ho hheld (hid.trans hkey.symm)
        rw [if_pos hmine]
        exact ⟨o, ho, rfl, rfl, .inl ⟨hid, rfl⟩⟩
      · rw [if_neg fun ho' => hid (of_decide_eq_true ho').1]
        exact ⟨o, ho, rfl, rfl, .inr ⟨hid, rfl⟩⟩
    refine { h with ids := ?_, ended := ?_, expired := ?_, granted := ?_ }
    · have hkeys : (Table.update (fun j : JobRow =>
            j.jobId = jobId ∧ j.workerId = some workerId ∧ j.state = .running)
          (fun j => { j with leaseUntil := some (now + leaseS) }) s.db.jobs).map (·.jobId) =
          s.db.jobs.map (·.jobId) := Table.map_update fun _ _ => rfl
      exact hkeys.symm ▸ h.ids
    · intro e he j hj hje
      obtain ⟨o, ho, hid, hstate, -⟩ := hsame j hj
      rw [← hstate]
      exact h.ended e he o ho (hid.trans hje)
    · intro j hj hexpired
      obtain ⟨o, ho, hid, hstate, -⟩ := hsame j hj
      rw [← hid]
      exact h.expired o ho (hstate.trans hexpired)
    · intro j hj hrun lease hlease
      obtain ⟨o, ho, hid, hstate, hnew | hold⟩ := hsame j hj
      · simp only [ReapingState.lastGrant, hnew.1, List.find?_cons_of_pos, decide_true,
          Option.map_some, Option.some.injEq] at hlease
        rw [hnew.2, hlease]
      · obtain ⟨hne, rfl⟩ := hold
        rw [ReapingState.lastGrant, List.find?_cons_of_neg (by simpa using Ne.symm hne)] at hlease
        exact h.granted j ho hrun lease hlease
  · exact h

theorem ReapingInv.settled_append (h : ReapingInv s) {id : String} {kind : EntryKind}
    {answer : Bool}
    {ledger : Ledger} (howed : ∃ m ∈ s.settlements, id ∈ m.reservations ∧ m.kind = kind)
    (hsettle : s.db.ledger.settle id kind = .ok (answer, ledger)) :
    ∀ e ∈ ledger, e ∈ s.initial.ledger ∨ ∃ m ∈ s.settlements,
      e.reservationId ∈ m.reservations ∧ e.kind = m.kind := by
  cases Ledger.settle_ok hsettle with
  | inl hsame => exact hsame.2.1 ▸ h.settled
  | inr hrow =>
    obtain ⟨-, -, -, -, row, hid, hkind, rfl⟩ := hrow
    intro e he
    cases List.mem_append.mp he with
    | inl he => exact h.settled e he
    | inr he =>
      rw [List.mem_singleton.mp he]
      obtain ⟨m, hm, hin, hmk⟩ := howed
      exact .inr ⟨m, hm, hid ▸ hin, hkind.trans hmk.symm⟩

theorem ReapingInv.step (h : ReapingInv s) {a : ReapingCall} (hstep : s.step a = some t) :
    ReapingInv t := by
  cases a with
  | select now =>
    simp only [ReapingState.step] at hstep
    split at hstep
    · cases hstep
      refine { h with due := ?_ }
      intro p hp id hid
      cases hp
      cases hid
    · cases hstep
  | expire now =>
    simp only [ReapingState.step] at hstep
    split at hstep
    · rename_i hpass
      cases hstep
      exact h.expireNext hpass
    · cases hstep
  | refund =>
    simp only [ReapingState.step] at hstep
    split at hstep
    · rename_i comparedAt selected id ids hpass
      split at hstep
      · rename_i answer ledger hsettle
        cases hstep
        refine { h with settled := ?_, due := ?_ }
        · exact h.settled_append (h.due _ hpass id List.mem_cons_self) hsettle
        · intro p hp i hi
          cases hp
          exact h.due _ hpass i (List.mem_cons_of_mem _ hi)
      · cases hstep
        exact { h with due := fun _ hp => by cases hp }
    · cases hstep
  | heartbeat now jobId workerId leaseS =>
    cases hstep
    exact h.heartbeat
  | complete now jobId workerId outcome =>
    cases hstep
    exact h.finish (by decide)
  | fail now jobId workerId outcome =>
    cases hstep
    exact h.finish (by decide)
  | settle i =>
    simp only [ReapingState.step] at hstep
    split at hstep
    · rename_i kind id ids hcall
      have hmem := List.mem_of_getElem? hcall
      have hrest : ∀ rest : List String, (∀ i ∈ rest, i ∈ id :: ids) →
          ∀ c ∈ s.calls.set i ⟨kind, rest⟩, ∀ i ∈ c.reservations, ∃ m ∈ s.settlements,
            i ∈ m.reservations ∧ m.kind = c.kind := by
        intro rest hsub c hc i hi
        cases List.mem_or_eq_of_mem_set hc with
        | inl hc => exact h.owed c hc i hi
        | inr hc =>
          subst hc
          exact h.owed _ hmem i (hsub i hi)
      split at hstep
      · rename_i answer ledger hsettle
        cases hstep
        refine { h with settled := ?_, owed := hrest ids fun i hi => List.mem_cons_of_mem _ hi }
        exact h.settled_append (h.owed _ hmem id List.mem_cons_self) hsettle
      · cases hstep
        exact { h with owed := hrest [] fun _ hi => by cases hi }
    · cases hstep

/-! ### Leases of selected jobs -/

theorem LeaseInv.select (h : LeaseInv s) (hi : ReapingInv s) :
    LeaseInv { s with pass := some ⟨now, s.expiredJobs now, []⟩ } := by
  refine { h with selected := ?_ }
  intro p hp j hj hselected _
  cases hp
  obtain ⟨o, ho, hid⟩ := List.mem_map.mp hselected
  obtain ⟨ho, hdue⟩ := List.mem_filter.mp ho
  obtain rfl : o = j := Table.eq_of_key hi.ids ho hj hid
  exact (Option.any_eq_true _ _).mp (of_decide_eq_true hdue).2 |>.imp fun _ h =>
    ⟨h.1, of_decide_eq_true h.2⟩

theorem LeaseInv.finish (h : LeaseInv s) (hi : ReapingInv s) {workerId : String} {kind : EntryKind}
    (hstate : state ≠ .running) (hexpired : state ≠ .expired) :
    LeaseInv (s.finish now jobId workerId state outcome kind) := by
  unfold ReapingState.finish
  split
  · exact h
  · rename_i job rows hupdate
    obtain ⟨-, -, -, -, hrows⟩ := settleUpdate_some hi.ids hupdate
    refine ⟨?_, ?_, ?_⟩
    · intro p hp j hj hselected hrun
      cases hrows j hj with
      | inl hset => exact absurd (hset.2.symm.trans hrun) hstate
      | inr hold => exact h.selected p hp j hold.2 hselected hrun
    · intro e he hstate'
      cases List.mem_append.mp he with
      | inl he => exact h.lapsed e he hstate'
      | inr he =>
        rw [List.mem_singleton.mp he] at hstate'
        exact absurd hstate' hexpired
    · intro e he hstate'
      cases List.mem_append.mp he with
      | inl he => exact h.held e he hstate'
      | inr he =>
        rw [List.mem_singleton.mp he] at hstate'
        exact absurd hstate' hexpired

/-- The job that the pass comes to still has the lease that had run out when it was selected. -/
theorem LeaseInv.expireNext (h : LeaseInv s) (hi : ReapingInv s) {p : ReaperPass}
    {rest : List String} (hpass : s.pass = some p) (hselected : p.selected = jobId :: rest)
    (hclock : p.comparedAt ≤ now) : LeaseInv (s.expireNext now p jobId rest) := by
  have hrest : ∀ id ∈ rest, id ∈ p.selected := fun id hid =>
    hselected ▸ List.mem_cons_of_mem _ hid
  unfold ReapingState.expireNext
  split
  · refine { h with selected := ?_ }
    intro p' hp' j hj hin hrun
    cases hp'
    exact h.selected p hpass j hj (hrest _ hin) hrun
  · rename_i job rows hupdate
    obtain ⟨hmem, hid, hrunning, -, hrows⟩ := settleUpdate_some hi.ids hupdate
    obtain ⟨lease, hlease, hlapsed⟩ := h.selected p hpass job hmem
      (by rw [hid, hselected]; exact List.mem_cons_self) hrunning
    refine ⟨?_, ?_, ?_⟩
    · intro p' hp' j hj hin hrun
      cases hp'
      cases hrows j hj with
      | inl hset => exact absurd (hset.2.symm.trans hrun) (by decide)
      | inr hold => exact h.selected p hpass j hold.2 (hrest _ hin) hrun
    · intro e he hstate
      cases List.mem_append.mp he with
      | inl he => exact h.lapsed e he hstate
      | inr he =>
        rw [List.mem_singleton.mp he]
        exact ⟨lease, p.comparedAt, hlease, rfl, hlapsed⟩
    · intro e he hstate granted hgranted
      cases List.mem_append.mp he with
      | inl he => exact h.held e he hstate granted hgranted
      | inr he =>
        rw [List.mem_singleton.mp he] at hgranted ⊢
        have hstored := hi.granted job hmem hrunning granted hgranted
        obtain rfl : lease = granted := Option.some.inj (hlease.symm.trans hstored)
        exact lt_of_lt_of_le hlapsed hclock

theorem LeaseInv.heartbeat (h : LeaseInv s) {workerId : String} {leaseS : ℚ}
    (hguard : NoLateRenewal s (.heartbeat now jobId workerId leaseS)) :
    LeaseInv (s.heartbeat now jobId workerId leaseS) := by
  unfold ReapingState.heartbeat
  split
  · rename_i hholds
    refine { h with selected := ?_ }
    intro p hp j hj hin hrun
    obtain ⟨o, ho, rfl⟩ := Table.mem_update.mp hj
    by_cases hmine : (o.jobId = jobId ∧ o.workerId = some workerId ∧ o.state = .running)
    · rw [if_pos (decide_eq_true hmine)] at hin ⊢
      exact ⟨_, rfl, (hguard p hp).1 _ _ _ _ rfl (hmine.1 ▸ hin) hholds⟩
    · have hkept : decide (o.jobId = jobId ∧ o.workerId = some workerId ∧ o.state = .running) ≠
          true := by simpa using hmine
      rw [if_neg hkept] at hin hrun ⊢
      exact h.selected p hp o ho hin hrun
  · exact h

theorem LeaseInv.step (h : LeaseInv s) (hi : ReapingInv s) {a : ReapingCall}
    (hstep : s.step a = some t) (hguard : NoLateRenewal s a) : LeaseInv t := by
  have hpass : ∀ p : ReaperPass, s.pass = some p → ∀ ids ledger, LeaseInv { s with
      db := { s.db with ledger := ledger }, pass := some ⟨p.comparedAt, p.selected, ids⟩ } := by
    intro p hp ids ledger
    refine { h with selected := ?_ }
    intro p' hp' j hj hin hrun
    cases hp'
    exact h.selected p hp j hj hin hrun
  cases a with
  | select now =>
    simp only [ReapingState.step] at hstep
    split at hstep
    · cases hstep
      exact h.select hi
    · cases hstep
  | expire now =>
    simp only [ReapingState.step] at hstep
    split at hstep
    · rename_i comparedAt jobId rest hpass
      cases hstep
      exact h.expireNext hi hpass rfl ((hguard _ hpass).2 now rfl)
    · cases hstep
  | refund =>
    simp only [ReapingState.step] at hstep
    split at hstep
    · rename_i hp
      split at hstep
      · cases hstep
        exact hpass _ hp _ _
      · cases hstep
        exact { h with selected := fun _ hp => by cases hp }
    · cases hstep
  | heartbeat now jobId workerId leaseS =>
    cases hstep
    exact h.heartbeat hguard
  | complete now jobId workerId outcome =>
    cases hstep
    exact h.finish hi (by decide) (by decide)
  | fail now jobId workerId outcome =>
    cases hstep
    exact h.finish hi (by decide) (by decide)
  | settle i =>
    simp only [ReapingState.step] at hstep
    split at hstep
    · split at hstep
      · cases hstep
        exact ⟨h.selected, h.lapsed, h.held⟩
      · cases hstep
        exact ⟨h.selected, h.lapsed, h.held⟩
    · cases hstep

theorem reaping_inv (hs : (reaping.restrict NoLateRenewal).Reachable s) :
    ReapingInv s ∧ LeaseInv s := by
  refine Transition.invariant (P := fun s => ReapingInv s ∧ LeaseInv s) _ ?_ ?_ hs
  · rintro s ⟨hpass, hcalls, hgranted, hsettlements, hinitial, hids⟩
    refine ⟨⟨hids, ?_, ?_, ?_, ?_, ?_, ?_, ?_⟩, ?_, ?_, ?_⟩
    all_goals simp [hpass, hcalls, hgranted, hsettlements, hinitial, ReapingState.lastGrant]
    intro j hj hexpired
    exact ⟨j, hj, rfl, hexpired⟩
  · rintro s a t ⟨hi, h⟩ ⟨hstep, hguard⟩
    exact ⟨hi.step hstep, h.step hi hstep hguard⟩

/-- As long as no lease of a selected job is renewed beyond the time of the pass, only jobs whose
lease has run out are expired, and each job is settled once. -/
theorem pass_respects_leases (hs : (reaping.restrict NoLateRenewal).Reachable s) :
    LeasesRespected s := by
  obtain ⟨hi, h⟩ := reaping_inv hs
  exact ⟨h.lapsed, h.held, hi.once, hi.expired, hi.settled⟩

section Sample

def leasedJob (jobId : String) (leaseUntil : ℚ) : JobRow where
  jobId := jobId
  workspaceId := "workspace_1"
  idempotencyKey := none
  reservations := ["resv_" ++ jobId]
  kind := .synthetic
  state := .running
  target := none
  scopeRef := none
  budget := {}
  createdAt := 0
  claimedAt := some 0
  leaseUntil := some leaseUntil
  workerId := some "worker_1"

def reservedUnit (reservationId : String) : Entry :=
  ⟨"workspace_1", .runs, "2026-09", .reserve, 1, reservationId, none, none, none⟩

/-- Two running jobs whose leases have run out at 101 seconds. -/
def leasedState : ReapingState where
  db := ⟨[reservedUnit "resv_job_1", reservedUnit "resv_job_2"],
    [leasedJob "job_1" 100, leasedJob "job_2" 100]⟩

/-- The statements of a run, as far as somebody is at them. -/
def ReapingState.run (s : ReapingState) (calls : List ReapingCall) : ReapingState :=
  calls.foldl (fun s a => (s.step a).getD s) s

/-- The pass expires the one job; the other is completed before the pass comes to it. -/
def passedState : ReapingState := leasedState.run
  [.select 101, .expire 102, .complete 103 "job_2" "worker_1" "ok", .refund, .settle 0, .expire 104]

theorem leasedState_init : reaping.init leasedState := ⟨rfl, rfl, rfl, rfl, rfl, by decide⟩

theorem passedState_reachable : (reaping.restrict NoLateRenewal).Reachable passedState := by
  have hquiet : ∀ (s : ReapingState) (a : ReapingCall), (∀ now, a ≠ .expire now) →
      (∀ now jobId workerId leaseS, a ≠ .heartbeat now jobId workerId leaseS) →
      NoLateRenewal s a := fun s a he hh p _ =>
    ⟨fun now jobId workerId leaseS ha => absurd ha (hh now jobId workerId leaseS),
      fun now ha => absurd ha (he now)⟩
  have h0 : (reaping.restrict NoLateRenewal).Reachable leasedState := .init leasedState_init
  have h1 := h0.step (a := .select 101) (t := leasedState.run [.select 101])
    ⟨by rfl, hquiet _ _ (by simp) (by simp)⟩
  have h2 := h1.step (a := .expire 102) (t := leasedState.run [.select 101, .expire 102])
      ⟨by rfl, by
    intro p hp
    refine ⟨by simp, fun now ha => ?_⟩
    cases ha
    cases hp
    decide⟩
  have h3 := h2.step (a := .complete 103 "job_2" "worker_1" "ok")
    (t := leasedState.run [.select 101, .expire 102, .complete 103 "job_2" "worker_1" "ok"])
    ⟨by rfl, hquiet _ _ (by simp) (by simp)⟩
  have h4 := h3.step (a := .refund) (t := leasedState.run
    [.select 101, .expire 102, .complete 103 "job_2" "worker_1" "ok", .refund])
    ⟨by rfl, hquiet _ _ (by simp) (by simp)⟩
  have h5 := h4.step (a := .settle 0) (t := leasedState.run
    [.select 101, .expire 102, .complete 103 "job_2" "worker_1" "ok", .refund, .settle 0])
    ⟨by rfl, hquiet _ _ (by simp) (by simp)⟩
  refine h5.step (a := .expire 104) ⟨by rfl, ?_⟩
  intro p hp
  refine ⟨by simp, fun now ha => ?_⟩
  cases ha
  cases hp
  decide

theorem pass_respects_leases_sample : LeasesRespected passedState ∧
    passedState.settlements.map (fun e => (e.jobId, e.state)) =
      [("job_1", .expired), ("job_2", .succeeded)] :=
  ⟨pass_respects_leases passedState_reachable, by decide⟩

/-- The worker of a selected job renews its lease to 222 seconds before the pass comes to it. -/
def renewedState : ReapingState := leasedState.run
  [.select 101, .heartbeat 102 "job_1" "worker_1" 120, .expire 103, .refund]

theorem renewedState_reachable : reaping.Reachable renewedState := by
  have h0 : reaping.Reachable leasedState := .init leasedState_init
  have h1 := h0.step (a := .select 101) (t := leasedState.run [.select 101]) (by rfl)
  have h2 := h1.step (a := .heartbeat 102 "job_1" "worker_1" 120)
    (t := leasedState.run [.select 101, .heartbeat 102 "job_1" "worker_1" 120]) (by rfl)
  have h3 := h2.step (a := .expire 103) (t := leasedState.run
    [.select 101, .heartbeat 102 "job_1" "worker_1" 120, .expire 103]) (by rfl)
  exact h3.step (a := .refund) (by rfl)

/-- A job is expired and refunded under a lease that its worker has just renewed. -/
theorem renewed_lease_is_expired : reaping.Reachable renewedState ∧
    renewedState.settlements.map (fun e => (e.jobId, e.state, e.granted, e.settledAt)) =
      [("job_1", .expired, some 222, 103)] ∧ ¬ LeasesRespected renewedState := by
  refine ⟨renewedState_reachable, by decide +kernel, fun h => ?_⟩
  have hsettlements : renewedState.settlements = [⟨"job_1", .expired, .refund, ["resv_job_1"], 103,
      some 101, some 222, some 222⟩] := by decide +kernel
  have hheld := h.held _ (hsettlements ▸ List.mem_singleton.mpr rfl) rfl 222 rfl
  exact absurd hheld (by decide)

end Sample

end Heel.Cloud
