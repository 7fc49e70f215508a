import Heel.Runner.PlainJson
import Heel.Saas.DiscoveryFrontier

/-! Where the actions of a discovery round come from: the seed list, or a candidate that the report
of an earlier round recorded. What a round was issued for is kept as a record beside the tables. -/
namespace Heel.Cloud
open Lib Lib.Checks

variable {P : Platform} {env : RoundEnv} {db t : CanaryDb}

/-! ### What a call leaves of reports and rounds -/

/-- The reports and the issued columns of the rounds are kept. -/
structure Keeps (db t : CanaryDb) : Prop where
  reports : t.reports = db.reports
  rounds : t.rounds.map Round.columns = db.rounds.map Round.columns

theorem Keeps.refl (db : CanaryDb) : Keeps db db := ⟨rfl, rfl⟩

theorem Keeps.trans {u : CanaryDb} (h : Keeps db t) (h' : Keeps t u) : Keeps db u :=
  ⟨h'.reports.trans h.reports, h'.rounds.trans h.rounds⟩

theorem stopRun_keeps (db : CanaryDb) (r : CanaryRun) : Keeps db (db.stopRun r) := by
  unfold CanaryDb.stopRun
  split
  · exact ⟨rfl, rfl⟩
  · split
    · exact ⟨rfl, rfl⟩
    · exact .refl db

theorem stopDiscoveryRounds_keeps (db : CanaryDb) (id : String) :
    Keeps db (db.stopDiscoveryRounds id) := by
  unfold CanaryDb.stopDiscoveryRounds
  generalize db.rounds.filter _ = rows
  induction rows generalizing db with
  | nil => exact .refl db
  | cons r rest ih =>
    rw [List.foldl_cons]
    refine Keeps.trans ?_ (ih _)
    cases db.runAny r.runId with
    | none => exact .refl db
    | some run => exact stopRun_keeps db run

theorem stopLiveRun_keeps (db : CanaryDb) (id runId : String) :
    Keeps db (db.stopLiveRun id runId) := by
  unfold CanaryDb.stopLiveRun
  split
  · exact .refl db
  · split
    · exact stopDiscoveryRounds_keeps db id
    · exact stopRun_keeps db _

theorem closeDiscovery_keeps {id : String} {state : AuthorizationState} {reason : CloseReason}
    {now : Int} {revokedBy : Option String}
    (h : closeDiscovery db id state reason now revokedBy = .ok t) : Keeps db t := by
  simp only [closeDiscovery, bind_ok, pure, Except.pure, Except.ok.injEq] at h
  obtain ⟨mid, hmid, rfl⟩ := h
  have hrow : Keeps db mid := by
    cases closeRow_ok hmid with
    | inl h => exact h ▸ .refl db
    | inr h =>
      obtain ⟨a, -, -, ⟨-, -, answer, ledger, -, -, rfl⟩ | ⟨-, rfl⟩⟩ := h
      · exact ⟨rfl, rfl⟩
      · exact ⟨rfl, rfl⟩
  apply hrow.trans
  split
  · exact stopDiscoveryRounds_keeps mid id
  · exact .refl mid

theorem expireDiscoveryIfDue_keeps {a : Authorization} {now : Int}
    (h : expireDiscoveryIfDue db a now = .ok t) : Keeps db t := by
  cases expireDiscoveryIfDue_ok h with
  | inl h => exact h ▸ .refl db
  | inr h => exact closeDiscovery_keeps h

theorem createDiscoveryAuthorization_keeps {env : CloudEnv} {q : AuthorizationRequest}
    (h : createDiscoveryAuthorization env q db = .ok t) : Keeps db t := by
  obtain rfl | ⟨a, hclose⟩ | hcreate := createDiscoveryAuthorization_ok h
  · exact .refl t
  · exact closeDiscovery_keeps hclose
  · obtain ⟨-, mid, id, ledger, hmid, -, hinsert⟩ := createFresh_ok hcreate
    obtain ⟨-, rfl⟩ := insertAuthorization_ok hinsert
    have hkeep : Keeps db mid := by
      cases hmid with
      | inl h => exact h ▸ .refl db
      | inr h => exact closeDiscovery_keeps h.choose_spec
    exact hkeep.trans ⟨rfl, rfl⟩

theorem closeDiscoveryAfterRefusal_keeps {env : CloudEnv} {id : String} {kind : RefusalClose}
    {actionCount : Int} (h : closeDiscoveryAfterRefusal env id kind actionCount db = .ok t) :
    Keeps db t := by
  unfold closeDiscoveryAfterRefusal at h
  split at h
  · cases h
    exact .refl db
  · cases kind <;> simp only at h <;> split at h
    case expired.isTrue | budget.isTrue | membership.isTrue => exact closeDiscovery_keeps h
    all_goals
      cases h
      exact .refl db

theorem getDiscoveryAuthorization_keeps {env : CloudEnv} {place : String × String × String}
    {id : String} (h : getDiscoveryAuthorization env place id db = .ok t) : Keeps db t := by
  unfold getDiscoveryAuthorization at h
  split at h
  · cases h
  · exact expireDiscoveryIfDue_keeps h

theorem revokeDiscoveryAuthorization_keeps {env : CloudEnv} {place : String × String × String}
    {id actor : String} {role : Role}
    (h : revokeDiscoveryAuthorization env place id actor role db = .ok t) : Keeps db t := by
  simp only [revokeDiscoveryAuthorization, bind_ok, require_ok, exists_const] at h
  obtain ⟨-, -, -, h⟩ := h
  split at h
  · cases h
  · simp only [bind_ok, require_ok, exists_const] at h
    obtain ⟨mid, hexpire, -, hclose⟩ := h
    exact (expireDiscoveryIfDue_keeps hexpire).trans (closeDiscovery_keeps hclose)

theorem discoveryLiveClose_keeps {now : Int} {runId : String}
    (h : discoveryLiveClose now runId db = .ok t) : Keeps db t := by
  unfold discoveryLiveClose at h
  split at h
  · cases h
    exact .refl db
  · split at h
    · cases h
      exact .refl db
    · simp only [bind_ok, pure, Except.pure, Except.ok.injEq] at h
      obtain ⟨mid, hmid, rfl⟩ := h
      apply (expireDiscoveryIfDue_keeps hmid).trans
      split
      · exact .refl mid
      · exact stopLiveRun_keeps mid _ runId

theorem settleDiscoveryRound_keeps {now terminalAtMs requestsCompleted : Int} {r : Round}
    (h : settleDiscoveryRound now r terminalAtMs requestsCompleted db = .ok t) : Keeps db t := by
  unfold settleDiscoveryRound at h
  simp only at h
  split at h
  · cases h
    exact .refl db
  · split at h
    · cases h
      exact .refl db
    · split at h
      · apply Keeps.trans _ (closeDiscovery_keeps h)
        exact ⟨rfl, Table.map_update fun _ _ => rfl⟩
      · cases h
        exact ⟨rfl, Table.map_update fun _ _ => rfl⟩

theorem reapDiscovery_keeps (h : reapDiscovery env db = .ok t) : Keeps db t := by
  simp only [reapDiscovery, bind_ok] at h
  obtain ⟨mid, hclose, hsettle⟩ := h
  have hclosed : Keeps db mid := by
    refine foldlM_invariant _ (fun _ s => Keeps db s) ?_ _ db mid (.refl db) hclose
    intro _ s a u hs hu
    exact hs.trans (closeDiscovery_keeps hu)
  refine foldlM_invariant _ (fun _ s => Keeps db s) ?_ _ mid t hclosed hsettle
  intro _ s r u hs hu
  apply hs.trans
  split at hu
  · split at hu
    · exact settleDiscoveryRound_keeps hu
    · cases hu
      exact .refl s
  · cases hu
    exact .refl s

/-- What a recorded report says of its round. -/
structure Reports (db : CanaryDb) (report : RoundReport) : Prop where
  named : ∃ r ∈ db.rounds, r.columns.key = report.key ∧
    ∀ c ∈ report.candidates, c.sourceOrdinal < r.actions

/-- A result keeps the rounds, and records at most one report, of a round that had none. -/
theorem discoveryResult_keeps {runId : String} {requestsCompleted : Int}
    {report : Option SubmittedReport} {inventory : Except Refusal Unit}
    (h : discoveryResult env runId requestsCompleted report inventory db = .ok t) :
    Keeps db t ∨ ∃ row, t.reports = db.reports ++ [row] ∧
      t.rounds.map Round.columns = db.rounds.map Round.columns ∧
      (∀ o ∈ db.reports, o.key ≠ row.key) ∧ Reports db row := by
  unfold discoveryResult at h
  split at h
  · simp only [bind_ok, require_ok, exists_const] at h
    obtain ⟨-, h⟩ := h
    cases h
    exact .inl (.refl db)
  · rename_i r hr
    simp only [bind_ok] at h
    obtain ⟨_, hvalid, mid, hmid, h⟩ := h
    have hsettle : Keeps db mid := by
      unfold settleEnded at hmid
      split at hmid
      · cases hmid
        exact .refl db
      · split at hmid
        · exact settleDiscoveryRound_keeps hmid
        · cases hmid
          exact .refl db
    cases report with
    | none =>
      cases h
      exact .inl hsettle
    | some report =>
      simp only [Option.map_some, Option.getD_some, recordDiscoveryReport] at h
      split at h
      · simp only [bind_ok, require_ok, exists_const] at h
        obtain ⟨-, h⟩ := h
        cases h
        exact .inl hsettle
      · rename_i hnone
        simp only [bind_ok] at h
        obtain ⟨_, -, h⟩ := h
        cases h
        simp only [Option.map_some, Option.getD_some, validatedDiscoveryReport,
          require_ok] at hvalid
        obtain ⟨-, -, -, -, -, -, hcandidates⟩ := hvalid
        refine .inr ⟨report.stored r, ?_, ?_, ?_,
          ⟨r, List.mem_of_find?_eq_some hr, rfl, hcandidates⟩⟩
        · simp [CanaryDb.updateAuthorization, CanaryDb.updateRound, hsettle.reports]
        · rw [← hsettle.rounds]
          exact Table.map_update fun _ _ => rfl
        · rw [← hsettle.reports]
          intro o ho heq
          rw [List.find?_eq_none] at hnone
          apply hnone o ho
          simp only [RoundReport.key, SubmittedReport.stored, Prod.mk.injEq] at heq
          simpa using heq

/-! ### Submissions -/

theorem submitProjection_keeps {b : BindingRow} {plan : RoundPlan} {approval : ApprovalRequest}
    (h : submitProjection env b plan db = .ok (t, approval)) :
    t.reports = db.reports ∧ t.rounds = db.rounds := by
  simp only [submitProjection, bind_ok, require_ok, exists_const] at h
  obtain ⟨_, -, -, h⟩ := h
  split at h
  · simp only [bind_ok, require_ok, exists_const] at h
    obtain ⟨-, h⟩ := h
    cases h
    exact ⟨rfl, rfl⟩
  · simp only [bind_ok, require_ok, exists_const] at h
    obtain ⟨-, -, -, h⟩ := h
    cases h
    exact ⟨rfl, rfl⟩

theorem issueDiscoveryGrant_keeps {a : Authorization} {plan : RoundPlan}
    {approval : ApprovalRequest} (h : issueDiscoveryGrant P env a plan approval db = .ok t) :
    t.reports = db.reports ∧ t.rounds = db.rounds := by
  simp only [issueDiscoveryGrant, bind_ok, require_ok, exists_const] at h
  obtain ⟨_, -, -, -, -, mid, hmid, h⟩ := h
  obtain ⟨-, rfl⟩ := insertGrant_ok hmid
  cases h
  exact ⟨rfl, rfl⟩

theorem countRound_keeps {plan : RoundPlan} (h : countRound plan db = .ok t) :
    t.reports = db.reports ∧ t.rounds = db.rounds := by
  unfold countRound at h
  split at h
  · cases h
  · split at h
    · simp only [bind_ok, require_ok, exists_const] at h
      obtain ⟨_, -, -, -, h⟩ := h
      cases h
      exact ⟨rfl, rfl⟩
    · simp only [bind_ok, require_ok, exists_const] at h
      obtain ⟨-, h⟩ := h
      cases h
      exact ⟨rfl, rfl⟩

/-- A new round: its frontier was checked and no round of its number was there. -/
structure Adds (P : Platform) (plan : RoundPlan) (db t : CanaryDb) : Prop where
  reports : t.reports = db.reports
  rounds : ∃ r, r.columns = plan.columns ∧ t.rounds = db.rounds ++ [r]
  fresh : ∀ o ∈ db.rounds, o.columns.key ≠ plan.columns.key
  frontier : frontierChecks P plan db = .ok ()

theorem submitDiscoveryRound_adds {b : BindingRow} {plan : RoundPlan}
    (h : submitDiscoveryRound P env b plan db = .ok t) : Keeps db t ∨ Adds P plan db t := by
  unfold submitDiscoveryRound at h
  split at h
  · cases h
  split at h
  · simp only [bind_ok, require_ok, exists_const] at h
    exact .inl (expireDiscoveryIfDue_keeps h.2)
  · simp only [bind_ok, require_ok, exists_const] at h
    obtain ⟨-, _, hchecks, ⟨mid, approval⟩, hsubmit, granted, hgrant,
      inserted, hinsert, hcount⟩ := h
    simp only [roundChecks, bind_ok, require_ok, exists_const] at hchecks
    obtain ⟨-, -, -, -, -, -, -, -, -, -, _, hfrontier, -⟩ := hchecks
    obtain ⟨hreports, hrounds⟩ := submitProjection_keeps hsubmit
    obtain ⟨hreports', hrounds'⟩ := issueDiscoveryGrant_keeps hgrant
    simp only [CanaryDb.insertRound, bind_ok, require_ok, exists_const] at hinsert
    obtain ⟨huniq, hinsert⟩ := hinsert
    cases hinsert
    obtain ⟨hreports'', hrounds''⟩ := countRound_keeps hcount
    rw [hrounds', hrounds] at huniq
    refine .inr ⟨?_, ⟨plan.row env b approval.runId, rfl, ?_⟩, ?_, hfrontier⟩
    · rw [hreports'']
      exact hreports'.trans hreports
    · rw [hrounds'']
      simp only [hrounds', hrounds]
    · intro o ho heq
      simp only [IssuedColumns.key, Round.columns, RoundPlan.columns, Prod.mk.injEq] at heq
      exact (huniq o ho).2.2.2 heq

/-! ### The tables and the record of what was issued -/

inductive LineageStep where
  | submit (env : RoundEnv) (b : BindingRow) (p : DiscoveryProjection)
  /-- Any other call on authorizations and rounds. -/
  | call (c : DiscoveryCall)
  /-- Code that writes neither rounds nor reports. -/
  | elsewhere

variable (P) in
/-- One submission; one that raises leaves the rows as they were. -/
def submitTransact (env : RoundEnv) (b : BindingRow) (p : DiscoveryProjection) (db : CanaryDb) :
    CanaryDb :=
  match submitDiscoveryProjection P env b p db with
  | .ok t => t
  | .error _ => db

variable (P) in
def issuing : Transition CanaryDb LineageStep where
  init db := db.rounds = [] ∧ db.reports = []
  step db s t := match s with
    | .submit env b p => t = submitTransact P env b p db
    | .call c => (∀ env b plan, c ≠ .submit env b plan) ∧ t = discoveryTransact P db c
    | .elsewhere => t.rounds = db.rounds ∧ t.reports = db.reports

/-- A submission that adds a round is recorded with its plan. -/
def issuedPlans (db : CanaryDb) (s : LineageStep) (t : CanaryDb) (plans : List RoundPlan) :
    List RoundPlan :=
  match s with
  | .submit _ _ p => if db.rounds.length < t.rounds.length then plans ++ [p.plan] else plans
  | _ => plans

variable (P) in
/-- The tables, and the plans of their rounds in the order of the rows. -/
def lineage : Transition (CanaryDb × List RoundPlan) LineageStep :=
  (issuing P).recorded [] issuedPlans

structure Grounds (P : Platform) (db : CanaryDb) (plan : RoundPlan) : Prop where
  sourced : Sourced plan
  seeded : plan.round = 1 → Seeded P plan
  frontier : 1 < plan.round → ∃ referenced, Frontier P db plan referenced

structure LineageInv (P : Platform) (db : CanaryDb) (plans : List RoundPlan) : Prop where
  issued : plans.map RoundPlan.columns = db.rounds.map Round.columns
  single : (db.rounds.map fun r => r.columns.key).Nodup
  oneReport : (db.reports.map RoundReport.key).Nodup
  reports : ∀ report ∈ db.reports, Reports db report
  grounds : ∀ plan ∈ plans, Grounds P db plan

/-- Rows are added and the issued columns stay. -/
structure Extends (db t : CanaryDb) : Prop where
  reports : db.reports <+: t.reports
  rounds : db.rounds.map Round.columns <+: t.rounds.map Round.columns

variable {plans : List RoundPlan}

theorem Keeps.extends (h : Keeps db t) : Extends db t :=
  ⟨h.reports ▸ List.prefix_rfl, h.rounds ▸ List.prefix_rfl⟩

theorem Extends.round (h : Extends db t) {r : Round} (hr : r ∈ db.rounds) :
    ∃ o ∈ t.rounds, o.columns = r.columns := by
  have hin := h.rounds.subset (List.mem_map_of_mem hr)
  exact List.mem_map.mp hin

theorem Recorded.extends {id : String} {n : Int} {source : RoundSource} {action : RoundAction}
    {candidate : Candidate} (h : Recorded db id n source action candidate) (hmore : Extends db t) :
    Recorded t id n source action candidate := by
  obtain ⟨hearlier, ⟨report, hreport, hfound⟩, hordinal, hzero, r, hr, hid, hround, hless⟩ := h
  refine ⟨hearlier, ⟨report, ?_, hfound⟩, hordinal, hzero, ?_⟩
  · obtain ⟨more, hmore⟩ := hmore.reports
    rw [← hmore, List.find?_append, hreport]
    rfl
  · obtain ⟨o, ho, hcolumns⟩ := hmore.round hr
    simp only [Round.columns, IssuedColumns.mk.injEq] at hcolumns
    obtain ⟨hid', hround', -, -, hactions⟩ := hcolumns
    exact ⟨o, ho, hid'.trans hid, hround'.trans hround, hactions ▸ hless⟩

theorem Grounds.extends {plan : RoundPlan} (h : Grounds P db plan) (hmore : Extends db t) :
    Grounds P t plan := by
  refine ⟨h.sourced, h.seeded, fun hlate => ?_⟩
  obtain ⟨referenced, hrecorded, hdigest⟩ := h.frontier hlate
  exact ⟨referenced, hrecorded.imp fun _ _ h => ⟨h.1, h.2.extends hmore⟩, hdigest⟩

theorem Reports.extends {report : RoundReport} (h : Reports db report) (hmore : Extends db t) :
    Reports t report := by
  obtain ⟨r, hr, hkey, hcandidates⟩ := h.named
  obtain ⟨o, ho, hcolumns⟩ := hmore.round hr
  refine ⟨o, ho, hcolumns ▸ hkey, fun c hc => ?_⟩
  have hactions : o.actions = r.actions := congrArg IssuedColumns.actions hcolumns
  exact hactions ▸ hcandidates c hc

theorem columns_key_map (rows : List Round) :
    (rows.map fun r => r.columns.key) = (rows.map Round.columns).map IssuedColumns.key := by
  rw [List.map_map]
  rfl

theorem LineageInv.keeps (h : LineageInv P db plans) (hkeep : Keeps db t) :
    LineageInv P t plans := by
  refine ⟨h.issued.trans hkeep.rounds.symm, ?_, hkeep.reports ▸ h.oneReport, ?_, ?_⟩
  · rw [columns_key_map, hkeep.rounds, ← columns_key_map]
    exact h.single
  · rw [hkeep.reports]
    exact fun report hr => (h.reports report hr).extends hkeep.extends
  · exact fun plan hplan => (h.grounds plan hplan).extends hkeep.extends

theorem LineageInv.report (h : LineageInv P db plans) {row : RoundReport}
    (hreports : t.reports = db.reports ++ [row])
    (hrounds : t.rounds.map Round.columns = db.rounds.map Round.columns)
    (hfresh : ∀ o ∈ db.reports, o.key ≠ row.key) (hrow : Reports db row) :
    LineageInv P t plans := by
  have hmore : Extends db t := ⟨⟨[row], hreports.symm⟩, hrounds ▸ List.prefix_rfl⟩
  refine ⟨h.issued.trans hrounds.symm, ?_, ?_, ?_, ?_⟩
  · rw [columns_key_map, hrounds, ← columns_key_map]
    exact h.single
  · rw [hreports, List.map_append, List.nodup_append]
    refine ⟨h.oneReport, List.nodup_singleton _, ?_⟩
    intro key hkey other hother heq
    obtain ⟨o, ho, rfl⟩ := List.mem_map.mp hkey
    rw [List.map_singleton, List.mem_singleton] at hother
    exact hfresh o ho (heq.trans hother)
  · rw [hreports]
    intro report hr
    rw [List.mem_append, List.mem_singleton] at hr
    cases hr with
    | inl hr => exact (h.reports report hr).extends hmore
    | inr hr => exact hr ▸ hrow.extends hmore
  · exact fun plan hplan => (h.grounds plan hplan).extends hmore

theorem LineageInv.submit (h : LineageInv P db plans) {p : DiscoveryProjection}
    (hplan : discoveryPlan P p = .ok ()) (hadds : Adds P p.plan db t) :
    LineageInv P t (plans ++ [p.plan]) := by
  obtain ⟨hsourced, hseeds⟩ := discoveryPlan_ok hplan
  obtain ⟨hseeded, hfrontier⟩ := frontierChecks_ok hsourced hseeds hadds.frontier
  obtain ⟨r, hcolumns, hrounds⟩ := hadds.rounds
  have hmore : Extends db t := by
    refine ⟨hadds.reports ▸ List.prefix_rfl, ?_⟩
    rw [hrounds, List.map_append]
    exact List.prefix_append _ _
  refine ⟨?_, ?_, hadds.reports ▸ h.oneReport, ?_, ?_⟩
  · rw [hrounds, List.map_append, List.map_append, h.issued, List.map_singleton,
      List.map_singleton, hcolumns]
  · rw [hrounds, List.map_append, List.nodup_append]
    refine ⟨h.single, List.nodup_singleton _, ?_⟩
    intro key hkey other hother heq
    obtain ⟨o, ho, rfl⟩ := List.mem_map.mp hkey
    rw [List.map_singleton, List.mem_singleton, hcolumns] at hother
    exact hadds.fresh o ho (heq.trans hother)
  · rw [hadds.reports]
    exact fun report hr => (h.reports report hr).extends hmore
  · intro plan hin
    rw [List.mem_append, List.mem_singleton] at hin
    cases hin with
    | inl hin => exact (h.grounds plan hin).extends hmore
    | inr hin =>
      subst hin
      exact Grounds.extends ⟨hsourced, hseeded, hfrontier⟩ hmore

theorem submitTransact_cases {b : BindingRow} {p : DiscoveryProjection} :
    Keeps db (submitTransact P env b p db) ∨
      discoveryPlan P p = .ok () ∧ Adds P p.plan db (submitTransact P env b p db) := by
  unfold submitTransact
  split
  · rename_i t ht
    unfold submitDiscoveryProjection at ht
    split at ht
    · cases ht
    · rename_i hplan
      exact (submitDiscoveryRound_adds ht).imp_right fun hadds => ⟨hplan, hadds⟩
  · exact .inl (.refl db)

theorem discoveryTransact_cases {c : DiscoveryCall} (hc : ∀ env b plan, c ≠ .submit env b plan) :
    Keeps db (discoveryTransact P db c) ∨ ∃ row,
      (discoveryTransact P db c).reports = db.reports ++ [row] ∧
      (discoveryTransact P db c).rounds.map Round.columns = db.rounds.map Round.columns ∧
      (∀ o ∈ db.reports, o.key ≠ row.key) ∧ Reports db row := by
  unfold discoveryTransact
  split
  · rename_i t ht
    cases c with
    | create env q => exact .inl (createDiscoveryAuthorization_keeps ht)
    | submit env b plan => exact absurd rfl (hc env b plan)
    | result => exact discoveryResult_keeps ht
    | afterRefusal => exact .inl (closeDiscoveryAfterRefusal_keeps ht)
    | get => exact .inl (getDiscoveryAuthorization_keeps ht)
    | revoke => exact .inl (revokeDiscoveryAuthorization_keeps ht)
    | liveCheck => exact .inl (discoveryLiveClose_keeps ht)
    | reap => exact .inl (reapDiscovery_keeps ht)
  · exact .inl (.refl db)

theorem LineageInv.step {s u : CanaryDb × List RoundPlan} {a : LineageStep}
    (h : LineageInv P s.1 s.2) (hstep : (lineage P).step s a u) : LineageInv P u.1 u.2 := by
  obtain ⟨db, plans⟩ := s
  obtain ⟨t, record⟩ := u
  obtain ⟨hstep, hrecord⟩ := hstep
  dsimp only at h hstep hrecord ⊢
  subst hrecord
  cases a with
  | submit env b p =>
    change t = submitTransact P env b p db at hstep
    subst hstep
    have hcases : Keeps db (submitTransact P env b p db) ∨
        discoveryPlan P p = .ok () ∧ Adds P p.plan db (submitTransact P env b p db) :=
      submitTransact_cases
    cases hcases with
    | inl hkeep =>
      have hlength := congrArg List.length hkeep.rounds
      rw [List.length_map, List.length_map] at hlength
      simp only [issuedPlans, hlength, Nat.lt_irrefl, if_false]
      exact h.keeps hkeep
    | inr hadds =>
      obtain ⟨hplan, hadds⟩ := hadds
      obtain ⟨r, -, hrounds⟩ := hadds.rounds
      have hlength : db.rounds.length < (submitTransact P env b p db).rounds.length := by
        rw [hrounds, List.length_append, List.length_singleton]
        exact Nat.lt_succ_self _
      simp only [issuedPlans, hlength, if_true]
      exact h.submit hplan hadds
  | call c =>
    obtain ⟨hc, hstep⟩ := hstep
    subst hstep
    cases discoveryTransact_cases hc with
    | inl hkeep => exact h.keeps hkeep
    | inr hrow =>
      obtain ⟨row, hreports, hrounds, hfresh, hrow⟩ := hrow
      exact h.report hreports hrounds hfresh hrow
  | elsewhere =>
    obtain ⟨hrounds, hreports⟩ := hstep
    exact h.keeps ⟨hreports, congrArg (List.map Round.columns) hrounds⟩

theorem lineage_inv {s : CanaryDb × List RoundPlan} (hs : (lineage P).Reachable s) :
    LineageInv P s.1 s.2 := by
  refine (lineage P).invariant (P := fun s => LineageInv P s.1 s.2) ?_
    (fun _ _ _ h hstep => h.step hstep) hs
  rintro ⟨db, plans⟩ ⟨⟨hrounds, hreports⟩, hplans⟩
  dsimp only at hrounds hreports hplans
  subst hplans
  constructor <;> simp [hrounds, hreports]

/-! ### Chains of sources -/

/-- An action of an authorization from which recorded sources lead back to a seed path; each step is
to an action of a strictly earlier round. -/
inductive Grounded (db : CanaryDb) (plans : List RoundPlan) (id : String) : Int → RoundAction → Prop
  | seed {plan : RoundPlan} {source : RoundSource} {action : RoundAction} (hplan : plan ∈ plans)
      (hid : plan.authorizationId = id) (hround : plan.round = 1)
      (hsource : (source, action) ∈ plan.sourced) (hzero : source.round = 0)
      (hseed : discoverySeedPaths[source.sourceOrdinal.toNat]? = some action.routeTemplate) :
      Grounded db plans id 1 action
  | recorded {plan earlier : RoundPlan} {source : RoundSource} {action previous : RoundAction}
      {candidate : Candidate} (hplan : plan ∈ plans) (hid : plan.authorizationId = id)
      (hsource : (source, action) ∈ plan.sourced)
      (hrecorded : Recorded db id plan.round source action candidate)
      (hearlier : earlier ∈ plans) (hsame : earlier.authorizationId = id)
      (hround : earlier.round = source.round)
      (hprevious : earlier.actions[source.sourceOrdinal.toNat]? = some previous)
      (h : Grounded db plans id source.round previous) :
      Grounded db plans id plan.round action

theorem LineageInv.planOf (h : LineageInv P db plans) {r : Round} (hr : r ∈ db.rounds) :
    ∃ plan ∈ plans, plan.columns = r.columns := by
  have hin : r.columns ∈ db.rounds.map Round.columns := List.mem_map_of_mem hr
  rw [← h.issued] at hin
  exact List.mem_map.mp hin

theorem LineageInv.one_plan (h : LineageInv P db plans) {plan other : RoundPlan}
    (hplan : plan ∈ plans) (hother : other ∈ plans)
    (hid : plan.authorizationId = other.authorizationId)
    (hround : plan.round = other.round) : plan = other := by
  have hnodup : (plans.map fun plan => plan.columns.key).Nodup := by
    have hkeys := congrArg (List.map IssuedColumns.key) h.issued
    rw [← columns_key_map, List.map_map] at hkeys
    rw [show (fun plan : RoundPlan => plan.columns.key) = IssuedColumns.key ∘ RoundPlan.columns
      from rfl, hkeys]
    exact h.single
  exact Table.eq_of_key hnodup hplan hother (Prod.ext hid hround)

/-- The source of a recorded candidate names an action of the plan of its round. -/
theorem LineageInv.previous (h : LineageInv P db plans) {id : String} {n : Int}
    {source : RoundSource} {action : RoundAction} {candidate : Candidate}
    (hrecorded : Recorded db id n source action candidate) :
    ∃ earlier ∈ plans, earlier.authorizationId = id ∧ earlier.round = source.round ∧
      ∃ previous ∈ earlier.actions, earlier.actions[source.sourceOrdinal.toNat]? =
      some previous := by
  obtain ⟨hzero, r, hr, hid, hround, hless⟩ := hrecorded.named
  obtain ⟨earlier, hearlier, hcolumns⟩ := h.planOf hr
  simp only [RoundPlan.columns, Round.columns, IssuedColumns.mk.injEq] at hcolumns
  obtain ⟨hid', hround', -, -, hactions⟩ := hcolumns
  have hlength := (h.grounds earlier hearlier).sourced.actions
  have hin : source.sourceOrdinal.toNat < earlier.actions.length := by omega
  exact ⟨earlier, hearlier, hid'.trans hid, hround'.trans hround, _, List.getElem_mem hin,
    List.getElem?_eq_getElem hin⟩

theorem Sourced.of_action {plan : RoundPlan} (h : Sourced plan) {action : RoundAction}
    (haction : action ∈ plan.actions) : ∃ source, (source, action) ∈ plan.sourced := by
  obtain ⟨i, hi, rfl⟩ := List.getElem_of_mem haction
  have hi' : i < plan.sources.length := h.sources ▸ hi
  refine ⟨plan.sources[i], ?_⟩
  rw [RoundPlan.sourced, List.mem_iff_getElem]
  exact ⟨i, by rw [List.length_zip]; omega, List.getElem_zip⟩

/-- Every action that was ever authorized is grounded, by induction on the number of its round. -/
theorem LineageInv.grounded (h : LineageInv P db plans) {plan : RoundPlan} (hplan : plan ∈ plans)
    {action : RoundAction} (haction : action ∈ plan.actions) :
    Grounded db plans plan.authorizationId plan.round action := by
  induction hn : plan.round.toNat using Nat.strong_induction_on generalizing plan action with
  | h n ih =>
    have hgrounds := h.grounds plan hplan
    have hpositive := hgrounds.sourced.positive
    obtain ⟨source, hsource⟩ := hgrounds.sourced.of_action haction
    by_cases hone : plan.round = 1
    · obtain ⟨hzero, -, hseed⟩ := (hgrounds.seeded hone).named _ hsource
      rw [hone]
      exact .seed hplan rfl hone hsource hzero hseed
    · obtain ⟨referenced, hfrontier⟩ := hgrounds.frontier (by omega)
      obtain ⟨item, -, -, hrecorded⟩ := Table.exists_right hfrontier.recorded hsource
      obtain ⟨earlier, hearlier, hid, hround, previous, hprevious, hindex⟩ := h.previous hrecorded
      have hearly := hrecorded.earlier
      have hgrounded : Grounded db plans earlier.authorizationId earlier.round previous :=
        ih earlier.round.toNat (by omega) hearlier hprevious rfl
      rw [hid, hround] at hgrounded
      exact .recorded hplan rfl hsource hrecorded hearlier hid hround hindex hgrounded

structure RoundLineage (P : Platform) (db : CanaryDb) (plans : List RoundPlan) (r : Round)
    (plan : RoundPlan) : Prop where
  issued : plan.columns = r.columns
  only : ∀ other ∈ plans, other.authorizationId = r.authorizationId → other.round = r.round →
    other = plan
  sourced : Sourced plan
  seeded : r.round = 1 → Seeded P plan
  frontier : 1 < r.round → ∃ referenced, Frontier P db plan referenced ∧
    Commits P r.frontierDigest referenced
  previous : 1 < r.round → ∀ p ∈ plan.sourced, ∃ earlier ∈ plans,
    earlier.authorizationId = r.authorizationId ∧ earlier.round = p.1.round ∧ p.1.round < r.round ∧
      p.1.sourceOrdinal.toNat < earlier.actions.length
  grounded : ∀ action ∈ plan.actions, Grounded db plans r.authorizationId r.round action

/-- What the tables say of the rounds that were ever issued. -/
structure DiscoveryLineage (P : Platform) (db : CanaryDb) (plans : List RoundPlan) : Prop where
  rounds : ∀ r ∈ db.rounds, ∃ plan ∈ plans, RoundLineage P db plans r plan
  plans : ∀ plan ∈ plans, ∃ r ∈ db.rounds, r.columns = plan.columns
  oneReport : (db.reports.map RoundReport.key).Nodup
  reports : ∀ report ∈ db.reports, Reports db report

theorem LineageInv.round (hP : AsciiNormal P) (h : LineageInv P db plans) {r : Round}
    (hr : r ∈ db.rounds) : ∃ plan ∈ plans, RoundLineage P db plans r plan := by
  obtain ⟨plan, hplan, hcolumns⟩ := h.planOf hr
  have hgrounds := h.grounds plan hplan
  have hid : plan.authorizationId = r.authorizationId :=
    congrArg IssuedColumns.authorizationId hcolumns
  have hround : plan.round = r.round := congrArg IssuedColumns.round hcolumns
  have hdigest : plan.frontierDigest = r.frontierDigest :=
    congrArg IssuedColumns.frontierDigest hcolumns
  refine ⟨plan, hplan, hcolumns, ?_, hgrounds.sourced, ?_, ?_, ?_, ?_⟩
  · intro other hother hother' hround'
    exact h.one_plan hother hplan (hother'.trans hid.symm) (hround'.trans hround.symm)
  · exact fun hone => hgrounds.seeded (hround.trans hone)
  · intro hlate
    obtain ⟨referenced, hfrontier⟩ := hgrounds.frontier (hround ▸ hlate)
    exact ⟨referenced, hfrontier, hdigest ▸ commits_of_digest hP hfrontier.digest⟩
  · intro hlate p hp
    obtain ⟨referenced, hfrontier⟩ := hgrounds.frontier (hround ▸ hlate)
    obtain ⟨item, -, -, hrecorded⟩ := Table.exists_right hfrontier.recorded hp
    obtain ⟨earlier, hearlier, hid', hround', previous, -, hindex⟩ := h.previous hrecorded
    obtain ⟨hin, -⟩ := List.getElem?_eq_some_iff.mp hindex
    exact ⟨earlier, hearlier, hid'.trans hid, hround', hround ▸ hrecorded.earlier.2, hin⟩
  · intro action haction
    rw [← hid, ← hround]
    exact h.grounded hplan haction

/-- In every reachable state of the tables, every issued round was issued for a plan whose actions
are the seed list, or each a candidate recorded in an earlier round, and from each of which recorded
sources lead back to a seed. -/
theorem discovery_grounded (hP : AsciiNormal P) (hs : (issuing P).Reachable db) :
    (∃ plans, (lineage P).Reachable (db, plans)) ∧
      ∀ plans, (lineage P).Reachable (db, plans) → DiscoveryLineage P db plans := by
  refine ⟨hs.recorded [] issuedPlans, fun plans hplans => ?_⟩
  have h : LineageInv P db plans := lineage_inv hplans
  refine ⟨fun r hr => h.round hP hr, fun plan hplan => ?_, h.oneReport, h.reports⟩
  have hin : plan.columns ∈ plans.map RoundPlan.columns := List.mem_map_of_mem hplan
  rw [h.issued] at hin
  exact List.mem_map.mp hin

/-- A submission whose projection meets its contract is one of its plan. -/
theorem submitTransact_planned (h : discoveryPlan P p = .ok ()) :
    submitTransact P env b p db = match submitDiscoveryRound P env b p.plan db with
      | .ok t => t
      | .error _ => db := by
  simp only [submitTransact, submitDiscoveryProjection, h]

section Sample

def seedProjection : DiscoveryProjection where
  plan := { seedPlan with frontierDigest := answeredDigest (discoverySeedDigest textPlatform) }
  ordinals := (List.range 12).map fun i => (i : Int)
  maximumRequests := 12
  wellFormed := true

def foundProjection : DiscoveryProjection where
  plan := foundPlan
  ordinals := [0]
  maximumRequests := 1
  wellFormed := true

def seededDb : CanaryDb :=
  submitTransact textPlatform roundEnv roundBinding seedProjection authorizedDb

def reportedDb : CanaryDb :=
  discoveryTransact textPlatform seededDb (.result endedEnv "run_2" 12 (some roundReport) (.ok ()))

/-- The rows once a second round was submitted for what the first one found. -/
def foundDb : CanaryDb :=
  submitTransact textPlatform foundEnv roundBinding foundProjection reportedDb

theorem seed_planned : discoveryPlan textPlatform seedProjection = .ok () := by
  have hplain : (Json.arr (discoverySeedPaths.map .str)).isPlain 0 = true := by decide +kernel
  have haccepts : accepts (discoverySeedDigest textPlatform) = true := by
    rw [discoverySeedDigest, Json.canonicalDigest, Json.canonicalBytes_plain
      (fun _ _ => rfl) hplain]
    rfl
  have hdigest : discoverySeedDigest textPlatform = .ok seedProjection.plan.frontierDigest :=
    answeredDigest_ok haccepts
  have hsources : discoverySources 1 0
      (seedProjection.ordinals.zip seedProjection.plan.sources) = .ok () := by decide +kernel
  have hone : seedProjection.plan.round = 1 := rfl
  simp only [discoveryPlan, integerBetween, bind_ok, require_ok, exists_const]
  refine ⟨rfl, by decide, by decide, by decide, by decide, by decide, (), hsources, ?_⟩
  rw [if_pos hone]
  simp only [bind_ok, require_ok, hdigest]
  exact ⟨_, rfl, rfl, rfl, rfl⟩

theorem found_planned : discoveryPlan textPlatform foundProjection = .ok () := by
  decide +kernel

theorem seededDb_submitted : seededDb =
    match submitDiscoveryRound textPlatform roundEnv roundBinding seedProjection.plan
      authorizedDb with
    | .ok t => t
    | .error _ => authorizedDb :=
  submitTransact_planned seed_planned

theorem foundDb_rows : foundDb = foundRows seedProjection.plan.frontierDigest := by
  have hsubmitted : submitDiscoveryRound textPlatform roundEnv roundBinding seedProjection.plan
      authorizedRows = .ok (seededRows seedProjection.plan.frontierDigest) :=
    seed_submitted seedProjection.plan.frontierDigest
  have hfound : submitDiscoveryRound textPlatform foundEnv roundBinding foundProjection.plan
      (reportedRows seedProjection.plan.frontierDigest) =
        .ok (foundRows seedProjection.plan.frontierDigest) := found_issued _
  rw [foundDb, reportedDb, seededDb_submitted, authorizedDb_rows, hsubmitted, seed_reported,
    submitTransact_planned found_planned, hfound]

theorem discovery_grounded_sample :
    (∀ plans, (lineage textPlatform).Reachable (foundDb, plans) →
      DiscoveryLineage textPlatform foundDb plans) ∧ foundDb.rounds.map (·.round) = [1, 2] := by
  have h0 : (issuing textPlatform).Reachable authorizedDb :=
    .init (by rw [authorizedDb_rows]; trivial)
  have h1 : (issuing textPlatform).Reachable seededDb :=
    .step (a := .submit roundEnv roundBinding seedProjection) h0 rfl
  have h2 : (issuing textPlatform).Reachable reportedDb := by
    apply Transition.Reachable.step (a := .call (.result endedEnv "run_2" 12 (some roundReport)
      (.ok ()))) h1
    exact ⟨fun _ _ _ h => (by cases h), rfl⟩
  have h3 : (issuing textPlatform).Reachable foundDb :=
    .step (a := .submit foundEnv roundBinding foundProjection) h2 rfl
  exact ⟨(discovery_grounded (fun _ _ => rfl) h3).2, by rw [foundDb_rows]; rfl⟩

end Sample

end Heel.Cloud
