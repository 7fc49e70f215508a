import Heel.Saas.Claims
import Heel.Saas.DiscoveryBounds

/-! An execution grant is issued once and claimed at most once, in every interleaving of `approve`,
`claim`, the calls on discovery authorizations and the reaper. -/
namespace Heel.Cloud
open Lib Lib.Checks

/-! ### What happens to a grant -/

/-- A grant only moves on: it keeps its name, its runner, its reservation and its expiry, its text
stays or is purged, and once it is not issued it is not issued again. -/
structure GrantMove (g g' : ExecutionGrant) : Prop where
  same : { g' with status := g.status, grantJson := g.grantJson } = g
  text : g'.grantJson = none ∨ g'.grantJson = g.grantJson
  status : g.status ≠ .issued → g'.status ≠ .issued

theorem GrantMove.refl (g : ExecutionGrant) : GrantMove g g := ⟨rfl, .inr rfl, id⟩

theorem GrantMove.trans {g g' g'' : ExecutionGrant} (h : GrantMove g g') (h' : GrantMove g' g'') :
    GrantMove g g'' := by
  refine ⟨?_, ?_, fun hs => h'.status (h.status hs)⟩
  · have h1 := h.same
    rw [← h'.same] at h1
    exact h1
  · rcases h'.text with hnone | hsame
    · exact .inl hnone
    · rw [hsame]
      exact h.text

def ExecutionGrant.runKey (g : ExecutionGrant) : String × String × String :=
  (g.workspaceId, g.projectRef, g.runId)

def ExecutionGrant.key (g : ExecutionGrant) : String × String := (g.workspaceId, g.idempotencyKey)

theorem GrantMove.columns {g g' : ExecutionGrant} (h : GrantMove g g') :
    g'.grantId = g.grantId ∧ g'.runKey = g.runKey ∧ g'.key = g.key ∧
      g'.reservationId = g.reservationId := by
  rw [← h.same]
  exact ⟨rfl, rfl, rfl, rfl⟩

inductive GrantEdit : CanaryDb → CanaryDb → Prop
  | aside {db t : CanaryDb} (hg : t.grants = db.grants) : GrantEdit db t
  | insert {db t : CanaryDb} (g : ExecutionGrant)
      (huniq : ∀ o ∈ db.grants, o.grantId ≠ g.grantId ∧ o.key ≠ g.key ∧ o.runKey ≠ g.runKey)
      (hg : t.grants = db.grants ++ [g]) : GrantEdit db t
  | update {db t : CanaryDb} (p : ExecutionGrant → Bool) (f : ExecutionGrant → ExecutionGrant)
      (hf : ∀ g ∈ db.grants, p g = true → GrantMove g (f g))
      (hg : t.grants = Table.update p f db.grants) : GrantEdit db t

abbrev GrantEdits : CanaryDb → CanaryDb → Prop := Relation.ReflTransGen GrantEdit

structure GrantInv (db : CanaryDb) : Prop where
  ids : (db.grants.map (·.grantId)).Nodup
  keys : (db.grants.map ExecutionGrant.key).Nodup
  runs : (db.grants.map ExecutionGrant.runKey).Nodup

variable {db t u : CanaryDb}

theorem nodup_insert {κ : Type} {f : ExecutionGrant → κ} {rows : List ExecutionGrant}
    {g : ExecutionGrant} (h : (rows.map f).Nodup) (hne : ∀ o ∈ rows, f o ≠ f g) :
    ((rows ++ [g]).map f).Nodup := by
  rw [List.map_append]
  refine List.nodup_append.mpr ⟨h, by simp, ?_⟩
  rintro _ hin _ hnew rfl
  simp only [List.map_cons, List.map_nil, List.mem_singleton] at hnew
  obtain ⟨o, ho, heq⟩ := List.mem_map.mp hin
  exact hne o ho (heq.trans hnew)

theorem map_moved {κ : Type} {f : ExecutionGrant → κ} {p : ExecutionGrant → Bool}
    {m : ExecutionGrant → ExecutionGrant} {rows : List ExecutionGrant}
    (h : ∀ g ∈ rows, p g = true → f (m g) = f g) : (Table.update p m rows).map f = rows.map f := by
  rw [Table.update, List.map_map]
  refine List.map_congr_left fun g hg => ?_
  simp only [Function.comp]
  split
  · exact h g hg ‹_›
  · rfl

theorem GrantEdit.inv (h : GrantEdit db t) (hi : GrantInv db) : GrantInv t := by
  cases h with
  | aside hg => exact ⟨hg ▸ hi.ids, hg ▸ hi.keys, hg ▸ hi.runs⟩
  | insert g huniq hg =>
    constructor
    · rw [hg]
      exact nodup_insert hi.ids fun o ho => (huniq o ho).1
    · rw [hg]
      exact nodup_insert hi.keys fun o ho => (huniq o ho).2.1
    · rw [hg]
      exact nodup_insert hi.runs fun o ho => (huniq o ho).2.2
  | update p f hf hg =>
    constructor
    · rw [hg, map_moved fun g hg hp => (hf g hg hp).columns.1]
      exact hi.ids
    · rw [hg, map_moved fun g hg hp => (hf g hg hp).columns.2.2.1]
      exact hi.keys
    · rw [hg, map_moved fun g hg hp => (hf g hg hp).columns.2.1]
      exact hi.runs

/-- No grant is lost, and every one moves on. -/
def GrantsMove (db t : CanaryDb) : Prop := ∀ g ∈ db.grants, ∃ g' ∈ t.grants, GrantMove g g'

theorem GrantEdit.moves (h : GrantEdit db t) : GrantsMove db t := by
  intro g hg
  cases h with
  | aside hsame => exact ⟨g, hsame ▸ hg, .refl g⟩
  | insert o huniq hnew => exact ⟨g, hnew ▸ List.mem_append_left _ hg, .refl g⟩
  | update p f hf hrows =>
    refine ⟨_, hrows ▸ Table.mem_update.mpr ⟨g, hg, rfl⟩, ?_⟩
    split
    · exact hf g hg ‹_›
    · exact .refl g

theorem GrantsMove.trans (h : GrantsMove db t) (h' : GrantsMove t u) : GrantsMove db u := by
  intro g hg
  obtain ⟨g', hg', hmove⟩ := h g hg
  obtain ⟨g'', hg'', hmove'⟩ := h' g' hg'
  exact ⟨g'', hg'', hmove.trans hmove'⟩

theorem GrantEdits.moves (h : GrantEdits db t) : GrantsMove db t := by
  induction h with
  | refl => exact fun g hg => ⟨g, hg, .refl g⟩
  | tail _ hedit ih => exact ih.trans hedit.moves

theorem GrantEdits.inv (h : GrantEdits db t) (hi : GrantInv db) : GrantInv t := by
  induction h with
  | refl => exact hi
  | tail _ hedit ih => exact hedit.inv ih

theorem GrantEdits.aside (h : t.grants = db.grants) : GrantEdits db t := .single (.aside h)

/-! ### The calls as edits -/

theorem GrantMove.close (g : ExecutionGrant) {status : GrantStatus} (h : status ≠ .issued) :
    GrantMove g { g with status := status } := ⟨rfl, .inr rfl, fun _ => h⟩

theorem stopRun_grants (db : CanaryDb) (r : CanaryRun) : GrantEdit db (db.stopRun r) := by
  unfold CanaryDb.stopRun
  split
  · exact .update _ _ (fun g _ _ => .close g (by simp)) rfl
  · split
    · exact .aside rfl
    · exact .aside rfl

theorem DiscoveryEdit.grants (h : DiscoveryEdit db t) : GrantEdit db t := by
  cases h with
  | aside hl ha hr hg => exact .aside hg
  | stop r => exact stopRun_grants db r
  | create | close | refund | settle | bytes => exact .aside rfl

theorem DiscoveryEdits.grants (h : DiscoveryEdits db t) : GrantEdits db t := by
  induction h with
  | refl => exact .refl
  | tail _ hedit ih => exact ih.tail hedit.grants

theorem DiscoveryEdits.from (h : DiscoveryEdits db t) :
    ∀ g' ∈ t.grants, ∃ g ∈ db.grants, GrantMove g g' := by
  induction h with
  | refl => exact fun g hg => ⟨g, hg, .refl g⟩
  | @tail mid t _ hedit ih =>
    intro g' hg'
    obtain ⟨m, hm, hmove⟩ : ∃ m ∈ mid.grants, GrantMove m g' := by
      cases hedit with
      | aside hl ha hr hg => exact ⟨g', hg ▸ hg', .refl g'⟩
      | create | close | refund | settle | bytes => exact ⟨g', hg', .refl g'⟩
      | stop r =>
        unfold CanaryDb.stopRun at hg'
        split at hg'
        · obtain ⟨o, ho, rfl⟩ := Table.mem_update.mp hg'
          refine ⟨o, ho, ?_⟩
          split
          · exact .close o (by simp)
          · exact .refl o
        · split at hg'
          · exact ⟨g', hg', .refl g'⟩
          · exact ⟨g', hg', .refl g'⟩
    obtain ⟨g, hg, hmove'⟩ := ih m hm
    exact ⟨g, hg, hmove'.trans hmove⟩

theorem GrantMove.still {g g' : ExecutionGrant} (h : GrantMove g g') (hs : g'.status = .issued)
    {text : IssuedGrant} (ht : g'.grantJson = some text) : g' = g := by
  have hstatus : g.status = .issued := by
    by_contra hne
    exact h.status hne hs
  have htext : g.grantJson = g'.grantJson := by
    rcases h.text with hnone | hsame
    · rw [hnone] at ht
      cases ht
    · exact hsame.symm
  rw [← h.same, hstatus, htext, ← hs]

theorem insertGrant_grants {g : ExecutionGrant} (h : db.insertGrant g = .ok t) :
    GrantEdit db t := by
  obtain ⟨huniq, rfl⟩ := insertGrant_ok h
  refine .insert g (fun o ho => ?_) rfl
  obtain ⟨h1, -, h3, h4⟩ := huniq o ho
  refine ⟨h1, fun hkey => h3 ?_, fun hrun => h4 ?_⟩
  · simpa [ExecutionGrant.key] using hkey
  · simpa [ExecutionGrant.runKey] using hrun

theorem approve_grants {env : CloudEnv} {q : ApproveRequest} {answer : ExecutionApproved}
    (h : approve env q db = .ok (t, answer)) : GrantEdits db t := by
  obtain ⟨-, ⟨rfl, -⟩ | ⟨-, hissue⟩⟩ := approve_ok h
  · exact .refl
  · obtain ⟨approval, projection, proof, id, ledger, mid, -, -, -, hinsert, rfl, -⟩ :=
      issueApproved_ok hissue
    have hmarked : GrantEdit db ({ db with ledger := ledger }.markApproved q) := .aside rfl
    exact ((Relation.ReflTransGen.single hmarked).tail (insertGrant_grants hinsert)).tail
      (.aside rfl)

variable {P : Platform}

theorem submitProjection_grants {env : RoundEnv} {b : BindingRow} {plan : RoundPlan}
    {approval : ApprovalRequest} (h : submitProjection env b plan db = .ok (t, approval)) :
    t.grants = db.grants := by
  simp only [submitProjection, bind_ok, require_ok, exists_const] at h
  obtain ⟨_, -, -, h⟩ := h
  split at h
  · simp only [bind_ok, require_ok, exists_const] at h
    obtain ⟨-, h⟩ := h
    cases h
    rfl
  · simp only [bind_ok, require_ok, exists_const] at h
    obtain ⟨-, -, -, h⟩ := h
    cases h
    rfl

theorem issueDiscoveryGrant_grants {env : RoundEnv} {a : Authorization} {plan : RoundPlan}
    {approval : ApprovalRequest} (h : issueDiscoveryGrant P env a plan approval db = .ok t) :
    GrantEdits db t := by
  simp only [issueDiscoveryGrant, bind_ok, require_ok, exists_const] at h
  obtain ⟨_, -, -, -, -, mid, hmid, h⟩ := h
  cases h
  exact (Relation.ReflTransGen.single (insertGrant_grants hmid)).tail (.aside rfl)

theorem countRound_grants {plan : RoundPlan} (h : countRound plan db = .ok t) :
    t.grants = db.grants := by
  unfold countRound at h
  split at h
  · cases h
  · split at h
    · simp only [bind_ok, require_ok, exists_const] at h
      obtain ⟨_, -, -, -, h⟩ := h
      cases h
      rfl
    · simp only [bind_ok, require_ok, exists_const] at h
      obtain ⟨-, h⟩ := h
      cases h
      rfl

theorem submitDiscoveryRound_grants {env : RoundEnv} {b : BindingRow} {plan : RoundPlan}
    (h : submitDiscoveryRound P env b plan db = .ok t) : GrantEdits db t := by
  unfold submitDiscoveryRound at h
  split at h
  · cases h
  · split at h
    · simp only [bind_ok, require_ok, exists_const] at h
      exact (expireDiscoveryIfDue_edits h.2).grants
    · simp only [bind_ok, require_ok, exists_const] at h
      obtain ⟨-, _, -, ⟨mid, approval⟩, hsubmit, granted, hgrant, inserted, hinsert, hcount⟩ := h
      obtain ⟨-, rfl⟩ := insertRound_ok hinsert
      refine ((GrantEdits.aside (submitProjection_grants hsubmit)).trans
        (issueDiscoveryGrant_grants hgrant)).tail (.aside ?_)
      exact (countRound_grants hcount).trans rfl

theorem revokeClosedGrants_edits {now : Int} {q : ClaimRequest}
    (h : revokeClosedGrants now q db = .ok t) : DiscoveryEdits db t := by
  refine foldlM_invariant _ (fun _ s => DiscoveryEdits db s) ?_ _ db t .refl h
  intro _ s runId u hs hu
  exact hs.trans (discoveryLiveClose_edits hu)

theorem takeGrant_ok {env : ClaimEnv} {g : ExecutionGrant} (hg : g ∈ db.grants)
    (hs : g.status = .issued) (h : takeGrant env g db = .ok t) :
    GrantEdit db t ∧ ∃ g' ∈ t.grants, GrantMove g g' ∧ g'.status = .claimed := by
  simp only [takeGrant, bind_ok, require_ok, exists_const] at h
  obtain ⟨-, _, -, -, -, h⟩ := h
  cases h
  refine ⟨.update _ _ (fun g _ _ => .close g (by simp)) rfl, _,
    Table.mem_update.mpr ⟨g, hg, rfl⟩, ?_⟩
  rw [if_pos (by simp [hs])]
  exact ⟨.close g (by simp), rfl⟩

/-- What `claim` has checked of the grant it hands out, and how it leaves the table. -/
theorem claim_ok {env : ClaimEnv} {q : ClaimRequest} {answer : Option CanaryClaim}
    (h : CanaryDb.claim env q db = .ok (t, answer)) : GrantEdits db t ∧ ∀ c, answer = some c →
      c.row ∈ db.grants ∧ c.row.status = .issued ∧ c.row.workspaceId = q.workspaceId ∧
        c.row.runnerId = q.runnerId ∧ c.row.runnerKeyId = q.runnerKeyId ∧
        env.now < c.row.expiresAt ∧ c.row.grantJson = some c.grant ∧
        env.controlGeneration = c.grant.killSwitchGeneration ∧
        ∃ g' ∈ t.grants, g'.grantId = c.row.grantId ∧ g'.status ≠ .issued := by
  simp only [CanaryDb.claim, bind_ok] at h
  obtain ⟨mid, hmid, h⟩ := h
  have hrevoked := revokeClosedGrants_edits hmid
  split at h
  · cases h
    exact ⟨hrevoked.grants, fun c hc => by cases hc⟩
  · rename_i g hg
    simp only [bind_ok] at h
    obtain ⟨grant, hgrant, taken, htaken, last, hlast, h⟩ := h
    cases h
    have hin := List.mem_of_mem_head? hg
    rw [List.mem_insertionSort, List.mem_filter, decide_eq_true_eq] at hin
    obtain ⟨hin, hws, hrunner, hkey, hstatus, hlive⟩ := hin
    obtain ⟨hedit, g', hg', hmove, hclaimed⟩ := takeGrant_ok hin hstatus htaken
    have hclose := (discoveryLiveClose_edits hlast).grants
    refine ⟨(hrevoked.grants.tail hedit).trans hclose, ?_⟩
    rintro c ⟨⟩
    obtain ⟨g'', hg'', hmove'⟩ := hclose.moves g' hg'
    unfold claimChecks at hgrant
    split at hgrant
    · cases hgrant
    · rename_i text htext
      split at hgrant
      · cases hgrant
      · simp only [bind_ok, require_ok, exists_const] at hgrant
        obtain ⟨-, -, _, -, ⟨-, hgeneration⟩, hgrant⟩ := hgrant
        cases hgrant
        obtain ⟨o, ho, hfrom⟩ := hrevoked.from g hin
        obtain rfl := hfrom.still hstatus htext
        exact ⟨ho, hstatus, hws, hrunner, hkey, hlive, htext, hgeneration, g'', hg'',
          hmove'.columns.1.trans hmove.columns.1, hmove'.status (by rw [hclaimed]; simp)⟩

/-! ### The reaper -/

theorem closeDiscovery_grants {id : String} {state : AuthorizationState} {reason : CloseReason}
    {now : Int} {revokedBy : Option String} (hstate : state ≠ .opened)
    (h : closeDiscovery db id state reason now revokedBy = .ok t) : GrantEdits db t :=
  (closeDiscovery_edits hstate h).grants

theorem settleDiscoveryRound_grants {now terminalAtMs requestsCompleted : Int} {r : Round}
    (h : settleDiscoveryRound now r terminalAtMs requestsCompleted db = .ok t) :
    GrantEdits db t := by
  unfold settleDiscoveryRound at h
  simp only at h
  split at h
  · cases h
    exact .refl
  · split at h
    · cases h
      exact .refl
    · split at h
      · have hclose := closeDiscovery_grants (by simp) h
        refine Relation.ReflTransGen.trans ?_ hclose
        exact GrantEdits.aside rfl
      · cases h
        exact GrantEdits.aside rfl

theorem settleFinishedRounds_grants {env : RoundEnv} (h : settleFinishedRounds env db = .ok t) :
    GrantEdits db t := by
  unfold settleFinishedRounds at h
  refine foldlM_invariant _ (fun _ s => GrantEdits db s) ?_ _ db t .refl h
  intro _ s r u hs hu
  split at hu
  · split at hu
    · exact hs.trans (settleDiscoveryRound_grants hu)
    · cases hu
      exact hs
  · cases hu
    exact hs

theorem dueAuthorizations_grants {now later : Int}
    (h : (dueAuthorizations now db).foldlM (fun db a =>
      closeDiscovery db a.authorizationId .expired .expired later none) db = .ok t) :
    GrantEdits db t := by
  refine foldlM_invariant _ (fun _ s => GrantEdits db s) ?_ _ db t .refl h
  intro _ s a u hs hu
  exact hs.trans (closeDiscovery_grants (by simp) hu)

theorem expireApprovals_grants (env : ReapEnv) (db : CanaryDb) :
    (expireApprovals env db).grants = db.grants := by
  unfold expireApprovals
  simp only
  generalize db.approvals.filter _ = due
  induction due generalizing db with
  | nil => rfl
  | cons a rest ih =>
    rw [List.foldl_cons, ih]

theorem releaseGrants_grants {env : ReapEnv} (h : releaseGrants env db = .ok t) :
    GrantEdits db t := by
  unfold releaseGrants at h
  refine foldlM_invariant _ (fun _ s => GrantEdits db s) ?_ _ db t .refl h
  intro _ s item u hs hu
  have hreleased : ∀ (m : CanaryDb) (quota : QuotaState), m.grants = s.grants →
      GrantEdit s (m.releasedGrant env.now item.1 quota) := by
    intro m quota hm
    refine .update _ _ (fun g _ _ => .close g ?_) (congrArg _ hm)
    split <;> simp
  unfold releaseGrant at hu
  split at hu
  · simp only [bind_ok, require_ok, exists_const] at hu
    obtain ⟨_, -, -, hu⟩ := hu
    cases hu
    exact hs.tail (hreleased _ _ rfl)
  · cases hu
    exact hs.tail (hreleased _ _ rfl)

theorem finalizeOrphans_grants {env : ReapEnv} (h : finalizeOrphans env db = .ok t) :
    GrantEdits db t := by
  unfold finalizeOrphans at h
  refine foldlM_invariant _ (fun _ s => GrantEdits db s) ?_ _ db t .refl h
  intro _ s run u hs hu
  simp only [finalizeOrphanRun, bind_ok] at hu
  obtain ⟨mid, hmid, hu⟩ := hu
  cases hu
  have hsame : mid.grants = s.grants := by
    unfold refundOrphanRun at hmid
    split at hmid
    · simp only [bind_ok] at hmid
      obtain ⟨_, -, hmid⟩ := hmid
      cases hmid
      rfl
    · cases hmid
      rfl
  exact hs.tail (.update _ _ (fun g _ _ => .close g (by simp)) (congrArg _ hsame))

theorem expireAndReconcileAll_grants {env : ReapEnv} (h : expireAndReconcileAll env db = .ok t) :
    GrantEdits db t := by
  simp only [expireAndReconcileAll, bind_ok] at h
  obtain ⟨closed, hclosed, released, hreleased, ended, hended, settled, hsettled, h⟩ := h
  cases h
  have happrovals : GrantEdits closed (expireApprovals env closed) :=
    .aside (expireApprovals_grants env closed)
  refine (((((dueAuthorizations_grants hclosed).trans happrovals).trans
    (releaseGrants_grants hreleased)).trans (finalizeOrphans_grants hended)).trans
      (settleFinishedRounds_grants hsettled)).tail (.update _ _ (fun g _ _ => ?_) rfl)
  exact ⟨rfl, .inl rfl, id⟩

/-! ### Every interleaving -/

theorem discoveryResult_grants {env : RoundEnv} {runId : String} {requestsCompleted : Int}
    {report : Option SubmittedReport} {inventory : Except Refusal Unit}
    (h : discoveryResult env runId requestsCompleted report inventory db = .ok t) :
    GrantEdits db t := by
  unfold discoveryResult at h
  split at h
  · simp only [bind_ok, require_ok, exists_const] at h
    obtain ⟨-, h⟩ := h
    cases h
    exact .refl
  · simp only [bind_ok] at h
    obtain ⟨_, -, mid, hmid, h⟩ := h
    have hsettle : GrantEdits db mid := by
      unfold settleEnded at hmid
      split at hmid
      · cases hmid
        exact .refl
      · split at hmid
        · exact settleDiscoveryRound_grants hmid
        · cases hmid
          exact .refl
    cases report with
    | none =>
      cases h
      exact hsettle
    | some report => exact hsettle.trans (recordDiscoveryReport_edits h).grants

theorem discoveryCall_grants {c : DiscoveryCall} (h : discoveryCall P db c = .ok t) :
    GrantEdits db t := by
  cases c with
  | create env q =>
    rcases createDiscoveryAuthorization_ok h with rfl | ⟨a, hclose⟩ | hcreate
    · exact .refl
    · exact closeDiscovery_grants (by simp) hclose
    · obtain ⟨-, mid, id, ledger, hmid, -, hinsert⟩ := createFresh_ok hcreate
      obtain ⟨-, rfl⟩ := insertAuthorization_ok hinsert
      have hclose : GrantEdits db mid := by
        rcases hmid with rfl | ⟨a, hclose⟩
        · exact .refl
        · exact closeDiscovery_grants (by simp) hclose
      exact hclose.tail (GrantEdit.aside rfl)
  | submit => exact submitDiscoveryRound_grants h
  | result => exact discoveryResult_grants h
  | afterRefusal => exact (closeDiscoveryAfterRefusal_edits h).grants
  | get => exact (getDiscoveryAuthorization_edits h).grants
  | revoke => exact (revokeDiscoveryAuthorization_edits h).grants
  | liveCheck => exact (discoveryLiveClose_edits h).grants
  | reap =>
    simp only [discoveryCall, reapDiscovery, bind_ok] at h
    obtain ⟨mid, hclose, hsettle⟩ := h
    exact (dueAuthorizations_grants hclose).trans (settleFinishedRounds_grants hsettle)

inductive GrantCall where
  | approve (env : CloudEnv) (q : ApproveRequest)
  | claim (env : ClaimEnv) (q : ClaimRequest)
  | discovery (c : DiscoveryCall)
  | expireAndReconcile (env : ReapEnv)

variable (P)

/-- The rows a call leaves, if it does not raise. -/
def grantCall (db : CanaryDb) : GrantCall → Except Refusal CanaryDb
  | .approve env q => Prod.fst <$> approve env q db
  | .claim env q => Prod.fst <$> CanaryDb.claim env q db
  | .discovery c => discoveryCall P db c
  | .expireAndReconcile env => expireAndReconcileAll env db

/-- One transaction: a call that raises leaves the rows as they were. -/
def grantTransact (db : CanaryDb) (c : GrantCall) : CanaryDb :=
  match grantCall P db c with
  | .ok t => t
  | .error _ => db

inductive GrantStep where
  | call (c : GrantCall)
  /-- The calls on claimed runs and on runners: they issue no grant and only move grants on. -/
  | elsewhere

/-- Every interleaving of the calls, from a database without a grant. -/
def grants : Transition CanaryDb GrantStep where
  init db := db.grants = []
  step db s t := match s with
    | .call c => t = grantTransact P db c
    | .elsewhere => List.Forall₂ GrantMove db.grants t.grants

variable {P}

theorem grantTransact_grants {c : GrantCall} : GrantEdits db (grantTransact P db c) := by
  unfold grantTransact
  split
  · rename_i t ht
    cases c with
    | approve env q =>
      obtain ⟨answer, h⟩ := fst_ok ht
      exact approve_grants h
    | claim env q =>
      obtain ⟨answer, h⟩ := fst_ok ht
      exact (claim_ok h).1
    | discovery c => exact discoveryCall_grants ht
    | expireAndReconcile env => exact expireAndReconcileAll_grants ht
  · exact .refl

theorem moved_map {κ : Type} {f : ExecutionGrant → κ} {rows rows' : List ExecutionGrant}
    (h : List.Forall₂ GrantMove rows rows') (hf : ∀ g g', GrantMove g g' → f g' = f g) :
    rows'.map f = rows.map f := by
  induction h with
  | nil => rfl
  | cons hmove _ ih => rw [List.map_cons, List.map_cons, hf _ _ hmove, ih]

theorem moved_mem {rows rows' : List ExecutionGrant} (h : List.Forall₂ GrantMove rows rows') :
    ∀ g ∈ rows, ∃ g' ∈ rows', GrantMove g g' := by
  induction h with
  | nil => simp
  | cons hmove _ ih =>
    rintro g (_ | ⟨_, hg⟩)
    · exact ⟨_, List.mem_cons_self, hmove⟩
    · obtain ⟨g', hg', hmove'⟩ := ih g hg
      exact ⟨g', List.mem_cons_of_mem _ hg', hmove'⟩

theorem grants_step {s : GrantStep} (h : (grants P).step db s t) :
    GrantsMove db t ∧ (GrantInv db → GrantInv t) := by
  cases s with
  | call c =>
    cases h
    exact ⟨grantTransact_grants.moves, grantTransact_grants.inv⟩
  | elsewhere =>
    refine ⟨moved_mem h, fun hi => ⟨?_, ?_, ?_⟩⟩
    · rw [moved_map h fun _ _ hm => hm.columns.1]
      exact hi.ids
    · rw [moved_map h fun _ _ hm => hm.columns.2.2.1]
      exact hi.keys
    · rw [moved_map h fun _ _ hm => hm.columns.2.1]
      exact hi.runs

theorem grants_inv (hs : (grants P).Reachable db) : GrantInv db := by
  refine (grants P).invariant (P := GrantInv) ?_ (fun _ _ _ hi h => (grants_step h).2 hi) hs
  intro s hs
  constructor <;> simp [show s.grants = [] from hs]

theorem grants_later (hs : (grants P).Reachable db) (h : (grants P).Later db t) :
    GrantsMove db t :=
  Transition.later_rel (grants P) (R := GrantsMove) (fun _ g hg => ⟨g, hg, .refl g⟩)
    (fun _ _ _ => GrantsMove.trans) (fun _ _ _ _ h => (grants_step h).1) hs h

/-! ### Single use -/

theorem spent_not_claimed (ht : (grants P).Reachable t) {g : ExecutionGrant} (hg : g ∈ db.grants)
    (hspent : g.status ≠ .issued) (hmoves : GrantsMove db t) {env : ClaimEnv} {q : ClaimRequest}
    {c : CanaryClaim} (h : CanaryDb.claim env q t = .ok (u, some c)) :
        c.row.grantId ≠ g.grantId := by
  obtain ⟨hin, hissued, -⟩ := (claim_ok h).2 c rfl
  intro hid
  obtain ⟨g', hg', hmove⟩ := hmoves g hg
  have hsame : g' = c.row := Table.eq_of_key (grants_inv ht).ids hg' hin
    (hmove.columns.1.trans hid.symm)
  exact hmove.status hspent (hsame ▸ hissued)

theorem approve_answer {env : CloudEnv} {q : ApproveRequest} {answer : ExecutionApproved}
    (h : approve env q db = .ok (t, answer)) :
      ∃ g ∈ t.grants, g.key = (q.workspaceId, q.idempotencyKey) ∧
      g.runId = answer.runId ∧ g.grantId = answer.grantId ∧
      g.reservationId = answer.reservationId ∧ g.grantJson = some answer.grant := by
  obtain ⟨-, ⟨rfl, prior, hprior, hreplay⟩ | ⟨-, hissue⟩⟩ := approve_ok h
  · have hspec := List.find?_some hprior
    simp only [decide_eq_true_eq] at hspec
    refine ⟨prior, List.mem_of_find?_eq_some hprior, by simp [ExecutionGrant.key, hspec], ?_⟩
    simp only [replayApproval, bind_ok, require_ok, exists_const] at hreplay
    obtain ⟨hrun, hreplay⟩ := hreplay
    split at hreplay
    · cases hreplay
    · cases hreplay
    · rename_i grant approval hgrant happroval
      simp only [bind_ok, require_ok, exists_const] at hreplay
      obtain ⟨-, -, hreplay⟩ := hreplay
      cases hreplay
      exact ⟨hrun, rfl, rfl, hgrant⟩
  · obtain ⟨approval, projection, proof, id, ledger, mid, -, -, -, hinsert, rfl, rfl⟩ :=
      issueApproved_ok hissue
    obtain ⟨-, rfl⟩ := insertGrant_ok hinsert
    exact ⟨_, List.mem_append_right _ (List.mem_singleton.mpr rfl), rfl, rfl, rfl, rfl, rfl⟩

/-- A replayed approval answers the grant of the first one, and writes nothing. -/
theorem approve_replay (ht : (grants P).Reachable t) {g : ExecutionGrant} (hg : g ∈ t.grants)
    {env : CloudEnv} {q : ApproveRequest} {answer : ExecutionApproved}
    (hkey : g.key = (q.workspaceId, q.idempotencyKey)) (h : approve env q t = .ok (u, answer)) :
    u = t ∧ g.runId = answer.runId ∧ g.grantId = answer.grantId ∧
      g.reservationId = answer.reservationId ∧ g.grantJson = some answer.grant := by
  obtain ⟨o, ho, hokey, hrest⟩ := approve_answer h
  obtain ⟨-, ⟨rfl, -⟩ | ⟨hnone, -⟩⟩ := approve_ok h
  · have hsame : o = g := Table.eq_of_key (grants_inv ht).keys ho hg (hokey.trans hkey.symm)
    exact ⟨rfl, hsame ▸ hrest⟩
  · rw [CanaryDb.grantOfKey, List.find?_eq_none] at hnone
    refine absurd ?_ (hnone g hg)
    simpa [ExecutionGrant.key] using hkey

/-- What holds of the grants of a reachable database and of every later one. -/
structure SingleUse (P : Platform) (db : CanaryDb) : Prop where
  /-- A run has at most one grant row, and keeps it. -/
  oneGrant : ∀ t, (grants P).Later db t → (t.grants.map ExecutionGrant.runKey).Nodup ∧
    ∀ g ∈ db.grants, ∃ g' ∈ t.grants, g'.runKey = g.runKey ∧ g'.grantId = g.grantId
  /-- A claim hands out an issued, unexpired grant of the generation, to the runner it names. -/
  claimed : ∀ env q t c, CanaryDb.claim env q db = .ok (t, some c) → ∃ g ∈ db.grants,
    g.grantId = c.row.grantId ∧ g.status = .issued ∧ g.workspaceId = q.workspaceId ∧
      g.runnerId = q.runnerId ∧ g.runnerKeyId = q.runnerKeyId ∧ env.now < g.expiresAt ∧
      g.grantJson = some c.grant ∧ env.controlGeneration = c.grant.killSwitchGeneration
  /-- After it no claim hands the grant out. -/
  once : ∀ env q t c, CanaryDb.claim env q db = .ok (t, some c) → ∀ u, (grants P).Later t u →
    ∀ env' q' v c', CanaryDb.claim env' q' u = .ok (v, some c') → c'.row.grantId ≠ c.row.grantId
  /-- A grant that was claimed, expired, revoked or ended is never handed out. -/
  spent : ∀ g ∈ db.grants, g.status ≠ .issued → ∀ u, (grants P).Later db u →
    ∀ env q v c, CanaryDb.claim env q u = .ok (v, some c) → c.row.grantId ≠ g.grantId
  /-- A replayed approval raises, or answers the same grant and leaves the rows as they were. -/
  replay : ∀ env q t answer, approve env q db = .ok (t, answer) → ∀ u, (grants P).Later t u →
    ∀ env' q' v answer', q'.workspaceId = q.workspaceId → q'.idempotencyKey = q.idempotencyKey →
      approve env' q' u = .ok (v, answer') → v = u ∧ answer' = answer

theorem claim_reachable (hs : (grants P).Reachable db) {env : ClaimEnv} {q : ClaimRequest}
    {c : CanaryClaim} (h : CanaryDb.claim env q db = .ok (t, some c)) : (grants P).Reachable t := by
  refine .step (a := .call (.claim env q)) hs ?_
  simp [grants, grantTransact, grantCall, h, Functor.map, Except.map]

theorem approve_reachable (hs : (grants P).Reachable db) {env : CloudEnv} {q : ApproveRequest}
    {answer : ExecutionApproved} (h : approve env q db = .ok (t, answer)) :
    (grants P).Reachable t := by
  refine .step (a := .call (.approve env q)) hs ?_
  simp [grants, grantTransact, grantCall, h, Functor.map, Except.map]

/-- Execution grants are single-use. -/
theorem grants_single_use (hs : (grants P).Reachable db) : SingleUse P db where
  oneGrant t hlater := by
    refine ⟨(grants_inv (hs.later hlater)).runs, fun g hg => ?_⟩
    obtain ⟨g', hg', hmove⟩ := grants_later hs hlater g hg
    exact ⟨g', hg', hmove.columns.2.1, hmove.columns.1⟩
  claimed env q t c h := by
    obtain ⟨hin, hissued, hws, hrunner, hkey, hlive, htext, hgeneration, -⟩ :=
      (claim_ok h).2 c rfl
    exact ⟨c.row, hin, rfl, hissued, hws, hrunner, hkey, hlive, htext, hgeneration⟩
  once env q t c h u hlater env' q' v c' h' := by
    obtain ⟨-, -, -, -, -, -, -, -, g', hg', hid, hspent⟩ := (claim_ok h).2 c rfl
    have ht := claim_reachable hs h
    rw [← hid]
    exact spent_not_claimed (ht.later hlater) hg' hspent (grants_later ht hlater) h'
  spent g hg hspent u hlater env q v c h :=
    spent_not_claimed (hs.later hlater) hg hspent (grants_later hs hlater) h
  replay env q t answer h u hlater env' q' v answer' hws hkey h' := by
    obtain ⟨g, hg, hgkey, hrun, hid, hreservation, htext⟩ := approve_answer h
    have ht := approve_reachable hs h
    obtain ⟨g', hg', hmove⟩ := grants_later ht hlater g hg
    have hgkey' : g'.key = (q'.workspaceId, q'.idempotencyKey) := by
      rw [hmove.columns.2.2.1, hgkey, hws, hkey]
    obtain ⟨hsame, hrun', hid', hreservation', htext'⟩ :=
      approve_replay (ht.later hlater) hg' hgkey' h'
    refine ⟨hsame, ?_⟩
    -- the text is there, so it is the text that was issued
    have hjson : some answer'.grant = some answer.grant := by
      rcases hmove.text with hnone | hkept
      · rw [hnone] at htext'
        cases htext'
      · rw [← htext', hkept, htext]
    have hrunIds : g'.runId = g.runId := congrArg (·.2.2) hmove.columns.2.1
    cases answer
    cases answer'
    simp only [Option.some.injEq, ExecutionApproved.mk.injEq] at *
    exact ⟨hrun'.symm.trans (hrunIds.trans hrun), hid'.symm.trans (hmove.columns.1.trans hid),
      hreservation'.symm.trans (hmove.columns.2.2.2.trans hreservation), hjson⟩

section Sample

def approvedDb : CanaryDb :=
  grantTransact textPlatform pendingDb (.approve (cloudEnv "resv_1") sampleApprove)

def claimEnv : ClaimEnv where
  toCloudEnv := cloudEnv "resv_1"
  verifies _ _ := true
  chains := .ok ()

theorem grants_single_use_sample : SingleUse textPlatform approvedDb ∧
    (CanaryDb.claim claimEnv ⟨"workspace_1", "runner_1", "key_1"⟩ approvedDb).toOption.any
      (·.2.any (·.row.grantId = "grant_1")) = true := by
  have h0 : (grants textPlatform).Reachable pendingDb := .init rfl
  have h1 : (grants textPlatform).Reachable approvedDb :=
    .step (a := .call (.approve (cloudEnv "resv_1") sampleApprove)) h0 rfl
  have hissued : approve (cloudEnv "resv_1") sampleApprove pendingDb =
      issueApproved (cloudEnv "resv_1") sampleApprove pendingDb :=
    approve_issued (sampleApprove_arguments _) rfl rfl rfl
  refine ⟨grants_single_use h1, ?_⟩
  rw [approvedDb, grantTransact, grantCall, hissued]
  decide +kernel

end Sample

end Heel.Cloud
