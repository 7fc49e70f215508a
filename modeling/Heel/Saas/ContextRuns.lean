import Heel.Saas.ContextCancel

/-! Runner contexts over whole runs: a context that has ended keeps ended, and its work with it. -/
namespace Heel.Cloud
open Lib Lib.Checks

/-- A call on runner contexts, or on the work that hangs on them. -/
inductive ContextCall where
  | create (workspaceId projectId : String) (q : ContextCreate) (actor : String) (role : Role)
  | revoke (workspaceId projectId bindingId actor : String) (role : Role) (valid : Bool)
  | list (workspaceId runnerId runnerKeyId : String)
  | claim (q : ContextRef) (valid : Bool)
  | createPlanRequest (workspaceId projectId bindingId : String) (q : PlanSelection)
      (actor : String)
      (role : Role)
  | claimPlanRequest (q : ContextRef) (valid : Bool)
  | submit (q : ContextRef) (p : RunnerProjection)
  | submitHuman (p : ScanProjection) (uploadedBy : String)
  | approve (q : ApproveRequest)
  | expireAndReconcile
  | expireDueBatch (nowMs limit : Int)
  | cancelDueBatch (nowMs limit : Int)

variable {P : Platform} {env : ContextEnv} {call : ContextCall} {db t : ContextDb}

def contextCall (P : Platform) (env : ContextEnv) (db : ContextDb) :
    ContextCall → Except Refusal ContextDb
  | .create workspaceId projectId q actor role =>
    Prod.fst <$> createContext env workspaceId projectId q actor role db
  | .revoke workspaceId projectId bindingId actor role valid =>
    revokeContext env workspaceId projectId bindingId actor role valid db
  | .list workspaceId runnerId runnerKeyId =>
    Prod.fst <$> listForRunner env workspaceId runnerId runnerKeyId db
  | .claim q valid => Prod.fst <$> claimContext env q valid db
  | .createPlanRequest workspaceId projectId bindingId q actor role =>
    Prod.fst <$> createPlanRequest env workspaceId projectId bindingId q actor role db
  | .claimPlanRequest q valid => Prod.fst <$> claimPlanRequest env q valid db
  | .submit q p => contextProjection P env q p db
  | .submitHuman p uploadedBy => humanProjection env p uploadedBy db
  | .approve q => Prod.fst <$> approveContext env q db
  | .expireAndReconcile => reconcileContexts env db
  | .expireDueBatch nowMs limit => Prod.fst <$> expireDueBatch nowMs limit db
  | .cancelDueBatch nowMs limit => Prod.fst <$> cancelDueBatch nowMs limit db

/-- One transaction: a call that raises leaves the tables as they were. -/
def contextTransact (P : Platform) (env : ContextEnv) (db : ContextDb) (call : ContextCall) :
    ContextDb :=
  match contextCall P env db call with
  | .ok t => t
  | .error _ => db

/-- Any calls in any order. The other calls of the canary service move only what has
been granted. -/
inductive ContextStep (P : Platform) (db : ContextDb) : ContextDb → Prop
  | call (env : ContextEnv) (call : ContextCall) : ContextStep P db (contextTransact P env db call)
  | elsewhere (c : CanaryDb) (hc : Quiet db.canary c) : ContextStep P db { db with canary := c }

def contexts (P : Platform) : Transition ContextDb Unit where
  init db := db = {}
  step db _ t := ContextStep P db t

theorem contextCall_edits (hi : ContextInv db) (h : contextCall P env db call = .ok t) :
    ContextEdits db t := by
  cases call with
  | create workspaceId projectId q actor role =>
    obtain ⟨b, h⟩ := fst_ok h
    exact createContext_edits hi h
  | revoke workspaceId projectId bindingId actor role valid => exact revokeContext_edits hi h
  | list workspaceId runnerId runnerKeyId =>
    obtain ⟨rows, h⟩ := fst_ok h
    exact listForRunner_edits hi h
  | claim q valid =>
    obtain ⟨answer, h⟩ := fst_ok h
    exact claimContext_edits hi h
  | createPlanRequest workspaceId projectId bindingId q actor role =>
    obtain ⟨answer, h⟩ := fst_ok h
    exact createPlanRequest_edits h
  | claimPlanRequest q valid =>
    obtain ⟨answer, h⟩ := fst_ok h
    exact claimPlanRequest_edits hi h
  | submit q p => exact contextProjection_edits hi h
  | submitHuman p uploadedBy => exact humanProjection_edits hi h
  | approve q =>
    obtain ⟨answer, h⟩ := fst_ok h
    exact approveContext_edits hi h
  | expireAndReconcile => exact reconcileContexts_edits hi h
  | expireDueBatch nowMs limit =>
    obtain ⟨answer, h⟩ := fst_ok h
    exact expireDueBatch_edits hi h
  | cancelDueBatch nowMs limit =>
    obtain ⟨answer, h⟩ := fst_ok h
    exact cancelDueBatch_edits hi h

theorem ContextStep.edits (h : ContextStep P db t) (hi : ContextInv db) : ContextEdits db t := by
  cases h with
  | call env call =>
    unfold contextTransact
    split
    · rename_i s hs
      exact contextCall_edits hi hs
    · exact .refl
  | elsewhere c hc => exact .single (.quiet db c db.affinities db.planRequests hc)

theorem ContextInv.empty : ContextInv {} := by
  refine ⟨⟨?_, ?_, ?_, ?_, ?_, ?_, ?_⟩, ?_, ?_, ?_, ?_, ?_, ?_, ?_, ?_, ?_, ?_⟩ <;>
    simp [ContextDb.Covered]

theorem contexts_inv (hs : (contexts P).Reachable db) : ContextInv db := by
  refine Transition.invariant _ ?_ ?_ hs
  · rintro s rfl
    exact .empty
  · exact fun s _ t hi hstep => ContextEdits.inv (ContextStep.edits hstep hi) hi

theorem contexts_kept (hs : (contexts P).Reachable db) (h : (contexts P).Later db t) :
    ContextKept db t :=
  Transition.later_rel _ ContextKept.refl (fun _ _ _ => ContextKept.trans)
    (fun _ _ _ hr hstep => ContextEdits.kept (ContextStep.edits hstep (contexts_inv hr))
      (contexts_inv hr)) hs h

/-- What a later state has of a context that has ended. -/
structure EndedFor (b : ContextBinding) (db t : ContextDb) : Prop where
  ended : ∃ o ∈ t.bindings, o.key = b.key
  status : ∀ o ∈ t.bindings, o.key.rcbId = b.key.rcbId → o.status = b.status
  noLink : ∀ l ∈ t.links, l.key = b.key → l ∈ db.links
  noGrant : ∀ l ∈ db.links, l.key = b.key → ∀ r ∈ db.canary.runs, r.key = l.runKey →
    r.grantId = none → (∀ o ∈ t.canary.runs, o.key = r.key → o.grantId = none) ∧
      ∀ g ∈ t.canary.grants, g.runKey ≠ r.key

theorem EndedKept.endedFor {b : ContextBinding} (h : EndedKept b db t) (hi : ContextInv t) :
    EndedFor b db t := by
  obtain ⟨o, ho, hokey, hostatus⟩ := h.ended
  refine ⟨⟨o, ho, hokey⟩, fun o' ho' hid => ?_, h.noLink, fun l hl hkey r hr hrkey hn => ?_⟩
  · have hsame : o' = o := hi.binding_eq ho' ho (hid.trans (congrArg (·.rcbId) hokey).symm)
    exact hsame ▸ hostatus
  · obtain ⟨v, hv, hvkey, hvn⟩ := (h.noGrant l hl hkey).2 r hr hrkey hn
    have hrow : ∀ u ∈ t.canary.runs, u.key = r.key → u.grantId = none := by
      intro u hu hukey
      have hsame : u = v := hi.pairs.run_eq hu hv (congrArg (·.2.2) (hukey.trans hvkey.symm))
      exact hsame ▸ hvn
    refine ⟨hrow, fun g hg hgkey => ?_⟩
    obtain ⟨u, hu, hukey, hgranted⟩ := hi.pairs.granted g hg
    exact hgranted (hrow u hu (hukey.trans hgkey))

theorem ContextInv.atMostOne (hi : ContextInv db) (workspaceId runnerId : String) :
    (db.bindings.filter fun b => b.key.workspaceId = workspaceId ∧ b.key.runnerId = runnerId ∧
      b.status = .active).length ≤ 1 := by
  refine Table.filter_le_one hi.ids fun a ha b hb hqa hqb => ?_
  simp only [decide_eq_true_eq] at hqa hqb
  refine hi.oneActive b hb a ha hqb.2.2 hqa.2.2 ?_
  simp only [ContextKey.runner, hqa, hqb]

/-- A context that has ended takes its ungranted work with it, whatever is called in what order. A
batch fails on bad arguments, or on a clock a day behind an approval that waits. -/
theorem contexts_end_their_work (hs : (contexts P).Reachable db) :
    (∀ workspaceId runnerId, (db.bindings.filter fun b => b.key.workspaceId = workspaceId ∧
      b.key.runnerId = runnerId ∧ b.status = .active).length ≤ 1) ∧
    (∀ t, (contexts P).Later db t → ∀ b ∈ db.bindings, b.status ≠ .active → EndedFor b db t) ∧
    db.Covered ∧
    (∀ nowMs limit t answer, cancelDueBatch nowMs limit db = .ok (t, answer) →
      (answer.units : Int) ≤ limit ∧ ((answer.units : Int) < limit → answer.hasMore = false) ∧
        (answer.hasMore = false → ∀ l ∈ t.links, ∀ b ∈ t.bindings, b.key = l.key →
          b.status ≠ .active → ∀ r ∈ t.canary.runs, r.runId = l.runId →
          pregrant r.status = false)) ∧
    (∀ nowMs limit e, cancelDueBatch nowMs limit db = .error e →
      e.raised = .valueError ∧ ¬ ((0 ≤ nowMs ∧ nowMs ≤ safeTimeMs) ∧ 1 ≤ limit ∧ limit ≤ 128) ∨
      e.raised = .integrityError ∧ TooEarly nowMs db) := by
  have hi := contexts_inv hs
  refine ⟨hi.atMostOne, fun t ht b hb hbs => ?_, hi.covered, fun nowMs limit t answer h => ?_,
    fun nowMs limit => (cancelDueBatch_ends hi nowMs limit).2⟩
  · exact (contexts_kept hs ht b hb hbs).endedFor (contexts_inv (hs.later ht))
  · have hbatch := (cancelDueBatch_ends hi nowMs limit).1 _ h
    refine ⟨hbatch.units, hbatch.drained, fun hdone l hl b hb hkey hbs r hr hid => ?_⟩
    rw [hbatch.hasMore, Bool.not_eq_false', List.isEmpty_iff] at hdone
    exact (ContextEdits.inv hbatch.edits hi).noneWaits hdone hl hb hkey hbs hr hid

section Sample

def contextEnv (token : String) : ContextEnv where
  toRoundEnv := roundEnv
  contextEnded _ := false
  overdue _ := false
  purgeableApproval _ := false
  purgeableGrant _ := false
  clock _ := 1000
  stripped _ := true
  environments _ := some
    ⟨"https://staging.example", "staging", .verified, false, some 90000000, "vr_1"⟩
  runnerStatusOf _ _ := some .active
  keyOf _ _ _ := some ⟨true, false, "pk_1"⟩
  identityOf _ _ := some ⟨true, "runner_1", "workspace_1", "key_1"⟩
  artifactMatches _ := true
  inventory _ := .error (discoveryError "inventory_unavailable")
  storedText _ := true
  namesRequest _ _ := false
  selectionDigest _ := ""
  freshBinding := "1"
  bindingDigest := "binding_1"
  freshPlanRequest := "1"
  freshNonce := "nonce_1"
  runToken := token

def contextRequest : ContextCreate := ⟨"runner_1", "key_1", "environment_1", "vr_1", true⟩

def contextScan (projectionId digest : String) : ScanProjection :=
  ⟨projectionId, digest, "workspace_1", "project_1", "environment_1", "https://staging.example",
    "staging", "vr_1", "runner_1", "key_1", "staging.example", none, []⟩

def contextRef : ContextRef := ⟨"workspace_1", "runner_1", "key_1", "rcb_1", "binding_1"⟩

/-- A context is created, used for two projections and revoked. -/
def revokedCalls : List (ContextEnv × ContextCall) :=
  [(contextEnv "1", .create "workspace_1" "project_1" contextRequest "user_1" .owner),
    (contextEnv "1", .submit contextRef (.scan (contextScan "approval_1" "projection_1"))),
    (contextEnv "2", .submit contextRef (.scan (contextScan "approval_2" "projection_2"))),
    (contextEnv "3", .revoke "workspace_1" "project_1" "rcb_1" "user_1" .owner true)]

def afterContextCalls (calls : List (ContextEnv × ContextCall)) : ContextDb :=
  calls.foldl (fun db c => contextTransact textPlatform c.1 db c.2) {}

theorem afterContextCalls_reachable (calls : List (ContextEnv × ContextCall)) :
    (contexts textPlatform).Reachable (afterContextCalls calls) := by
  refine List.foldlRecOn calls _ (.init rfl) fun db hs c _ => ?_
  exact .step (a := ()) hs (ContextStep.call c.1 c.2)

/-- Two runs wait when their context ends: a batch of one unit cancels the first and says that there
is more, a batch of two leaves none. -/
theorem contexts_end_their_work_sample :
    (∃ t answer, cancelDueBatch 2000 1 (afterContextCalls revokedCalls) = .ok (t, answer) ∧
      t.canary.runs.map (·.status) = [.cancelled, .awaitingExecutionApproval] ∧
      answer.hasMore = true ∧ answer.units ≤ 1) ∧
    ∃ t answer, cancelDueBatch 2000 2 (afterContextCalls revokedCalls) = .ok (t, answer) ∧
      answer.units ≤ 2 ∧ ∀ l ∈ t.links, ∀ b ∈ t.bindings, b.key = l.key → b.status ≠ .active →
        ∀ r ∈ t.canary.runs, r.runId = l.runId → pregrant r.status = false := by
  have hresults := (contexts_end_their_work (afterContextCalls_reachable revokedCalls)).2.2.2.1
  have hfirst : answers (fun out : ContextDb × CancelBatch => decide (out.1.canary.runs.map
      (·.status) = [.cancelled, .awaitingExecutionApproval] ∧ out.2.hasMore = true))
      (cancelDueBatch 2000 1 (afterContextCalls revokedCalls)) = true := by
    decide +kernel
  have hsecond : answers (fun out : ContextDb × CancelBatch => !out.2.hasMore)
      (cancelDueBatch 2000 2 (afterContextCalls revokedCalls)) = true := by
    decide +kernel
  constructor
  · obtain ⟨⟨t, answer⟩, hok, hrows⟩ := answers_iff.mp hfirst
    obtain ⟨hstatus, hmore⟩ := of_decide_eq_true hrows
    exact ⟨t, answer, hok, hstatus, hmore, by exact_mod_cast (hresults 2000 1 t answer hok).1⟩
  · obtain ⟨⟨t, answer⟩, hok, hdone⟩ := answers_iff.mp hsecond
    obtain ⟨hunits, -, hnone⟩ := hresults 2000 2 t answer hok
    exact ⟨t, answer, hok, by exact_mod_cast hunits, hnone (by simpa using hdone)⟩

end Sample

end Heel.Cloud
