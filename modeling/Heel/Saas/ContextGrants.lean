import Heel.Saas.ContextCalls

/-! Submissions under a context, approvals and the reaper, as sequences of edits: a grant is only
issued while every binding its approval is linked to is live. -/
namespace Heel.Cloud
open Lib Lib.Checks

variable {db t : ContextDb}

/-- A projection that is stored: what was there, or a fresh approval with its run. -/
inductive Stores (c d : CanaryDb) (a : ApprovalRequest) : Prop
  | prior (hd : d = c) (ha : a ∈ c.approvals) : Stores c d a
  | fresh (r : CanaryRun)
      (hd : d = { c with approvals := c.approvals ++ [a], runs := c.runs ++ [r] })
      (hr : ∀ o ∈ c.runs, o.runId ≠ r.runId) (hkey : r.key = a.runKey) (hw : a.awaits = true)
      (hwr : pregrant r.status = true) (hname : r.runId ≠ "")
      (hun : r.grantId = none ∧ r.reservationId = none ∧ r.quotaState = .unreserved) : Stores c d a

theorem Stores.mem {c d : CanaryDb} {a : ApprovalRequest} (h : Stores c d a) : a ∈ d.approvals := by
  cases h with
  | prior hd ha => exact hd ▸ ha
  | fresh r hd =>
    rw [hd]
    exact List.mem_append_right _ (List.mem_singleton.mpr rfl)

theorem Stores.edits (db : ContextDb) {d : CanaryDb} {a : ApprovalRequest}
    (h : Stores db.canary d a) (hids : (d.approvals.map (·.approvalId)).Nodup) :
    ContextEdits db { db with canary := d } := by
  cases h with
  | prior hd ha =>
    subst hd
    exact .refl
  | fresh r hd hr hkey hw hwr hname hun =>
    subst hd
    refine .single (.submit db a r (fun o ho hid => ?_) hr hkey hw hwr hname hun)
    rw [List.map_append, List.nodup_append] at hids
    exact hids.2.2 _ (List.mem_map_of_mem ho) _ (by simp) hid

theorem runId_ne (env : ContextEnv) : env.runId ≠ "" := by
  simp [ContextEnv.runId]

theorem priorApproval_mem {c : CanaryDb} {workspaceId projectId projectionId digest : String}
    {a : ApprovalRequest} (h : c.priorApproval workspaceId projectId projectionId digest = some a) :
    a ∈ c.approvals :=
  List.mem_of_find?_eq_some h

theorem storeProjection_ok {env : ContextEnv} {p : ScanProjection} {uploadedBy : String}
    {c d : CanaryDb} {a : ApprovalRequest} (hi : PairInv c)
    (h : storeProjection env p uploadedBy c = .ok (d, a)) :
    Stores c d a ∧ (d.approvals.map (·.approvalId)).Nodup := by
  simp only [storeProjection, bind_ok, require_ok, exists_const] at h
  obtain ⟨_, -, -, h⟩ := h
  split at h
  · rename_i prior hprior
    simp only [bind_ok, require_ok, exists_const] at h
    obtain ⟨-, h⟩ := h
    cases h
    exact ⟨.prior rfl (priorApproval_mem hprior), hi.approvalIds⟩
  · simp only [bind_ok, require_ok, exists_const] at h
    obtain ⟨-, -, hfresh, hruns, h⟩ := h
    cases h
    refine ⟨.fresh _ rfl hruns rfl rfl rfl (runId_ne env) ⟨rfl, rfl, rfl⟩, ?_⟩
    rw [List.map_append]
    refine List.nodup_append.mpr ⟨hi.approvalIds, by simp, ?_⟩
    rintro _ hin _ hnew rfl
    obtain ⟨o, ho, hid⟩ := List.mem_map.mp hin
    exact hfresh o ho (hid.trans (by simpa using hnew))

theorem projectPlanRequest_ok {r : Option PlanRequest} {a : ApprovalRequest}
    (h : projectPlanRequest r a db = .ok t) : t = { db with planRequests := t.planRequests } := by
  unfold projectPlanRequest at h
  split at h
  · cases h
    rfl
  · simp only [bind_ok, require_ok, exists_const] at h
    obtain ⟨-, h⟩ := h
    cases h
    rfl

theorem insertLink_ok {l : ProjectionLink} (h : insertLink l db = .ok t) :
    t = { db with links := db.links ++ [l] } ∧
      (∀ o ∈ db.links, o.runKey = l.runKey → o.approvalId ≠ l.approvalId) ∧
      ∃ a ∈ db.canary.approvals, a.approvalId = l.approvalId ∧ a.runKey = l.runKey := by
  simp only [insertLink, bind_ok, require_ok, exists_const, pure, Except.pure,
    Except.ok.injEq] at h
  obtain ⟨⟨hfresh, happroval, -⟩, rfl⟩ := h
  refine ⟨rfl, fun o ho hkey hid => hfresh o ho ?_, ?_⟩
  · simp only [ProjectionLink.runKey, Prod.mk.injEq] at hkey
    exact ⟨hkey.1, hkey.2.1, hid, hkey.2.2⟩
  · obtain ⟨a, ha, hspec⟩ := List.any_eq_true.mp happroval
    simp only [decide_eq_true_eq] at hspec
    refine ⟨a, ha, hspec.2.2.1, ?_⟩
    simp only [ApprovalRequest.runKey, ProjectionLink.runKey, hspec]

theorem insertLink_edits {l : ProjectionLink} {b : ContextBinding} (hb : b ∈ db.bindings)
    (hs : b.status = .active) (hkey : b.key = l.key) (h : insertLink l db = .ok t) :
    ContextEdits db t := by
  obtain ⟨rfl, hfresh, a, ha, hid, hakey⟩ := insertLink_ok h
  exact .single (.link db l a b ha hid hakey hb hkey hs hfresh)

theorem submitScan_edits (hi : ContextInv db) {env : ContextEnv} {b : ContextBinding}
    {p : ScanProjection} {uploadedBy : String} {a : ApprovalRequest} (hb : b ∈ db.bindings)
    (hs : b.status = .active) (h : submitScan env b p uploadedBy db = .ok (t, a)) :
    ContextEdits db t := by
  simp only [submitScan, bind_ok, require_ok, exists_const] at h
  obtain ⟨-, h⟩ := h
  split at h
  · simp only [bind_ok, require_ok, exists_const] at h
    obtain ⟨-, -, h⟩ := h
    cases h
    exact .refl
  · simp only [bind_ok] at h
    obtain ⟨request, -, ⟨c, approval⟩, hstore, s, hproject, v, hlink, h⟩ := h
    cases h
    obtain ⟨hstores, hids⟩ := storeProjection_ok hi.pairs hstore
    have hplan : ContextEdits db
        (expirePlanRequests b.key.workspaceId b.key.rcbId (env.nowMs 2) db) :=
      planRequests_edits _
    have hstored := hstores.edits
      (expirePlanRequests b.key.workspaceId b.key.rcbId (env.nowMs 2) db)
      hids
    have hmid : ContextEdits db s := by
      rw [projectPlanRequest_ok hproject]
      exact (hplan.trans hstored).trans (planRequests_edits _)
    have hsame : s.bindings = db.bindings := by rw [projectPlanRequest_ok hproject]; rfl
    exact hmid.trans (insertLink_edits (hsame ▸ hb) hs rfl hlink)

theorem humanProjection_edits (hi : ContextInv db) {env : ContextEnv} {p : ScanProjection}
    {uploadedBy : String} (h : humanProjection env p uploadedBy db = .ok t) :
    ContextEdits db t := by
  simp only [humanProjection, bind_ok, require_ok, exists_const] at h
  obtain ⟨-, -, ⟨c, a⟩, hstore, h⟩ := h
  cases h
  obtain ⟨hstores, hids⟩ := storeProjection_ok hi.pairs hstore
  exact hstores.edits db hids

/-- The approval a waiting run is found by, and its run, stop waiting. -/
theorem PairInv.stops {c d : CanaryDb} (hi : PairInv c) {a : ApprovalRequest}
    (ha : a ∈ c.approvals) {grant : Option String} {p : ApprovalRequest → Bool}
    {f : ApprovalRequest → ApprovalRequest} {p' : CanaryRun → Bool} {f' : CanaryRun → CanaryRun}
    (happrovals : d.approvals = Table.update p f c.approvals)
    (hruns : d.runs = Table.update p' f' c.runs) (hpa : p a = true)
    (hp : ∀ o, p o = true → o.runId = a.runId)
    (hpr : ∀ r ∈ c.runs, r.key = a.runKey → p' r = true)
    (hp' : ∀ o, p' o = true → o.runId = a.runId)
    (hf : ∀ o, (f o).approvalId = o.approvalId ∧ (f o).runKey = o.runKey ∧ (f o).awaits = false)
    (hf' : ∀ o, (f' o).key = o.key ∧ pregrant (f' o).status = false ∧
      (f' o).grantId = grant.or o.grantId) : StopsWaiting a grant c d where
  approvals := ⟨p, f, happrovals, fun o ho => ⟨hp o, fun hid => hi.approval_eq ho ha hid ▸ hpa⟩, hf⟩
  runs := ⟨p', f', hruns, fun o ho => ⟨hp' o, fun hid => hpr o ho (hi.awaits ha ho hid).1⟩, hf'⟩

theorem approvable_ok {env : CloudEnv} {q : ApproveRequest} {c : CanaryDb} {a : ApprovalRequest}
    {rest : PendingProjection × Int} (h : approvable env q c = .ok (a, rest)) :
    c.approval q.workspaceId q.projectRef q.runId = some a ∧
      a.status = .awaitingExecutionApproval ∧ env.binding.getD (.ok ()) = .ok () := by
  unfold approvable at h
  split at h
  · cases h
  · rename_i o ho
    simp only [bind_ok, require_ok, exists_const] at h
    obtain ⟨hstatus, -, h⟩ := h
    split at h
    · cases h
    · simp only [bind_ok, require_ok, exists_const] at h
      obtain ⟨-, -, -, -, _, -, -, _, hbinding, -, -, h⟩ := h
      cases h
      exact ⟨ho, hstatus, hbinding⟩

theorem linkedAuthority_active (hi : ContextInv db) {env : ContextEnv} {a : ApprovalRequest}
    {b : ContextBinding} (hb : b ∈ db.bindings) (h : linkedAuthority env a b db = .ok ()) :
    b.status = .active := by
  simp only [linkedAuthority, bind_ok, require_ok, exists_const] at h
  obtain ⟨-, h⟩ := h
  split at h
  · rename_i answer hactive
    obtain ⟨-, ho, href, hs, -⟩ := activeBinding_ok hi hactive
    have hsame := hi.binding_eq ho hb (congrArg (·.bindingId) href)
    exact hsame ▸ hs
  · cases h

theorem ContextInv.linkedBinding (hi : ContextInv db) {a : ApprovalRequest} {l : ProjectionLink}
    {b : ContextBinding} (ha : a ∈ db.canary.approvals) (hl : l ∈ db.links)
    (hid : l.runId = a.runId) (hb : b ∈ db.bindings) (hkey : b.key = l.key) :
    db.linkedBinding a = some b := by
  obtain ⟨haid, hakey⟩ := hi.link_approval_eq hl ha hid.symm
  simp only [ApprovalRequest.runKey, ProjectionLink.runKey, Prod.mk.injEq] at hakey
  have hlink : db.linkOf a = some l := by
    cases hfind : db.linkOf a with
    | none =>
      rw [ContextDb.linkOf, List.find?_eq_none] at hfind
      exact absurd (decide_eq_true ⟨hakey.1.symm, hakey.2.1.symm, haid.symm, hid⟩) (hfind l hl)
    | some o =>
      have hspec := List.find?_some hfind
      simp only [decide_eq_true_eq] at hspec
      rw [Table.eq_of_key hi.linkRuns (List.mem_of_find?_eq_some hfind) hl
        (hspec.2.2.2.trans hid.symm)]
  have hbinding : (db.bindings.find? fun o => o.key = l.key) = some b := by
    cases hfind : db.bindings.find? fun o => o.key = l.key with
    | none =>
      rw [List.find?_eq_none] at hfind
      exact absurd (decide_eq_true hkey) (hfind b hb)
    | some o =>
      have hspec := List.find?_some hfind
      simp only [decide_eq_true_eq] at hspec
      rw [hi.binding_eq (List.mem_of_find?_eq_some hfind) hb
        (congrArg (·.rcbId) (hspec.trans hkey.symm))]
  rw [ContextDb.linkedBinding, hlink, Option.bind_some, hbinding]

theorem approveContext_edits (hi : ContextInv db) {env : ContextEnv} {q : ApproveRequest}
    {answer : ExecutionApproved} (h : approveContext env q db = .ok (t, answer)) :
    ContextEdits db t := by
  simp only [approveContext, bind_ok] at h
  obtain ⟨⟨c, o⟩, happrove, h⟩ := h
  cases h
  refine Relation.ReflTransGen.trans (b := { db with canary := c }) ?_ (planRequests_edits _)
  obtain ⟨⟨run, hrun⟩, ⟨rfl, -⟩ | ⟨-, hissue⟩⟩ := approve_ok happrove
  · exact .refl
  · obtain ⟨a, projection, proof, id, ledger, mid, happ, -, -, hinsert, rfl, -⟩ :=
      issueApproved_ok hissue
    obtain ⟨hfind, hstatus, hbinding⟩ := approvable_ok happ
    have ha := List.mem_of_find?_eq_some hfind
    have hnamed := List.find?_some hfind
    simp only [decide_eq_true_eq] at hnamed
    obtain ⟨-, rfl⟩ := insertGrant_ok hinsert
    refine .single (.grant db _ a _ ha ?_ rfl ?_ fun l hl hid b hb hkey => ?_)
    · refine hi.pairs.stops ha rfl rfl ?_ ?_ ?_ ?_ ?_ ?_
      · exact decide_eq_true ⟨hnamed.1, hnamed.2.1, hnamed.2.2, hstatus⟩
      · intro o ho
        simp only [decide_eq_true_eq] at ho
        exact ho.2.2.1.trans hnamed.2.2.symm
      · intro r _ hkey
        simp only [CanaryRun.key, ApprovalRequest.runKey, Prod.mk.injEq] at hkey
        exact decide_eq_true ⟨hkey.1.trans hnamed.1, hkey.2.1.trans hnamed.2.1,
          hkey.2.2.trans hnamed.2.2⟩
      · intro r hr
        simp only [decide_eq_true_eq] at hr
        exact hr.2.2.trans hnamed.2.2.symm
      · exact fun _ => ⟨rfl, rfl, rfl⟩
      · exact fun _ => ⟨rfl, rfl, rfl⟩
    · simp only [ExecutionGrant.runKey, ApproveRequest.row, ApprovalRequest.runKey, hnamed]
    · have hlinked := hi.linkedBinding ha hl hid hb hkey
      simp only [approveEnv, hfind, hlinked, Option.map_some, Option.getD_some] at hbinding
      exact linkedAuthority_active hi hb hbinding

variable {P : Platform}

theorem submitProjection_ok {env : RoundEnv} {b : BindingRow} {plan : RoundPlan} {c d : CanaryDb}
    {a : ApprovalRequest} (hname : env.freshRun ≠ "")
    (h : submitProjection env b plan c = .ok (d, a)) : Stores c d a ∧
      a.approvalId = plan.projectionId ∧ a.workspaceId = b.workspaceId ∧
      a.projectRef = b.projectRef ∧ d.rounds = c.rounds := by
  simp only [submitProjection, bind_ok, require_ok, exists_const] at h
  obtain ⟨_, -, -, h⟩ := h
  split at h
  · rename_i prior hprior
    simp only [bind_ok, require_ok, exists_const] at h
    obtain ⟨hsame, h⟩ := h
    cases h
    have hspec := List.find?_some hprior
    simp only [decide_eq_true_eq] at hspec
    exact ⟨.prior rfl (List.mem_of_find?_eq_some hprior), hsame.1, hspec.1, hspec.2.1, rfl⟩
  · simp only [bind_ok, require_ok, exists_const] at h
    obtain ⟨-, -, hruns, h⟩ := h
    cases h
    exact ⟨.fresh _ rfl hruns rfl rfl rfl hname ⟨rfl, rfl, rfl⟩, rfl, rfl, rfl, rfl⟩

theorem issueDiscoveryGrant_ok {env : RoundEnv} {o : Authorization} {plan : RoundPlan}
    {c d : CanaryDb} {a : ApprovalRequest} (hi : PairInv c) (ha : a ∈ c.approvals)
    (hws : a.workspaceId = o.workspaceId) (hproject : a.projectRef = o.projectRef)
    (h : issueDiscoveryGrant P env o plan a c = .ok d) : ∃ g : ExecutionGrant,
      StopsWaiting a (some g.grantId) c d ∧ d.grants = c.grants ++ [g] ∧ g.runKey = a.runKey ∧
        d.rounds = c.rounds := by
  simp only [issueDiscoveryGrant, bind_ok, require_ok, exists_const] at h
  obtain ⟨proof, -, -, -, hstatus, mid, hinsert, h⟩ := h
  obtain ⟨-, rfl⟩ := insertGrant_ok hinsert
  cases h
  refine ⟨_, hi.stops ha rfl rfl ?_ ?_ ?_ ?_ ?_ ?_, rfl, ?_, rfl⟩
  · exact decide_eq_true ⟨hws, hproject, rfl, hstatus⟩
  · intro r hr
    simp only [decide_eq_true_eq] at hr
    exact hr.2.2.1
  · intro r hr hkey
    have hwaits : pregrant r.status = true := by
      rw [← (hi.awaits ha hr (congrArg (·.2.2) hkey)).2]
      exact decide_eq_true hstatus
    have hun := hi.ungranted r hr hwaits
    simp only [CanaryRun.key, ApprovalRequest.runKey, Prod.mk.injEq] at hkey
    exact decide_eq_true ⟨hkey.1.trans hws, hkey.2.1.trans hproject, hkey.2.2, hun.2.1, hun.2.2⟩
  · intro r hr
    simp only [decide_eq_true_eq] at hr
    exact hr.2.2.1
  · exact fun _ => ⟨rfl, rfl, rfl⟩
  · exact fun _ => ⟨rfl, rfl, rfl⟩
  · simp only [ExecutionGrant.runKey, roundGrant, ApprovalRequest.runKey, hws, hproject]

theorem countRound_ok {plan : RoundPlan} {c d : CanaryDb} (h : countRound plan c = .ok d) :
    d.approvals = c.approvals ∧ d.runs = c.runs ∧ d.grants = c.grants ∧ d.rounds = c.rounds := by
  unfold countRound at h
  split at h
  · cases h
  · split at h
    · simp only [bind_ok, require_ok, exists_const] at h
      obtain ⟨_, -, -, -, h⟩ := h
      cases h
      exact ⟨rfl, rfl, rfl, rfl⟩
    · simp only [bind_ok, require_ok, exists_const] at h
      obtain ⟨-, h⟩ := h
      cases h
      exact ⟨rfl, rfl, rfl, rfl⟩

/-- A round of a runner: an answer to a repetition, or an approval that is granted at once. -/
theorem submitDiscoveryRound_cases {env : RoundEnv} {b : BindingRow} {plan : RoundPlan}
    {c d : CanaryDb} (h : submitDiscoveryRound P env b plan c = .ok d) :
    (∃ o, expireDiscoveryIfDue c o env.later = .ok d ∧ (c.roundOf plan).isSome) ∨
    (c.roundOf plan = none ∧ ∃ o mid a granted, o.place = b.place ∧
      submitProjection env b plan c = .ok (mid, a) ∧
      issueDiscoveryGrant P env o plan a mid = .ok granted ∧ d.approvals = granted.approvals ∧
      d.runs = granted.runs ∧ d.grants = granted.grants ∧
      d.rounds = granted.rounds ++ [plan.row env b a.runId]) := by
  unfold submitDiscoveryRound at h
  split at h
  · cases h
  · rename_i o ho
    have hspec := List.find?_some ho
    simp only [decide_eq_true_eq] at hspec
    have hround : (c.rounds.find? fun r => r.authorizationId = o.authorizationId ∧
        r.round = plan.round) = c.roundOf plan := by
      rw [CanaryDb.roundOf, hspec.1]
    rw [hround] at h
    split at h
    · rename_i existing hexisting
      simp only [bind_ok, require_ok, exists_const] at h
      exact .inl ⟨o, h.2, by rw [hexisting]; rfl⟩
    · rename_i hnone
      simp only [bind_ok, require_ok, exists_const] at h
      obtain ⟨-, _, -, ⟨mid, a⟩, hsubmit, granted, hgrant, inserted, hinsert, hcount⟩ := h
      obtain ⟨-, rfl⟩ := insertRound_ok hinsert
      obtain ⟨happrovals, hruns, hgrants, hrounds⟩ := countRound_ok hcount
      exact .inr ⟨hnone, o, mid, a, granted, hspec.2, hsubmit, hgrant, happrovals, hruns, hgrants,
        hrounds⟩

theorem roundOf_append {env : RoundEnv} {b : BindingRow} {plan : RoundPlan} {c d : CanaryDb}
    {runId : String} (hnone : c.roundOf plan = none)
    (hrounds : d.rounds = c.rounds ++ [plan.row env b runId]) :
    d.roundOf plan = some (plan.row env b runId) := by
  unfold CanaryDb.roundOf at hnone ⊢
  rw [hrounds, List.find?_append, hnone]
  simp [RoundPlan.row]

theorem issueDiscoveryGrant_ids {env : RoundEnv} {o : Authorization} {plan : RoundPlan}
    {c d : CanaryDb} {a : ApprovalRequest} (h : issueDiscoveryGrant P env o plan a c = .ok d) :
    d.approvals.map (·.approvalId) = c.approvals.map (·.approvalId) := by
  simp only [issueDiscoveryGrant, bind_ok, require_ok, exists_const] at h
  obtain ⟨proof, -, -, -, -, mid, hinsert, h⟩ := h
  obtain ⟨-, rfl⟩ := insertGrant_ok hinsert
  cases h
  exact Table.map_update fun _ _ => rfl

theorem ContextInv.unlinked (hi : ContextInv db) {l o : ProjectionLink} {a : ApprovalRequest}
    (ha : a ∈ db.canary.approvals) (hid : a.approvalId = l.approvalId) (hkey : a.runKey = l.runKey)
    (hfresh : ∀ o ∈ db.links, o.runKey = l.runKey → o.approvalId ≠ l.approvalId)
      (ho : o ∈ db.links) :
    o.runId ≠ a.runId := by
  intro hrun
  obtain ⟨hoid, hokey⟩ := hi.link_approval_eq ho ha hrun.symm
  exact hfresh o ho (hokey.symm.trans hkey) (hoid.symm.trans hid)

theorem submitRound_edits (hi : ContextInv db) {env : ContextEnv} {b : ContextBinding}
    {plan : RoundPlan} (hb : b ∈ db.bindings) (hs : b.status = .active)
    (h : submitRound P env b plan db = .ok t) : ContextEdits db t := by
  simp only [submitRound, bind_ok, require_ok, exists_const] at h
  obtain ⟨c, hsubmit, hids, h⟩ := h
  rcases submitDiscoveryRound_cases hsubmit with ⟨o, hexpire, hsome⟩ | ⟨hnone, o, mid, a, granted,
    hplace, hstore, hgrant, happrovals, hruns, hgrants, hrounds⟩
  · obtain ⟨existing, hexisting⟩ := Option.isSome_iff_exists.mp hsome
    rw [hexisting] at h
    cases h
    exact .single (.quiet db c db.affinities db.planRequests
      (expireDiscoveryIfDue_quiet hi.pairs hexpire))
  · obtain ⟨hstores, haid, haws, haproject, hmidrounds⟩ := submitProjection_ok (runId_ne env) hstore
    simp only [Authorization.place, BindingRow.place, Prod.mk.injEq] at hplace
    -- the approval is stored first: `stored` is the database then
    let opened := expirePlanRequests b.key.workspaceId b.key.rcbId env.now db
    let stored : ContextDb := { opened with canary := mid }
    have hstored : ContextEdits db stored := by
      refine (planRequests_edits _).trans (hstores.edits opened ?_)
      rwa [happrovals, issueDiscoveryGrant_ids hgrant] at hids
    have hstoredInv : ContextInv stored := hstored.inv hi
    obtain ⟨g, hstops, hg, hgkey, hgrounds⟩ := issueDiscoveryGrant_ok hstoredInv.pairs hstores.mem
      (haws.trans hplace.1.symm) (haproject.trans hplace.2.1.symm) hgrant
    rw [hnone, roundOf_append hnone (hrounds.trans (by rw [hgrounds, hmidrounds]))] at h
    obtain ⟨rfl, hfresh, -⟩ := insertLink_ok h
    -- then its link, which no other one shares
    let l : ProjectionLink := {
      key := b.key, approvalId := plan.projectionId, runId := a.runId
      projectionDigest := plan.projectionDigest, createdAtMs := env.now }
    have hakey : a.runKey = l.runKey := by
      simp only [ApprovalRequest.runKey, ProjectionLink.runKey, haws, haproject]
      rfl
    have hlink : ContextEdits stored { stored with links := stored.links ++ [l] } :=
      .single (.link stored l a b hstores.mem haid hakey hb rfl hs hfresh)
    -- then its grant: the binding of the link is live
    have hgranted : ContextEdits { stored with links := stored.links ++ [l] }
        { stored with links := stored.links ++ [l], canary := granted } := by
      refine .single (.grant _ granted a g hstores.mem hstops hg hgkey ?_)
      intro o ho hrun b' hb' hkey'
      rcases List.mem_append.mp ho with ho | ho
      · exact absurd hrun (hstoredInv.unlinked hstores.mem haid hakey hfresh ho)
      · rw [List.mem_singleton.mp ho] at hkey'
        have hsame : b' = b := hi.binding_eq hb' hb (congrArg (·.rcbId) hkey')
        exact hsame ▸ hs
    refine ((hstored.trans hlink).trans hgranted).trans (.single ?_)
    exact .quiet { stored with links := stored.links ++ [l], canary := granted } c opened.affinities
      opened.planRequests (.same happrovals hruns hgrants)

theorem contextProjection_edits (hi : ContextInv db) {env : ContextEnv} {q : ContextRef}
    {p : RunnerProjection} (h : contextProjection P env q p db = .ok t) : ContextEdits db t := by
  simp only [contextProjection, submitProjectionFromRunner, bind_ok, require_ok, exists_const] at h
  obtain ⟨⟨s, b⟩, hactive, hlive, h⟩ := h
  obtain ⟨rfl, hb, -, hs, -⟩ := activeBinding_ok hi hactive
  cases p with
  | scan p =>
    simp only [bind_ok] at h
    obtain ⟨⟨u, a⟩, hsubmit, h⟩ := h
    cases h
    exact submitScan_edits hi hb hs hsubmit
  | round plan => exact submitRound_edits hi hb hs h

theorem expireApproval_edits (hi : ContextInv db) {a : ApprovalRequest} (now : Int)
    (ha : a ∈ db.canary.approvals) : ContextEdits db { db with canary := { db.canary with
      approvals := Table.update (fun o : ApprovalRequest => o.approvalId = a.approvalId)
        (fun o => { o with status := .expired }) db.canary.approvals
      runs := Table.update (fun r : CanaryRun => r.runId = a.runId)
        (fun r => { r with status := .expired, updatedAt := now }) db.canary.runs } } := by
  refine .single (.close db _ a ha ⟨⟨_, _, rfl, fun o ho => ?_, fun _ => ⟨rfl, rfl, rfl⟩⟩,
    _, _, rfl, fun _ _ => ?_, fun _ => ⟨rfl, rfl, rfl⟩⟩ rfl)
  · rw [decide_eq_true_eq]
    refine ⟨fun hid => ?_, fun hid => ?_⟩
    · rw [Table.eq_of_key hi.pairs.approvalIds ho ha hid]
    · rw [hi.pairs.approval_eq ho ha hid]
  · rw [decide_eq_true_eq]

theorem expireApprovals_edits (hi : ContextInv db) (env : ReapEnv) :
    ContextEdits db { db with canary := expireApprovals env db.canary } := by
  unfold expireApprovals
  -- what is due stays in the table, as it is, until its turn
  have hdue : ∀ due : List ApprovalRequest, (due.map (·.approvalId)).Nodup →
      (∀ a ∈ due, a ∈ db.canary.approvals) → ContextEdits db { db with
        canary := due.foldl (fun db a => { db with
          approvals := Table.update (fun o : ApprovalRequest => o.approvalId = a.approvalId)
            (fun o => { o with status := .expired }) db.approvals
          runs := Table.update (fun r : CanaryRun => r.runId = a.runId)
            (fun r => { r with status := .expired, updatedAt := env.now })
            db.runs }) db.canary } := by
    intro due hids hin
    induction due generalizing db with
    | nil => exact .refl
    | cons a rest ih =>
      rw [List.map_cons, List.nodup_cons] at hids
      have hfirst := expireApproval_edits hi env.now (hin a List.mem_cons_self)
      refine hfirst.trans (ih (hfirst.inv hi) hids.2 fun o ho => ?_)
      refine Table.mem_update.mpr ⟨o, hin o (List.mem_cons_of_mem _ ho), ?_⟩
      rw [if_neg fun hsame => hids.1 ?_]
      rw [← of_decide_eq_true hsame]
      exact List.mem_map_of_mem ho
  refine hdue _ ?_ fun a ha => List.mem_of_mem_filter ha
  exact (List.filter_sublist.map _).nodup hi.pairs.approvalIds

theorem expireAndReconcileAll_edits (hi : ContextInv db) {env : ReapEnv} {c : CanaryDb}
    (h : expireAndReconcileAll env db.canary = .ok c) :
    ContextEdits db { db with canary := c } := by
  simp only [expireAndReconcileAll, bind_ok] at h
  obtain ⟨c1, hclosed, c2, hreleased, c3, hfinal, c4, hsettled, h⟩ := h
  cases h
  have hquiet {s : ContextDb} {c : CanaryDb} (hc : Quiet s.canary c) :
      ContextEdits s { s with canary := c } :=
    .single (.quiet s c s.affinities s.planRequests hc)
  have h1 := hquiet (dueAuthorizations_quiet hi.pairs hclosed)
  have h2 := h1.trans (expireApprovals_edits (h1.inv hi) env)
  have hpairs := (ContextEdits.inv h2 hi).pairs
  have h3 := releaseGrants_quiet hpairs hreleased
  have h4 := h3.trans (finalizeOrphans_quiet (h3.inv hpairs) hfinal)
  have h5 := h4.trans (settleFinishedRounds_quiet (h4.inv hpairs) hsettled)
  exact h2.trans (hquiet (h5.trans (purgeTexts_quiet env c4)))

theorem reconcileContexts_edits (hi : ContextInv db) {env : ContextEnv}
    (h : reconcileContexts env db = .ok t) : ContextEdits db t := by
  simp only [reconcileContexts, bind_ok] at h
  obtain ⟨c, hreap, h⟩ := h
  cases h
  exact expireAndReconcileAll_edits hi hreap

end Heel.Cloud
