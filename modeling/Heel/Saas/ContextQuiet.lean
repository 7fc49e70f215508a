import Heel.Saas.ContextWork
import Heel.Saas.SingleUse

/-! An approval waits exactly as long as its run does, and what waits holds no grant and no unit.
What the canary calls do to that pairing: a granted run moves on, and a waiting one leaves with its
approval. -/
namespace Heel.Cloud
open Lib Lib.Checks

def ApprovalRequest.runKey (a : ApprovalRequest) : String × String × String :=
  (a.workspaceId, a.projectRef, a.runId)

def ApprovalRequest.awaits (a : ApprovalRequest) : Bool := a.status = .awaitingExecutionApproval

/-- Approvals and runs, as long as nothing but a grant moves them on. -/
structure PairInv (db : CanaryDb) : Prop where
  approvalIds : (db.approvals.map (·.approvalId)).Nodup
  approvalRuns : (db.approvals.map (·.runId)).Nodup
  runIds : (db.runs.map (·.runId)).Nodup
  named : ∀ r ∈ db.runs, r.runId ≠ ""
  paired : ∀ a ∈ db.approvals, ∃ r ∈ db.runs, r.key = a.runKey ∧ a.awaits = pregrant r.status
  ungranted : ∀ r ∈ db.runs, pregrant r.status = true →
    r.grantId = none ∧ r.reservationId = none ∧ r.quotaState = .unreserved
  granted : ∀ g ∈ db.grants, ∃ r ∈ db.runs, r.key = g.runKey ∧ r.grantId ≠ none

variable {db t u : CanaryDb} {a : ApprovalRequest} {r : CanaryRun} {g : ExecutionGrant}

theorem PairInv.run_eq (h : PairInv db) {r o : CanaryRun} (hr : r ∈ db.runs) (ho : o ∈ db.runs)
    (hid : r.runId = o.runId) : r = o :=
  Table.eq_of_key h.runIds hr ho hid

theorem PairInv.approval_eq (h : PairInv db) {a o : ApprovalRequest} (ha : a ∈ db.approvals)
    (ho : o ∈ db.approvals) (hid : a.runId = o.runId) : a = o :=
  Table.eq_of_key h.approvalRuns ha ho hid

theorem PairInv.awaits (h : PairInv db) (ha : a ∈ db.approvals) (hr : r ∈ db.runs)
    (hid : r.runId = a.runId) : r.key = a.runKey ∧ a.awaits = pregrant r.status := by
  obtain ⟨o, ho, hkey, hstatus⟩ := h.paired a ha
  have hsame : o = r := h.run_eq ho hr ((congrArg (·.2.2) hkey).trans hid.symm)
  exact hsame ▸ ⟨hkey, hstatus⟩

theorem PairInv.notPregrant (h : PairInv db) (hg : g ∈ db.grants) (hr : r ∈ db.runs)
    (hid : r.runId = g.runId) : pregrant r.status = false := by
  obtain ⟨o, ho, hkey, hgrant⟩ := h.granted g hg
  have hsame : o = r := h.run_eq ho hr ((congrArg (·.2.2) hkey).trans hid.symm)
  by_contra hwaits
  exact hgrant (hsame ▸ (h.ungranted r hr (by simpa using hwaits)).1)

/-- A run that waits stays as it is; another keeps its name and its grant, and does not wait. -/
structure RunMove (r r' : CanaryRun) : Prop where
  key : r'.key = r.key
  grant : r'.grantId = r.grantId
  waits : pregrant r'.status = pregrant r.status
  same : pregrant r.status = true → r' = r

theorem RunMove.refl (r : CanaryRun) : RunMove r r := ⟨rfl, rfl, rfl, fun _ => rfl⟩

theorem RunMove.trans {r r' r'' : CanaryRun} (h : RunMove r r') (h' : RunMove r' r'') :
    RunMove r r'' :=
  ⟨h'.key.trans h.key, h'.grant.trans h.grant, h'.waits.trans h.waits,
    fun hw => (h'.same (h.waits.trans hw)).trans (h.same hw)⟩

theorem RunMove.of_not {r r' : CanaryRun} (hkey : r'.key = r.key) (hgrant : r'.grantId = r.grantId)
    (hr : pregrant r.status = false) (hr' : pregrant r'.status = false) : RunMove r r' :=
  ⟨hkey, hgrant, hr'.trans hr.symm, fun hw => by simp [hr] at hw⟩

/-- The columns of an approval that the pairing is about. -/
def ApprovalRequest.waiting (a : ApprovalRequest) : String × (String × String × String) × Bool :=
  (a.approvalId, a.runKey, a.awaits)

/-- Only granted runs, grants and texts have moved. -/
structure Quiet (db t : CanaryDb) : Prop where
  approvals : t.approvals.map (·.waiting) = db.approvals.map (·.waiting)
  runs : List.Forall₂ RunMove db.runs t.runs
  grants : t.grants.map ExecutionGrant.runKey = db.grants.map ExecutionGrant.runKey

theorem Quiet.same (ha : t.approvals = db.approvals) (hr : t.runs = db.runs)
    (hg : t.grants = db.grants) : Quiet db t := by
  refine ⟨by rw [ha], ?_, by rw [hg]⟩
  rw [hr]
  exact List.forall₂_same.mpr fun r _ => .refl r

theorem Quiet.refl (db : CanaryDb) : Quiet db db := .same rfl rfl rfl

theorem forall₂_trans {ρ : Type} {K : ρ → ρ → Prop} (h : ∀ x y z, K x y → K y z → K x z)
    {xs ys zs : List ρ} (hxy : List.Forall₂ K xs ys) (hyz : List.Forall₂ K ys zs) :
    List.Forall₂ K xs zs := by
  induction hxy generalizing zs with
  | nil => exact hyz
  | cons hk _ ih =>
    cases hyz with
    | cons hk' hrest => exact .cons (h _ _ _ hk hk') (ih hrest)

theorem Quiet.trans (h : Quiet db t) (h' : Quiet t u) : Quiet db u :=
  ⟨h'.approvals.trans h.approvals, forall₂_trans (fun _ _ _ hk hk' => hk.trans hk') h.runs h'.runs,
    h'.grants.trans h.grants⟩

theorem Quiet.runKeys (h : Quiet db t) : t.runs.map CanaryRun.key = db.runs.map CanaryRun.key :=
  Table.map_eq_of_forall₂ h.runs fun _ _ hmove => hmove.key

theorem Quiet.runIds (h : Quiet db t) : t.runs.map (·.runId) = db.runs.map (·.runId) := by
  have hkeys := congrArg (List.map (·.2.2)) h.runKeys
  simpa [List.map_map, Function.comp_def, CanaryRun.key] using hkeys

/-- An approval of the one database waits under the same name in the other. -/
theorem Quiet.approval (h : Quiet db t) (ha : a ∈ t.approvals) :
    ∃ o ∈ db.approvals, o.waiting = a.waiting := by
  have hin : a.waiting ∈ t.approvals.map (·.waiting) := List.mem_map_of_mem ha
  rw [h.approvals, List.mem_map] at hin
  exact hin

theorem Quiet.grant (h : Quiet db t) (hg : g ∈ t.grants) :
    ∃ o ∈ db.grants, o.runKey = g.runKey := by
  have hin : g.runKey ∈ t.grants.map ExecutionGrant.runKey := List.mem_map_of_mem hg
  rw [h.grants, List.mem_map] at hin
  exact hin

theorem Quiet.inv (h : Quiet db t) (hi : PairInv db) : PairInv t where
  approvalIds := by
    have hids := congrArg (List.map (·.1)) h.approvals
    simp only [List.map_map, Function.comp_def, ApprovalRequest.waiting] at hids
    rw [hids]
    exact hi.approvalIds
  approvalRuns := by
    have hids := congrArg (List.map (·.2.1.2.2)) h.approvals
    simp only [List.map_map, Function.comp_def, ApprovalRequest.waiting,
      ApprovalRequest.runKey] at hids
    rw [hids]
    exact hi.approvalRuns
  runIds := by
    rw [h.runIds]
    exact hi.runIds
  named r hr := by
    obtain ⟨o, ho, hmove⟩ := Table.exists_left h.runs hr
    have hid : r.runId = o.runId := congrArg (·.2.2) hmove.key
    rw [hid]
    exact hi.named o ho
  paired a ha := by
    obtain ⟨o, ho, hsame⟩ := h.approval ha
    obtain ⟨r, hr, hkey, hstatus⟩ := hi.paired o ho
    obtain ⟨r', hr', hmove⟩ := Table.exists_right h.runs hr
    simp only [ApprovalRequest.waiting, Prod.mk.injEq] at hsame
    refine ⟨r', hr', ?_, ?_⟩
    · rw [hmove.key, hkey, hsame.2.1]
    · rw [hmove.waits, ← hstatus, hsame.2.2]
  ungranted r hr hwaits := by
    obtain ⟨o, ho, hmove⟩ := Table.exists_left h.runs hr
    have ho' : pregrant o.status = true := hmove.waits.symm.trans hwaits
    rw [hmove.same ho']
    exact hi.ungranted o ho ho'
  granted g hg := by
    obtain ⟨o, ho, hkey⟩ := h.grant hg
    obtain ⟨r, hr, hrkey, hgrant⟩ := hi.granted o ho
    obtain ⟨r', hr', hmove⟩ := Table.exists_right h.runs hr
    exact ⟨r', hr', hmove.key.trans (hrkey.trans hkey), hmove.grant.symm ▸ hgrant⟩

theorem Quiet.update {p : CanaryRun → Bool} {f : CanaryRun → CanaryRun}
    (ha : t.approvals = db.approvals) (hr : t.runs = Table.update p f db.runs)
    (hg : t.grants.map ExecutionGrant.runKey = db.grants.map ExecutionGrant.runKey)
    (hp : ∀ r ∈ db.runs, p r = true → RunMove r (f r)) : Quiet db t := by
  refine ⟨by rw [ha], ?_, hg⟩
  rw [hr]
  exact Table.forall₂_update RunMove.refl hp

theorem stopStatus_not (status : Phase) : pregrant (stopStatus status) = false := by
  unfold stopStatus
  split
  · rfl
  · rfl

theorem stopRun_quiet (hi : PairInv db) (hr : r ∈ db.runs) : Quiet db (db.stopRun r) := by
  unfold CanaryDb.stopRun
  split
  · refine ⟨rfl, List.forall₂_same.mpr fun r _ => .refl r, ?_⟩
    exact Table.map_update fun _ _ => rfl
  · split
    · rename_i hlive
      refine .update rfl rfl rfl fun o ho hp => ?_
      simp only [decide_eq_true_eq] at hp
      have hsame : o = r := hi.run_eq ho hr hp.2.2
      subst hsame
      refine .of_not rfl rfl ?_ (stopStatus_not _)
      have hstatus := hlive.1
      simp only [List.mem_cons, List.not_mem_nil, or_false] at hstatus
      rcases hstatus with h | h | h <;> rw [h] <;> rfl
    · exact .refl db

theorem stopDiscoveryRounds_quiet (hi : PairInv db) (id : String) :
    Quiet db (db.stopDiscoveryRounds id) := by
  unfold CanaryDb.stopDiscoveryRounds
  generalize db.rounds.filter _ = rows
  induction rows generalizing db with
  | nil => exact .refl db
  | cons d rest ih =>
    rw [List.foldl_cons]
    have hhead : Quiet db (((db.runAny d.runId).map db.stopRun).getD db) := by
      cases hrun : db.runAny d.runId with
      | none => exact .refl db
      | some r => exact stopRun_quiet hi (List.mem_of_find?_eq_some hrun)
    exact hhead.trans (ih (hhead.inv hi))

theorem closeRow_quiet {id : String} {state : AuthorizationState} {reason : CloseReason}
    {now : Int} {revokedBy : Option String}
    (h : closeRow db id state reason now revokedBy = .ok t) : Quiet db t := by
  rcases closeRow_ok h with rfl | ⟨o, -, -, ⟨-, -, answer, ledger, -, -, rfl⟩ | ⟨-, rfl⟩⟩
  · exact .refl t
  · exact .same rfl rfl rfl
  · exact .same rfl rfl rfl

theorem closeDiscovery_quiet (hi : PairInv db) {id : String} {state : AuthorizationState}
    {reason : CloseReason} {now : Int} {revokedBy : Option String}
    (h : closeDiscovery db id state reason now revokedBy = .ok t) : Quiet db t := by
  simp only [closeDiscovery, bind_ok, pure, Except.pure, Except.ok.injEq] at h
  obtain ⟨mid, hmid, rfl⟩ := h
  have hclose := closeRow_quiet hmid
  split
  · exact hclose.trans (stopDiscoveryRounds_quiet (hclose.inv hi) id)
  · exact hclose

theorem expireDiscoveryIfDue_quiet (hi : PairInv db) {o : Authorization} {now : Int}
    (h : expireDiscoveryIfDue db o now = .ok t) : Quiet db t := by
  rcases expireDiscoveryIfDue_ok h with rfl | h
  · exact .refl t
  · exact closeDiscovery_quiet hi h

theorem settleDiscoveryRound_quiet (hi : PairInv db) {now terminalAtMs requestsCompleted : Int}
    {d : Round} (h : settleDiscoveryRound now d terminalAtMs requestsCompleted db = .ok t) :
    Quiet db t := by
  unfold settleDiscoveryRound at h
  simp only at h
  split at h
  · cases h
    exact .refl db
  · split at h
    · cases h
      exact .refl db
    · have hsettled : Quiet db ((db.updateRound d.roundId
          (·.settled (max terminalAtMs d.issuedAtMs) requestsCompleted)).updateAuthorization
          d.authorizationId fun a => { a with
            executionMsUsed := a.executionMsUsed + (max terminalAtMs d.issuedAtMs - d.issuedAtMs)
            requestsCompleted := a.requestsCompleted + requestsCompleted }) :=
        .same rfl rfl rfl
      split at h
      · exact hsettled.trans (closeDiscovery_quiet (hsettled.inv hi) h)
      · cases h
        exact hsettled

theorem foldlM_quiet {α : Type} {f : CanaryDb → α → Except Refusal CanaryDb} {xs : List α}
    (hi : PairInv db) (hstep : ∀ s x t, Quiet db s → x ∈ xs → f s x = .ok t → Quiet s t)
    (h : xs.foldlM f db = .ok t) : Quiet db t := by
  induction xs generalizing db with
  | nil =>
    cases h
    exact .refl _
  | cons x rest ih =>
    rw [List.foldlM_cons, bind_ok] at h
    obtain ⟨mid, hmid, h⟩ := h
    have hfirst := hstep db x mid (.refl db) List.mem_cons_self hmid
    refine hfirst.trans (ih (hfirst.inv hi) (fun s y t hs hy => ?_) h)
    exact hstep s y t (hfirst.trans hs) (List.mem_cons_of_mem _ hy)

theorem settleFinishedRounds_quiet (hi : PairInv db) {env : RoundEnv}
    (h : settleFinishedRounds env db = .ok t) : Quiet db t := by
  refine foldlM_quiet hi (fun s _ _ hs _ hu => ?_) h
  split at hu
  · split at hu
    · exact settleDiscoveryRound_quiet (hs.inv hi) hu
    · cases hu
      exact .refl s
  · cases hu
    exact .refl s

theorem dueAuthorizations_quiet (hi : PairInv db) {now later : Int}
    (h : (dueAuthorizations now db).foldlM (fun db a =>
      closeDiscovery db a.authorizationId .expired .expired later none) db = .ok t) :
    Quiet db t :=
  foldlM_quiet hi (fun _ _ _ hs _ hu => closeDiscovery_quiet (hs.inv hi) hu) h

theorem releasedGrant_quiet (now : Int) (quota : QuotaState)
    (hn : ∀ r ∈ db.runs, r.runId = g.runId → pregrant r.status = false) {m : CanaryDb}
    (ha : m.approvals = db.approvals) (hr : m.runs = db.runs) (hgrants : m.grants = db.grants) :
    Quiet db (m.releasedGrant now g quota) := by
  refine .update ha (by simp only [CanaryDb.releasedGrant, hr]; rfl) ?_ fun r hrow hp => ?_
  · simp only [CanaryDb.releasedGrant, hgrants]
    exact Table.map_update fun _ _ => rfl
  · refine .of_not rfl rfl (hn r hrow (of_decide_eq_true hp)) ?_
    simp only
    split <;> rfl

theorem releaseGrants_quiet (hi : PairInv db) {env : ReapEnv} (h : releaseGrants env db = .ok t) :
    Quiet db t := by
  refine foldlM_quiet hi (fun s item _ hs hitem hu => ?_) h
  -- the grant is a row of the first database; a row of `s` holds its run
  obtain ⟨g, hg, hbind⟩ := List.mem_filterMap.mp hitem
  obtain ⟨run, -, hitem⟩ := Option.bind_eq_some_iff.mp hbind
  split at hitem
  swap
  · cases hitem
  · cases hitem
    have hkey : g.runKey ∈ s.grants.map ExecutionGrant.runKey := by
      rw [hs.grants]
      exact List.mem_map_of_mem hg
    obtain ⟨o, ho, hokey⟩ := List.mem_map.mp hkey
    have hoid : o.runId = g.runId := congrArg (·.2.2) hokey
    have hnot : ∀ r ∈ s.runs, r.runId = g.runId → pregrant r.status = false :=
      fun r hr hid => (hs.inv hi).notPregrant ho hr (hid.trans hoid.symm)
    simp only [releaseGrant] at hu
    split at hu
    · simp only [bind_ok, require_ok, exists_const] at hu
      obtain ⟨_, -, -, hu⟩ := hu
      cases hu
      exact releasedGrant_quiet env.now .refunded hnot rfl rfl rfl
    · cases hu
      exact releasedGrant_quiet env.now _ hnot rfl rfl rfl

theorem Quiet.others (h : Quiet db t) (hi : PairInv db) (hr : r ∈ db.runs)
    (hn : pregrant r.status = false) {o : CanaryRun} (ho : o ∈ t.runs) (hid : o.runId = r.runId) :
    pregrant o.status = false := by
  obtain ⟨s, hs, hmove⟩ := Table.exists_left h.runs ho
  have hsid : s.runId = o.runId := (congrArg (·.2.2) hmove.key).symm
  have hsame : s = r := hi.run_eq hs hr (hsid.trans hid)
  rw [hmove.waits, hsame, hn]

theorem refundOrphanRun_quiet {run : CanaryRun} (h : refundOrphanRun run db = .ok t)
    (hn : ∀ o ∈ db.runs, o.runId = run.runId → pregrant o.status = false) : Quiet db t := by
  unfold refundOrphanRun at h
  split at h
  · simp only [bind_ok] at h
    obtain ⟨_, -, h⟩ := h
    cases h
    refine .update rfl rfl rfl fun o ho hp => ?_
    simp only [decide_eq_true_eq] at hp
    exact .of_not rfl rfl (hn o ho hp.2.2) (hn o ho hp.2.2)
  · cases h
    exact .refl _

theorem finalizeOrphans_quiet (hi : PairInv db) {env : ReapEnv}
    (h : finalizeOrphans env db = .ok t) : Quiet db t := by
  refine foldlM_quiet hi (fun _ run _ hs hrun hu => ?_) h
  obtain ⟨hrow, hstatus⟩ := List.mem_filter.mp hrun
  simp only [decide_eq_true_eq, List.mem_cons, List.not_mem_nil, or_false] at hstatus
  have hnot : pregrant run.status = false := by
    rcases hstatus.1 with h | h <;> rw [h] <;> rfl
  simp only [finalizeOrphanRun, bind_ok] at hu
  obtain ⟨mid, hmid, hu⟩ := hu
  cases hu
  have hrefund := refundOrphanRun_quiet hmid fun o ho hid => hs.others hi hrow hnot ho hid
  refine hrefund.trans (.update rfl rfl ?_ fun o ho hp => ?_)
  · exact Table.map_update fun _ _ => rfl
  · simp only [decide_eq_true_eq] at hp
    exact .of_not rfl rfl ((hs.trans hrefund).others hi hrow hnot ho hp.2.2) rfl

theorem purgeTexts_quiet (env : ReapEnv) (db : CanaryDb) : Quiet db (purgeTexts env db) :=
  ⟨Table.map_update fun _ _ => rfl, List.forall₂_same.mpr fun r _ => .refl r,
    Table.map_update fun _ _ => rfl⟩

end Heel.Cloud
