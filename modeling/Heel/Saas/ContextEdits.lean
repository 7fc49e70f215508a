import Heel.Saas.ContextQuiet

/-! What the calls on runner contexts can do to the tables, one edit at a time, what holds of the
tables after every edit, and what an edit leaves to a context that has ended. -/
namespace Heel.Cloud
open Lib Lib.Checks

/-- The approval `a` and its run stop waiting; the run is given `grant`, if there is one. -/
structure StopsWaiting (a : ApprovalRequest) (grant : Option String) (db t : CanaryDb) : Prop where
  approvals : ∃ p f, t.approvals = Table.update p f db.approvals ∧
    (∀ o ∈ db.approvals, p o = true ↔ o.runId = a.runId) ∧
    ∀ o, (f o).approvalId = o.approvalId ∧ (f o).runKey = o.runKey ∧ (f o).awaits = false
  runs : ∃ p f, t.runs = Table.update p f db.runs ∧
    (∀ o ∈ db.runs, p o = true ↔ o.runId = a.runId) ∧
    ∀ o, (f o).key = o.key ∧ pregrant (f o).status = false ∧ (f o).grantId = grant.or o.grantId

section Pairing
variable {db t : CanaryDb} {a : ApprovalRequest} {grant : Option String}

theorem StopsWaiting.run (h : StopsWaiting a grant db t) {r : CanaryRun} (hr : r ∈ db.runs) :
    ∃ r' ∈ t.runs, r'.key = r.key ∧ (r.runId ≠ a.runId → r' = r) ∧
      (r.runId = a.runId → pregrant r'.status = false ∧ r'.grantId = grant.or r.grantId) := by
  obtain ⟨p, f, hrows, hp, hf⟩ := h.runs
  rw [hrows]
  refine ⟨_, Table.mem_update.mpr ⟨r, hr, rfl⟩, ?_⟩
  by_cases hid : r.runId = a.runId
  · rw [if_pos ((hp r hr).mpr hid)]
    exact ⟨(hf r).1, fun hne => absurd hid hne, fun _ => (hf r).2⟩
  · rw [if_neg fun hpr => hid ((hp r hr).mp hpr)]
    exact ⟨rfl, fun _ => rfl, fun heq => absurd heq hid⟩

theorem StopsWaiting.waiting (h : StopsWaiting a grant db t) {r : CanaryRun} (hr : r ∈ t.runs)
    (hw : pregrant r.status = true) : r ∈ db.runs ∧ r.runId ≠ a.runId := by
  obtain ⟨p, f, hrows, hp, hf⟩ := h.runs
  rw [hrows] at hr
  obtain ⟨o, ho, rfl⟩ := Table.mem_update.mp hr
  by_cases hpo : p o = true
  · rw [if_pos hpo, (hf o).2.1] at hw
    cases hw
  · rw [if_neg hpo]
    exact ⟨ho, fun hid => hpo ((hp o ho).mpr hid)⟩

theorem StopsWaiting.pending (h : StopsWaiting a grant db t) {o : ApprovalRequest}
    (ho : o ∈ t.approvals) (hw : o.awaits = true) : o ∈ db.approvals := by
  obtain ⟨p, f, hrows, hp, hf⟩ := h.approvals
  rw [hrows] at ho
  obtain ⟨u, hu, rfl⟩ := Table.mem_update.mp ho
  by_cases hpu : p u = true
  · rw [if_pos hpu, (hf u).2.2] at hw
    cases hw
  · rwa [if_neg hpu]

theorem StopsWaiting.runIds (h : StopsWaiting a grant db t) : t.runs.map (·.runId) = db.runs.map
    (·.runId) := by
  obtain ⟨p, f, hrows, -, hf⟩ := h.runs
  rw [hrows]
  exact Table.map_update fun o _ => congrArg (·.2.2) (hf o).1

theorem StopsWaiting.approvalKeys (h : StopsWaiting a grant db t) :
    t.approvals.map (fun o => (o.approvalId, o.runKey)) =
      db.approvals.map fun o => (o.approvalId, o.runKey) := by
  obtain ⟨p, f, hrows, -, hf⟩ := h.approvals
  rw [hrows]
  exact Table.map_update fun o _ => by rw [(hf o).1, (hf o).2.1]

theorem StopsWaiting.inv (h : StopsWaiting a grant db t) (hi : PairInv db) (ha : a ∈ db.approvals)
    (hg : ∀ g ∈ t.grants, (∃ o ∈ db.grants, o.runKey = g.runKey) ∨
      (g.runKey = a.runKey ∧ grant ≠ none)) : PairInv t where
  approvalIds := by
    have hids := congrArg (List.map (·.1)) h.approvalKeys
    simp only [List.map_map, Function.comp_def] at hids
    rw [hids]
    exact hi.approvalIds
  approvalRuns := by
    have hids := congrArg (List.map (·.2.2.2)) h.approvalKeys
    simp only [List.map_map, Function.comp_def, ApprovalRequest.runKey] at hids
    rw [hids]
    exact hi.approvalRuns
  runIds := by
    rw [h.runIds]
    exact hi.runIds
  named r hr := by
    have hin : r.runId ∈ t.runs.map (·.runId) := List.mem_map_of_mem hr
    rw [h.runIds, List.mem_map] at hin
    obtain ⟨o, ho, hid⟩ := hin
    exact hid ▸ hi.named o ho
  paired o' ho' := by
    obtain ⟨p, f, hrows, hp, hf⟩ := h.approvals
    rw [hrows] at ho'
    obtain ⟨o, ho, rfl⟩ := Table.mem_update.mp ho'
    obtain ⟨r, hr, hkey, hstatus⟩ := hi.paired o ho
    obtain ⟨r', hr', hkey', hother, hmine⟩ := h.run hr
    have hid : r.runId = o.runId := congrArg (·.2.2) hkey
    refine ⟨r', hr', ?_, ?_⟩
    · rw [hkey', hkey]
      split
      · exact (hf o).2.1.symm
      · rfl
    · by_cases hpo : p o = true
      · rw [if_pos hpo, (hf o).2.2]
        exact (hmine (hid.trans ((hp o ho).mp hpo))).1.symm
      · rw [if_neg hpo, hother fun hra => hpo ((hp o ho).mpr (hid.symm.trans hra))]
        exact hstatus
  ungranted r hr hw := hi.ungranted r (h.waiting hr hw).1 hw
  granted g hgt := by
    rcases hg g hgt with ⟨o, ho, hkey⟩ | ⟨hkey, hsome⟩
    · obtain ⟨r, hr, hrkey, hgrant⟩ := hi.granted o ho
      obtain ⟨r', hr', hkey', hother, hmine⟩ := h.run hr
      refine ⟨r', hr', hkey'.trans (hrkey.trans hkey), ?_⟩
      by_cases hid : r.runId = a.runId
      · rw [(hmine hid).2]
        cases grant with
        | none => exact hgrant
        | some id => simp
      · rw [hother hid]
        exact hgrant
    · obtain ⟨r, hr, hrkey, -⟩ := hi.paired a ha
      obtain ⟨r', hr', hkey', -, hmine⟩ := h.run hr
      refine ⟨r', hr', hkey'.trans (hrkey.trans hkey.symm), ?_⟩
      rw [(hmine (congrArg (·.2.2) hrkey)).2]
      cases grant with
      | none => exact absurd rfl hsome
      | some id => simp

theorem PairInv.submit (hi : PairInv db) {r : CanaryRun} (ha : ∀ o ∈ db.approvals,
    o.approvalId ≠ a.approvalId) (hr : ∀ o ∈ db.runs, o.runId ≠ r.runId) (hkey : r.key = a.runKey)
    (hw : a.awaits = true) (hwr : pregrant r.status = true) (hname : r.runId ≠ "")
    (hun : r.grantId = none ∧ r.reservationId = none ∧ r.quotaState = .unreserved) :
    PairInv { db with approvals := db.approvals ++ [a], runs := db.runs ++ [r] } where
  approvalIds := by
    rw [List.map_append]
    refine List.nodup_append.mpr ⟨hi.approvalIds, by simp, ?_⟩
    rintro _ hin _ hnew rfl
    obtain ⟨o, ho, hid⟩ := List.mem_map.mp hin
    exact ha o ho (hid.trans (by simpa using hnew))
  approvalRuns := by
    rw [List.map_append]
    refine List.nodup_append.mpr ⟨hi.approvalRuns, by simp, ?_⟩
    rintro _ hin _ hnew rfl
    obtain ⟨o, ho, hid⟩ := List.mem_map.mp hin
    -- the run of `o` is an older one
    obtain ⟨s, hs, hskey, -⟩ := hi.paired o ho
    refine hr s hs ((congrArg (·.2.2) hskey).trans (hid.trans ?_))
    simp only [List.map_cons, List.map_nil, List.mem_singleton] at hnew
    exact hnew.trans (congrArg (·.2.2) hkey).symm
  runIds := by
    rw [List.map_append]
    refine List.nodup_append.mpr ⟨hi.runIds, by simp, ?_⟩
    rintro _ hin _ hnew rfl
    obtain ⟨o, ho, hid⟩ := List.mem_map.mp hin
    exact hr o ho (hid.trans (by simpa using hnew))
  named o ho := by
    rcases List.mem_append.mp ho with ho | ho
    · exact hi.named o ho
    · rw [List.mem_singleton.mp ho]
      exact hname
  paired o ho := by
    rcases List.mem_append.mp ho with ho | ho
    · obtain ⟨s, hs, hpair⟩ := hi.paired o ho
      exact ⟨s, List.mem_append_left _ hs, hpair⟩
    · rw [List.mem_singleton.mp ho]
      exact ⟨r, List.mem_append_right _ (List.mem_singleton.mpr rfl), hkey, hw.trans hwr.symm⟩
  ungranted o ho := by
    rcases List.mem_append.mp ho with ho | ho
    · exact hi.ungranted o ho
    · rw [List.mem_singleton.mp ho]
      exact fun _ => hun
  granted g hg := by
    obtain ⟨s, hs, hgrant⟩ := hi.granted g hg
    exact ⟨s, List.mem_append_left _ hs, hgrant⟩

end Pairing

/-! ### The edits -/

def ProjectionLink.runKey (l : ProjectionLink) : String × String × String :=
  (l.key.workspaceId, l.key.projectRef, l.runId)

def ContextKey.runner (k : ContextKey) : String × String := (k.workspaceId, k.runnerId)

/-- An update that leaves a binding its key, its status, its end and who revoked it. -/
structure ContextBinding.Marked (b b' : ContextBinding) : Prop where
  key : b'.key = b.key
  status : b'.status = b.status
  expires : b'.expiresAtMs = b.expiresAtMs
  revoker : b'.revokedBy = b.revokedBy

structure ContextBinding.Ends (b b' : ContextBinding) : Prop where
  key : b'.key = b.key
  status : b'.status ≠ .active
  expires : b'.expiresAtMs = b.expiresAtMs
  revoker : b'.status = .revoked → ∃ actor, b'.revokedBy = some actor ∧ actor ≠ ""

def ContextDb.enqueued (db : ContextDb) (b : ContextBinding) : List CancellationRow :=
  if db.links.any (·.key = b.key) then
    db.queue ++ [{ key := b.key, bindingExpiresAtMs := b.expiresAtMs }]
  else db.queue

/-- No run of a link past the cursor of `q`, and not past the new one, still waits. -/
def ContextDb.Scanned (db : ContextDb) (q : CancellationRow) (cursor : Option String) : Prop :=
  ∀ l ∈ db.links, l.key = q.key → Page.past q.lastScannedRunId l.runId = true →
    cursor.any (l.runId ≤ ·) = true → ∀ r ∈ db.canary.runs, r.runId = l.runId →
    pregrant r.status = false

/-- One edit, with what the code has checked when it makes it. -/
inductive ContextEdit : ContextDb → ContextDb → Prop
  /-- Tables that hold no binding, no link, no queue row and no waiting run. -/
  | quiet (db : ContextDb) (c : CanaryDb) (affinities : List Affinity)
      (planRequests : List PlanRequest) (hc : Quiet db.canary c) :
      ContextEdit db { db with
        canary := c, affinities := affinities, planRequests := planRequests }
  | mark (db : ContextDb) (p : ContextBinding → Bool) (f : ContextBinding → ContextBinding)
      (hf : ∀ b : ContextBinding, b.Marked (f b)) : ContextEdit db (db.updateBindings p f)
  | bind (db : ContextDb) (b : ContextBinding) (hs : b.status = .active) (he : 0 < b.expiresAtMs)
      (huniq : ∀ o ∈ db.bindings, o.key.rcbId ≠ b.key.rcbId ∧
        ¬ (o.key.runner = b.key.runner ∧ o.status = .active)) :
      ContextEdit db { db with bindings := db.bindings ++ [b] }
  /-- A binding ends, and is queued if it has links. -/
  | terminate (db : ContextDb) (row : ContextBinding) (p : ContextBinding → Bool)
      (f : ContextBinding → ContextBinding) (hrow : row ∈ db.bindings) (hs : row.status = .active)
      (hp : ∀ b ∈ db.bindings, p b = true ↔ b = row) (hf : ∀ b : ContextBinding, b.Ends (f b)) :
      ContextEdit db { db.updateBindings p f with queue := db.enqueued row }
  | submit (db : ContextDb) (a : ApprovalRequest) (r : CanaryRun)
      (ha : ∀ o ∈ db.canary.approvals, o.approvalId ≠ a.approvalId)
      (hr : ∀ o ∈ db.canary.runs, o.runId ≠ r.runId) (hkey : r.key = a.runKey)
      (hw : a.awaits = true) (hwr : pregrant r.status = true) (hname : r.runId ≠ "")
      (hun : r.grantId = none ∧ r.reservationId = none ∧ r.quotaState = .unreserved) :
      ContextEdit db { db with canary := { db.canary with
        approvals := db.canary.approvals ++ [a], runs := db.canary.runs ++ [r] } }
  /-- An approval is linked to a live binding. -/
  | link (db : ContextDb) (l : ProjectionLink) (a : ApprovalRequest) (b : ContextBinding)
      (ha : a ∈ db.canary.approvals) (hid : a.approvalId = l.approvalId)
      (hkey : a.runKey = l.runKey)
      (hb : b ∈ db.bindings) (hbkey : b.key = l.key) (hs : b.status = .active)
      (hfresh : ∀ o ∈ db.links, o.runKey = l.runKey → o.approvalId ≠ l.approvalId) :
      ContextEdit db { db with links := db.links ++ [l] }
  /-- A grant is issued; every binding the approval is linked to is live. -/
  | grant (db : ContextDb) (c : CanaryDb) (a : ApprovalRequest) (g : ExecutionGrant)
      (ha : a ∈ db.canary.approvals) (hc : StopsWaiting a (some g.grantId) db.canary c)
      (hg : c.grants = db.canary.grants ++ [g]) (hkey : g.runKey = a.runKey)
      (hlive : ∀ l ∈ db.links, l.runId = a.runId → ∀ b ∈ db.bindings, b.key = l.key →
        b.status = .active) : ContextEdit db { db with canary := c }
  /-- An approval expires or is cancelled, with its run. -/
  | close (db : ContextDb) (c : CanaryDb) (a : ApprovalRequest) (ha : a ∈ db.canary.approvals)
      (hc : StopsWaiting a none db.canary c) (hg : c.grants = db.canary.grants) :
      ContextEdit db { db with canary := c }
  | scan (db : ContextDb) (q : CancellationRow) (cursor : String) (hq : q ∈ db.queue)
      (hdone : db.Scanned q (some cursor)) :
      ContextEdit db { db with
        queue := Table.update (ContextDb.isQueueRow q)
          (fun o => { o with lastScannedRunId := some cursor }) db.queue }
  /-- The row of a binding none of whose runs waits any longer is taken off the queue. -/
  | dequeue (db : ContextDb) (q : CancellationRow) (hq : q ∈ db.queue)
      (hdone : ∀ l ∈ db.links, l.key = q.key → Page.past q.lastScannedRunId l.runId = true →
        ∀ r ∈ db.canary.runs, r.runId = l.runId → pregrant r.status = false) :
      ContextEdit db (db.dequeue q)

abbrev ContextEdits : ContextDb → ContextDb → Prop := Relation.ReflTransGen ContextEdit

/-! ### What holds after every edit -/

/-- A waiting run of a context that has ended is still to be scanned. -/
def ContextDb.Covered (db : ContextDb) : Prop :=
  ∀ l ∈ db.links, ∀ b ∈ db.bindings, b.key = l.key → b.status ≠ .active →
    ∀ r ∈ db.canary.runs, r.runId = l.runId → pregrant r.status = true →
    ∃ q ∈ db.queue, q.key = b.key ∧ Page.past q.lastScannedRunId l.runId = true

structure ContextInv (db : ContextDb) : Prop where
  pairs : PairInv db.canary
  ids : (db.bindings.map (·.key.rcbId)).Nodup
  oneActive : ∀ b ∈ db.bindings, ∀ o ∈ db.bindings, b.status = .active → o.status = .active →
    o.key.runner = b.key.runner → o = b
  revoker : ∀ b ∈ db.bindings, b.status = .revoked → ∃ actor, b.revokedBy = some actor ∧ actor ≠ ""
  expiry : ∀ b ∈ db.bindings, 0 < b.expiresAtMs
  linkRuns : (db.links.map (·.runId)).Nodup
  linkBinding : ∀ l ∈ db.links, ∃ b ∈ db.bindings, b.key = l.key
  linkApproval : ∀ l ∈ db.links, ∃ a ∈ db.canary.approvals, a.approvalId = l.approvalId ∧
    a.runKey = l.runKey
  queueIds : (db.queue.map (·.key.rcbId)).Nodup
  queued : ∀ q ∈ db.queue, ∃ b ∈ db.bindings, b.key = q.key ∧
    b.expiresAtMs = q.bindingExpiresAtMs ∧ b.status ≠ .active
  covered : db.Covered

variable {db t u : ContextDb}

theorem ContextInv.binding_eq (h : ContextInv db) {b o : ContextBinding} (hb : b ∈ db.bindings)
    (ho : o ∈ db.bindings) (hid : b.key.rcbId = o.key.rcbId) : b = o :=
  Table.eq_of_key h.ids hb ho hid

theorem ContextInv.queue_eq (h : ContextInv db) {q o : CancellationRow} (hq : q ∈ db.queue)
    (ho : o ∈ db.queue) (hrow : ContextDb.isQueueRow q o = true) : o = q := by
  simp only [ContextDb.isQueueRow, decide_eq_true_eq] at hrow
  exact Table.eq_of_key h.queueIds ho hq hrow.2.2.1

theorem ContextInv.link_approval_eq (h : ContextInv db) {l : ProjectionLink} {a : ApprovalRequest}
    (hl : l ∈ db.links) (ha : a ∈ db.canary.approvals) (hid : a.runId = l.runId) :
    a.approvalId = l.approvalId ∧ a.runKey = l.runKey := by
  obtain ⟨o, ho, hoid, hokey⟩ := h.linkApproval l hl
  have hsame : o = a := h.pairs.approval_eq ho ha ((congrArg (·.2.2) hokey).trans hid.symm)
  exact hsame ▸ ⟨hoid, hokey⟩

theorem ContextInv.link_run (h : ContextInv db) {l : ProjectionLink} (hl : l ∈ db.links) :
    ∃ a ∈ db.canary.approvals, ∃ r ∈ db.canary.runs, a.approvalId = l.approvalId ∧
      a.runKey = l.runKey ∧ r.key = l.runKey ∧ a.awaits = pregrant r.status := by
  obtain ⟨a, ha, haid, hakey⟩ := h.linkApproval l hl
  obtain ⟨r, hr, hkey, hstatus⟩ := h.pairs.paired a ha
  exact ⟨a, ha, r, hr, haid, hakey, hkey.trans hakey, hstatus⟩

/-- The waiting runs of a database with the same bindings, links and queue were waiting before. -/
theorem ContextDb.Covered.of_waiting (h : db.Covered) {c : CanaryDb}
    (hc : ∀ r ∈ c.runs, pregrant r.status = true → r ∈ db.canary.runs) :
    ({ db with canary := c } : ContextDb).Covered :=
  fun l hl b hb hkey hs r hr hid hw => h l hl b hb hkey hs r (hc r hr hw) hid hw

/-- The tables of contexts are the same, and those of the canary keep their keys. -/
theorem ContextInv.of_canary (h : ContextInv db) {c : CanaryDb} (hpairs : PairInv c)
    (hkeys : c.approvals.map (fun o => (o.approvalId, o.runKey)) =
      db.canary.approvals.map fun o => (o.approvalId, o.runKey))
    (hw : ∀ r ∈ c.runs, pregrant r.status = true → r ∈ db.canary.runs) :
    ContextInv { db with canary := c } :=
  { h with
    pairs := hpairs
    linkApproval := by
      intro l hl
      obtain ⟨a, ha, hid, hkey⟩ := h.linkApproval l hl
      have hin : (a.approvalId, a.runKey) ∈ c.approvals.map fun o => (o.approvalId, o.runKey) := by
        rw [hkeys]
        exact List.mem_map_of_mem ha
      obtain ⟨o, ho, hsame⟩ := List.mem_map.mp hin
      simp only [Prod.mk.injEq] at hsame
      exact ⟨o, ho, hsame.1.trans hid, hsame.2.trans hkey⟩
    covered := h.covered.of_waiting hw }

theorem ContextInv.quiet (h : ContextInv db) {c : CanaryDb} (hc : Quiet db.canary c) :
    ContextInv { db with canary := c } := by
  refine h.of_canary (hc.inv h.pairs) ?_ fun r hr hw => ?_
  · have hkeys := congrArg (List.map fun w => (w.1, w.2.1)) hc.approvals
    simpa only [List.map_map, Function.comp_def, ApprovalRequest.waiting] using hkeys
  · obtain ⟨o, ho, hmove⟩ := Table.exists_left hc.runs hr
    rw [hmove.same (hmove.waits.symm.trans hw)]
    exact ho

theorem ContextInv.leaves (h : ContextInv db) {c : CanaryDb} {a : ApprovalRequest}
    {grant : Option String} (ha : a ∈ db.canary.approvals) (hc : StopsWaiting a grant db.canary c)
    (hg : ∀ g ∈ c.grants, (∃ o ∈ db.canary.grants, o.runKey = g.runKey) ∨
      (g.runKey = a.runKey ∧ grant ≠ none)) : ContextInv { db with canary := c } :=
  h.of_canary (hc.inv h.pairs ha hg) hc.approvalKeys fun _ hr hw => (hc.waiting hr hw).1

theorem ContextInv.mark (h : ContextInv db) (p : ContextBinding → Bool)
    {f : ContextBinding → ContextBinding} (hf : ∀ b : ContextBinding, b.Marked (f b)) :
    ContextInv (db.updateBindings p f) := by
  have hmarked : ∀ b : ContextBinding, b.Marked (if p b then f b else b) := by
    intro b
    split
    · exact hf b
    · exact ⟨rfl, rfl, rfl, rfl⟩
  have hback : ∀ b ∈ (db.updateBindings p f).bindings, ∃ o ∈ db.bindings, o.Marked b := by
    intro b hb
    obtain ⟨o, ho, rfl⟩ := Table.mem_update.mp hb
    exact ⟨o, ho, hmarked o⟩
  have hforth : ∀ o ∈ db.bindings, ∃ b ∈ (db.updateBindings p f).bindings, o.Marked b :=
    fun o ho => ⟨_, Table.mem_update.mpr ⟨o, ho, rfl⟩, hmarked o⟩
  refine { h with ids := ?_, oneActive := ?_, revoker := ?_, expiry := ?_, linkBinding := ?_
                  queued := ?_, covered := ?_ }
  · rw [ContextDb.updateBindings, Table.map_update fun b _ => by rw [(hf b).key]]
    exact h.ids
  · intro b hb o ho hbs hos hrunner
    obtain ⟨b', hb', rfl⟩ := Table.mem_update.mp hb
    obtain ⟨o', ho', rfl⟩ := Table.mem_update.mp ho
    have hsame := h.oneActive b' hb' o' ho' ((hmarked b').status.symm.trans hbs)
      ((hmarked o').status.symm.trans hos) (by rwa [(hmarked b').key, (hmarked o').key] at hrunner)
    rw [hsame]
  · intro b hb hs
    obtain ⟨o, ho, hm⟩ := hback b hb
    rw [hm.revoker]
    exact h.revoker o ho (hm.status.symm.trans hs)
  · intro b hb
    obtain ⟨o, ho, hm⟩ := hback b hb
    rw [hm.expires]
    exact h.expiry o ho
  · intro l hl
    obtain ⟨o, ho, hkey⟩ := h.linkBinding l hl
    obtain ⟨b, hb, hm⟩ := hforth o ho
    exact ⟨b, hb, hm.key.trans hkey⟩
  · intro q hq
    obtain ⟨o, ho, hkey, hexp, hs⟩ := h.queued q hq
    obtain ⟨b, hb, hm⟩ := hforth o ho
    exact ⟨b, hb, hm.key.trans hkey, hm.expires.trans hexp, hm.status.symm ▸ hs⟩
  · intro l hl b hb hkey hs r hr hid hw
    obtain ⟨o, ho, hm⟩ := hback b hb
    obtain ⟨q, hq, hqkey, hpast⟩ := h.covered l hl o ho (hm.key.symm.trans hkey)
      (hm.status ▸ hs) r hr hid hw
    exact ⟨q, hq, hqkey.trans hm.key.symm, hpast⟩

theorem ContextInv.bind (h : ContextInv db) {b : ContextBinding} (hs : b.status = .active)
    (he : 0 < b.expiresAtMs) (huniq : ∀ o ∈ db.bindings, o.key.rcbId ≠ b.key.rcbId ∧
      ¬ (o.key.runner = b.key.runner ∧ o.status = .active)) :
    ContextInv { db with bindings := db.bindings ++ [b] } := by
  have hcase : ∀ o ∈ db.bindings ++ [b], o ∈ db.bindings ∨ o = b := by
    intro o ho
    rcases List.mem_append.mp ho with ho | ho
    · exact .inl ho
    · exact .inr (List.mem_singleton.mp ho)
  refine { h with ids := ?_, oneActive := ?_, revoker := ?_, expiry := ?_, linkBinding := ?_
                  queued := ?_, covered := ?_ }
  · rw [List.map_append]
    refine List.nodup_append.mpr ⟨h.ids, by simp, ?_⟩
    rintro _ hin _ hnew rfl
    obtain ⟨o, ho, hid⟩ := List.mem_map.mp hin
    exact (huniq o ho).1 (hid.trans (by simpa using hnew))
  · intro o ho o' ho' hos ho's hrunner
    rcases hcase o ho with hin | rfl <;> rcases hcase o' ho' with hin' | rfl
    · exact h.oneActive o hin o' hin' hos ho's hrunner
    · exact absurd ⟨hrunner.symm, hos⟩ (huniq o hin).2
    · exact absurd ⟨hrunner, ho's⟩ (huniq o' hin').2
    · rfl
  · intro o ho hrev
    rcases hcase o ho with ho | rfl
    · exact h.revoker o ho hrev
    · rw [hs] at hrev
      cases hrev
  · intro o ho
    rcases hcase o ho with ho | rfl
    · exact h.expiry o ho
    · exact he
  · intro l hl
    obtain ⟨o, ho, hkey⟩ := h.linkBinding l hl
    exact ⟨o, List.mem_append_left _ ho, hkey⟩
  · intro q hq
    obtain ⟨o, ho, hrest⟩ := h.queued q hq
    exact ⟨o, List.mem_append_left _ ho, hrest⟩
  · intro l hl o ho hkey hos
    rcases hcase o ho with ho | rfl
    · exact h.covered l hl o ho hkey hos
    · exact absurd hs hos

theorem ContextInv.terminate (h : ContextInv db) {row : ContextBinding} {p : ContextBinding → Bool}
    {f : ContextBinding → ContextBinding} (hrow : row ∈ db.bindings) (hs : row.status = .active)
    (hp : ∀ b ∈ db.bindings, p b = true ↔ b = row) (hf : ∀ b : ContextBinding, b.Ends (f b)) :
    ContextInv { db.updateBindings p f with queue := db.enqueued row } := by
  -- a binding after the edit is the ended one, or another that has not changed
  have hback : ∀ b ∈ Table.update p f db.bindings, b = f row ∨ (b ∈ db.bindings ∧ b ≠ row) := by
    intro b hb
    obtain ⟨o, ho, rfl⟩ := Table.mem_update.mp hb
    by_cases hpo : p o = true
    · rw [if_pos hpo, (hp o ho).mp hpo]
      exact .inl rfl
    · rw [if_neg hpo]
      exact .inr ⟨ho, fun heq => hpo ((hp o ho).mpr heq)⟩
  have hself : f row ∈ Table.update p f db.bindings :=
    Table.mem_update.mpr ⟨row, hrow, by rw [if_pos ((hp row hrow).mpr rfl)]⟩
  have hforth : ∀ o ∈ db.bindings, o ≠ row → o ∈ Table.update p f db.bindings :=
    fun o ho hne => Table.mem_update.mpr ⟨o, ho, by rw [if_neg fun hpo => hne ((hp o ho).mp hpo)]⟩
  have hsub : ∀ q ∈ db.queue, q ∈ db.enqueued row := by
    intro q hq
    unfold ContextDb.enqueued
    split
    · exact List.mem_append_left _ hq
    · exact hq
  have hnew : ∀ q ∈ db.enqueued row, q ∈ db.queue ∨
      q = { key := row.key, bindingExpiresAtMs := row.expiresAtMs } := by
    intro q hq
    unfold ContextDb.enqueued at hq
    split at hq
    · rcases List.mem_append.mp hq with hq | hq
      · exact .inl hq
      · exact .inr (List.mem_singleton.mp hq)
    · exact .inl hq
  -- nothing is queued for a binding that has not ended
  have hunqueued : ∀ q ∈ db.queue, q.key.rcbId ≠ row.key.rcbId := by
    intro q hq hid
    obtain ⟨b, hb, hkey, -, hbs⟩ := h.queued q hq
    exact hbs (h.binding_eq hb hrow (hkey ▸ hid) ▸ hs)
  refine { h with ids := ?_, oneActive := ?_, revoker := ?_, expiry := ?_, linkBinding := ?_
                  queueIds := ?_, queued := ?_, covered := ?_ }
  · show ((Table.update p f db.bindings).map fun b => b.key.rcbId).Nodup
    rw [Table.map_update fun b _ => by rw [(hf b).key]]
    exact h.ids
  · intro b hb o ho hbs hos hrunner
    rcases hback b hb with rfl | ⟨hb, -⟩
    · exact absurd hbs (hf row).status
    · rcases hback o ho with rfl | ⟨ho, -⟩
      · exact absurd hos (hf row).status
      · exact h.oneActive b hb o ho hbs hos hrunner
  · intro b hb hrev
    rcases hback b hb with rfl | ⟨hb, -⟩
    · exact (hf row).revoker hrev
    · exact h.revoker b hb hrev
  · intro b hb
    rcases hback b hb with rfl | ⟨hb, -⟩
    · rw [(hf row).expires]
      exact h.expiry row hrow
    · exact h.expiry b hb
  · intro l hl
    obtain ⟨o, ho, hkey⟩ := h.linkBinding l hl
    by_cases heq : o = row
    · exact ⟨f row, hself, (hf row).key.trans (heq ▸ hkey)⟩
    · exact ⟨o, hforth o ho heq, hkey⟩
  · unfold ContextDb.enqueued
    split
    · rw [List.map_append]
      refine List.nodup_append.mpr ⟨h.queueIds, by simp, ?_⟩
      rintro _ hin _ hin' rfl
      obtain ⟨q, hq, hid⟩ := List.mem_map.mp hin
      exact hunqueued q hq (hid.trans (by simpa using hin'))
    · exact h.queueIds
  · intro q hq
    rcases hnew q hq with hq | rfl
    · obtain ⟨b, hb, hkey, hexp, hbs⟩ := h.queued q hq
      exact ⟨b, hforth b hb fun heq => hbs (heq ▸ hs), hkey, hexp, hbs⟩
    · exact ⟨f row, hself, (hf row).key, (hf row).expires, (hf row).status⟩
  · intro l hl b hb hkey hbs r hr hid hw
    rcases hback b hb with rfl | ⟨hb, -⟩
    · refine ⟨{ key := row.key, bindingExpiresAtMs := row.expiresAtMs }, ?_, (hf row).key.symm, rfl⟩
      have hlinked : (db.links.any fun l => l.key = row.key) = true :=
        List.any_eq_true.mpr ⟨l, hl, decide_eq_true (hkey.symm.trans (hf row).key)⟩
      show _ ∈ db.enqueued row
      rw [ContextDb.enqueued, if_pos hlinked]
      exact List.mem_append_right _ (List.mem_singleton.mpr rfl)
    · obtain ⟨q, hq, hqkey, hpast⟩ := h.covered l hl b hb hkey hbs r hr hid hw
      exact ⟨q, hsub q hq, hqkey, hpast⟩

theorem ContextInv.submit (h : ContextInv db) {a : ApprovalRequest} {r : CanaryRun}
    (hpairs : PairInv { db.canary with
      approvals := db.canary.approvals ++ [a], runs := db.canary.runs ++ [r] })
    (hr : ∀ o ∈ db.canary.runs, o.runId ≠ r.runId) :
    ContextInv { db with canary := { db.canary with
      approvals := db.canary.approvals ++ [a], runs := db.canary.runs ++ [r] } } := by
  refine { h with pairs := hpairs, linkApproval := ?_, covered := ?_ }
  · intro l hl
    obtain ⟨o, ho, hrest⟩ := h.linkApproval l hl
    exact ⟨o, List.mem_append_left _ ho, hrest⟩
  · intro l hl b hb hkey hs o ho hid hw
    rcases List.mem_append.mp ho with ho | ho
    · exact h.covered l hl b hb hkey hs o ho hid hw
    · -- the run of a link is older than the new one
      obtain ⟨-, -, s, hs', -, -, hskey, -⟩ := h.link_run hl
      rw [List.mem_singleton.mp ho] at hid
      exact absurd ((congrArg (·.2.2) hskey).trans hid.symm) (hr s hs')

theorem ContextInv.link (h : ContextInv db) {l : ProjectionLink} {a : ApprovalRequest}
    {b : ContextBinding} (ha : a ∈ db.canary.approvals) (hid : a.approvalId = l.approvalId)
    (hkey : a.runKey = l.runKey) (hb : b ∈ db.bindings) (hbkey : b.key = l.key)
    (hs : b.status = .active)
    (hfresh : ∀ o ∈ db.links, o.runKey = l.runKey → o.approvalId ≠ l.approvalId) :
    ContextInv { db with links := db.links ++ [l] } := by
  refine { h with linkRuns := ?_, linkBinding := ?_, linkApproval := ?_, covered := ?_ }
  · rw [List.map_append]
    refine List.nodup_append.mpr ⟨h.linkRuns, by simp, ?_⟩
    rintro _ hin _ hnew rfl
    obtain ⟨o, ho, hoid⟩ := List.mem_map.mp hin
    have hlast : o.runId = l.runId := hoid.trans (by simpa using hnew)
    have hrun : a.runId = o.runId := (congrArg (·.2.2) hkey).trans hlast.symm
    obtain ⟨haid, hakey⟩ := h.link_approval_eq ho ha hrun
    exact hfresh o ho (hakey.symm.trans hkey) (haid.symm.trans hid)
  · intro o ho
    rcases List.mem_append.mp ho with ho | ho
    · exact h.linkBinding o ho
    · rw [List.mem_singleton.mp ho]
      exact ⟨b, hb, hbkey⟩
  · intro o ho
    rcases List.mem_append.mp ho with ho | ho
    · exact h.linkApproval o ho
    · rw [List.mem_singleton.mp ho]
      exact ⟨a, ha, hid, hkey⟩
  · intro o ho b' hb' hkey' hs'
    rcases List.mem_append.mp ho with ho | ho
    · exact h.covered o ho b' hb' hkey' hs'
    · rw [List.mem_singleton.mp ho] at hkey'
      have hsame : b' = b := h.binding_eq hb' hb (congrArg (·.rcbId) (hkey'.trans hbkey.symm))
      exact absurd (hsame ▸ hs) hs'

theorem ContextInv.scan (h : ContextInv db) {q : CancellationRow} {cursor : String}
    (hq : q ∈ db.queue) (hdone : db.Scanned q (some cursor)) :
    ContextInv { db with
      queue := Table.update (ContextDb.isQueueRow q)
        (fun o => { o with lastScannedRunId := some cursor }) db.queue } := by
  refine { h with queueIds := ?_, queued := ?_, covered := ?_ }
  · refine (congrArg List.Nodup (Table.map_update ?_)).mpr h.queueIds
    exact fun _ _ => rfl
  · intro o ho
    obtain ⟨o', ho', rfl⟩ := Table.mem_update.mp ho
    obtain ⟨b, hb, hrest⟩ := h.queued o' ho'
    refine ⟨b, hb, ?_⟩
    split <;> exact hrest
  · intro l hl b hb hkey hs r hr hid hw
    obtain ⟨o, ho, hokey, hpast⟩ := h.covered l hl b hb hkey hs r hr hid hw
    refine ⟨_, Table.mem_update.mpr ⟨o, ho, rfl⟩, ?_⟩
    by_cases hrow : ContextDb.isQueueRow q o = true
    · rw [if_pos hrow]
      refine ⟨hokey, (Page.past_some _ _).mpr ?_⟩
      have hsame := h.queue_eq hq ho hrow
      by_contra hle
      have hnot := hdone l hl (hkey.symm.trans (hokey.symm.trans (congrArg (·.key) hsame)))
        (hsame ▸ hpast) (decide_eq_true (not_lt.mp hle)) r hr hid
      rw [hw] at hnot
      cases hnot
    · rw [if_neg hrow]
      exact ⟨hokey, hpast⟩

theorem ContextInv.dequeue (h : ContextInv db) {q : CancellationRow} (hq : q ∈ db.queue)
    (hdone : ∀ l ∈ db.links, l.key = q.key → Page.past q.lastScannedRunId l.runId = true →
      ∀ r ∈ db.canary.runs, r.runId = l.runId → pregrant r.status = false) :
    ContextInv (db.dequeue q) := by
  refine { h with queueIds := ?_, queued := ?_, covered := ?_ }
  · exact (List.filter_sublist.map _).nodup h.queueIds
  · intro o ho
    exact h.queued o (List.mem_of_mem_filter ho)
  · intro l hl b hb hkey hs r hr hid hw
    obtain ⟨o, ho, hokey, hpast⟩ := h.covered l hl b hb hkey hs r hr hid hw
    refine ⟨o, List.mem_filter.mpr ⟨ho, ?_⟩, hokey, hpast⟩
    by_contra hrow
    have hsame := h.queue_eq hq ho (by simpa using hrow)
    have hnot := hdone l hl (hkey.symm.trans (hokey.symm.trans (congrArg (·.key) hsame)))
      (hsame ▸ hpast) r hr hid
    rw [hw] at hnot
    cases hnot

theorem ContextEdit.inv (h : ContextEdit db t) (hi : ContextInv db) : ContextInv t := by
  cases h with
  | quiet c affinities planRequests hc => exact { hi.quiet hc with }
  | mark p f hf => exact hi.mark p hf
  | bind b hs he huniq => exact hi.bind hs he huniq
  | terminate row p f hrow hs hp hf => exact hi.terminate hrow hs hp hf
  | submit a r ha hr hkey hw hwr hname hun =>
    exact hi.submit (hi.pairs.submit ha hr hkey hw hwr hname hun) hr
  | link l a b ha hid hkey hb hbkey hs hfresh => exact hi.link ha hid hkey hb hbkey hs hfresh
  | grant c a g ha hc hg hkey hlive =>
    refine hi.leaves ha hc fun o ho => ?_
    rw [hg] at ho
    rcases List.mem_append.mp ho with ho | ho
    · exact .inl ⟨o, ho, rfl⟩
    · rw [List.mem_singleton.mp ho]
      exact .inr ⟨hkey, by simp⟩
  | close c a ha hc hg => exact hi.leaves ha hc fun o ho => .inl ⟨o, hg ▸ ho, rfl⟩
  | scan q cursor hq hdone => exact hi.scan hq hdone
  | dequeue q hq hdone => exact hi.dequeue hq hdone

theorem ContextEdits.inv (h : ContextEdits db t) (hi : ContextInv db) : ContextInv t := by
  induction h with
  | refl => exact hi
  | tail _ hedit ih => exact hedit.inv ih

/-! ### What is left to a context that has ended -/

/-- The context stays ended, gets no new run, and its ungranted runs get no grant. -/
structure EndedKept (b : ContextBinding) (db t : ContextDb) : Prop where
  ended : ∃ o ∈ t.bindings, o.key = b.key ∧ o.status = b.status
  noLink : ∀ l ∈ t.links, l.key = b.key → l ∈ db.links
  noGrant : ∀ l ∈ db.links, l.key = b.key → l ∈ t.links ∧ ∀ r ∈ db.canary.runs,
    r.key = l.runKey → r.grantId = none → ∃ o ∈ t.canary.runs, o.key = r.key ∧ o.grantId = none

/-- What later states keep of the contexts that have ended. -/
def ContextKept (db t : ContextDb) : Prop :=
  ∀ b ∈ db.bindings, b.status ≠ .active → EndedKept b db t

theorem ContextKept.refl (db : ContextDb) : ContextKept db db :=
  fun b hb _ => ⟨⟨b, hb, rfl, rfl⟩, fun _ hl _ => hl,
    fun _ hl _ => ⟨hl, fun r hr _ hn => ⟨r, hr, rfl, hn⟩⟩⟩

theorem ContextKept.trans (h : ContextKept db t) (h' : ContextKept t u) : ContextKept db u := by
  intro b hb hs
  have hkept := h b hb hs
  obtain ⟨o, ho, hkey, hstatus⟩ := hkept.ended
  have hkept' := h' o ho (hstatus.symm ▸ hs)
  refine ⟨?_, fun l hl hlkey => ?_, fun l hl hlkey => ?_⟩
  · obtain ⟨o', ho', hkey', hstatus'⟩ := hkept'.ended
    exact ⟨o', ho', hkey'.trans hkey, hstatus'.trans hstatus⟩
  · exact hkept.noLink l (hkept'.noLink l hl (hlkey.trans hkey.symm)) hlkey
  · obtain ⟨hlt, hruns⟩ := hkept.noGrant l hl hlkey
    obtain ⟨hlu, hruns'⟩ := hkept'.noGrant l hlt (hlkey.trans hkey.symm)
    refine ⟨hlu, fun r hr hrkey hn => ?_⟩
    obtain ⟨s, hs, hskey, hsn⟩ := hruns r hr hrkey hn
    obtain ⟨v, hv, hvkey, hvn⟩ := hruns' s hs (hskey.trans hrkey) hsn
    exact ⟨v, hv, hvkey.trans hskey, hvn⟩

/-- Bindings and links are the same, and the runs of the ended contexts keep to themselves. -/
theorem ContextKept.of_runs {c : CanaryDb} (h : ∀ l ∈ db.links, ∀ b ∈ db.bindings, b.key = l.key →
    b.status ≠ .active → ∀ r ∈ db.canary.runs, r.key = l.runKey → r.grantId = none →
    ∃ o ∈ c.runs, o.key = r.key ∧ o.grantId = none) (affinities : List Affinity)
    (planRequests : List PlanRequest) :
    ContextKept db { db with
      canary := c, affinities := affinities, planRequests := planRequests } :=
  fun b hb hs => ⟨⟨b, hb, rfl, rfl⟩, fun _ hl _ => hl,
    fun l hl hkey => ⟨hl, fun r hr hrkey hn => h l hl b hb hkey.symm hs r hr hrkey hn⟩⟩

theorem ContextKept.of_bindings {bindings : List ContextBinding} {queue : List CancellationRow}
    (h : ∀ b ∈ db.bindings, b.status ≠ .active → ∃ o ∈ bindings, o.key = b.key ∧
      o.status = b.status) : ContextKept db { db with bindings := bindings, queue := queue } :=
  fun b hb hs => ⟨h b hb hs, fun _ hl _ => hl,
    fun _ hl _ => ⟨hl, fun r hr _ hn => ⟨r, hr, rfl, hn⟩⟩⟩

theorem ContextEdit.kept (h : ContextEdit db t) (hi : ContextInv db) : ContextKept db t := by
  cases h with
  | quiet c affinities planRequests hc =>
    refine .of_runs (fun l hl b hb hkey hs r hr hrkey hn => ?_) _ _
    obtain ⟨o, ho, hmove⟩ := Table.exists_right hc.runs hr
    exact ⟨o, ho, hmove.key, hmove.grant.trans hn⟩
  | mark p f hf =>
    refine .of_bindings fun b hb _ => ⟨_, Table.mem_update.mpr ⟨b, hb, rfl⟩, ?_⟩
    split
    · exact ⟨(hf b).key, (hf b).status⟩
    · exact ⟨rfl, rfl⟩
  | bind b hs he huniq =>
    exact .of_bindings fun o ho _ => ⟨o, List.mem_append_left _ ho, rfl, rfl⟩
  | terminate row p f hrow hs hp hf =>
    refine .of_bindings fun b hb hbs => ⟨b, Table.mem_update.mpr ⟨b, hb, ?_⟩, rfl, rfl⟩
    rw [if_neg fun hpb => hbs ((hp b hb).mp hpb ▸ hs)]
  | submit a r ha hr hkey hw hwr hname hun =>
    exact .of_runs (fun _ _ _ _ _ _ o ho _ hn => ⟨o, List.mem_append_left _ ho, rfl, hn⟩) _ _
  | link l a b ha hid hkey hb hbkey hs hfresh =>
    intro o ho hos
    refine ⟨⟨o, ho, rfl, rfl⟩, fun m hm hmkey => ?_, fun m hm _ =>
      ⟨List.mem_append_left _ hm, fun r hr _ hn => ⟨r, hr, rfl, hn⟩⟩⟩
    rcases List.mem_append.mp hm with hm | hm
    · exact hm
    · -- the new link is the one of a live binding
      rw [List.mem_singleton.mp hm] at hmkey
      have hsame : o = b := hi.binding_eq ho hb (congrArg (·.rcbId) (hmkey.symm.trans hbkey.symm))
      exact absurd (hsame ▸ hs) hos
  | grant c a g ha hc hg hkey hlive =>
    refine .of_runs (fun l hl b hb hbkey hs r hr hrkey hn => ?_) _ _
    obtain ⟨o, ho, hokey, hother, -⟩ := hc.run hr
    have hne : r.runId ≠ a.runId := fun hid =>
      hs (hlive l hl ((congrArg (·.2.2) hrkey).symm.trans hid) b hb hbkey)
    rw [← hother hne] at hn
    exact ⟨o, ho, hokey, hn⟩
  | close c a ha hc hg =>
    refine .of_runs (fun l hl b hb hbkey hs r hr hrkey hn => ?_) _ _
    obtain ⟨o, ho, hokey, hother, hmine⟩ := hc.run hr
    refine ⟨o, ho, hokey, ?_⟩
    by_cases hid : r.runId = a.runId
    · rw [(hmine hid).2, Option.none_or, hn]
    · rw [hother hid, hn]
  | scan q cursor hq hdone => exact .of_bindings fun b hb _ => ⟨b, hb, rfl, rfl⟩
  | dequeue q hq hdone => exact .of_bindings fun b hb _ => ⟨b, hb, rfl, rfl⟩

theorem ContextEdits.kept (h : ContextEdits db t) (hi : ContextInv db) : ContextKept db t := by
  induction h with
  | refl => exact .refl db
  | tail hedits hedit ih => exact ih.trans (hedit.kept (ContextEdits.inv hedits hi))

end Heel.Cloud
