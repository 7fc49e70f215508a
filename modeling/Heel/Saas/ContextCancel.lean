import Heel.Saas.ContextGrants

/-! The cancellation queue: a batch gets through unless its clock is a day behind an approval that
waits, and it leaves a queue row only with a cursor before which nothing waits. -/
namespace Heel.Cloud
open Lib Lib.Checks

variable {db t : ContextDb} {b : ContextBinding} {now : Int}

/-- The clock is a day behind an approval that waits. -/
def TooEarly (now : Int) (db : ContextDb) : Prop :=
  ∃ a ∈ db.canary.approvals, a.awaits = true ∧ now + projectionRetentionMs ≤ a.createdAt

/-- The one refusal of a batch on good arguments: a `CHECK` of an approval's row. -/
def Refused (now : Int) (db : ContextDb) (e : Refusal) : Prop :=
  e.raised = .integrityError ∧ TooEarly now db

theorem Refused.earlier {e : Refusal} (h : Refused now t e)
    (hpending : ∀ a ∈ t.canary.approvals, a.awaits = true → a ∈ db.canary.approvals) :
    Refused now db e := by
  obtain ⟨hraised, a, ha, hw, hearly⟩ := h
  exact ⟨hraised, a, hpending a ha hw, hw, hearly⟩

/-- What is left when links have been examined. -/
structure Examined (links : List ProjectionLink) (cancelled : ℕ) (db t : ContextDb) : Prop where
  edits : ContextEdits db t
  frame : t = { db with canary := t.canary }
  waiting : ∀ r ∈ t.canary.runs, pregrant r.status = true →
    r ∈ db.canary.runs ∧ ∀ l ∈ links, r.runId ≠ l.runId
  pending : ∀ a ∈ t.canary.approvals, a.awaits = true → a ∈ db.canary.approvals
  atMost : cancelled ≤ links.length

theorem cancelActor_ok (hi : ContextInv db) (hb : b ∈ db.bindings) :
    ∃ actor, cancelActor b = .ok actor ∧ actor.actorId ≠ "" ∧
      actor.reasonCode ∈ ["runner_context_revoked", "runner_context_expired"] := by
  by_cases hrevoked : b.status = .revoked
  · obtain ⟨actor, hactor, hne⟩ := hi.revoker b hb hrevoked
    refine ⟨⟨true, actor, "runner_context_revoked"⟩, ?_, hne, by simp⟩
    rw [cancelActor, if_pos hrevoked, hactor]
    simp [require, hne, pure, Except.pure, bind, Except.bind]
  · refine ⟨⟨false, "control-plane", "runner_context_expired"⟩, ?_, by simp, by simp⟩
    rw [cancelActor, if_neg hrevoked]
    rfl

theorem ContextInv.link_rows (hi : ContextInv db) {l : ProjectionLink} (hl : l ∈ db.links) :
    ∃ a ∈ db.canary.approvals, ∃ r ∈ db.canary.runs, db.approvalOf l = some a ∧
      db.runOf l = some r ∧ a.runKey = l.runKey ∧ r.key = l.runKey ∧
      a.awaits = pregrant r.status := by
  obtain ⟨a, ha, r, hr, haid, hakey, hrkey, hstatus⟩ := hi.link_run hl
  refine ⟨a, ha, r, hr, Table.find_only ha ?_ ?_, Table.find_only hr ?_ ?_, hakey, hrkey, hstatus⟩
  · simp only [ApprovalRequest.runKey, ProjectionLink.runKey, Prod.mk.injEq] at hakey
    exact decide_eq_true ⟨hakey.1, hakey.2.1, haid, hakey.2.2⟩
  · intro o ho hspec
    simp only [decide_eq_true_eq] at hspec
    exact hi.pairs.approval_eq ho ha (hspec.2.2.2.trans (congrArg (·.2.2) hakey).symm)
  · simp only [CanaryRun.key, ProjectionLink.runKey, Prod.mk.injEq] at hrkey
    exact decide_eq_true hrkey
  · intro o ho hspec
    simp only [decide_eq_true_eq] at hspec
    exact hi.pairs.run_eq ho hr (hspec.2.2.trans (congrArg (·.2.2) hrkey).symm)

section Rows
variable {l : ProjectionLink} {a : ApprovalRequest} {r : CanaryRun}

theorem cancelRows_rows (hi : ContextInv db) (ha : a ∈ db.canary.approvals)
    (hr : r ∈ db.canary.runs) (hakey : a.runKey = l.runKey) (hrkey : r.key = l.runKey)
    (haw : a.awaits = true) (hrw : pregrant r.status = true) :
    (db.canary.approvals.filter fun o => o.workspaceId = l.key.workspaceId ∧
      o.projectRef = l.key.projectRef ∧ o.approvalId = a.approvalId ∧ o.runId = r.runId ∧
      o.status = .awaitingExecutionApproval) = [a] ∧
    (db.canary.runs.filter fun o => o.workspaceId = l.key.workspaceId ∧
      o.projectRef = l.key.projectRef ∧ o.runId = r.runId ∧ pregrant o.status) = [r] := by
  simp only [ApprovalRequest.runKey, ProjectionLink.runKey, Prod.mk.injEq] at hakey
  simp only [CanaryRun.key, ProjectionLink.runKey, Prod.mk.injEq] at hrkey
  constructor
  · refine Table.filter_key hi.pairs.approvalIds ha ?_ fun o ho => (of_decide_eq_true ho).2.2.1
    exact decide_eq_true ⟨hakey.1, hakey.2.1, rfl, hakey.2.2.trans hrkey.2.2.symm,
      of_decide_eq_true haw⟩
  · refine Table.filter_key hi.pairs.runIds hr ?_ fun o ho => (of_decide_eq_true ho).2.2.1
    exact decide_eq_true ⟨hrkey.1, hrkey.2.1, rfl, hrw⟩

theorem cancelRows_examined (hi : ContextInv db) (ha : a ∈ db.canary.approvals)
    (hr : r ∈ db.canary.runs) (hakey : a.runKey = l.runKey) (hrkey : r.key = l.runKey)
    (haw : a.awaits = true) (hrw : pregrant r.status = true)
    (h : cancelRows l.key now a r db = .ok t) : Examined [l] 1 db t := by
  have hid : r.runId = a.runId := congrArg (·.2.2) (hrkey.trans hakey.symm)
  simp only [cancelRows, bind_ok, require_ok, exists_const] at h
  obtain ⟨-, -, h⟩ := h
  cases h
  have hstops : StopsWaiting a none db.canary { db.canary with
      approvals := Table.update (fun o : ApprovalRequest => o.workspaceId = l.key.workspaceId ∧
          o.projectRef = l.key.projectRef ∧ o.approvalId = a.approvalId ∧ o.runId = r.runId ∧
          o.status = .awaitingExecutionApproval) (fun o => { o with status := .cancelled })
        db.canary.approvals
      runs := Table.update (fun o : CanaryRun => o.workspaceId = l.key.workspaceId ∧
          o.projectRef = l.key.projectRef ∧ o.runId = r.runId ∧ pregrant o.status)
        (fun o => { o with status := .cancelled, updatedAt := max o.updatedAt now })
        db.canary.runs } := by
    simp only [ApprovalRequest.runKey, ProjectionLink.runKey, Prod.mk.injEq] at hakey
    simp only [CanaryRun.key, ProjectionLink.runKey, Prod.mk.injEq] at hrkey
    refine hi.pairs.stops ha rfl rfl ?_ ?_ ?_ ?_ ?_ ?_
    · exact decide_eq_true ⟨hakey.1, hakey.2.1, rfl, hid.symm, of_decide_eq_true haw⟩
    · exact fun o ho => (of_decide_eq_true ho).2.2.2.1.trans hid
    · intro o ho hokey
      obtain rfl : o = r := hi.pairs.run_eq ho hr ((congrArg (·.2.2) hokey).trans hid.symm)
      exact decide_eq_true ⟨hrkey.1, hrkey.2.1, rfl, hrw⟩
    · exact fun o ho => (of_decide_eq_true ho).2.2.1.trans hid
    · exact fun _ => ⟨rfl, rfl, rfl⟩
    · exact fun _ => ⟨rfl, rfl, rfl⟩
  refine ⟨.single (.close db _ a ha hstops rfl), rfl, fun o ho hw => ?_,
    fun o ho hw => hstops.pending ho hw, le_refl 1⟩
  obtain ⟨hin, hne⟩ := hstops.waiting ho hw
  refine ⟨hin, fun m hm => ?_⟩
  rw [List.mem_singleton.mp hm]
  exact fun hrun => hne (hrun.trans (congrArg (·.2.2) hakey).symm)

theorem cancelRows_ends (now : Int) (hi : ContextInv db) (ha : a ∈ db.canary.approvals)
    (hr : r ∈ db.canary.runs) (hakey : a.runKey = l.runKey) (hrkey : r.key = l.runKey)
    (haw : a.awaits = true) (hrw : pregrant r.status = true) :
    Ends (cancelRows l.key now a r db) (Examined [l] 1 db) (Refused now db) := by
  obtain ⟨happroval, hrun⟩ := cancelRows_rows hi ha hr hakey hrkey haw hrw
  refine ⟨fun t ht => cancelRows_examined hi ha hr hakey hrkey haw hrw ht, fun e he => ?_⟩
  by_cases hearly : a.createdAt < now + projectionRetentionMs
  · -- the one approval is old enough, and the rows are there
    have hlate : ∀ o ∈ db.canary.approvals, decide (o.workspaceId = l.key.workspaceId ∧
        o.projectRef = l.key.projectRef ∧ o.approvalId = a.approvalId ∧ o.runId = r.runId ∧
        o.status = .awaitingExecutionApproval) = true →
        o.createdAt < now + projectionRetentionMs := by
      intro o ho hspec
      have hin : o ∈ [a] := by
        rw [← happroval, List.mem_filter]
        exact ⟨ho, hspec⟩
      exact List.mem_singleton.mp hin ▸ hearly
    rw [cancelRows, bind_of_ok (passed hlate),
      bind_of_ok (passed ⟨congrArg List.length happroval, congrArg List.length hrun⟩)] at he
    cases he
  · have hfails : ¬ ∀ o ∈ db.canary.approvals, decide (o.workspaceId = l.key.workspaceId ∧
        o.projectRef = l.key.projectRef ∧ o.approvalId = a.approvalId ∧ o.runId = r.runId ∧
        o.status = .awaitingExecutionApproval) = true →
        o.createdAt < now + projectionRetentionMs := by
      have hin := List.mem_singleton.mpr (rfl : a = a)
      rw [← happroval, List.mem_filter] at hin
      exact fun hlate => hearly (hlate a ha hin.2)
    rw [cancelRows, require, if_neg hfails] at he
    cases he
    exact ⟨rfl, a, ha, haw, not_lt.mp hearly⟩

end Rows

theorem Examined.none (l : ProjectionLink) (h : ∀ r ∈ db.canary.runs, pregrant r.status = true →
    r.runId ≠ l.runId) : Examined [l] 0 db db := by
  refine ⟨.refl, rfl, fun r hr hw => ⟨hr, fun m hm => ?_⟩, fun _ ha _ => ha, Nat.zero_le _⟩
  rw [List.mem_singleton.mp hm]
  exact h r hr hw

theorem examineLink_ends (now : Int) (hi : ContextInv db) {l : ProjectionLink} (hl : l ∈ db.links)
    (hb : b ∈ db.bindings) (hkey : b.key = l.key) :
    Ends (examineLink b now l db) (fun out => Examined [l] out.2 db out.1) (Refused now db) := by
  obtain ⟨a, ha, r, hr, happroval, hrun, hakey, hrkey, hstatus⟩ := hi.link_rows hl
  have hrid : r.runId = l.runId := congrArg (·.2.2) hrkey
  have hpair : (a.status = .awaitingExecutionApproval) ↔ pregrant r.status = true := by
    rw [← hstatus, ApprovalRequest.awaits, decide_eq_true_eq]
  simp only [examineLink, happroval, hrun]
  rw [bind_of_ok (passed hpair)]
  by_cases hwaits : a.status = .awaitingExecutionApproval
  · have hrw := hpair.mp hwaits
    have haw : a.awaits = true := decide_eq_true hwaits
    obtain ⟨actor, hactor, hname, hreason⟩ := cancelActor_ok hi hb
    have hrows : linkedRows b.key l.runId db = [(a, r)] := by
      have hlinks : (db.links.filter fun o => o.key = b.key ∧ o.runId = l.runId) = [l] := by
        refine Table.filter_key hi.linkRuns hl (decide_eq_true ⟨hkey.symm, rfl⟩) fun o ho => ?_
        exact (of_decide_eq_true ho).2
      rw [linkedRows, hlinks]
      simp [happroval, hrun]
    have hnamed : l.runId ≠ "" := hrid ▸ hi.pairs.named r hr
    have hungranted := hi.pairs.ungranted r hr hrw
    rw [if_pos hwaits, bind_of_ok hactor, cancelContextPending, bind_of_ok (passed hname),
      bind_of_ok (passed hreason), bind_of_ok (passed hnamed), hrows]
    simp only [hwaits, hrw, decide_true, Bool.true_eq_false, false_and, if_false]
    rw [bind_of_ok (passed ⟨trivial, trivial⟩), bind_of_ok (passed hungranted), hkey]
    refine (cancelRows_ends now hi ha hr hakey hrkey haw hrw).bind fun t ht => ?_
    exact ends_ok ht
  · rw [if_neg hwaits]
    refine ends_ok (Examined.none l fun o ho hw hid => ?_)
    have hsame : o = r := hi.pairs.run_eq ho hr (hid.trans hrid.symm)
    exact hwaits (hpair.mpr (hsame ▸ hw))

theorem examineLinks_ends (now : Int) (hi : ContextInv db) {links : List ProjectionLink}
    (hlinks : ∀ l ∈ links, l ∈ db.links ∧ b.key = l.key) (hb : b ∈ db.bindings) :
    Ends (examineLinks b now links db) (fun out => Examined links out.2 db out.1)
      (Refused now db) := by
  induction links generalizing db with
  | nil =>
    exact ends_ok ⟨.refl, rfl, fun o ho _ => ⟨ho, fun _ hm => by cases hm⟩, fun _ ha _ => ha,
      le_refl 0⟩
  | cons l rest ih =>
    obtain ⟨hl, hkey⟩ := hlinks l List.mem_cons_self
    unfold examineLinks
    refine (examineLink_ends now hi hl hb hkey).bind ?_
    rintro ⟨s, n⟩ (hs : Examined [l] n db s)
    have hsame : s.links = db.links ∧ s.bindings = db.bindings := by
      rw [hs.frame]
      exact ⟨rfl, rfl⟩
    have hrest := ih (ContextEdits.inv hs.edits hi) (fun o ho => by
      rw [hsame.1]
      exact hlinks o (List.mem_cons_of_mem _ ho)) (hsame.2 ▸ hb)
    refine (hrest.conseq (fun _ => id) fun e he => he.earlier hs.pending).bind ?_
    rintro ⟨t, m⟩ (ht : Examined rest m s t)
    refine ends_ok ⟨hs.edits.trans ht.edits, ?_, fun r hr hw => ?_,
      fun a ha hw => hs.pending a (ht.pending a ha hw) hw, ?_⟩
    · rw [ht.frame, hs.frame]
    · obtain ⟨hrs, hne⟩ := ht.waiting r hr hw
      obtain ⟨hrdb, hnel⟩ := hs.waiting r hrs hw
      refine ⟨hrdb, fun o ho => ?_⟩
      rcases List.mem_cons.mp ho with rfl | ho
      · exact hnel o (List.mem_singleton.mpr rfl)
      · exact hne o ho
    · have h1 := hs.atMost
      have h2 := ht.atMost
      simp only [List.length_cons, List.length_nil] at h1 ⊢
      omega

theorem ContextInv.endedRef (hi : ContextInv db) {q : CancellationRow} (hq : q ∈ db.queue) :
    ∃ b ∈ db.bindings, db.endedRef q.key q.bindingExpiresAtMs = some b ∧ b.key = q.key ∧
      b.status ≠ .active := by
  obtain ⟨b, hb, hkey, hexpires, hs⟩ := hi.queued q hq
  refine ⟨b, hb, Table.find_only hb (decide_eq_true ⟨hkey, hexpires, hs⟩) fun o ho hspec => ?_,
    hkey, hs⟩
  have hokey : o.key = q.key := (of_decide_eq_true hspec).1
  exact hi.binding_eq ho hb (congrArg (·.rcbId) (hokey.trans hkey.symm))

/-- A work item of a batch, the last one if the batch does not go on. -/
structure WorkItem (remaining units cancelled : ℕ) (goesOn : Bool) (db t : ContextDb) : Prop where
  edits : ContextEdits db t
  pending : ∀ a ∈ t.canary.approvals, a.awaits = true → a ∈ db.canary.approvals
  some : 1 ≤ units
  fits : units ≤ remaining
  whole : goesOn = false → units = remaining
  atMost : cancelled ≤ units

theorem mem_linkPage {q : CancellationRow} {n : ℕ} {l : ProjectionLink} (hl : l ∈ db.linkPage q n) :
    l ∈ db.links ∧ l.key = q.key ∧ Page.past q.lastScannedRunId l.runId = true := by
  obtain ⟨hin, hpast⟩ := Page.mem_page hl
  obtain ⟨hlinks, hkey⟩ := List.mem_filter.mp hin
  exact ⟨hlinks, of_decide_eq_true hkey, hpast⟩

/-- A page that is not full holds every link of the context past the cursor. -/
theorem mem_linkPage_of_short {q : CancellationRow} {n : ℕ} (hn : (db.linkPage q n).length < n)
    {l : ProjectionLink} (hl : l ∈ db.links) (hkey : l.key = q.key)
    (hpast : Page.past q.lastScannedRunId l.runId = true) : l ∈ db.linkPage q n :=
  Page.mem_of_short hn (List.mem_filter.mpr ⟨hl, decide_eq_true hkey⟩) hpast

/-- What the examined links leave, the row taken off the queue or its cursor moved on. -/
theorem cancelHead_ends (now : Int) (hi : ContextInv db) {q : CancellationRow} (hq : q ∈ db.queue)
    {remaining : ℕ} (hpos : 0 < remaining) :
    Ends (cancelHead now remaining q db)
      (fun out => WorkItem remaining out.2.1 out.2.2.1 out.2.2.2 db out.1) (Refused now db) := by
  obtain ⟨b, hb, hended, hbkey, hbs⟩ := hi.endedRef hq
  have hpage : ∀ l ∈ (db.linkPage q (remaining + 1)).take remaining,
      l ∈ db.links ∧ b.key = l.key := by
    intro l hl
    obtain ⟨hin, hkey, -⟩ := mem_linkPage (List.mem_of_mem_take hl)
    exact ⟨hin, hbkey.trans hkey.symm⟩
  simp only [cancelHead, hended]
  by_cases hempty : (db.linkPage q (remaining + 1)).take remaining = []
  · -- no link is left: the row goes
    have hnone : db.linkPage q (remaining + 1) = [] := by
      rcases List.take_eq_nil_iff.mp hempty with h | h
      · omega
      · exact h
    rw [hempty]
    refine ends_ok ⟨.single (.dequeue db q hq fun l hl hkey hpast => ?_), fun _ ha _ => ha,
      le_refl 1, hpos, fun hlast => absurd hlast (by simp), Nat.zero_le 1⟩
    have hin := mem_linkPage_of_short (by rw [hnone]; exact Nat.succ_pos remaining) hl hkey hpast
    rw [hnone] at hin
    cases hin
  · obtain ⟨last, hlast⟩ := Option.isSome_iff_exists.mp (List.getLast?_isSome.mpr hempty)
    have hlastmem := List.mem_of_getLast? hlast
    have hsome : 1 ≤ ((db.linkPage q (remaining + 1)).take remaining).length :=
      List.length_pos_iff.mpr hempty
    have hfits : ((db.linkPage q (remaining + 1)).take remaining).length ≤ remaining :=
      List.length_take_le ..
    rw [hlast]
    refine (examineLinks_ends now hi hpage hb).bind ?_
    rintro ⟨s, cancelled⟩ (hs : Examined _ cancelled db s)
    dsimp only
    have hframe : s.links = db.links ∧ s.queue = db.queue ∧ s.bindings = db.bindings := by
      rw [hs.frame]
      exact ⟨rfl, rfl, rfl⟩
    by_cases hmore : remaining < (db.linkPage q (remaining + 1)).length
    · obtain ⟨hlastin, hlastkey, hlastpast⟩ := mem_linkPage (List.mem_of_mem_take hlastmem)
      have hmove : moveCursor q last.runId s = .ok { s with
          queue := Table.update (ContextDb.isQueueRow q)
            (fun o => { o with lastScannedRunId := some last.runId }) s.queue } := by
        simp only [moveCursor, bind_ok, require_ok, exists_const]
        refine ⟨⟨hlastpast, ?_, ?_⟩, rfl⟩
        · rw [ContextDb.endedRef, hframe.2.2, ← ContextDb.endedRef, hended]
          rfl
        · rw [hframe.1]
          exact List.any_eq_true.mpr ⟨last, hlastin, decide_eq_true ⟨hlastkey, rfl⟩⟩
      rw [if_pos hmore, bind_of_ok hmove]
      refine ends_ok ⟨hs.edits.trans (.single (.scan s q last.runId (hframe.2.1 ▸ hq) ?_)),
        hs.pending, hsome, hfits, fun _ => List.length_take_of_le hmore.le, hs.atMost⟩
      -- what comes before the new cursor has been examined
      intro l hl hkey hpast hle r hr hid
      rw [hframe.1] at hl
      have hin : l ∈ (db.linkPage q (remaining + 1)).take remaining := by
        refine Page.mem_of_le ?_ hlastmem (List.mem_filter.mpr ⟨hl, decide_eq_true hkey⟩) hpast
          (of_decide_eq_true hle)
        exact (List.filter_sublist.map _).nodup hi.linkRuns
      by_contra hw
      exact (hs.waiting r hr (by simpa using hw)).2 l hin hid
    · rw [if_neg hmore]
      refine ends_ok ⟨hs.edits.trans (.single (.dequeue s q (hframe.2.1 ▸ hq) ?_)), hs.pending,
        hsome, hfits, fun hlast => absurd hlast (by simp), hs.atMost⟩
      intro l hl hkey hpast r hr hid
      rw [hframe.1] at hl
      have hin := mem_linkPage_of_short (Nat.lt_succ_of_le (not_lt.mp hmore)) hl hkey hpast
      have hall : (db.linkPage q (remaining + 1)).take remaining =
          db.linkPage q (remaining + 1) := List.take_of_length_le (not_lt.mp hmore)
      rw [← hall] at hin
      by_contra hw
      exact (hs.waiting r hr (by simpa using hw)).2 l hin hid

theorem queueHead_mem {q : CancellationRow} (h : db.queueHead = some q) : q ∈ db.queue := by
  have hin := List.mem_of_mem_head? h
  rw [List.mem_insertionSort] at hin
  exact List.mem_of_mem_filter hin

/-- A queue without a head is empty: every context ends after the epoch. -/
theorem ContextInv.queue_empty (hi : ContextInv db) (h : db.queueHead = none) : db.queue = [] := by
  rw [ContextDb.queueHead, List.head?_eq_none_iff] at h
  have hnone : (db.queue.filter fun q => 0 < q.bindingExpiresAtMs) = [] := by
    rw [← List.length_eq_zero_iff, ← List.length_insertionSort queueBefore, h]
    rfl
  rw [List.eq_nil_iff_forall_not_mem]
  intro q hq
  obtain ⟨b, hb, -, hexpires, -⟩ := hi.queued q hq
  have hlate := hi.expiry b hb
  rw [hexpires] at hlate
  exact List.filter_eq_nil_iff.mp hnone q hq (decide_eq_true hlate)

/-- The work of a batch: it stops short only where nothing is left in the queue. -/
structure Worked (units remaining cancelled : ℕ) (db t : ContextDb) : Prop where
  edits : ContextEdits db t
  fits : units ≤ remaining
  drained : units < remaining → t.queue = []
  atMost : cancelled ≤ units

/-- A loop takes no more units than there are; every turn takes one, so that the fuel is enough. -/
theorem cancelLoop_ends (now : Int) (hi : ContextInv db) {fuel remaining : ℕ}
    (hfuel : remaining ≤ fuel) :
    Ends (cancelLoop now fuel remaining db) (fun out => Worked out.2.1 remaining out.2.2 db out.1)
      (Refused now db) := by
  induction fuel generalizing db remaining with
  | zero => exact ends_ok ⟨.refl, Nat.zero_le _, fun hlt => by omega, le_refl 0⟩
  | succ fuel ih =>
    unfold cancelLoop
    by_cases hzero : remaining = 0
    · rw [if_pos hzero]
      exact ends_ok ⟨.refl, Nat.zero_le _, fun hlt => by omega, le_refl 0⟩
    · rw [if_neg hzero]
      cases hhead : db.queueHead with
      | none => exact ends_ok ⟨.refl, Nat.zero_le _, fun _ => hi.queue_empty hhead, le_refl 0⟩
      | some q =>
        dsimp only
        refine (cancelHead_ends now hi (queueHead_mem hhead) (Nat.pos_of_ne_zero hzero)).bind ?_
        rintro ⟨s, units, cancelled, goesOn⟩ (hs : WorkItem remaining units cancelled goesOn db s)
        cases goesOn with
        | false =>
          refine ends_ok ⟨hs.edits, hs.fits, fun hlt => ?_, hs.atMost⟩
          have hwhole := hs.whole rfl
          dsimp only at hlt
          omega
        | true =>
          have hsome := hs.some
          have hrest := ih (ContextEdits.inv hs.edits hi)
            (show remaining - units ≤ fuel by omega)
          refine (hrest.conseq (fun _ => id) fun e he => he.earlier hs.pending).bind ?_
          rintro ⟨t, more, others⟩ (ht : Worked more (remaining - units) others s t)
          have h1 := hs.fits
          have h2 := hs.atMost
          have h3 := ht.fits
          have h4 := ht.atMost
          refine ends_ok ⟨hs.edits.trans ht.edits, ?_, fun hlt => ht.drained ?_, ?_⟩
          · show units + more ≤ remaining
            omega
          · dsimp only at hlt
            omega
          · show cancelled + others ≤ units + more
            omega

structure Batched (limit : Int) (db t : ContextDb) (answer : CancelBatch) : Prop where
  edits : ContextEdits db t
  units : (answer.units : Int) ≤ limit
  drained : (answer.units : Int) < limit → answer.hasMore = false
  cancelled : answer.cancelled ≤ answer.units
  hasMore : answer.hasMore = !t.queue.isEmpty

/-- A batch gets through on good arguments, unless the clock is too early. -/
theorem cancelDueBatch_ends (hi : ContextInv db) (nowMs limit : Int) :
    Ends (cancelDueBatch nowMs limit db) (fun out => Batched limit db out.1 out.2) fun e =>
      e.raised = .valueError ∧
        ¬ ((0 ≤ nowMs ∧ nowMs ≤ safeTimeMs) ∧ 1 ≤ limit ∧ limit ≤ 128) ∨ Refused nowMs db e := by
  have harguments : Ends (batchArguments nowMs limit)
      (fun _ => (0 ≤ nowMs ∧ nowMs ≤ safeTimeMs) ∧ 1 ≤ limit ∧ limit ≤ 128) fun e =>
      e.raised = .valueError ∧
        ¬ ((0 ≤ nowMs ∧ nowMs ≤ safeTimeMs) ∧ 1 ≤ limit ∧ limit ≤ 128) ∨ Refused nowMs db e := by
    refine (ends_require fun hnow => .inl ⟨rfl, fun h => hnow h.1⟩).bind fun _ hnow => ?_
    exact (ends_require fun hlimit => .inl ⟨rfl, fun h => hlimit h.2⟩).conseq
      (fun _ hlimit => ⟨hnow, hlimit⟩) fun _ => id
  refine harguments.bind fun _ hgood => ?_
  refine ((cancelLoop_ends nowMs hi (le_refl limit.toNat)).conseq (fun _ => id)
    fun _ => .inr).bind ?_
  rintro ⟨t, units, cancelled⟩ (ht : Worked units limit.toNat cancelled db t)
  have hfits := ht.fits
  refine ends_ok ⟨ht.edits, ?_, fun hlt => ?_, ht.atMost, rfl⟩
  · show (units : Int) ≤ limit
    omega
  · dsimp only at hlt
    have hempty : t.queue = [] := ht.drained (by omega)
    simp [hempty]

theorem cancelDueBatch_edits (hi : ContextInv db) {nowMs limit : Int} {answer : CancelBatch}
    (h : cancelDueBatch nowMs limit db = .ok (t, answer)) : ContextEdits db t :=
  ((cancelDueBatch_ends hi nowMs limit).1 _ h).edits

theorem ContextInv.noneWaits (hi : ContextInv db) (hempty : db.queue = []) {l : ProjectionLink}
    (hl : l ∈ db.links) (hb : b ∈ db.bindings) (hkey : b.key = l.key) (hs : b.status ≠ .active)
    {r : CanaryRun} (hr : r ∈ db.canary.runs) (hid : r.runId = l.runId) :
    pregrant r.status = false := by
  by_contra hw
  obtain ⟨q, hq, -⟩ := hi.covered l hl b hb hkey hs r hr hid (by simpa using hw)
  rw [hempty] at hq
  cases hq

end Heel.Cloud
