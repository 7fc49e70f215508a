import Heel.Saas.Discovery
import Heel.Saas.Units

/-! What the calls on discovery authorizations can do to the authorizations, their rounds and their
units: a submission issues one round, and every other call is a sequence of the edits below. -/
namespace Heel.Cloud
open Lib Lib.Checks

/-- The columns of a round that no call changes. -/
def Round.key (r : Round) : String × String × Int × Int :=
  (r.roundId, r.authorizationId, r.issuedAtMs, r.wallBudgetMs)

def CanaryDb.roundsOf (db : CanaryDb) (id : String) : List Round :=
  db.rounds.filter fun r => r.authorizationId = id

/-- One edit, with what the code has checked when it makes it. -/
inductive DiscoveryEdit : CanaryDb → CanaryDb → Prop
  /-- Tables that hold no authorization, no round, no grant and no unit. -/
  | aside {db t : CanaryDb} (hl : t.ledger = db.ledger)
      (ha : t.authorizations = db.authorizations) (hr : t.rounds = db.rounds)
      (hg : t.grants = db.grants) : DiscoveryEdit db t
  /-- The run of a round loses its authority. -/
  | stop (db : CanaryDb) (r : CanaryRun) : DiscoveryEdit db (db.stopRun r)
  /-- A unit is reserved for a new authorization. -/
  | create (db : CanaryDb) (env : CloudEnv) (q : AuthorizationRequest)
      (hfresh : ∀ e ∈ db.ledger, e.reservationId ≠ env.freshReservation)
      (huniq : ∀ o ∈ db.authorizations, o.authorizationId ≠ env.freshAuthorization ∧
        o.reservationId ≠ env.freshReservation ∧ ¬ (o.place = q.place ∧ o.state = .opened)) :
      DiscoveryEdit db { db with
        ledger := db.ledger ++ [(q.reserveRequest env).entry]
        authorizations := db.authorizations ++ [q.row env env.freshReservation] }
  | close (db : CanaryDb) (a : Authorization) (state : AuthorizationState) (reason : CloseReason)
      (now : Int) (revokedBy : Option String) (ha : a ∈ db.authorizations)
      (hs : a.state = .opened) (hstate : state ≠ .opened) :
      DiscoveryEdit db (db.updateAuthorization a.authorizationId
        (·.closed state reason now revokedBy))
  /-- A close before any round gives the unit back. -/
  | refund (db : CanaryDb) (a : Authorization) (state : AuthorizationState) (reason : CloseReason)
      (now : Int) (revokedBy : Option String) (answer : Bool) (ledger : Ledger)
      (ha : a ∈ db.authorizations) (hs : a.state = .opened) (hstate : state ≠ .opened)
      (hn : a.roundsIssued = 0) (hq : a.quotaState = .reserved)
      (hl : db.ledger.settle a.reservationId .refund = .ok (answer, ledger)) :
      DiscoveryEdit db ({ db with ledger := ledger }.updateAuthorization a.authorizationId
        fun a => { a.closed state reason now revokedBy with quotaState := .refunded })
  | settle (db : CanaryDb) (r : Round) (terminalAtMs requestsCompleted : Int)
      (hr : r ∈ db.rounds) (hs : r.state = .issued) :
      DiscoveryEdit db ((db.updateRound r.roundId
        (·.settled terminalAtMs requestsCompleted)).updateAuthorization r.authorizationId fun a =>
          { a with
            executionMsUsed := a.executionMsUsed + (terminalAtMs - r.issuedAtMs)
            requestsCompleted := a.requestsCompleted + requestsCompleted })
  /-- The bytes a report tells of. -/
  | bytes (db : CanaryDb) (roundId id : String) (received : Int) :
      DiscoveryEdit db ((db.updateRound roundId fun o =>
        { o with bytesReceived := some received }).updateAuthorization id fun a =>
          { a with bytesReceived := a.bytesReceived + received })

abbrev DiscoveryEdits : CanaryDb → CanaryDb → Prop := Relation.ReflTransGen DiscoveryEdit

variable {P : Platform} {env : RoundEnv} {db t : CanaryDb}

theorem DiscoveryEdit.keys (h : DiscoveryEdit db t) :
    t.rounds.map Round.key = db.rounds.map Round.key := by
  cases h with
  | aside hl ha hr hg => rw [hr]
  | stop r => rw [(stopRun_stops db r).rounds]
  | create | close | refund => rfl
  | settle r terminalAtMs requestsCompleted hr hs => exact Table.map_update fun _ _ => rfl
  | bytes roundId id received => exact Table.map_update fun _ _ => rfl

theorem DiscoveryEdits.keys (h : DiscoveryEdits db t) :
    t.rounds.map Round.key = db.rounds.map Round.key := by
  induction h with
  | refl => rfl
  | tail _ hedit ih => exact hedit.keys.trans ih

theorem stopDiscoveryRounds_edits (db : CanaryDb) (id : String) :
    DiscoveryEdits db (db.stopDiscoveryRounds id) := by
  unfold CanaryDb.stopDiscoveryRounds
  generalize db.rounds.filter _ = rows
  induction rows generalizing db with
  | nil => exact .refl
  | cons r rest ih =>
    rw [List.foldl_cons]
    refine Relation.ReflTransGen.trans ?_ (ih _)
    cases db.runAny r.runId with
    | none => exact .refl
    | some run => exact .single (.stop db run)

theorem stopLiveRun_edits (db : CanaryDb) (id runId : String) :
    DiscoveryEdits db (db.stopLiveRun id runId) := by
  unfold CanaryDb.stopLiveRun
  split
  · exact .refl
  · split
    · exact stopDiscoveryRounds_edits db id
    · exact .single (.stop db _)

theorem closeDiscovery_edits {id : String} {state : AuthorizationState} {reason : CloseReason}
    {now : Int} {revokedBy : Option String} (hstate : state ≠ .opened)
    (h : closeDiscovery db id state reason now revokedBy = .ok t) : DiscoveryEdits db t := by
  simp only [closeDiscovery, bind_ok, pure, Except.pure, Except.ok.injEq] at h
  obtain ⟨mid, hmid, rfl⟩ := h
  refine Relation.ReflTransGen.trans (b := mid) ?_ ?_
  swap
  · split
    · exact stopDiscoveryRounds_edits mid id
    · exact .refl
  rcases closeRow_ok hmid with rfl | ⟨a, ha, hopen, hcase⟩
  · exact .refl
  · obtain ⟨hmem, rfl⟩ := authorization_mem ha
    rcases hcase with ⟨hn, hq, answer, ledger, hl, -, rfl⟩ | ⟨-, rfl⟩
    · exact .single (.refund db a state reason now revokedBy
        answer ledger hmem hopen hstate hn hq hl)
    · exact .single (.close db a state reason now revokedBy hmem hopen hstate)

theorem expireDiscoveryIfDue_edits {a : Authorization} {now : Int}
    (h : expireDiscoveryIfDue db a now = .ok t) : DiscoveryEdits db t := by
  rcases expireDiscoveryIfDue_ok h with rfl | h
  · exact .refl
  · exact closeDiscovery_edits (by simp) h

theorem closeDiscoveryAfterRefusal_edits {env : CloudEnv} {id : String} {kind : RefusalClose}
    {actionCount : Int} (h : closeDiscoveryAfterRefusal env id kind actionCount db = .ok t) :
    DiscoveryEdits db t := by
  unfold closeDiscoveryAfterRefusal at h
  split at h
  · cases h
    exact .refl
  · cases kind <;> simp only at h <;> split at h
    case expired.isTrue | budget.isTrue | membership.isTrue =>
      exact closeDiscovery_edits (by simp) h
    all_goals
      cases h
      exact .refl

theorem getDiscoveryAuthorization_edits {env : CloudEnv} {place : String × String × String}
    {id : String} (h : getDiscoveryAuthorization env place id db = .ok t) :
    DiscoveryEdits db t := by
  unfold getDiscoveryAuthorization at h
  split at h
  · cases h
  · exact expireDiscoveryIfDue_edits h

theorem revokeDiscoveryAuthorization_edits {env : CloudEnv} {place : String × String × String}
    {id actor : String} {role : Role}
    (h : revokeDiscoveryAuthorization env place id actor role db = .ok t) :
    DiscoveryEdits db t := by
  simp only [revokeDiscoveryAuthorization, bind_ok, require_ok, exists_const] at h
  obtain ⟨-, -, -, h⟩ := h
  split at h
  · cases h
  · simp only [bind_ok, require_ok, exists_const] at h
    obtain ⟨mid, hexpire, -, hclose⟩ := h
    exact (expireDiscoveryIfDue_edits hexpire).trans (closeDiscovery_edits (by simp) hclose)

theorem discoveryLiveClose_edits {now : Int} {runId : String}
    (h : discoveryLiveClose now runId db = .ok t) : DiscoveryEdits db t := by
  unfold discoveryLiveClose at h
  split at h
  · cases h
    exact .refl
  · split at h
    · cases h
      exact .refl
    · simp only [bind_ok, pure, Except.pure, Except.ok.injEq] at h
      obtain ⟨mid, hmid, rfl⟩ := h
      refine (expireDiscoveryIfDue_edits hmid).trans ?_
      split
      · exact .refl
      · exact stopLiveRun_edits mid _ runId

theorem createDiscoveryAuthorization_edits {env : CloudEnv} {q : AuthorizationRequest}
    (hfresh : db.Fresh env) (h : createDiscoveryAuthorization env q db = .ok t) :
    DiscoveryEdits db t := by
  rcases createDiscoveryAuthorization_ok h with rfl | ⟨a, hclose⟩ | hcreate
  · exact .refl
  · exact closeDiscovery_edits (by simp) hclose
  · obtain ⟨mid, hmid, hfresh', hinsert⟩ := createFresh_reserves hfresh hcreate
    obtain ⟨huniq, rfl⟩ := insertAuthorization_ok hinsert
    have hedits : DiscoveryEdits db mid := by
      rcases hmid with rfl | ⟨a, hclose⟩
      · exact .refl
      · exact closeDiscovery_edits (by simp) hclose
    refine hedits.tail (.create mid env q hfresh' fun o ho => ?_)
    obtain ⟨h1, h2, -, h4⟩ := huniq o ho
    exact ⟨h1, h2, fun ⟨hplace, hopen⟩ => h4 ⟨hplace, hopen, rfl⟩⟩

theorem updateRound_find {id : String} {r : Round}
    (h : db.rounds.find? (fun o => o.roundId = id) = some r) : r ∈ db.rounds ∧ r.roundId = id := by
  have hspec := List.find?_some h
  simp only [decide_eq_true_eq] at hspec
  exact ⟨List.mem_of_find?_eq_some h, hspec⟩

theorem settleDiscoveryRound_edits {now terminalAtMs requestsCompleted : Int} {r : Round}
    (hr : ∀ o ∈ db.rounds, o.roundId = r.roundId → o.key = r.key)
    (h : settleDiscoveryRound now r terminalAtMs requestsCompleted db = .ok t) :
    DiscoveryEdits db t := by
  unfold settleDiscoveryRound at h
  simp only at h
  split at h
  · cases h
    exact .refl
  · rename_i current hcurrent
    obtain ⟨hmem, hid⟩ := updateRound_find hcurrent
    split at h
    · cases h
      exact .refl
    · rename_i hissued
      rw [not_not] at hissued
      have hkey := hr current hmem hid
      simp only [Round.key, Prod.mk.injEq] at hkey
      have hedit := DiscoveryEdit.settle db current (max terminalAtMs r.issuedAtMs)
        requestsCompleted hmem hissued
      rw [hid, hkey.2.1, hkey.2.2.1] at hedit
      split at h
      · exact (Relation.ReflTransGen.single hedit).trans (closeDiscovery_edits (by simp) h)
      · cases h
        exact .single hedit

theorem recordDiscoveryReport_edits {r : Round} {report : SubmittedReport}
    {inventory : Except Refusal Unit} (h : recordDiscoveryReport r report inventory db = .ok t) :
    DiscoveryEdits db t := by
  unfold recordDiscoveryReport at h
  split at h
  · simp only [bind_ok, require_ok, exists_const] at h
    obtain ⟨-, h⟩ := h
    cases h
    exact .refl
  · simp only [bind_ok] at h
    obtain ⟨_, -, h⟩ := h
    cases h
    exact (Relation.ReflTransGen.single (.aside rfl rfl rfl rfl)).tail
      (.bytes { db with reports := db.reports ++ [report.stored r] } _ _ _)

theorem same_key (h : (db.rounds.map (·.roundId)).Nodup) {r : Round} (hr : r ∈ db.rounds) :
    ∀ o ∈ db.rounds, o.roundId = r.roundId → o.key = r.key :=
  fun o ho hid => by rw [Table.eq_of_key h ho hr hid]

theorem discoveryResult_edits {runId : String} {requestsCompleted : Int}
    {report : Option SubmittedReport} {inventory : Except Refusal Unit}
    (hids : (db.rounds.map (·.roundId)).Nodup)
    (h : discoveryResult env runId requestsCompleted report inventory db = .ok t) :
    DiscoveryEdits db t := by
  unfold discoveryResult at h
  split at h
  · simp only [bind_ok, require_ok, exists_const] at h
    obtain ⟨-, h⟩ := h
    cases h
    exact .refl
  · rename_i r hr
    simp only [bind_ok] at h
    obtain ⟨_, -, mid, hmid, h⟩ := h
    have hsettle : DiscoveryEdits db mid := by
      unfold settleEnded at hmid
      split at hmid
      · cases hmid
        exact .refl
      · split at hmid
        · exact settleDiscoveryRound_edits (same_key hids (List.mem_of_find?_eq_some hr)) hmid
        · cases hmid
          exact .refl
    cases report with
    | none =>
      cases h
      exact hsettle
    | some report => exact hsettle.trans (recordDiscoveryReport_edits h)

theorem keys_name {rows : List Round} (hkeys : db.rounds.map Round.key = rows.map Round.key)
    (h : (rows.map (·.roundId)).Nodup) {r : Round} (hr : r ∈ rows) :
    ∀ o ∈ db.rounds, o.roundId = r.roundId → o.key = r.key := by
  intro o ho hid
  have hin : o.key ∈ rows.map Round.key := hkeys ▸ List.mem_map_of_mem ho
  obtain ⟨o', ho', heq⟩ := List.mem_map.mp hin
  have hsame : o'.roundId = o.roundId := congrArg (·.1) heq
  rw [← heq, Table.eq_of_key h ho' hr (hsame.trans hid)]

theorem settleFinishedRounds_edits (hids : (db.rounds.map (·.roundId)).Nodup)
    (h : settleFinishedRounds env db = .ok t) : DiscoveryEdits db t := by
  have hin : ∀ r ∈ db.rounds.filter (fun r => r.state = .issued), r ∈ db.rounds :=
    fun r hr => (List.mem_filter.mp hr).1
  unfold settleFinishedRounds at h
  generalize db.rounds.filter (fun r => r.state = .issued) = due at h hin
  refine (foldlM_invariant _ (fun xs s => (∀ x ∈ xs, x ∈ due) → DiscoveryEdits db s) ?_ due db t
    (fun _ => .refl) h) fun x hx => hx
  intro xs s r u hs hu hdue
  have hedits := hs fun x hx => hdue x (List.mem_append_left _ hx)
  have hr := hin r (hdue r (List.mem_append_right _ (List.mem_singleton.mpr rfl)))
  split at hu
  · split at hu
    · exact hedits.trans (settleDiscoveryRound_edits (keys_name hedits.keys hids hr) hu)
    · cases hu
      exact hedits
  · cases hu
    exact hedits

theorem reapDiscovery_edits (hids : (db.rounds.map (·.roundId)).Nodup)
    (h : reapDiscovery env db = .ok t) : DiscoveryEdits db t := by
  simp only [reapDiscovery, bind_ok] at h
  obtain ⟨mid, hclose, hsettle⟩ := h
  have hedits : DiscoveryEdits db mid := by
    refine foldlM_invariant _ (fun _ s => DiscoveryEdits db s) ?_ _ db mid .refl hclose
    intro _ s a u hs hu
    exact hs.trans (closeDiscovery_edits (by simp) hu)
  have hmid : (mid.rounds.map (·.roundId)).Nodup := by
    have hkeys := congrArg (List.map (·.1)) hedits.keys
    simp only [List.map_map] at hkeys
    exact hkeys ▸ hids
  exact hedits.trans (settleFinishedRounds_edits hmid hsettle)

/-- What the submission of a new round has checked, and the row it inserts. -/
structure Issues (db t : CanaryDb) (a : Authorization) (r : Round) : Prop where
  mem : a ∈ db.authorizations
  authorizationId : r.authorizationId = a.authorizationId
  opened : a.state = .opened
  unexpired : r.issuedAtMs < a.expiresAtMs
  next : r.round = a.roundsIssued + 1
  previous : 1 < r.round → ∃ o ∈ db.rounds, o.authorizationId = a.authorizationId ∧
    o.round = r.round - 1 ∧ o.state = .terminal
  requests : a.actionsIssued + r.actions ≤ a.bound.maxRequests
  rounds : r.round ≤ a.bound.maxRounds
  floor : a.executionMsUsed + discoveryRoundFloorMs ≤ a.bound.maxTotalExecutionMs
  wall : r.wallBudgetMs ≤ a.bound.maxTotalExecutionMs - a.executionMsUsed
  fresh : ∀ o ∈ db.rounds, o.roundId ≠ r.roundId
  issued : r.state = .issued
  inserted : t.rounds = db.rounds ++ [r]
  counted : (r.round = 1 ∧ a.quotaState = .reserved ∧ ∃ answer,
      db.ledger.consume a.reservationId = .ok (answer, t.ledger) ∧
      (answer = true ∨ t.ledger.has a.reservationId .consume = true) ∧
      t.authorizations = Table.update
        (fun o : Authorization => o.authorizationId = a.authorizationId)
        (fun o => { o with quotaState := .consumed, roundsIssued := 1, actionsIssued := r.actions })
        db.authorizations) ∨
    (r.round ≠ 1 ∧ t.ledger = db.ledger ∧
      t.authorizations = Table.update
        (fun o : Authorization => o.authorizationId = a.authorizationId)
        (fun o => { o with
          roundsIssued := o.roundsIssued + 1, actionsIssued := o.actionsIssued + r.actions })
        db.authorizations)

/-- The tables that a projection and its grant do not touch. -/
def SameRounds (db t : CanaryDb) : Prop :=
  t.ledger = db.ledger ∧ t.authorizations = db.authorizations ∧ t.rounds = db.rounds

theorem submitProjection_same {b : BindingRow} {plan : RoundPlan} {approval : ApprovalRequest}
    (h : submitProjection env b plan db = .ok (t, approval)) : SameRounds db t := by
  simp only [submitProjection, bind_ok, require_ok, exists_const] at h
  obtain ⟨_, -, -, h⟩ := h
  split at h
  · simp only [bind_ok, require_ok, exists_const] at h
    obtain ⟨-, h⟩ := h
    cases h
    exact ⟨rfl, rfl, rfl⟩
  · simp only [bind_ok, require_ok, exists_const] at h
    obtain ⟨-, -, -, h⟩ := h
    cases h
    exact ⟨rfl, rfl, rfl⟩

theorem issueDiscoveryGrant_same {a : Authorization} {plan : RoundPlan}
    {approval : ApprovalRequest} (h : issueDiscoveryGrant P env a plan approval db = .ok t) :
    SameRounds db t := by
  simp only [issueDiscoveryGrant, bind_ok, require_ok, exists_const] at h
  obtain ⟨_, -, -, -, -, mid, hmid, h⟩ := h
  obtain ⟨-, rfl⟩ := insertGrant_ok hmid
  cases h
  exact ⟨rfl, rfl, rfl⟩

theorem insertRound_ok {r : Round} (h : db.insertRound r = .ok t) :
    (∀ o ∈ db.rounds, o.roundId ≠ r.roundId) ∧ t = { db with rounds := db.rounds ++ [r] } := by
  simp only [CanaryDb.insertRound, bind_ok, require_ok, exists_const] at h
  obtain ⟨huniq, h⟩ := h
  cases h
  exact ⟨fun o ho => (huniq o ho).1, rfl⟩

theorem submitDiscoveryRound_ok {b : BindingRow} {plan : RoundPlan}
    (hids : (db.authorizations.map (·.authorizationId)).Nodup)
    (h : submitDiscoveryRound P env b plan db = .ok t) :
    DiscoveryEdits db t ∨ ∃ a r, Issues db t a r ∧ r.issuedAtMs = env.now := by
  unfold submitDiscoveryRound at h
  split at h
  · cases h
  rename_i a ha
  have hspec := List.find?_some ha
  simp only [decide_eq_true_eq] at hspec
  have hmem : a ∈ db.authorizations := List.mem_of_find?_eq_some ha
  split at h
  · simp only [bind_ok, require_ok, exists_const] at h
    exact .inl (expireDiscoveryIfDue_edits h.2)
  · simp only [bind_ok, require_ok, exists_const] at h
    obtain ⟨-, _, hchecks, ⟨mid, approval⟩, hsubmit, granted, hgrant,
      inserted, hinsert, hcount⟩ := h
    simp only [roundChecks, bind_ok, require_ok, exists_const] at hchecks
    obtain ⟨hopen, -, hlive, -, hnext, hprevious, -, -, ⟨hrequests, hrounds, hfloor⟩,
      ⟨-, hwall, -⟩, -⟩ := hchecks
    obtain ⟨hl1, ha1, hr1⟩ := submitProjection_same hsubmit
    obtain ⟨hl2, ha2, hr2⟩ := issueDiscoveryGrant_same hgrant
    obtain ⟨hfresh, rfl⟩ := insertRound_ok hinsert
    rw [hr2, hr1] at hfresh
    have hfind : CanaryDb.authorization { granted with
        rounds := granted.rounds ++ [plan.row env b approval.runId] } plan.authorizationId =
        some a := by
      rw [CanaryDb.authorization]
      simp only [ha2, ha1, ← hspec.1]
      exact Table.find_key (g := fun o : Authorization => o.authorizationId) hids hmem
    refine .inr ⟨a, plan.row env b approval.runId, ?_, rfl⟩
    simp only [countRound, hfind] at hcount
    have hprior : 1 < plan.round → ∃ o ∈ db.rounds, o.authorizationId = a.authorizationId ∧
        o.round = plan.round - 1 ∧ o.state = .terminal := by
      intro hone
      obtain ⟨o, ho, hname, hstate⟩ := Table.find_any (hprevious hone)
      simp only [decide_eq_true_eq] at hname hstate
      exact ⟨o, ho, hname.1, hname.2, hstate⟩
    have hissue : ∀ t, t.rounds = db.rounds ++ [plan.row env b approval.runId] → _ →
        Issues db t a (plan.row env b approval.runId) := fun t hrounds' hcounted =>
      ⟨hmem, hspec.1.symm, hopen, hlive, hnext, hprior, hrequests, hrounds, hfloor,
        hwall.trans (min_le_right _ _), hfresh, rfl, hrounds', hcounted⟩
    have hinserted : granted.rounds ++ [plan.row env b approval.runId] =
        db.rounds ++ [plan.row env b approval.runId] := by rw [hr2, hr1]
    split at hcount
    · rename_i hone
      simp only [bind_ok, require_ok, exists_const] at hcount
      obtain ⟨⟨answer, ledger⟩, hl, hanswer, ⟨-, -, hq⟩, hcount⟩ := hcount
      cases hcount
      rw [hl2, hl1] at hl
      refine hissue _ hinserted (.inl ⟨hone, hq, answer, hl, hanswer, ?_⟩)
      simp only [CanaryDb.updateAuthorization, ha2, ha1]
      rfl
    · rename_i hone
      simp only [bind_ok, require_ok, exists_const] at hcount
      obtain ⟨-, hcount⟩ := hcount
      cases hcount
      refine hissue _ hinserted (.inr ⟨hone, hl2.trans hl1, ?_⟩)
      simp only [CanaryDb.updateAuthorization, ha2, ha1]
      rfl

end Heel.Cloud
