import Heel.Lib.Literal
import Heel.Lib.Transition
import Heel.Saas.Approval

/-! Who owns a `CANARY_RUNS` unit: `approve` and `create_discovery_authorization` share the
ledger's idempotency keys, and every reservation should belong to one run or one authorization. -/
namespace Heel.Cloud
open Lib Lib.Checks

/-! ### The ledger -/

namespace Ledger
variable {l l' : Ledger} {reservationId : String}

/-- The units of a workspace that are charged and not refunded, over all periods. -/
def charged (l : Ledger) (workspaceId : String) : Int :=
  ((l.filter fun e => e.workspaceId = workspaceId ∧ e.meter = .canaryRuns).map Entry.charge).sum

theorem charged_append (e : Entry) (workspaceId : String) :
    Ledger.charged (l ++ [e]) workspaceId = l.charged workspaceId +
      if e.workspaceId = workspaceId ∧ e.meter = .canaryRuns then e.charge else 0 := by
  simp only [charged, List.filter_append, List.map_append, List.sum_append]
  by_cases h : e.workspaceId = workspaceId ∧ e.meter = .canaryRuns
  · simp [h]
  · simp [h]

/-- A reservation is the one its key already holds, or a new one under the fresh identifier. -/
theorem reserve_ok {q : ReserveRequest} {id : String} {key : String}
    (hkey : q.idempotencyKey = some key) (h : l.reserve q = .ok (id, l')) :
    (∃ prior, l.keyed q.workspaceId q.meter key = some prior ∧
      ¬ l.has prior.reservationId .refund ∧ id = prior.reservationId ∧ l' = l) ∨
    (l.keyed q.workspaceId q.meter key = none ∧ id = q.fresh ∧ l' = l ++ [q.entry]) := by
  simp only [reserve, hkey, Option.bind_some, bind_ok, require_ok, exists_const] at h
  obtain ⟨-, h⟩ := h
  cases hprior : l.keyed q.workspaceId q.meter key with
  | some prior =>
    simp only [hprior, bind_ok, require_ok, exists_const] at h
    obtain ⟨hrefund, h⟩ := h
    cases h
    exact .inl ⟨prior, rfl, hrefund.1, rfl, rfl⟩
  | none =>
    simp only [hprior, reserveNew, bind_ok, require_ok, exists_const] at h
    obtain ⟨-, -, h⟩ := h
    cases h
    exact .inr ⟨rfl, rfl, rfl⟩

/-- The row a settlement appends is the reservation's own, of another kind. -/
theorem settle_row {kind : EntryKind} (h : l.settle reservationId kind = .ok (true, l')) :
    ∃ resv, l.reservation reservationId = some resv ∧
      l' = l ++ [{ resv with kind := kind, idempotencyKey := none, reason := none }] := by
  unfold settle at h
  split at h
  · cases h
  · rename_i resv hresv
    refine ⟨resv, hresv, ?_⟩
    split at h
    · cases h
    · split at h
      · cases h
      · split at h
        · cases h
        · cases h
          rfl

theorem keyed_spec {workspaceId key : String} {meter : Meter} {e : Entry}
    (h : l.keyed workspaceId meter key = some e) : e ∈ l ∧ e.workspaceId = workspaceId ∧
      e.meter = meter ∧ e.idempotencyKey = some key ∧ e.kind = .reserve := by
  have hspec := List.find?_some h
  simp only [decide_eq_true_eq] at hspec
  exact ⟨List.mem_of_find?_eq_some h, hspec⟩

theorem reservation_append {e : Entry} {rows : Ledger}
    (h : l.reservation reservationId = some e) :
    Ledger.reservation (l ++ rows) reservationId = some e := by
  unfold reservation at h ⊢
  rw [List.find?_append, h, Option.some_or]

theorem reservation_fresh {e : Entry} (hfresh : ∀ o ∈ l, o.reservationId ≠ e.reservationId)
    (hkind : e.kind = .reserve) :
    Ledger.reservation (l ++ [e]) e.reservationId = some e := by
  have hnone : l.reservation e.reservationId = none := by
    rw [reservation, List.find?_eq_none]
    intro o ho
    simp [hfresh o ho]
  unfold reservation at hnone ⊢
  rw [List.find?_append, hnone]
  simp [hkind]

end Ledger

/-! ### What the calls do to the rows -/

variable {env : CloudEnv} {db t : CanaryDb}

theorem authorization_mem {id : String} {a : Authorization} (h : db.authorization id = some a) :
    a ∈ db.authorizations ∧ a.authorizationId = id := by
  have hspec := List.find?_some h
  simp only [decide_eq_true_eq] at hspec
  exact ⟨List.mem_of_find?_eq_some h, hspec⟩

/-- A close does nothing, closes the row, or closes it and refunds its unit. -/
theorem closeRow_ok {id : String} {state : AuthorizationState} {reason : CloseReason}
    {now : Int} {revokedBy : Option String}
    (h : closeRow db id state reason now revokedBy = .ok t) :
    t = db ∨
    (∃ a, db.authorization id = some a ∧ a.state = .opened ∧
      ((a.roundsIssued = 0 ∧ a.quotaState = .reserved ∧ ∃ answer ledger,
          db.ledger.settle a.reservationId .refund = .ok (answer, ledger) ∧
          (answer = true ∨ ledger.has a.reservationId .refund = true) ∧
          t = { db with ledger := ledger }.updateAuthorization id fun a =>
            { a.closed state reason now revokedBy with quotaState := .refunded }) ∨
        (¬ (a.roundsIssued = 0 ∧ a.quotaState = .reserved) ∧
          t = db.updateAuthorization id (·.closed state reason now revokedBy)))) := by
  unfold closeRow at h
  cases ha : db.authorization id with
  | none =>
    rw [ha] at h
    cases h
    exact .inl rfl
  | some a =>
    simp only [ha] at h
    split at h
    · cases h
      exact .inl rfl
    · rename_i hopen
      rw [not_not] at hopen
      refine .inr ⟨a, rfl, hopen, ?_⟩
      split at h
      · rename_i hunit
        simp only [bind_ok, require_ok, exists_const] at h
        obtain ⟨⟨answer, ledger⟩, hl, hanswer, h⟩ := h
        cases h
        exact .inl ⟨hunit.1, hunit.2, answer, ledger, hl, hanswer, rfl⟩
      · rename_i hunit
        cases h
        exact .inr ⟨hunit, rfl⟩

/-- A stop of runs writes statuses of grants and runs only. -/
structure StopsRuns (db t : CanaryDb) : Prop where
  grants : t.grants.map (fun g => { g with status := .issued }) =
    db.grants.map fun g => { g with status := .issued }
  runs : t.runs.map (fun r => { r with status := .approved, stopReason := .none }) =
    db.runs.map fun r => { r with status := .approved, stopReason := .none }
  ledger : t.ledger = db.ledger
  authorizations : t.authorizations = db.authorizations
  rounds : t.rounds = db.rounds

theorem StopsRuns.refl (db : CanaryDb) : StopsRuns db db := ⟨rfl, rfl, rfl, rfl, rfl⟩

theorem StopsRuns.trans {u : CanaryDb} (h : StopsRuns db t) (h' : StopsRuns t u) :
    StopsRuns db u :=
  ⟨h'.grants.trans h.grants, h'.runs.trans h.runs, h'.ledger.trans h.ledger,
    h'.authorizations.trans h.authorizations, h'.rounds.trans h.rounds⟩

theorem stopRun_stops (db : CanaryDb) (r : CanaryRun) : StopsRuns db (db.stopRun r) := by
  unfold CanaryDb.stopRun
  split
  · exact ⟨Table.map_update fun _ _ => rfl, rfl, rfl, rfl, rfl⟩
  · split
    · exact ⟨rfl, Table.map_update fun _ _ => rfl, rfl, rfl, rfl⟩
    · exact .refl db

theorem stopDiscoveryRounds_stops (db : CanaryDb) (id : String) :
    StopsRuns db (db.stopDiscoveryRounds id) := by
  unfold CanaryDb.stopDiscoveryRounds
  generalize db.rounds.filter _ = rows
  induction rows generalizing db with
  | nil => exact .refl db
  | cons r rest ih =>
    rw [List.foldl_cons]
    refine StopsRuns.trans ?_ (ih _)
    cases db.runAny r.runId with
    | none => exact .refl db
    | some run => exact stopRun_stops db run

/-- A close is the close of the row, and for a revocation or an expiry the stop of its rounds. -/
theorem closeDiscovery_ok {id : String} {state : AuthorizationState} {reason : CloseReason}
    {now : Int} {revokedBy : Option String}
    (h : closeDiscovery db id state reason now revokedBy = .ok t) :
    ∃ mid, closeRow db id state reason now revokedBy = .ok mid ∧ StopsRuns mid t := by
  simp only [closeDiscovery, bind_ok, pure, Except.pure, Except.ok.injEq] at h
  obtain ⟨mid, hmid, rfl⟩ := h
  refine ⟨mid, hmid, ?_⟩
  split
  · exact stopDiscoveryRounds_stops mid id
  · exact .refl mid

theorem expireDiscoveryIfDue_ok {a : Authorization} {now : Int}
    (h : expireDiscoveryIfDue db a now = .ok t) :
    t = db ∨ closeDiscovery db a.authorizationId .expired .expired now none = .ok t := by
  unfold expireDiscoveryIfDue at h
  split at h
  · exact .inr h
  · cases h
    exact .inl rfl

theorem quotaRefusal_ok {α : Type} {x : Except Refusal α} {a : α} (h : quotaRefusal x = .ok a) :
    x = .ok a := by
  cases x with
  | error e => cases h
  | ok b => exact h

theorem insertAuthorization_ok {a : Authorization} (h : db.insertAuthorization a = .ok t) :
    (∀ o ∈ db.authorizations, o.authorizationId ≠ a.authorizationId ∧
      o.reservationId ≠ a.reservationId ∧
      ¬ (o.workspaceId = a.workspaceId ∧ o.idempotencyKey = a.idempotencyKey) ∧
      ¬ (o.place = a.place ∧ o.state = .opened ∧ a.state = .opened)) ∧
    t = { db with authorizations := db.authorizations ++ [a] } := by
  simp only [CanaryDb.insertAuthorization, bind_ok, require_ok, exists_const] at h
  obtain ⟨huniq, h⟩ := h
  cases h
  exact ⟨huniq, rfl⟩

theorem insertGrant_ok {g : ExecutionGrant} (h : db.insertGrant g = .ok t) :
    (∀ o ∈ db.grants, o.grantId ≠ g.grantId ∧ o.reservationId ≠ g.reservationId ∧
      ¬ (o.workspaceId = g.workspaceId ∧ o.idempotencyKey = g.idempotencyKey) ∧
      ¬ (o.workspaceId = g.workspaceId ∧ o.projectRef = g.projectRef ∧ o.runId = g.runId)) ∧
    t = { db with grants := db.grants ++ [g] } := by
  simp only [CanaryDb.insertGrant, bind_ok, require_ok, exists_const] at h
  obtain ⟨huniq, h⟩ := h
  cases h
  exact ⟨huniq, rfl⟩

/-- A new authorization: an open one of its place may expire first, then a unit is reserved and
the row inserted. -/
theorem createFresh_ok {q : AuthorizationRequest} (h : createFresh env q db = .ok t) :
    (∀ e ∈ db.ledger, ¬ (e.workspaceId = q.workspaceId ∧ e.meter = .canaryRuns ∧
      e.idempotencyKey = some q.idempotencyKey)) ∧
    ∃ mid id ledger, (mid = db ∨
        ∃ a, closeDiscovery db a .expired .expired env.now none = .ok mid) ∧
      (mid.ledger.reserve (q.reserveRequest env)) = .ok (id, ledger) ∧
      { mid with ledger := ledger }.insertAuthorization (q.row env id) = .ok t := by
  simp only [createFresh, bind_ok, require_ok, exists_const] at h
  obtain ⟨hkey, h⟩ := h
  refine ⟨hkey, ?_⟩
  split at h
  · cases h
  · simp only [bind_ok, require_ok, exists_const] at h
    obtain ⟨-, mid, hmid, ⟨id, ledger⟩, hreserve, hinsert⟩ := h
    refine ⟨mid, id, ledger, ?_, quotaRefusal_ok hreserve, hinsert⟩
    unfold expireOpen at hmid
    split at hmid
    · cases hmid
      exact .inl rfl
    · simp only [bind_ok, require_ok, exists_const] at hmid
      obtain ⟨last, hlast, -, hmid⟩ := hmid
      cases hmid
      rcases expireDiscoveryIfDue_ok hlast with h | h
      · exact .inl h
      · exact .inr ⟨_, h⟩

/-- The identifier of a reservation is drawn fresh. -/
def CanaryDb.Fresh (db : CanaryDb) (env : CloudEnv) : Prop :=
  ∀ e ∈ db.ledger, e.reservationId ≠ env.freshReservation

theorem closeDiscovery_rows {id : String} {state : AuthorizationState} {reason : CloseReason}
    {now : Int} {revokedBy : Option String}
    (h : closeDiscovery db id state reason now revokedBy = .ok t) :
    ∀ e ∈ t.ledger, e ∈ db.ledger ∨ e.idempotencyKey = none ∧
      ∃ o ∈ db.ledger, o.reservationId = e.reservationId := by
  obtain ⟨mid, hmid, hstop⟩ := closeDiscovery_ok h
  rw [hstop.ledger]
  intro e he
  rcases closeRow_ok hmid with rfl | ⟨a, -, -, ⟨-, -, answer, ledger, hl, -, rfl⟩ | ⟨-, rfl⟩⟩
  · exact .inl he
  · simp only [CanaryDb.updateAuthorization] at he
    cases answer with
    | false =>
      rcases Ledger.settle_ok hl with ⟨-, rfl, -⟩ | ⟨hfalse, -⟩
      · exact .inl he
      · cases hfalse
    | true =>
      obtain ⟨resv, hresv, rfl⟩ := Ledger.settle_row hl
      simp only [List.mem_append, List.mem_singleton] at he
      rcases he with he | rfl
      · exact .inl he
      · exact .inr ⟨rfl, resv, List.mem_of_find?_eq_some hresv, rfl⟩
  · exact .inl he

/-- A new authorization reserves a unit under a fresh identifier: its key is in no row of the
ledger, so nothing is handed back. -/
theorem createFresh_reserves {q : AuthorizationRequest} (hfresh : db.Fresh env)
    (h : createFresh env q db = .ok t) :
    ∃ mid, (mid = db ∨ ∃ a, closeDiscovery db a .expired .expired env.now none = .ok mid) ∧
      mid.Fresh env ∧ CanaryDb.insertAuthorization
        { mid with ledger := mid.ledger ++ [(q.reserveRequest env).entry] }
        (q.row env env.freshReservation) = .ok t := by
  obtain ⟨hkey, mid, id, ledger, hmid, hreserve, hinsert⟩ := createFresh_ok h
  have hrows : ∀ e ∈ mid.ledger, e ∈ db.ledger ∨ e.idempotencyKey = none ∧
      ∃ o ∈ db.ledger, o.reservationId = e.reservationId := by
    rcases hmid with rfl | ⟨a, hclose⟩
    · exact fun e he => .inl he
    · exact closeDiscovery_rows hclose
  refine ⟨mid, hmid, fun e he => ?_, ?_⟩
  · rcases hrows e he with he' | ⟨-, o, ho, heq⟩
    · exact hfresh e he'
    · rw [← heq]
      exact hfresh o ho
  · rcases Ledger.reserve_ok rfl hreserve with ⟨prior, hprior, -⟩ | ⟨-, rfl, rfl⟩
    · obtain ⟨hin, hw, hm, hk, -⟩ := Ledger.keyed_spec hprior
      rcases hrows prior hin with hold | ⟨hnone, -⟩
      · exact absurd ⟨hw, hm, hk⟩ (hkey prior hold)
      · rw [hnone] at hk
        cases hk
    · exact hinsert

theorem createDiscoveryAuthorization_ok {q : AuthorizationRequest}
    (h : createDiscoveryAuthorization env q db = .ok t) :
    t = db ∨ (∃ a, closeDiscovery db a .expired .expired env.now none = .ok t) ∨
      createFresh env q db = .ok t := by
  simp only [createDiscoveryAuthorization, bind_ok, require_ok, exists_const] at h
  obtain ⟨-, -, -, -, -, h⟩ := h
  split at h
  · simp only [bind_ok, require_ok, exists_const] at h
    rcases expireDiscoveryIfDue_ok h.2 with h | h
    · exact .inl h
    · exact .inr (.inl ⟨_, h⟩)
  · exact .inr (.inr h)

/-- An approval answers a replay, or takes a unit and issues a grant. -/
theorem approve_ok {q : ApproveRequest} {answer : ExecutionApproved}
    (h : approve env q db = .ok (t, answer)) :
    (∃ run, db.run q.workspaceId q.projectRef q.runId = some run) ∧
    ((t = db ∧ ∃ prior, db.grantOfKey q.workspaceId q.idempotencyKey = some prior ∧
        replayApproval q prior db = .ok answer) ∨
      (db.grantOfKey q.workspaceId q.idempotencyKey = none ∧
        issueApproved env q db = .ok (t, answer))) := by
  simp only [approve, bind_ok] at h
  obtain ⟨_, -, _, -, h⟩ := h
  cases hrun : db.run q.workspaceId q.projectRef q.runId with
  | none => simp [hrun] at h
  | some run =>
    refine ⟨⟨run, rfl⟩, ?_⟩
    simp only [hrun] at h
    cases hprior : db.grantOfKey q.workspaceId q.idempotencyKey with
    | some prior =>
      simp only [hprior, bind_ok] at h
      obtain ⟨_, hreplay, h⟩ := h
      cases h
      exact .inl ⟨rfl, prior, rfl, hreplay⟩
    | none =>
      simp only [hprior] at h
      exact .inr ⟨rfl, h⟩

theorem issueApproved_ok {q : ApproveRequest} {answer : ExecutionApproved}
    (h : issueApproved env q db = .ok (t, answer)) :
    ∃ approval projection proof id ledger mid,
      approvable env q db = .ok (approval, projection, proof) ∧
      db.ledger.reserve (q.reserveRequest env) = .ok (id, ledger) ∧
      env.now < min (env.now + 600000) proof ∧
      ({ db with ledger := ledger }.markApproved q).insertGrant
        (q.row env approval projection id (min (env.now + 600000) proof)) = .ok mid ∧
      t = mid.assignRun env (q.row env approval projection id (min (env.now + 600000) proof)) ∧
      answer = ⟨q.runId, env.freshGrant, id,
        ⟨approval.projectionDigest, projection.hostname, env.controlGeneration⟩⟩ := by
  simp only [issueApproved, bind_ok, require_ok, exists_const] at h
  obtain ⟨⟨approval, projection, proof⟩, happ, ⟨id, ledger⟩, hres, hexp, mid, hmid, h⟩ := h
  cases h
  exact ⟨approval, projection, proof, id, ledger, mid, happ, hres, hexp, hmid, rfl, rfl⟩

/-! ### One owner for every unit -/

def CanaryRun.key (r : CanaryRun) : String × String × String :=
  (r.workspaceId, r.projectRef, r.runId)

/-- How many runs of a workspace hold a unit. -/
def CanaryDb.approvedRuns (db : CanaryDb) (workspaceId : String) : Nat :=
  db.runs.countP fun r => r.workspaceId = workspaceId ∧ r.reservationId.isSome

/-- How many authorizations of a workspace were not refunded. -/
def CanaryDb.unrefundedAuthorizations (db : CanaryDb) (workspaceId : String) : Nat :=
  db.authorizations.countP fun a => a.workspaceId = workspaceId ∧ a.quotaState ≠ .refunded

structure UnitInv (db : CanaryDb) : Prop where
  grants : (db.grants.map (·.reservationId)).Nodup
  authorizations : (db.authorizations.map (·.reservationId)).Nodup
  authorizationIds : (db.authorizations.map (·.authorizationId)).Nodup
  runKeys : (db.runs.map CanaryRun.key).Nodup
  runs : ∀ r ∈ db.runs, ∀ id, r.reservationId = some id →
    ∃ g ∈ db.grants, g.reservationId = id ∧ (g.workspaceId, g.projectRef, g.runId) = r.key
  apart : ∀ g ∈ db.grants, ∀ a ∈ db.authorizations, g.reservationId ≠ a.reservationId
  granted : ∀ g ∈ db.grants, ∃ e ∈ db.ledger, e.reservationId = g.reservationId
  unit : ∀ a ∈ db.authorizations, ∃ e, db.ledger.reservation a.reservationId = some e ∧
    e.workspaceId = a.workspaceId ∧ e.meter = .canaryRuns ∧ e.amount = 1
  refunded : ∀ a ∈ db.authorizations,
    (a.quotaState = .refunded ↔ db.ledger.has a.reservationId .refund = true)
  /-- A key in the ledger is the key of a grant or of an authorization. -/
  keyed : ∀ e ∈ db.ledger, e.meter = .canaryRuns → e.kind = .reserve →
    (∃ g ∈ db.grants, g.workspaceId = e.workspaceId ∧
      e.idempotencyKey = some g.idempotencyKey) ∨
    ∃ a ∈ db.authorizations, a.workspaceId = e.workspaceId ∧
      e.idempotencyKey = some a.idempotencyKey ∧ a.reservationId = e.reservationId
  charged : ∀ workspaceId, db.ledger.charged workspaceId =
    db.approvedRuns workspaceId + db.unrefundedAuthorizations workspaceId

/-- An update of an authorization that keeps the columns of its unit. -/
theorem UnitInv.update (h : UnitInv db) (id : String) {f : Authorization → Authorization}
    (hf : ∀ a, (f a).authorizationId = a.authorizationId ∧ (f a).reservationId = a.reservationId ∧
      (f a).workspaceId = a.workspaceId ∧ (f a).idempotencyKey = a.idempotencyKey ∧
      (f a).quotaState = a.quotaState) : UnitInv (db.updateAuthorization id f) := by
  have hmem : ∀ a' ∈ (db.updateAuthorization id f).authorizations, ∃ a ∈ db.authorizations,
      a'.reservationId = a.reservationId ∧ a'.workspaceId = a.workspaceId ∧
        a'.quotaState = a.quotaState := by
    intro a' ha'
    obtain ⟨a, ha, rfl⟩ := Table.mem_update.mp ha'
    refine ⟨a, ha, ?_⟩
    split
    · exact ⟨(hf a).2.1, (hf a).2.2.1, (hf a).2.2.2.2⟩
    · exact ⟨rfl, rfl, rfl⟩
  constructor
  case grants => exact h.grants
  case authorizations =>
    simp only [CanaryDb.updateAuthorization]
    rw [Table.map_update fun a _ => (hf a).2.1]
    exact h.authorizations
  case authorizationIds =>
    simp only [CanaryDb.updateAuthorization]
    rw [Table.map_update fun a _ => (hf a).1]
    exact h.authorizationIds
  case runKeys => exact h.runKeys
  case runs => exact h.runs
  case apart =>
    intro g hg a' ha'
    obtain ⟨a, ha, hr, -⟩ := hmem a' ha'
    rw [hr]
    exact h.apart g hg a ha
  case granted => exact h.granted
  case unit =>
    intro a' ha'
    obtain ⟨a, ha, hr, hw, -⟩ := hmem a' ha'
    rw [hr, hw]
    exact h.unit a ha
  case refunded =>
    intro a' ha'
    obtain ⟨a, ha, hr, -, hq⟩ := hmem a' ha'
    rw [hr, hq]
    exact h.refunded a ha
  case keyed =>
    intro e he hmeter hkind
    rcases h.keyed e he hmeter hkind with hg | ⟨a, ha, hw, hk, hr⟩
    · exact .inl hg
    · refine .inr ⟨_, Table.mem_update.mpr ⟨a, ha, rfl⟩, ?_⟩
      split
      · exact ⟨(hf a).2.2.1.trans hw, by rw [(hf a).2.2.2.1]; exact hk, (hf a).2.1.trans hr⟩
      · exact ⟨hw, hk, hr⟩
  case charged =>
    intro workspaceId
    rw [show (db.updateAuthorization id f).ledger = db.ledger from rfl, h.charged workspaceId]
    have hcount : (db.updateAuthorization id f).unrefundedAuthorizations workspaceId =
        db.unrefundedAuthorizations workspaceId := by
      simp only [CanaryDb.unrefundedAuthorizations, CanaryDb.updateAuthorization, Table.update,
        List.countP_map]
      apply List.countP_congr
      intro a _
      simp only [Function.comp, decide_eq_true_eq]
      split
      · rw [(hf a).2.2.1, (hf a).2.2.2.2]
      · rfl
    rw [hcount]
    rfl

theorem UnitInv.refund (h : UnitInv db) {a : Authorization} (ha : a ∈ db.authorizations)
    (hq : a.quotaState = .reserved) {answer : Bool} {ledger : Ledger}
    (hl : db.ledger.settle a.reservationId .refund = .ok (answer, ledger))
    (hanswer : answer = true ∨ ledger.has a.reservationId .refund = true)
    {f : Authorization → Authorization}
    (hf : ∀ a, (f a).authorizationId = a.authorizationId ∧ (f a).reservationId = a.reservationId ∧
      (f a).workspaceId = a.workspaceId ∧ (f a).idempotencyKey = a.idempotencyKey ∧
      (f a).quotaState = .refunded) :
    UnitInv ({ db with ledger := ledger }.updateAuthorization a.authorizationId f) := by
  have hnot : ¬ db.ledger.has a.reservationId .refund = true := by
    rw [← h.refunded a ha, hq]
    simp
  obtain ⟨resv, hunit, hws, hmeter, hamount⟩ := h.unit a ha
  obtain rfl : answer = true := by
    cases answer with
    | true => rfl
    | false =>
      rcases Ledger.settle_ok hl with ⟨-, rfl, -⟩ | ⟨hfalse, -⟩
      · rcases hanswer with hanswer | hanswer
        · cases hanswer
        · exact absurd hanswer hnot
      · cases hfalse
  obtain ⟨resv', hunit', rfl⟩ := Ledger.settle_row hl
  rw [hunit] at hunit'
  cases hunit'
  have hid := (Ledger.reservation_id hunit).1
  have hmem : ∀ a' ∈ (CanaryDb.updateAuthorization { db with ledger := db.ledger ++
      [{ resv with kind := .refund, idempotencyKey := none, reason := none }] }
        a.authorizationId f).authorizations, ∃ o ∈ db.authorizations,
      a' = if o.authorizationId = a.authorizationId then f o else o := by
    intro a' ha'
    obtain ⟨o, ho, rfl⟩ := Table.mem_update.mp ha'
    exact ⟨o, ho, by simp⟩
  have hself : ∀ o ∈ db.authorizations, o.authorizationId = a.authorizationId → o = a :=
    fun o ho hoa => Table.eq_of_key h.authorizationIds ho ha hoa
  have hres : ∀ o : Authorization, (if o.authorizationId = a.authorizationId then f o
      else o).reservationId = o.reservationId := by
    intro o
    split
    · exact (hf o).2.1
    · rfl
  have hwork : ∀ o : Authorization, (if o.authorizationId = a.authorizationId then f o
      else o).workspaceId = o.workspaceId := by
    intro o
    split
    · exact (hf o).2.2.1
    · rfl
  constructor
  case grants => exact h.grants
  case authorizations =>
    simp only [CanaryDb.updateAuthorization]
    rw [Table.map_update fun o _ => (hf o).2.1]
    exact h.authorizations
  case authorizationIds =>
    simp only [CanaryDb.updateAuthorization]
    rw [Table.map_update fun o _ => (hf o).1]
    exact h.authorizationIds
  case runKeys => exact h.runKeys
  case runs => exact h.runs
  case apart =>
    intro g hg a' ha'
    obtain ⟨o, ho, rfl⟩ := hmem a' ha'
    rw [hres]
    exact h.apart g hg o ho
  case granted =>
    intro g hg
    obtain ⟨e, he, heq⟩ := h.granted g hg
    exact ⟨e, List.mem_append_left _ he, heq⟩
  case unit =>
    intro a' ha'
    obtain ⟨o, ho, rfl⟩ := hmem a' ha'
    obtain ⟨e, he, hrest⟩ := h.unit o ho
    rw [hres, hwork]
    exact ⟨e, Ledger.reservation_append he, hrest⟩
  case refunded =>
    intro a' ha'
    obtain ⟨o, ho, rfl⟩ := hmem a' ha'
    simp only [CanaryDb.updateAuthorization]
    rw [hres, Ledger.has_append, Bool.or_eq_true, decide_eq_true_eq]
    by_cases hoa : o.authorizationId = a.authorizationId
    · obtain rfl := hself o ho hoa
      rw [if_pos rfl]
      simp [(hf o).2.2.2.2, hid]
    · rw [if_neg hoa, h.refunded o ho]
      refine ⟨.inl, ?_⟩
      rintro (hrow | ⟨hrow, -⟩)
      · exact hrow
      · exact absurd (Table.eq_of_key h.authorizations ha ho (hid.symm.trans hrow))
          (fun heq => hoa (by rw [heq]))
  case keyed =>
    intro e he hm hk
    simp only [CanaryDb.updateAuthorization, List.mem_append, List.mem_singleton] at he
    rcases he with he | rfl
    · rcases h.keyed e he hm hk with hg | ⟨o, ho, hw, hkey, hr⟩
      · exact .inl hg
      · refine .inr ⟨_, Table.mem_update.mpr ⟨o, ho, rfl⟩, ?_⟩
        split
        · exact ⟨(hf o).2.2.1.trans hw, by rw [(hf o).2.2.2.1]; exact hkey, (hf o).2.1.trans hr⟩
        · exact ⟨hw, hkey, hr⟩
    · cases hk
  case charged =>
    intro workspaceId
    obtain ⟨before, after, hsplit, hupdate⟩ := Table.update_one (f := f)
      (p := fun o : Authorization => o.authorizationId = a.authorizationId) h.authorizationIds ha
      (by simp)
    have hcharged := h.charged workspaceId
    simp only [CanaryDb.updateAuthorization, CanaryDb.unrefundedAuthorizations, hupdate,
      Ledger.charged_append, Entry.charge, hamount, hws, hmeter, and_true]
    simp only [CanaryDb.unrefundedAuthorizations, hsplit] at hcharged
    simp only [List.countP_append, List.countP_cons, (hf a).2.2.2.2, hq, (hf a).2.2.1] at hcharged ⊢
    rw [hcharged]
    by_cases hw : a.workspaceId = workspaceId
    · simp [hw, CanaryDb.approvedRuns]
      omega
    · simp [hw, CanaryDb.approvedRuns]

theorem UnitInv.stops (h : UnitInv db) (hstop : StopsRuns db t) : UnitInv t := by
  have hgrants {κ : Type} (f : ExecutionGrant → κ)
      (hf : ∀ g, f { g with status := .issued } = f g) :
      t.grants.map f = db.grants.map f := by
    have hmap := congrArg (List.map f) hstop.grants
    simpa only [List.map_map, Function.comp_def, hf] using hmap
  have hruns {κ : Type} (f : CanaryRun → κ)
      (hf : ∀ r, f { r with status := .approved, stopReason := .none } = f r) :
      t.runs.map f = db.runs.map f := by
    have hmap := congrArg (List.map f) hstop.runs
    simpa only [List.map_map, Function.comp_def, hf] using hmap
  have hgrant : ∀ g ∈ db.grants, ∃ g' ∈ t.grants, g'.reservationId = g.reservationId ∧
      (g'.workspaceId, g'.projectRef, g'.runId) = (g.workspaceId, g.projectRef, g.runId) ∧
      g'.idempotencyKey = g.idempotencyKey := by
    intro g hg
    have hin := List.mem_map_of_mem (f := fun g : ExecutionGrant => (g.reservationId,
      (g.workspaceId, g.projectRef, g.runId), g.idempotencyKey)) hg
    rw [← hgrants _ fun _ => rfl] at hin
    obtain ⟨g', hg', heq⟩ := List.mem_map.mp hin
    simp only [Prod.mk.injEq] at heq
    exact ⟨g', hg', heq.1, by simp [heq.2.1], heq.2.2⟩
  have hback : ∀ g ∈ t.grants, ∃ o ∈ db.grants, o.reservationId = g.reservationId := by
    intro g hg
    have hin := List.mem_map_of_mem (f := fun g : ExecutionGrant => g.reservationId) hg
    rw [hgrants _ fun _ => rfl] at hin
    exact List.mem_map.mp hin
  have hl := hstop.ledger
  have ha := hstop.authorizations
  constructor
  case grants =>
    rw [hgrants _ fun _ => rfl]
    exact h.grants
  case authorizations =>
    rw [ha]
    exact h.authorizations
  case authorizationIds =>
    rw [ha]
    exact h.authorizationIds
  case runKeys =>
    rw [hruns _ fun _ => rfl]
    exact h.runKeys
  case runs =>
    intro r hr id hid
    have hin := List.mem_map_of_mem (f := fun r : CanaryRun => (r.key, r.reservationId)) hr
    rw [hruns _ fun _ => rfl] at hin
    obtain ⟨r', hr', heq⟩ := List.mem_map.mp hin
    simp only [Prod.mk.injEq] at heq
    obtain ⟨g, hg, hgid, hgkey⟩ := h.runs r' hr' id (heq.2.trans hid)
    obtain ⟨g', hg', h1, h2, -⟩ := hgrant g hg
    exact ⟨g', hg', h1.trans hgid, h2.trans (hgkey.trans heq.1)⟩
  case apart =>
    intro g hg a ha'
    obtain ⟨o, ho, heq⟩ := hback g hg
    rw [← heq]
    exact h.apart o ho a (ha ▸ ha')
  case granted =>
    intro g hg
    obtain ⟨o, ho, heq⟩ := hback g hg
    rw [hl, ← heq]
    exact h.granted o ho
  case unit =>
    rw [hl, ha]
    exact h.unit
  case refunded =>
    rw [hl, ha]
    exact h.refunded
  case keyed =>
    rw [hl, ha]
    intro e he hmeter hkind
    rcases h.keyed e he hmeter hkind with ⟨g, hg, hw, hk⟩ | hauth
    · obtain ⟨g', hg', -, h2, h3⟩ := hgrant g hg
      simp only [Prod.mk.injEq] at h2
      exact .inl ⟨g', hg', h2.1.trans hw, by rw [h3]; exact hk⟩
    · exact .inr hauth
  case charged =>
    intro workspaceId
    have hcount : t.approvedRuns workspaceId = db.approvedRuns workspaceId := by
      have hmap := hruns (fun r => (r.workspaceId, r.reservationId)) fun _ => rfl
      have hcongr := congrArg (List.countP fun p : String × Option String =>
        p.1 = workspaceId ∧ p.2.isSome) hmap
      rw [List.countP_map, List.countP_map] at hcongr
      exact hcongr
    have hauths : t.unrefundedAuthorizations workspaceId =
        db.unrefundedAuthorizations workspaceId := by
      rw [CanaryDb.unrefundedAuthorizations, ha, CanaryDb.unrefundedAuthorizations]
    rw [hl, h.charged workspaceId, hcount, hauths]

theorem closed_columns (a : Authorization) (state : AuthorizationState) (reason : CloseReason)
    (now : Int) (revokedBy : Option String) :
    (a.closed state reason now revokedBy).authorizationId = a.authorizationId ∧
      (a.closed state reason now revokedBy).reservationId = a.reservationId ∧
      (a.closed state reason now revokedBy).workspaceId = a.workspaceId ∧
      (a.closed state reason now revokedBy).idempotencyKey = a.idempotencyKey ∧
      (a.closed state reason now revokedBy).quotaState = a.quotaState :=
  ⟨rfl, rfl, rfl, rfl, rfl⟩

theorem closeDiscovery_units {id : String} {state : AuthorizationState} {reason : CloseReason}
    {now : Int} {revokedBy : Option String} (h : UnitInv db)
    (hclose : closeDiscovery db id state reason now revokedBy = .ok t) : UnitInv t := by
  obtain ⟨mid, hmid, hstop⟩ := closeDiscovery_ok hclose
  refine UnitInv.stops ?_ hstop
  rcases closeRow_ok hmid with rfl | ⟨a, ha, hopen, hcase⟩
  · exact h
  · obtain ⟨hmem, rfl⟩ := authorization_mem ha
    rcases hcase with ⟨-, hq, answer, ledger, hl, hanswer, rfl⟩ | ⟨-, rfl⟩
    · exact h.refund hmem hq hl hanswer fun a => ⟨rfl, rfl, rfl, rfl, rfl⟩
    · exact h.update _ fun a => closed_columns a state reason now revokedBy

/-! ### A new authorization -/

theorem CanaryDb.Fresh.ne (hfresh : db.Fresh env) {id : String}
    (h : ∃ e ∈ db.ledger, e.reservationId = id) : env.freshReservation ≠ id := by
  obtain ⟨e, he, rfl⟩ := h
  exact (hfresh e he).symm

theorem UnitInv.reservation_mem (h : UnitInv db) {a : Authorization}
    (ha : a ∈ db.authorizations) : ∃ e ∈ db.ledger, e.reservationId = a.reservationId := by
  obtain ⟨e, he, -⟩ := h.unit a ha
  exact ⟨e, List.mem_of_find?_eq_some he, (Ledger.reservation_id he).1⟩

theorem not_refunded_of_fresh {l : Ledger} {e : Entry} (hkind : e.kind = .reserve)
    (h : ∀ o ∈ l, o.reservationId ≠ e.reservationId) :
    ¬ Ledger.has (l ++ [e]) e.reservationId .refund = true := by
  simp only [Ledger.has, List.any_append, List.any_cons, List.any_nil, Bool.or_false,
    Bool.or_eq_true, List.any_eq_true, decide_eq_true_eq, hkind, not_or, not_exists]
  refine ⟨?_, by simp⟩
  rintro o ⟨ho, hid, -⟩
  exact h o ho hid

theorem UnitInv.insert (h : UnitInv db) {q : AuthorizationRequest} (hfresh : db.Fresh env)
    (hinsert : CanaryDb.insertAuthorization
      { db with ledger := db.ledger ++ [(q.reserveRequest env).entry] }
      (q.row env env.freshReservation) = .ok t) : UnitInv t := by
  obtain ⟨huniq, rfl⟩ := insertAuthorization_ok hinsert
  constructor
  case grants => exact h.grants
  case authorizations =>
    simp only [List.map_append, List.map_cons, List.map_nil]
    refine List.nodup_append.mpr ⟨h.authorizations, by simp, ?_⟩
    rintro _ hid _ hnew rfl
    simp only [List.mem_singleton] at hnew
    obtain ⟨o, ho, heq⟩ := List.mem_map.mp hid
    exact (huniq o ho).2.1 (heq.trans hnew)
  case authorizationIds =>
    simp only [List.map_append, List.map_cons, List.map_nil]
    refine List.nodup_append.mpr ⟨h.authorizationIds, by simp, ?_⟩
    rintro _ hid _ hnew rfl
    simp only [List.mem_singleton] at hnew
    obtain ⟨o, ho, heq⟩ := List.mem_map.mp hid
    exact (huniq o ho).1 (heq.trans hnew)
  case runKeys => exact h.runKeys
  case runs => exact h.runs
  case apart =>
    intro g hg a ha
    simp only [List.mem_append, List.mem_singleton] at ha
    rcases ha with ha | rfl
    · exact h.apart g hg a ha
    · exact (hfresh.ne (h.granted g hg)).symm
  case granted =>
    intro g hg
    obtain ⟨e, he, heq⟩ := h.granted g hg
    exact ⟨e, List.mem_append_left _ he, heq⟩
  case unit =>
    intro a ha
    simp only [List.mem_append, List.mem_singleton] at ha
    rcases ha with ha | rfl
    · obtain ⟨e, he, hrest⟩ := h.unit a ha
      exact ⟨e, Ledger.reservation_append he, hrest⟩
    · exact ⟨_, Ledger.reservation_fresh (e := (q.reserveRequest env).entry) hfresh rfl,
        rfl, rfl, rfl⟩
  case refunded =>
    intro a ha
    simp only [List.mem_append, List.mem_singleton] at ha
    rcases ha with ha | rfl
    · rw [h.refunded a ha, Ledger.has_append]
      have hne : (q.reserveRequest env).entry.kind ≠ .refund := by
        simp [Ledger.ReserveRequest.entry]
      simp [hne]
    · refine ⟨fun hq => ?_, fun hrow => ?_⟩
      · cases hq
      · exact absurd hrow (not_refunded_of_fresh (e := (q.reserveRequest env).entry) rfl hfresh)
  case keyed =>
    intro e he hm hk
    simp only [List.mem_append, List.mem_singleton] at he
    rcases he with he | rfl
    · rcases h.keyed e he hm hk with hg | ⟨a, ha, hrest⟩
      · exact .inl hg
      · exact .inr ⟨a, List.mem_append_left _ ha, hrest⟩
    · exact .inr ⟨_, List.mem_append_right _ (List.mem_singleton.mpr rfl), rfl, rfl, rfl⟩
  case charged =>
    intro workspaceId
    have hcharged := h.charged workspaceId
    simp only [Ledger.charged_append, Ledger.ReserveRequest.entry,
      AuthorizationRequest.reserveRequest, Entry.charge, and_true,
      CanaryDb.unrefundedAuthorizations, List.countP_append, List.countP_cons,
      AuthorizationRequest.row, hcharged]
    by_cases hw : q.workspaceId = workspaceId
    · simp [hw, CanaryDb.approvedRuns]
      omega
    · simp [hw, CanaryDb.approvedRuns]

theorem createDiscoveryAuthorization_units {q : AuthorizationRequest} (h : UnitInv db)
    (hfresh : db.Fresh env) (hcall : createDiscoveryAuthorization env q db = .ok t) :
    UnitInv t := by
  rcases createDiscoveryAuthorization_ok hcall with rfl | ⟨a, hclose⟩ | hcreate
  · exact h
  · exact closeDiscovery_units h hclose
  · obtain ⟨mid, hmid, hfresh', hinsert⟩ := createFresh_reserves hfresh hcreate
    have hinv : UnitInv mid := by
      rcases hmid with rfl | ⟨a, hclose⟩
      · exact h
      · exact closeDiscovery_units h hclose
    exact hinv.insert hfresh' hinsert

/-! ### An approval -/

theorem approvedRuns_assignRun (hkeys : (db.runs.map CanaryRun.key).Nodup) {run : CanaryRun}
    (hmem : run ∈ db.runs) {g : ExecutionGrant}
    (hkey : run.key = (g.workspaceId, g.projectRef, g.runId)) (hnone : run.reservationId = none)
    (workspaceId : String) : (db.assignRun env g).approvedRuns workspaceId =
      db.approvedRuns workspaceId + if g.workspaceId = workspaceId then 1 else 0 := by
  obtain ⟨before, after, hsplit, hupdate⟩ := Table.update_one (g := CanaryRun.key)
    (p := fun r : CanaryRun =>
      r.workspaceId = g.workspaceId ∧ r.projectRef = g.projectRef ∧ r.runId = g.runId)
    (f := fun r => { r with
      grantId := some g.grantId, status := .approved, reservationId := some g.reservationId
      quotaState := .reserved, killSwitchGeneration := env.controlGeneration
      updatedAt := env.now }) hkeys hmem fun o => by
        simp only [decide_eq_true_eq, hkey]
        simp only [CanaryRun.key, Prod.mk.injEq]
  have hwork : run.workspaceId = g.workspaceId := congrArg Prod.fst hkey
  simp only [CanaryDb.approvedRuns, CanaryDb.assignRun, hupdate]
  simp only [hsplit, List.countP_append, List.countP_cons, hnone, hwork]
  by_cases hw : g.workspaceId = workspaceId
  · simp [hw]
    omega
  · simp [hw]

theorem UnitInv.approve (h : UnitInv db) {q : ApproveRequest} {run : CanaryRun}
    {approval : ApprovalRequest} {projection : PendingProjection} {expiresAt : Int} {mid : CanaryDb}
    (hfresh : db.Fresh env) (hrun : db.run q.workspaceId q.projectRef q.runId = some run)
    (hinsert : CanaryDb.insertGrant (CanaryDb.markApproved
      { db with ledger := db.ledger ++ [(q.reserveRequest env).entry] } q)
      (q.row env approval projection env.freshReservation expiresAt) = .ok mid) :
    UnitInv (mid.assignRun env (q.row env approval projection env.freshReservation expiresAt)) := by
  obtain ⟨huniq, rfl⟩ := insertGrant_ok hinsert
  have hspec := List.find?_some hrun
  simp only [decide_eq_true_eq] at hspec
  have hmem : run ∈ db.runs := List.mem_of_find?_eq_some hrun
  have hnone : run.reservationId = none := by
    cases hid : run.reservationId with
    | none => rfl
    | some id =>
      obtain ⟨g, hg, -, hkey⟩ := h.runs run hmem id hid
      simp only [CanaryRun.key, Prod.mk.injEq] at hkey
      exact absurd ⟨hkey.1.trans hspec.1, hkey.2.1.trans hspec.2.1, hkey.2.2.trans hspec.2.2⟩
        (huniq g hg).2.2.2
  constructor
  case grants =>
    simp only [CanaryDb.assignRun, CanaryDb.markApproved, List.map_append, List.map_cons,
      List.map_nil]
    refine List.nodup_append.mpr ⟨h.grants, by simp, ?_⟩
    rintro _ hid _ hnew rfl
    simp only [List.mem_singleton] at hnew
    obtain ⟨o, ho, heq⟩ := List.mem_map.mp hid
    exact (huniq o ho).2.1 (heq.trans hnew)
  case authorizations => exact h.authorizations
  case authorizationIds => exact h.authorizationIds
  case runKeys =>
    simp only [CanaryDb.assignRun]
    rw [Table.map_update]
    · exact h.runKeys
    · intro r _
      rfl
  case runs =>
    intro r' hr' id hid
    obtain ⟨r, hr, rfl⟩ := Table.mem_update.mp hr'
    split at hid
    · rename_i hrow
      simp only [decide_eq_true_eq] at hrow
      rw [if_pos (by simpa using hrow)]
      simp only [Option.some.injEq] at hid
      refine ⟨_, List.mem_append_right _ (List.mem_singleton.mpr rfl), hid, ?_⟩
      simp only [CanaryRun.key, hrow.1, hrow.2.1, hrow.2.2]
    · rename_i hrow
      rw [if_neg hrow]
      obtain ⟨g, hg, heq, hkey⟩ := h.runs r hr id hid
      exact ⟨g, List.mem_append_left _ hg, heq, hkey⟩
  case apart =>
    intro g hg a ha
    simp only [CanaryDb.assignRun, CanaryDb.markApproved, List.mem_append, List.mem_singleton] at hg
    rcases hg with hg | rfl
    · exact h.apart g hg a ha
    · exact hfresh.ne (h.reservation_mem ha)
  case granted =>
    intro g hg
    simp only [CanaryDb.assignRun, CanaryDb.markApproved, List.mem_append, List.mem_singleton] at hg
    rcases hg with hg | rfl
    · obtain ⟨e, he, heq⟩ := h.granted g hg
      exact ⟨e, List.mem_append_left _ he, heq⟩
    · exact ⟨_, List.mem_append_right _ (List.mem_singleton.mpr rfl), rfl⟩
  case unit =>
    intro a ha
    obtain ⟨e, he, hrest⟩ := h.unit a ha
    exact ⟨e, Ledger.reservation_append he, hrest⟩
  case refunded =>
    intro a ha
    have hne : (q.reserveRequest env).entry.kind ≠ .refund := by
      simp [Ledger.ReserveRequest.entry]
    simp only [CanaryDb.assignRun, CanaryDb.markApproved]
    rw [h.refunded a ha, Ledger.has_append]
    simp [hne]
  case keyed =>
    intro e he hm hk
    simp only [CanaryDb.assignRun, CanaryDb.markApproved, List.mem_append, List.mem_singleton] at he
    rcases he with he | rfl
    · rcases h.keyed e he hm hk with ⟨g, hg, hrest⟩ | ha
      · exact .inl ⟨g, List.mem_append_left _ hg, hrest⟩
      · exact .inr ha
    · exact .inl ⟨_, List.mem_append_right _ (List.mem_singleton.mpr rfl), rfl, rfl⟩
  case charged =>
    intro workspaceId
    have hkey : run.key = (q.workspaceId, q.projectRef, q.runId) :=
      Prod.ext hspec.1 (Prod.ext hspec.2.1 hspec.2.2)
    have hruns : (db.assignRun env (q.row env approval projection env.freshReservation
        expiresAt)).approvedRuns workspaceId = _ :=
      approvedRuns_assignRun h.runKeys hmem hkey hnone workspaceId
    show Ledger.charged (db.ledger ++ [(q.reserveRequest env).entry]) workspaceId =
      ((db.assignRun env
        (q.row env approval projection env.freshReservation expiresAt)).approvedRuns
          workspaceId : Int) + (db.unrefundedAuthorizations workspaceId : Int)
    rw [hruns, Ledger.charged_append, h.charged workspaceId]
    simp only [Ledger.ReserveRequest.entry, ApproveRequest.reserveRequest, Entry.charge, and_true,
      ApproveRequest.row]
    by_cases hw : q.workspaceId = workspaceId
    · simp only [hw, if_true]
      omega
    · simp only [hw, if_false]
      omega

/-- Every check of `approve` in front of the reservation passes, and no grant replays it. -/
structure AsksForUnit (db : CanaryDb) (env : CloudEnv) (q : ApproveRequest) : Prop where
  arguments : approveArguments env q = .ok ()
  admin : requireOwnerAdmin env q.workspaceId q.actor q.role
    (canaryRunError "owner_admin_required") = .ok ()
  run : (db.run q.workspaceId q.projectRef q.runId).isSome = true
  unused : db.grantOfKey q.workspaceId q.idempotencyKey = none
  checked : accepts (approvable env q db) = true

/-- The condition on an approval that gets as far as the reservation: no authorization that was
not refunded holds its key. -/
def OwnKey (db : CanaryDb) (env : CloudEnv) (q : ApproveRequest) : Prop :=
  AsksForUnit db env q → ∀ a ∈ db.authorizations, a.workspaceId = q.workspaceId →
    a.idempotencyKey = q.idempotencyKey → a.quotaState = .refunded

theorem approve_admitted {q : ApproveRequest} (h : approve env q db = .ok out) :
    approveArguments env q = .ok () ∧ requireOwnerAdmin env q.workspaceId q.actor q.role
      (canaryRunError "owner_admin_required") = .ok () := by
  simp only [approve, bind_ok] at h
  obtain ⟨_, harguments, _, hadmin, -⟩ := h
  exact ⟨harguments, hadmin⟩

theorem approve_units {q : ApproveRequest} {answer : ExecutionApproved} (h : UnitInv db)
    (hfresh : db.Fresh env) (hkey : OwnKey db env q)
    (hcall : approve env q db = .ok (t, answer)) : UnitInv t := by
  obtain ⟨⟨run, hrun⟩, ⟨rfl, -⟩ | ⟨hprior, hissue⟩⟩ := approve_ok hcall
  · exact h
  · obtain ⟨approval, projection, proof, id, ledger, mid, happ, hreserve, -, hinsert, rfl, -⟩ :=
      issueApproved_ok hissue
    rcases Ledger.reserve_ok rfl hreserve with ⟨prior, hheld, hnot, -⟩ | ⟨-, rfl, rfl⟩
    · -- the ledger knows the key: it is neither a grant's nor an unrefunded authorization's
      obtain ⟨hin, hw, hm, hk, hkind⟩ := Ledger.keyed_spec hheld
      exfalso
      rcases h.keyed prior hin hm hkind with ⟨g, hg, hgw, hgk⟩ | ⟨a, ha, haw, hak, har⟩
      · rw [CanaryDb.grantOfKey, List.find?_eq_none] at hprior
        refine absurd ?_ (hprior g hg)
        simp only [decide_eq_true_eq]
        exact ⟨hgw.trans hw, Option.some.inj (hgk.symm.trans hk)⟩
      · obtain ⟨harguments, hadmin⟩ := approve_admitted hcall
        have hasks : AsksForUnit db env q :=
          ⟨harguments, hadmin, by simp [hrun], hprior, by simp [happ]⟩
        have hq := hkey hasks a ha (haw.trans hw) (Option.some.inj (hak.symm.trans hk))
        rw [h.refunded a ha, har] at hq
        exact hnot hq
    · exact h.approve hfresh hrun hinsert

/-! ### Every sequence of the two calls -/

inductive UnitCall where
  | approve (env : CloudEnv) (q : ApproveRequest)
  | createDiscoveryAuthorization (env : CloudEnv) (q : AuthorizationRequest)

def UnitCall.reads : UnitCall → CloudEnv
  | .approve env _ | .createDiscoveryAuthorization env _ => env

/-- The rows a call leaves, if it does not raise. -/
def unitCall (db : CanaryDb) : UnitCall → Except Refusal CanaryDb
  | .approve env q => Prod.fst <$> approve env q db
  | .createDiscoveryAuthorization env q => createDiscoveryAuthorization env q db

/-- One transaction: a call that raises leaves the rows as they were. -/
def unitTransact (db : CanaryDb) (c : UnitCall) : CanaryDb :=
  match unitCall db c with
  | .ok t => t
  | .error _ => db

/-- No run has a grant yet, no environment an authorization, and no unit is charged. -/
structure BeforeUnits (db : CanaryDb) : Prop where
  grants : db.grants = []
  authorizations : db.authorizations = []
  runKeys : (db.runs.map CanaryRun.key).Nodup
  runs : ∀ r ∈ db.runs, r.reservationId = none
  ledger : ∀ e ∈ db.ledger, e.meter ≠ .canaryRuns

/-- The sequences of `approve` and `create_discovery_authorization`, each with a reservation
identifier that no row of the ledger has. -/
def units : Transition CanaryDb UnitCall where
  init := BeforeUnits
  step db c t := db.Fresh c.reads ∧ t = unitTransact db c

/-- Every reservation is recorded once, in one of the two places. -/
structure SoleOwner (db : CanaryDb) : Prop where
  grants : (db.grants.map (·.reservationId)).Nodup
  runs : db.runs.Pairwise fun r r' => r.reservationId ≠ none → r.reservationId ≠ r'.reservationId
  authorizations : (db.authorizations.map (·.reservationId)).Nodup
  apart : ∀ a ∈ db.authorizations, (∀ g ∈ db.grants, g.reservationId ≠ a.reservationId) ∧
    ∀ r ∈ db.runs, r.reservationId ≠ some a.reservationId

theorem UnitInv.soleOwner (h : UnitInv db) : SoleOwner db := by
  refine ⟨h.grants, ?_, h.authorizations, fun a ha => ⟨fun g hg => h.apart g hg a ha, ?_⟩⟩
  · have hkeys := List.pairwise_map.mp h.runKeys
    refine hkeys.imp_of_mem ?_
    intro r r' hr hr' hkey hsome hsame
    obtain ⟨id, hid⟩ := Option.ne_none_iff_exists'.mp hsome
    obtain ⟨g, hg, hgid, hgkey⟩ := h.runs r hr id hid
    obtain ⟨g', hg', hgid', hgkey'⟩ := h.runs r' hr' id (hsame.symm.trans hid)
    have hgg : g = g' := Table.eq_of_key h.grants hg hg' (hgid.trans hgid'.symm)
    exact hkey (hgkey.symm.trans (hgg ▸ hgkey'))
  · intro r hr hid
    obtain ⟨g, hg, hgid, -⟩ := h.runs r hr _ hid
    exact h.apart g hg a ha hgid

theorem BeforeUnits.unitInv (h : BeforeUnits db) : UnitInv db := by
  have hcharged : ∀ workspaceId, db.ledger.charged workspaceId = 0 := by
    intro workspaceId
    have hnone : (db.ledger.filter fun e => e.workspaceId = workspaceId ∧ e.meter = .canaryRuns) =
        [] := by
      rw [List.filter_eq_nil_iff]
      intro e he
      simp [h.ledger e he]
    rw [Ledger.charged, hnone]
    rfl
  have hruns : ∀ workspaceId, db.approvedRuns workspaceId = 0 := by
    intro workspaceId
    rw [CanaryDb.approvedRuns, List.countP_eq_zero]
    intro r hr
    simp [h.runs r hr]
  constructor
  · simp [h.grants]
  · simp [h.authorizations]
  · simp [h.authorizations]
  · exact h.runKeys
  · intro r hr id hid
    rw [h.runs r hr] at hid
    cases hid
  · simp [h.grants]
  · simp [h.grants]
  · simp [h.authorizations]
  · simp [h.authorizations]
  · intro e he hm
    exact absurd hm (h.ledger e he)
  · intro workspaceId
    rw [hcharged, hruns]
    simp [CanaryDb.unrefundedAuthorizations, h.authorizations]

/-- The condition on a call: an approval that reaches the ledger brings a key of its own. -/
def BringsOwnKey (db : CanaryDb) (c : UnitCall) : Prop :=
  ∀ env q, c = .approve env q → OwnKey db env q

theorem unitTransact_units {c : UnitCall} (h : UnitInv db) (hfresh : db.Fresh c.reads)
    (hkey : BringsOwnKey db c) : UnitInv (unitTransact db c) := by
  unfold unitTransact
  split
  · rename_i out hout
    cases c with
    | approve env q =>
      simp only [unitCall] at hout
      cases hcall : approve env q db with
      | error e => simp [hcall, Functor.map, Except.map] at hout
      | ok result =>
        simp only [hcall, Functor.map, Except.map, Except.ok.injEq] at hout
        exact hout ▸ approve_units h hfresh (hkey env q rfl) hcall
    | createDiscoveryAuthorization env q =>
      exact createDiscoveryAuthorization_units h hfresh hout
  · exact h

/-- Every unit has one owner, and a workspace is charged for its approved runs and its unrefunded
authorizations, in every run of the two calls whose approvals bring keys of their own. -/
theorem reservation_has_one_owner (hs : (units.restrict BringsOwnKey).Reachable db) :
    SoleOwner db ∧ ∀ workspaceId, db.ledger.charged workspaceId =
      db.approvedRuns workspaceId + db.unrefundedAuthorizations workspaceId := by
  have hinv : UnitInv db := by
    refine (units.restrict BringsOwnKey).invariant (P := UnitInv)
      (fun s hs => BeforeUnits.unitInv hs) ?_ hs
    rintro s c t hs ⟨⟨hfresh, rfl⟩, hkey⟩
    exact unitTransact_units hs hfresh hkey
  exact ⟨hinv.soleOwner, hinv.charged⟩

/-! ### One key for an authorization and a run -/

section SharedKey

def sampleKey : String := "ca1-0000000000000000000000000000000000000000000000000000000000000000"

def samplePending : ApprovalRequest where
  approvalId := "approval_1"
  workspaceId := "workspace_1"
  projectRef := "project_1"
  runId := "run_1"
  runnerId := "runner_1"
  runnerKeyId := "key_1"
  projectionDigest := "0000000000000000000000000000000000000000000000000000000000000000"
  projectionJson := some ⟨none, "staging.example"⟩
  uploadedBy := "user_1"
  expiresAt := 86400000

def pendingDb : CanaryDb where
  approvals := [samplePending]
  runs := [{
    workspaceId := "workspace_1", projectRef := "project_1", runId := "run_1", updatedAt := 0 }]

def cloudEnv (fresh : String) : CloudEnv where
  now := 1000
  later := 1000
  identifier _ := true
  approvalReason _ := true
  exactHostname _ := true
  membership _ _ := some .owner
  environment _ := some ⟨.verified, false, some 90000000, "https://staging.example"⟩
  controlGeneration := 0
  killActive _ := false
  authority := .ok 90000000
  binding := none
  planRequestFound := false
  period := "1970-01"
  quota := 5
  globalCap := none
  freshReservation := fresh
  freshGrant := "grant_1"
  freshAuthorization := "authorization_1"
  authorizationDigest := "digest_1"

def sampleRequest : AuthorizationRequest :=
  ⟨"workspace_1", "project_1", "environment_1", "environment_1", "request_1", "user_1", .owner,
    sampleKey⟩

def sampleApprove : ApproveRequest :=
  ⟨"workspace_1", "project_1", "run_1", samplePending.projectionDigest, "user_1", .owner, "reason",
    "staging.example", 1000, sampleKey, 0⟩

theorem pendingDb_before : BeforeUnits pendingDb :=
  ⟨rfl, rfl, by simp [pendingDb], by simp [pendingDb], by simp [pendingDb]⟩

/-- The rows once the environment has its authorization. -/
def authorizedDb : CanaryDb :=
  unitTransact pendingDb (.createDiscoveryAuthorization (cloudEnv "resv_1") sampleRequest)

theorem sampleKey_valid : isIdempotencyKey sampleKey = true := by
  simp only [isIdempotencyKey, ← String.length_toList, Literal.toList_eq]
  decide +kernel

theorem sampleDigest_valid : isHex64 samplePending.projectionDigest = true := by
  simp only [isHex64, ← String.length_toList, Literal.toList_eq]
  decide +kernel

def reservedEntry : Entry where
  workspaceId := "workspace_1"
  meter := .canaryRuns
  period := "1970-01"
  kind := .reserve
  amount := 1
  reservationId := "resv_1"
  idempotencyKey := some sampleKey
  ref := some "authorization_1"

def reservedAuthorization : Authorization where
  authorizationId := "authorization_1"
  workspaceId := "workspace_1"
  projectRef := "project_1"
  environmentId := "environment_1"
  actorUserId := "user_1"
  actorRole := .owner
  bound := {}
  authorizationDigest := "digest_1"
  requestDigest := "request_1"
  reservationId := "resv_1"
  idempotencyKey := sampleKey
  quotaState := .reserved
  state := .opened
  createdAtMs := 1000
  expiresAtMs := 901000

def authorizedRows : CanaryDb :=
  { pendingDb with ledger := [reservedEntry], authorizations := [reservedAuthorization] }

theorem createDiscoveryAuthorization_fresh {env : CloudEnv} {q : AuthorizationRequest}
    (hactor : env.identifier q.actor = true) (hkey : isIdempotencyKey q.idempotencyKey = true)
    (hrequested : q.requested = q.environmentId)
    (hadmin : requireOwnerAdmin env q.workspaceId q.actor q.role
      (discoveryError "owner_admin_required") = .ok ())
    (hnone : (db.authorizations.find? fun a =>
      a.workspaceId = q.workspaceId ∧ a.idempotencyKey = q.idempotencyKey) = none) :
    createDiscoveryAuthorization env q db = createFresh env q db := by
  rw [createDiscoveryAuthorization, bind_of_ok (passed hactor), bind_of_ok (passed hkey),
    bind_of_ok (passed hrequested), bind_of_ok hadmin, hnone]

theorem approve_issued {env : CloudEnv} {q : ApproveRequest} {run : CanaryRun}
    (harguments : approveArguments env q = .ok ())
    (hadmin : requireOwnerAdmin env q.workspaceId q.actor q.role
      (canaryRunError "owner_admin_required") = .ok ())
    (hrun : db.run q.workspaceId q.projectRef q.runId = some run)
    (hnone : db.grantOfKey q.workspaceId q.idempotencyKey = none) :
    approve env q db = issueApproved env q db := by
  rw [approve, bind_of_ok harguments, bind_of_ok hadmin, hrun, hnone]

theorem authorizedDb_rows : authorizedDb = authorizedRows := by
  have hcreated : createDiscoveryAuthorization (cloudEnv "resv_1") sampleRequest pendingDb =
      createFresh (cloudEnv "resv_1") sampleRequest pendingDb :=
    createDiscoveryAuthorization_fresh rfl sampleKey_valid rfl rfl rfl
  rw [authorizedDb, unitTransact, unitCall, hcreated]
  decide +kernel

theorem sampleApprove_arguments (fresh : String) :
    approveArguments (cloudEnv fresh) sampleApprove = .ok () := by
  simp only [approveArguments, bind_ok, require_ok, exists_const]
  have hrecent : sampleApprove.recentAuthAtMs ≤ (1000 : Int) + 30000 ∧
      1000 - sampleApprove.recentAuthAtMs ≤ recentAuthMs := by decide
  exact ⟨rfl, sampleDigest_valid, rfl, rfl, rfl, sampleKey_valid, by decide, hrecent⟩

/-- The same approval under a key of its own. -/
def ownApprove : ApproveRequest :=
  { sampleApprove with
    idempotencyKey := "ca1-1111111111111111111111111111111111111111111111111111111111111111" }

theorem ownApprove_arguments (fresh : String) :
    approveArguments (cloudEnv fresh) ownApprove = .ok () := by
  have hkey : isIdempotencyKey ownApprove.idempotencyKey = true := by
    simp only [ownApprove, isIdempotencyKey, ← String.length_toList, Literal.toList_eq]
    decide +kernel
  have hrecent : ownApprove.recentAuthAtMs ≤ (1000 : Int) + 30000 ∧
      1000 - ownApprove.recentAuthAtMs ≤ recentAuthMs := by decide
  simp only [approveArguments, bind_ok, require_ok, exists_const]
  exact ⟨rfl, sampleDigest_valid, rfl, rfl, rfl, hkey, by decide, hrecent⟩

/-- The rows once the run is approved under the key of its own. -/
def ownKeyDb : CanaryDb := unitTransact authorizedDb (.approve (cloudEnv "resv_2") ownApprove)

theorem ownKeyDb_rows : ownKeyDb.grants.map (·.reservationId) = ["resv_2"] ∧
    ownKeyDb.approvedRuns "workspace_1" = 1 ∧
    ownKeyDb.unrefundedAuthorizations "workspace_1" = 1 := by
  have hissued : approve (cloudEnv "resv_2") ownApprove authorizedRows =
      issueApproved (cloudEnv "resv_2") ownApprove authorizedRows :=
    approve_issued (ownApprove_arguments _) rfl rfl (by decide +kernel)
  rw [ownKeyDb, authorizedDb_rows, unitTransact, unitCall, hissued]
  decide +kernel

/-- An authorization and an approval under two keys: two units, each with an owner. -/
theorem reservation_has_one_owner_sample : SoleOwner ownKeyDb ∧
    ownKeyDb.grants.map (·.reservationId) = ["resv_2"] ∧
    ownKeyDb.ledger.charged "workspace_1" = 1 + 1 := by
  have h0 : (units.restrict BringsOwnKey).Reachable pendingDb := .init pendingDb_before
  have h1 : (units.restrict BringsOwnKey).Reachable authorizedDb :=
    .step (a := .createDiscoveryAuthorization (cloudEnv "resv_1") sampleRequest) h0
      ⟨⟨by simp [UnitCall.reads, CanaryDb.Fresh, pendingDb], rfl⟩, fun _ _ h => by cases h⟩
  have h2 : (units.restrict BringsOwnKey).Reachable ownKeyDb := by
    refine .step (a := .approve (cloudEnv "resv_2") ownApprove) h1 ⟨⟨?_, rfl⟩, ?_⟩
    · rw [authorizedDb_rows, UnitCall.reads, CanaryDb.Fresh]
      decide
    · rintro env q heq -
      cases heq
      rw [authorizedDb_rows]
      decide
  obtain ⟨howner, hcharged⟩ := reservation_has_one_owner h2
  obtain ⟨hgrants, hruns, hauthorizations⟩ := ownKeyDb_rows
  refine ⟨howner, hgrants, ?_⟩
  rw [hcharged, hruns, hauthorizations]
  rfl

/-- The rows once the run has its approval under the key of the authorization. -/
def sharedDb : CanaryDb := unitTransact authorizedDb (.approve (cloudEnv "resv_2") sampleApprove)

theorem authorizedDb_reachable : units.Reachable authorizedDb :=
  .step (a := .createDiscoveryAuthorization (cloudEnv "resv_1") sampleRequest)
    (.init pendingDb_before) ⟨by simp [UnitCall.reads, CanaryDb.Fresh, pendingDb], rfl⟩

theorem sharedDb_reachable : units.Reachable sharedDb := by
  refine .step (a := .approve (cloudEnv "resv_2") sampleApprove) authorizedDb_reachable ⟨?_, rfl⟩
  rw [authorizedDb_rows, UnitCall.reads, CanaryDb.Fresh]
  decide

theorem sharedDb_units : sharedDb.grants.map (·.reservationId) = ["resv_1"] ∧
    sharedDb.authorizations.map (·.reservationId) = ["resv_1"] := by
  have hissued : approve (cloudEnv "resv_2") sampleApprove authorizedRows =
      issueApproved (cloudEnv "resv_2") sampleApprove authorizedRows :=
    approve_issued (sampleApprove_arguments _) rfl rfl rfl
  rw [sharedDb, authorizedDb_rows, unitTransact, unitCall, hissued]
  decide +kernel

/-- An approval under the key of an open authorization is given that authorization's unit. -/
theorem shared_key_shares_unit : ∃ db, units.Reachable db ∧ ¬ SoleOwner db := by
  obtain ⟨hgrants, hauthorizations⟩ := sharedDb_units
  refine ⟨sharedDb, sharedDb_reachable, fun h => ?_⟩
  have hg : "resv_1" ∈ sharedDb.grants.map (·.reservationId) := by
    rw [hgrants]
    simp
  have ha : "resv_1" ∈ sharedDb.authorizations.map (·.reservationId) := by
    rw [hauthorizations]
    simp
  obtain ⟨g, hg, hgid⟩ := List.mem_map.mp hg
  obtain ⟨a, ha, haid⟩ := List.mem_map.mp ha
  exact (h.apart a ha).1 g hg (hgid.trans haid.symm)

end SharedKey

end Heel.Cloud
