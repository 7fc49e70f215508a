import Heel.Lib.Transition
import Heel.Saas.Disclosure

/-! What one disclosure leaves behind: a run has one request, a request at most one live permit, a
permit is consumed once, and findings are stored under a permit that a human approved. -/
namespace Heel.Cloud
open Lib Lib.Checks

/-! ### The invariant -/

def PermitRow.liveOf (id : String) (p : PermitRow) : Bool :=
  p.requestId = id ∧ p.status = .permitted

structure RequestInv (permits : List PermitRow) (findings : List FindingsRow)
    (r : DisclosureRequest) : Prop where
  live : r.status = .permitted ↔ ∃ p ∈ permits, p.liveOf r.requestId = true
  one : (permits.filter (·.liveOf r.requestId)).length ≤ 1
  synced : r.status = .synchronized ↔ ∃ f ∈ findings, f.run = r.run

/-- The bytes of a findings row are those of findings with the row's offer. -/
def FindingsRow.Exact (P : Platform) (f : FindingsRow) : Prop :=
  ∀ bytes, f.projectionJson = some bytes → ∃ v : CanaryFindings,
    Json.canonicalBytes P v.record = .ok bytes ∧
    Json.canonicalDigest P v.unsigned = .ok f.offer.projectionDigest ∧ f.offer = v.offer bytes

/-- The permit a findings row was stored under. -/
def FindingsRow.Under (f : FindingsRow) (p : PermitRow) : Prop :=
  p.permitId = f.permitId ∧ p.run = f.run ∧ p.status = .consumed ∧ p.offer = f.offer ∧
    f.acceptedAt < p.expiresAt

structure DisclosureInv (P : Platform) (db : DisclosureDb) : Prop where
  ids : (db.requests.map (·.requestId)).Nodup
  runs : (db.requests.map (·.run)).Nodup
  permitIds : (db.permits.map (·.permitId)).Nodup
  findingRuns : (db.findings.map (·.run)).Nodup
  owned : ∀ p ∈ db.permits, ∃ r ∈ db.requests, r.requestId = p.requestId ∧ r.run = p.run ∧
    r.offer = p.offer
  under : ∀ f ∈ db.findings, ∃ p ∈ db.permits, f.Under p
  exact_ : ∀ f ∈ db.findings, f.Exact P
  each : ∀ r ∈ db.requests, RequestInv db.permits db.findings r

/-! ### The edits -/

/-- Some permits have run out, and a request without a live permit waits again. -/
structure Expires (db t : DisclosureDb) (now : Int) : Prop where
  permits : ∃ sel : PermitRow → Bool,
    t.permits = Table.update (fun p => p.status = .permitted ∧ sel p) PermitRow.expire db.permits
  requests : ∃ sel : DisclosureRequest → Bool,
    t.requests = Table.update sel (·.moved .awaitingDisclosureApproval now) db.requests ∧
    ∀ r ∈ db.requests, sel r = true ↔
      r.status = .permitted ∧ ∀ p ∈ t.permits, p.liveOf r.requestId = false
  findings : t.findings = db.findings

def DisclosureRequest.pending (r : DisclosureRequest) : Prop :=
  r.status = .localResultReady ∨ r.status = .awaitingDisclosureApproval

def previewedRequest (env : DisclosureEnv) (c : PreviewCall) (row : RunContext) :
    DisclosureRequest where
  requestId := env.freshRequest
  run := c.run
  grantId := row.grantId
  runnerId := c.runnerId
  runnerKeyId := c.runnerKeyId
  offer := c.offer
  status := .localResultReady
  createdAt := env.now
  expiresAt := env.now + disclosureRequestTtlMs
  updatedAt := env.now

/-- The runner that declares an offer, and the run it declares it for. -/
structure Declares (env : DisclosureEnv) (c : PreviewCall) (row : RunContext) : Prop where
  context : env.context c.run = some row
  runner : c.runnerId = row.runnerId ∧ c.runnerKeyId = row.runnerKeyId
  offer : offerMetadata findingsSchema c.offer = .ok ()

/-- The human that approves an offer, and the request it was made for. -/
structure Approves (env : DisclosureEnv) (c : PermitCall) (r : DisclosureRequest) : Prop where
  human : isHuman (env.membership c.run.workspaceId c.actor) = true
  request : r.run = c.run ∧ r.requestId = c.requestId ∧ r.offer = c.offer

inductive DisclosureEdit (P : Platform) (env : DisclosureEnv) (call : DisclosureCall) :
    DisclosureDb → DisclosureDb → Prop
  | request (db : DisclosureDb) (c : PreviewCall) (row : RunContext) (hcall : call = .preview c)
      (hdeclares : Declares env c row)
      (hfresh : ∀ o ∈ db.requests, o.requestId ≠ env.freshRequest ∧ o.run ≠ c.run) :
      DisclosureEdit P env call db
        { db with requests := db.requests ++ [previewedRequest env c row] }
  | expire (db t : DisclosureDb) (h : Expires db t env.now) : DisclosureEdit P env call db t
  | decline (db : DisclosureDb) (r : DisclosureRequest) (sel : DisclosureRequest → Bool)
      (hs : r.pending) (hsel : ∀ o ∈ db.requests, sel o = true ↔ o = r) :
      DisclosureEdit P env call db
        { db with requests := Table.update sel (·.moved .localOnly env.now) db.requests }
  | permit (db : DisclosureDb) (c : PermitCall) (row : RunContext) (value : DisclosurePermit)
      (r : DisclosureRequest) (sel : DisclosureRequest → Bool) (hcall : call = .permit c)
      (happroves : Approves env c r)
        (hexpires : value.expiresAtMs = env.now + disclosurePermitTtlMs)
      (hr : r ∈ db.requests) (hs : r.pending) (hsel : ∀ o ∈ db.requests, sel o = true ↔ o = r)
      (hfresh : ∀ o ∈ db.permits, o.permitId ≠ env.freshPermit) :
      DisclosureEdit P env call db { db with
        permits := db.permits ++ [permitRow P env c row value]
        requests := Table.update sel (·.moved .permitted env.now) db.requests }
  | synchronize (db : DisclosureDb) (r : DisclosureRequest) (p : PermitRow) (f : FindingsRow)
      (sel : DisclosureRequest → Bool) (unused : PermitRow → Bool)
      (hr : r ∈ db.requests) (hs : r.status = .permitted)
      (hsel : ∀ o ∈ db.requests, sel o = true ↔ o = r) (hp : p ∈ db.permits)
      (hlive : p.liveOf r.requestId = true) (hunused : ∀ o ∈ db.permits, unused o = true ↔ o = p)
      (hf : f.permitId = p.permitId ∧ f.run = p.run ∧ f.offer = p.offer ∧
        f.acceptedAt < p.expiresAt)
      (hexact : f.Exact P) (hfresh : ∀ o ∈ db.findings, o.run ≠ f.run) :
      DisclosureEdit P env call db {
        requests := Table.update sel (·.moved .synchronized env.now) db.requests
        permits := Table.update unused (·.consume env.now) db.permits
        findings := db.findings ++ [f] }
  | purge (db : DisclosureDb) : DisclosureEdit P env call db (purgeExpiredPayloads env.now db)

abbrev DisclosureEdits (P : Platform) (env : DisclosureEnv) (call : DisclosureCall) :
    DisclosureDb → DisclosureDb → Prop :=
  Relation.ReflTransGen (DisclosureEdit P env call)

variable {P : Platform} {env : DisclosureEnv} {call : DisclosureCall} {db t : DisclosureDb}
  {r : DisclosureRequest} {p : PermitRow}

@[simp] theorem moved_requestId (status : RequestStatus) (now : Int) :
    (r.moved status now).requestId = r.requestId := rfl

@[simp] theorem moved_run (status : RequestStatus) (now : Int) :
    (r.moved status now).run = r.run := rfl

@[simp] theorem moved_offer (status : RequestStatus) (now : Int) :
    (r.moved status now).offer = r.offer := rfl

@[simp] theorem moved_status (status : RequestStatus) (now : Int) :
    (r.moved status now).status = status := rfl

theorem requests_keys (sel : DisclosureRequest → Bool) (status : RequestStatus) (now : Int)
    (rows : List DisclosureRequest) :
    (Table.update sel (·.moved status now) rows).map (·.requestId) = rows.map (·.requestId) ∧
      (Table.update sel (·.moved status now) rows).map (·.run) = rows.map (·.run) :=
  ⟨Table.map_update fun _ _ => rfl, Table.map_update fun _ _ => rfl⟩

theorem owned_update (sel : DisclosureRequest → Bool) (status : RequestStatus) (now : Int)
    {rows : List DisclosureRequest}
    (h : ∃ r ∈ rows, r.requestId = p.requestId ∧ r.run = p.run ∧ r.offer = p.offer) :
    ∃ r ∈ Table.update sel (·.moved status now) rows, r.requestId = p.requestId ∧ r.run = p.run ∧
      r.offer = p.offer := by
  obtain ⟨r, hr, hkeys⟩ := h
  refine ⟨_, Table.mem_update.mpr ⟨r, hr, rfl⟩, ?_⟩
  split <;> exact hkeys

theorem DisclosureInv.permitted (h : DisclosureInv P db) (hr : r ∈ db.requests)
    (hp : p ∈ db.permits)
    (hlive : p.liveOf r.requestId = true) : r.status = .permitted :=
  (h.each r hr).live.mpr ⟨p, hp, hlive⟩

theorem liveOf_expire (id : String) : p.expire.liveOf id = false := by
  simp [PermitRow.liveOf, PermitRow.expire]

theorem liveOf_consume (id : String) (now : Int) : (p.consume now).liveOf id = false := by
  simp [PermitRow.liveOf, PermitRow.consume]

theorem DisclosureInv.eq_of_id (h : DisclosureInv P db) {o : DisclosureRequest}
    (ho : o ∈ db.requests) (hr : r ∈ db.requests) (hid : o.requestId = r.requestId) : o = r :=
  Table.eq_of_key h.ids ho hr hid

theorem DisclosureInv.finding_request (h : DisclosureInv P db) {f : FindingsRow}
    (hf : f ∈ db.findings) : ∃ r ∈ db.requests, r.run = f.run := by
  obtain ⟨p, hp, -, hrun, -⟩ := h.under f hf
  obtain ⟨r, hr, -, hrr, -⟩ := h.owned p hp
  exact ⟨r, hr, hrr.trans hrun⟩

/-! ### Each edit keeps the invariant -/

theorem DisclosureInv.request (h : DisclosureInv P db)
    (hfresh : ∀ o ∈ db.requests, o.requestId ≠ r.requestId ∧ o.run ≠ r.run)
    (hs : r.status = .localResultReady) :
    DisclosureInv P { db with requests := db.requests ++ [r] } := by
  have hnew : ∀ {κ : Type} (g : DisclosureRequest → κ), (db.requests.map g).Nodup →
      (∀ o ∈ db.requests, g o ≠ g r) → ((db.requests ++ [r]).map g).Nodup := by
    intro κ g hg hne
    rw [List.map_append, List.nodup_append]
    refine ⟨hg, List.nodup_singleton _, fun a ha b hb => ?_⟩
    obtain ⟨o, ho, rfl⟩ := List.mem_map.mp ha
    rw [List.mem_singleton.mp hb]
    exact hne o ho
  refine ⟨hnew _ h.ids fun o ho => (hfresh o ho).1, hnew _ h.runs fun o ho => (hfresh o ho).2,
    h.permitIds, h.findingRuns, fun p hp => ?_, h.under, h.exact_, fun o ho => ?_⟩
  · obtain ⟨o, ho, hkeys⟩ := h.owned p hp
    exact ⟨o, List.mem_append_left _ ho, hkeys⟩
  · rcases List.mem_append.mp ho with ho | ho
    · exact h.each o ho
    · rw [List.mem_singleton.mp ho]
      have hnone : ∀ p ∈ db.permits, p.liveOf r.requestId = false := by
        intro p hp
        obtain ⟨o, ho, hid, -⟩ := h.owned p hp
        have hne := (hfresh o ho).1
        simp only [PermitRow.liveOf, decide_eq_false_iff_not, not_and]
        intro hpid
        exact absurd (hid.trans hpid) hne
      refine ⟨?_, ?_, ?_⟩
      · constructor
        · intro hp
          rw [hs] at hp
          cases hp
        · rintro ⟨p, hp, hlive⟩
          rw [hnone p hp] at hlive
          cases hlive
      · show (db.permits.filter _).length ≤ 1
        rw [List.filter_eq_nil_iff.mpr fun p hp => by simp [hnone p hp]]
        exact Nat.zero_le 1
      · constructor
        · intro hp
          rw [hs] at hp
          cases hp
        · rintro ⟨f, hf, hrun⟩
          obtain ⟨o, ho, hor⟩ := h.finding_request hf
          exact absurd (hor.trans hrun) (hfresh o ho).2

theorem Expires.inv {now : Int} (h : DisclosureInv P db) (he : Expires db t now) :
    DisclosureInv P t := by
  obtain ⟨sel, hpermits⟩ := he.permits
  obtain ⟨choose, hrequests, hchoose⟩ := he.requests
  have hkeys := requests_keys choose .awaitingDisclosureApproval now db.requests
  -- a live permit of `t` was live before
  have hback : ∀ id, ∀ p' ∈ t.permits, p'.liveOf id = true → p' ∈ db.permits := by
    intro id p' hp' hlive
    rw [hpermits] at hp'
    obtain ⟨p, hp, rfl⟩ := Table.mem_update.mp hp'
    split at hlive
    · rw [liveOf_expire] at hlive
      cases hlive
    · split
      · contradiction
      · exact hp
  refine ⟨?_, ?_, ?_, ?_, ?_, ?_, ?_, ?_⟩
  · rw [hrequests, hkeys.1]
    exact h.ids
  · rw [hrequests, hkeys.2]
    exact h.runs
  · have hids : t.permits.map (·.permitId) = db.permits.map (·.permitId) := by
      rw [hpermits]
      exact Table.map_update fun _ _ => rfl
    rw [hids]
    exact h.permitIds
  · rw [he.findings]
    exact h.findingRuns
  · intro p' hp'
    rw [hpermits] at hp'
    obtain ⟨p, hp, rfl⟩ := Table.mem_update.mp hp'
    have howned := owned_update choose .awaitingDisclosureApproval now (h.owned p hp)
    rw [hrequests]
    split <;> exact howned
  · intro f hf
    rw [he.findings] at hf
    obtain ⟨p, hp, hunder⟩ := h.under f hf
    refine ⟨p, ?_, hunder⟩
    rw [hpermits]
    refine Table.mem_update.mpr ⟨p, hp, ?_⟩
    rw [if_neg]
    simp [hunder.2.2.1]
  · rw [he.findings]
    exact h.exact_
  · intro r' hr'
    rw [hrequests] at hr'
    obtain ⟨r, hr, rfl⟩ := Table.mem_update.mp hr'
    have heach := h.each r hr
    have hone : (t.permits.filter (·.liveOf r.requestId)).length ≤ 1 := by
      rw [hpermits]
      refine (Table.filter_update_le fun p _ hlive => ?_).trans heach.one
      rw [liveOf_expire] at hlive
      cases hlive
    by_cases hsel : choose r = true
    · obtain ⟨hstatus, hnone⟩ := (hchoose r hr).mp hsel
      rw [if_pos hsel]
      refine ⟨⟨fun hp => ?_, ?_⟩, hone, ⟨fun hp => ?_, ?_⟩⟩
      · cases hp
      · rintro ⟨p, hp, hlive⟩
        have := hnone p hp
        simp only [moved_requestId] at hlive
        rw [this] at hlive
        cases hlive
      · cases hp
      · rintro ⟨f, hf, hrun⟩
        rw [he.findings] at hf
        have := heach.synced.mpr ⟨f, hf, hrun⟩
        rw [hstatus] at this
        cases this
    · rw [if_neg hsel]
      refine ⟨⟨fun hp => ?_, ?_⟩, hone, ?_⟩
      · by_contra hnone
        refine hsel ((hchoose r hr).mpr ⟨hp, fun p hp' => ?_⟩)
        by_contra hlive
        exact hnone ⟨p, hp', by simpa using hlive⟩
      · rintro ⟨p, hp, hlive⟩
        exact heach.live.mpr ⟨p, hback _ p hp hlive, hlive⟩
      · rw [he.findings]
        exact heach.synced

/-- A change of the one request `r` to a status that neither permits nor synchronizes. -/
theorem DisclosureInv.decline (h : DisclosureInv P db) {sel : DisclosureRequest → Bool} {now : Int}
    (hs : r.pending) (hsel : ∀ o ∈ db.requests, sel o = true ↔ o = r) :
    DisclosureInv P { db with
      requests := Table.update sel (·.moved .localOnly now) db.requests } := by
  have hkeys := requests_keys sel .localOnly now db.requests
  refine ⟨hkeys.1 ▸ h.ids, hkeys.2 ▸ h.runs, h.permitIds, h.findingRuns,
    fun p hp => owned_update sel .localOnly now (h.owned p hp), h.under, h.exact_, fun o' ho' => ?_⟩
  obtain ⟨o, ho, rfl⟩ := Table.mem_update.mp ho'
  have heach := h.each o ho
  by_cases hchosen : sel o = true
  · rw [if_pos hchosen]
    have hor : o = r := (hsel o ho).mp hchosen
    refine ⟨⟨fun hp => ?_, fun hp => ?_⟩, heach.one, ⟨fun hp => ?_, fun hp => ?_⟩⟩
    · cases hp
    · have := heach.live.mpr hp
      rw [hor] at this
      rcases hs with hs | hs <;> rw [hs] at this <;> cases this
    · cases hp
    · have := heach.synced.mpr hp
      rw [hor] at this
      rcases hs with hs | hs <;> rw [hs] at this <;> cases this
  · rw [if_neg hchosen]
    exact heach

theorem DisclosureInv.permit (h : DisclosureInv P db) {sel : DisclosureRequest → Bool} {now : Int}
    (hr : r ∈ db.requests) (hs : r.pending) (hsel : ∀ o ∈ db.requests, sel o = true ↔ o = r)
    (hlive : p.liveOf r.requestId = true) (hp : p.run = r.run ∧ p.offer = r.offer)
    (hfresh : ∀ o ∈ db.permits, o.permitId ≠ p.permitId) :
    DisclosureInv P { db with
      permits := db.permits ++ [p]
      requests := Table.update sel (·.moved .permitted now) db.requests } := by
  have hkeys := requests_keys sel .permitted now db.requests
  have hpid : p.requestId = r.requestId := by
    simp only [PermitRow.liveOf, decide_eq_true_eq] at hlive
    exact hlive.1
  refine ⟨hkeys.1 ▸ h.ids, hkeys.2 ▸ h.runs, ?_, h.findingRuns, ?_, ?_, h.exact_, ?_⟩
  · rw [List.map_append, List.nodup_append]
    refine ⟨h.permitIds, List.nodup_singleton _, fun a ha b hb => ?_⟩
    obtain ⟨o, ho, rfl⟩ := List.mem_map.mp ha
    rw [List.mem_singleton.mp hb]
    exact hfresh o ho
  · intro o ho
    rcases List.mem_append.mp ho with ho | ho
    · exact owned_update sel .permitted now (h.owned o ho)
    · rw [List.mem_singleton.mp ho]
      exact owned_update sel .permitted now ⟨r, hr, hpid.symm, hp.1.symm, hp.2.symm⟩
  · intro f hf
    obtain ⟨o, ho, hunder⟩ := h.under f hf
    exact ⟨o, List.mem_append_left _ ho, hunder⟩
  · intro o' ho'
    obtain ⟨o, ho, rfl⟩ := Table.mem_update.mp ho'
    have heach := h.each o ho
    by_cases hchosen : sel o = true
    · have hor : o = r := (hsel o ho).mp hchosen
      subst hor
      rw [if_pos hchosen]
      have hnone : ∀ x ∈ db.permits, x.liveOf o.requestId = false := by
        intro x hx
        by_contra hx'
        have := heach.live.mpr ⟨x, hx, by simpa using hx'⟩
        rcases hs with hs | hs <;> rw [hs] at this <;> cases this
      refine ⟨⟨fun _ => ⟨p, by simp, hlive⟩, fun _ => rfl⟩, ?_, ⟨fun hp => ?_, fun hp => ?_⟩⟩
      · show ((db.permits ++ [p]).filter _).length ≤ 1
        have hnil : db.permits.filter (·.liveOf o.requestId) = [] :=
          List.filter_eq_nil_iff.mpr fun x hx => by simp [hnone x hx]
        rw [List.filter_append, moved_requestId, hnil, List.nil_append]
        exact List.length_filter_le _ _
      · cases hp
      · have := heach.synced.mpr hp
        rcases hs with hs | hs <;> rw [hs] at this <;> cases this
    · rw [if_neg hchosen]
      have hother : p.liveOf o.requestId = false := by
        simp only [PermitRow.liveOf, decide_eq_false_iff_not, not_and]
        intro heq
        exact absurd ((hsel o ho).mpr (h.eq_of_id ho hr (heq.symm.trans hpid))) hchosen
      refine ⟨heach.live.trans ⟨?_, ?_⟩, ?_, heach.synced⟩
      · rintro ⟨x, hx, hxl⟩
        exact ⟨x, List.mem_append_left _ hx, hxl⟩
      · rintro ⟨x, hx, hxl⟩
        rcases List.mem_append.mp hx with hx | hx
        · exact ⟨x, hx, hxl⟩
        · rw [List.mem_singleton.mp hx, hother] at hxl
          cases hxl
      · show ((db.permits ++ [p]).filter _).length ≤ 1
        rw [List.filter_append]
        simp only [List.filter_cons, hother, List.filter_nil, Bool.false_eq_true, if_false,
          List.append_nil]
        exact heach.one

theorem DisclosureInv.synchronize (h : DisclosureInv P db) {sel : DisclosureRequest → Bool}
    {unused : PermitRow → Bool} {f : FindingsRow} {now : Int} (hr : r ∈ db.requests)
    (hsel : ∀ o ∈ db.requests, sel o = true ↔ o = r) (hp : p ∈ db.permits)
    (hlive : p.liveOf r.requestId = true) (hunused : ∀ o ∈ db.permits, unused o = true ↔ o = p)
    (hf : f.permitId = p.permitId ∧ f.run = p.run ∧ f.offer = p.offer ∧ f.acceptedAt < p.expiresAt)
    (hexact : f.Exact P) (hfresh : ∀ o ∈ db.findings, o.run ≠ f.run) : DisclosureInv P {
      requests := Table.update sel (·.moved .synchronized now) db.requests
      permits := Table.update unused (·.consume now) db.permits
      findings := db.findings ++ [f] } := by
  have hkeys := requests_keys sel .synchronized now db.requests
  have hpid : p.requestId = r.requestId ∧ p.status = .permitted := by
    simpa [PermitRow.liveOf] using hlive
  have hrun : p.run = r.run := by
    obtain ⟨o, ho, hid, horun, -⟩ := h.owned p hp
    rw [← h.eq_of_id ho hr (hid.trans hpid.1)]
    exact horun.symm
  have hpermits : (Table.update unused (·.consume now) db.permits).map (·.permitId) =
      db.permits.map (·.permitId) := Table.map_update fun _ _ => rfl
  refine ⟨hkeys.1 ▸ h.ids, hkeys.2 ▸ h.runs, hpermits ▸ h.permitIds, ?_, ?_, ?_, ?_, ?_⟩
  · rw [List.map_append, List.nodup_append]
    refine ⟨h.findingRuns, List.nodup_singleton _, fun a ha b hb => ?_⟩
    obtain ⟨o, ho, rfl⟩ := List.mem_map.mp ha
    rw [List.mem_singleton.mp hb]
    exact hfresh o ho
  · intro o' ho'
    obtain ⟨o, ho, rfl⟩ := Table.mem_update.mp ho'
    have howned := owned_update sel .synchronized now (h.owned o ho)
    split <;> exact howned
  · intro g hg
    rcases List.mem_append.mp hg with hg | hg
    · obtain ⟨o, ho, hunder⟩ := h.under g hg
      refine ⟨o, Table.mem_update.mpr ⟨o, ho, ?_⟩, hunder⟩
      rw [if_neg]
      intro hchosen
      have hconsumed := hunder.2.2.1
      rw [(hunused o ho).mp hchosen, hpid.2] at hconsumed
      cases hconsumed
    · rw [List.mem_singleton.mp hg]
      refine ⟨p.consume now, Table.mem_update.mpr ⟨p, hp, ?_⟩, hf.1.symm, hf.2.1.symm, rfl,
        hf.2.2.1.symm, hf.2.2.2⟩
      rw [if_pos ((hunused p hp).mpr rfl)]
  · intro g hg
    rcases List.mem_append.mp hg with hg | hg
    · exact h.exact_ g hg
    · rw [List.mem_singleton.mp hg]
      exact hexact
  · intro o' ho'
    obtain ⟨o, ho, rfl⟩ := Table.mem_update.mp ho'
    have heach := h.each o ho
    have hone : ((Table.update unused (·.consume now) db.permits).filter
        (·.liveOf o.requestId)).length ≤ 1 := by
      refine (Table.filter_update_le fun x _ hx => ?_).trans heach.one
      rw [liveOf_consume] at hx
      cases hx
    by_cases hchosen : sel o = true
    · have hor : o = r := (hsel o ho).mp hchosen
      subst hor
      rw [if_pos hchosen]
      refine ⟨⟨fun hs => ?_, ?_⟩, hone, fun _ => ⟨f, by simp, hf.2.1.trans hrun⟩, fun _ => rfl⟩
      · cases hs
      · rintro ⟨x', hx', hxl⟩
        obtain ⟨x, hx, rfl⟩ := Table.mem_update.mp hx'
        by_cases hux : unused x = true
        · rw [if_pos hux, liveOf_consume] at hxl
          cases hxl
        · rw [if_neg hux] at hxl
          exact absurd ((hunused x hx).mpr (Table.eq_of_one heach.one hx hp hxl hlive)) hux
    · rw [if_neg hchosen]
      have hne : o.requestId ≠ r.requestId := fun hid =>
        hchosen ((hsel o ho).mpr (h.eq_of_id ho hr hid))
      refine ⟨heach.live.trans ⟨?_, ?_⟩, hone, heach.synced.trans ⟨?_, ?_⟩⟩
      · rintro ⟨x, hx, hxl⟩
        refine ⟨x, Table.mem_update.mpr ⟨x, hx, ?_⟩, hxl⟩
        rw [if_neg]
        intro hux
        rw [(hunused x hx).mp hux] at hxl
        simp only [PermitRow.liveOf, decide_eq_true_eq] at hxl
        exact hne (hxl.1.symm.trans hpid.1)
      · rintro ⟨x', hx', hxl⟩
        obtain ⟨x, hx, rfl⟩ := Table.mem_update.mp hx'
        by_cases hux : unused x = true
        · rw [if_pos hux, liveOf_consume] at hxl
          cases hxl
        · rw [if_neg hux] at hxl
          exact ⟨x, hx, hxl⟩
      · rintro ⟨g, hg, hgr⟩
        exact ⟨g, List.mem_append_left _ hg, hgr⟩
      · rintro ⟨g, hg, hgr⟩
        rcases List.mem_append.mp hg with hg | hg
        · exact ⟨g, hg, hgr⟩
        · rw [List.mem_singleton.mp hg, hf.2.1, hrun] at hgr
          exact absurd (Table.eq_of_key h.runs ho hr hgr.symm) fun hor => hne (by rw [hor])

theorem DisclosureInv.purge (h : DisclosureInv P db) (now : Int) :
    DisclosureInv P (purgeExpiredPayloads now db) := by
  have hruns : (purgeExpiredPayloads now db).findings.map (·.run) = db.findings.map (·.run) :=
    Table.map_update fun _ _ => rfl
  refine ⟨h.ids, h.runs, h.permitIds, hruns ▸ h.findingRuns, h.owned, ?_, ?_, fun r hr => ?_⟩
  · intro g' hg'
    obtain ⟨g, hg, rfl⟩ := Table.mem_update.mp hg'
    obtain ⟨p, hp, hunder⟩ := h.under g hg
    refine ⟨p, hp, ?_⟩
    split <;> exact hunder
  · intro g' hg'
    obtain ⟨g, hg, rfl⟩ := Table.mem_update.mp hg'
    split
    · intro bytes hbytes
      cases hbytes
    · exact h.exact_ g hg
  · have heach := h.each r hr
    refine ⟨heach.live, heach.one, heach.synced.trans ?_⟩
    have hmem : ∀ rows : List FindingsRow, (∃ g ∈ rows, g.run = r.run) ↔
        r.run ∈ rows.map (·.run) := by simp [List.mem_map]
    rw [hmem, hmem, hruns]

theorem DisclosureEdit.inv (h : DisclosureInv P db) (hedit : DisclosureEdit P env call db t) :
    DisclosureInv P t := by
  cases hedit with
  | request c row hcall hdeclares hfresh => exact h.request hfresh rfl
  | expire _ he => exact he.inv h
  | decline r sel hs hsel => exact h.decline hs hsel
  | permit c row value r sel hcall happroves hexpires hr hs hsel hfresh =>
    obtain ⟨hrun, hid, hoffer⟩ := happroves.request
    refine h.permit hr hs hsel ?_ ⟨hrun.symm, hoffer.symm⟩ hfresh
    simp [PermitRow.liveOf, permitRow, hid]
  | synchronize r p f sel unused hr hs hsel hp hlive hunused hf hexact hfresh =>
    exact h.synchronize hr hsel hp hlive hunused hf hexact hfresh
  | purge => exact h.purge env.now

theorem DisclosureEdits.inv (h : DisclosureInv P db) (hedits : DisclosureEdits P env call db t) :
    DisclosureInv P t := by
  induction hedits with
  | refl => exact h
  | tail _ hedit ih => exact hedit.inv ih

/-! ### Expiry -/

/-- A request left without a live permit had one of its own expired. -/
theorem expire_cases (h : DisclosureInv P db) {sel : PermitRow → Bool}
    (hr : r ∈ db.requests) (hs : r.status = .permitted)
    (hnone : ∀ p ∈ Table.update (fun p => p.status = .permitted ∧ sel p) PermitRow.expire
      db.permits,
      p.liveOf r.requestId = false) :
    ∃ p ∈ db.permits, p.liveOf r.requestId = true ∧ sel p = true := by
  obtain ⟨p, hp, hlive⟩ := (h.each r hr).live.mp hs
  refine ⟨p, hp, hlive, ?_⟩
  by_contra hsel
  have hkept := hnone p (Table.mem_update.mpr ⟨p, hp, by rw [if_neg]; simp [hsel]⟩)
  rw [hlive] at hkept
  cases hkept

/-- A permit after the expiry is live only if it was not selected. -/
theorem expire_live {sel : PermitRow → Bool} {id : String}
    (hp : p ∈ Table.update (fun p => p.status = .permitted ∧ sel p) PermitRow.expire db.permits)
    (hlive : p.liveOf id = true) : p ∈ db.permits ∧ sel p = false := by
  obtain ⟨o, ho, rfl⟩ := Table.mem_update.mp hp
  by_cases hsel : decide (o.status = .permitted ∧ sel o = true) = true
  · rw [if_pos hsel, liveOf_expire] at hlive
    cases hlive
  · rw [if_neg hsel] at hlive ⊢
    refine ⟨ho, ?_⟩
    simp only [PermitRow.liveOf, decide_eq_true_eq] at hlive
    simpa [hlive.2] using hsel

theorem DisclosureInv.ofRequest (h : DisclosureInv P db) (hr : r ∈ db.requests)
    (hp : p ∈ db.permits) (hid : p.requestId = r.requestId) : p.run = r.run := by
  obtain ⟨o, ho, hoid, horun, -⟩ := h.owned p hp
  rw [← horun, h.eq_of_id ho hr (hoid.trans hid)]

theorem expireUnusedPermits_expires (h : DisclosureInv P db) (hr : r ∈ db.requests) (now : Int) :
    Expires db (expireUnusedPermits r now db) now := by
  have hpredicate : (fun p : PermitRow => decide (p.ofRequest r = true ∧ p.due now = true)) =
      fun p => decide (p.status = .permitted ∧
        decide (p.ofRequest r = true ∧ p.expiresAt ≤ now) = true) := by
    funext p
    simp only [PermitRow.due, decide_eq_true_eq]
    exact decide_eq_decide.mpr (by tauto)
  have hpermits : (expireUnusedPermits r now db).permits = Table.update
      (fun p => p.status = .permitted ∧ decide (p.ofRequest r = true ∧ p.expiresAt ≤ now))
      PermitRow.expire db.permits := by
    rw [← hpredicate]
    rfl
  -- only the request itself can be left without a live permit
  have hself : ∀ o ∈ db.requests, o.status = .permitted →
      (∀ p ∈ (expireUnusedPermits r now db).permits, p.liveOf o.requestId = false) →
      o = r ∧ ∃ p ∈ db.permits, p.ofRequest r = true ∧ p.due now = true := by
    intro o ho hs hnone
    rw [hpermits] at hnone
    obtain ⟨p, hp, hlive, hsel⟩ := expire_cases h ho hs hnone
    simp only [PermitRow.liveOf, PermitRow.ofRequest, decide_eq_true_eq] at hlive hsel
    refine ⟨h.eq_of_id ho hr (hlive.1.symm.trans hsel.1.2), p, hp, ?_, ?_⟩
    · simpa [PermitRow.ofRequest] using hsel.1
    · simpa [PermitRow.due] using ⟨hlive.2, hsel.2⟩
  refine ⟨⟨_, hpermits⟩, ?_, rfl⟩
  by_cases hopen : db.permits.any (fun p => p.ofRequest r ∧ p.due now) = true ∧
      ¬ (expireUnusedPermits r now db).permits.any (fun p => p.ofRequest r ∧ p.live now) = true ∧
      r.status = .permitted
  · refine ⟨fun o => r.matches o ∧ o.status = .permitted, if_pos hopen, fun o ho => ?_⟩
    simp only [DisclosureRequest.matches, decide_eq_true_eq]
    constructor
    · rintro ⟨⟨-, hid⟩, hs⟩
      refine ⟨hs, fun p hp => ?_⟩
      by_contra hlive
      simp only [Bool.not_eq_false] at hlive
      refine hopen.2.1 (List.any_eq_true.mpr ⟨p, hp, ?_⟩)
      rw [hpermits] at hp
      obtain ⟨hmem, hsel⟩ := expire_live hp hlive
      simp only [PermitRow.liveOf, decide_eq_true_eq, decide_eq_false_iff_not, not_and, not_le]
        at hlive hsel
      have hrequest : p.ofRequest r = true := by
        simp only [PermitRow.ofRequest, decide_eq_true_eq]
        exact ⟨h.ofRequest hr hmem (hlive.1.trans hid), hlive.1.trans hid⟩
      simpa [PermitRow.live, hlive.2, hrequest] using hsel hrequest
    · rintro ⟨hs, hnone⟩
      obtain ⟨rfl, -⟩ := hself o ho hs hnone
      exact ⟨⟨rfl, rfl⟩, hs⟩
  · refine ⟨fun _ => false, ?_, fun o ho => ?_⟩
    · rw [Table.update_none fun _ _ => rfl]
      exact if_neg hopen
    · constructor
      · intro hf
        cases hf
      rintro ⟨hs, hnone⟩
      obtain ⟨rfl, p, hp, hrequest, hdue⟩ := hself o ho hs hnone
      have hexpired : db.permits.any (fun p => p.ofRequest o ∧ p.due now) = true :=
        List.any_eq_true.mpr ⟨p, hp, decide_eq_true ⟨hrequest, hdue⟩⟩
      refine absurd ⟨hexpired, fun hany => ?_, hs⟩ hopen
      obtain ⟨p', hp', hlive⟩ := List.any_eq_true.mp hany
      simp only [PermitRow.ofRequest, PermitRow.live, decide_eq_true_eq] at hlive
      have := hnone p' hp'
      simp only [PermitRow.liveOf, decide_eq_false_iff_not, not_and] at this
      exact this hlive.1.2 hlive.2.1

theorem sweepPermits_expires (h : DisclosureInv P db) (now : Int) :
    Expires db (sweepPermits now db) now := by
  have hpredicate : PermitRow.due now = fun p => decide (p.status = .permitted ∧
      decide (p.expiresAt ≤ now) = true) := by
    funext p
    simp [PermitRow.due]
  have hpermits : (sweepPermits now db).permits = Table.update
      (fun p => p.status = .permitted ∧ decide (p.expiresAt ≤ now)) PermitRow.expire
      db.permits := by
    rw [← hpredicate]
    rfl
  refine ⟨⟨_, hpermits⟩, ⟨_, rfl, fun r hr => ?_⟩, rfl⟩
  simp only [decide_eq_true_eq]
  constructor
  · rintro ⟨hs, -, hlive⟩
    refine ⟨hs, fun p hp => ?_⟩
    by_contra hp'
    simp only [Bool.not_eq_false] at hp'
    refine hlive (List.any_eq_true.mpr ⟨p, hp, ?_⟩)
    rw [hpermits] at hp
    obtain ⟨hmem, -⟩ := expire_live hp hp'
    simp only [PermitRow.liveOf, decide_eq_true_eq] at hp' ⊢
    exact ⟨congrArg RunKey.project (h.ofRequest hr hmem hp'.1), hp'.1, hp'.2⟩
  · rintro ⟨hs, hnone⟩
    refine ⟨hs, List.any_eq_true.mpr ?_, fun hany => ?_⟩
    · rw [hpermits] at hnone
      obtain ⟨p, hp, hlive, hsel⟩ := expire_cases h hr hs hnone
      simp only [PermitRow.liveOf, decide_eq_true_eq] at hlive
      have hrun := h.ofRequest hr hp hlive.1
      refine ⟨p.expire, ?_, decide_eq_true ⟨congrArg RunKey.project hrun, hlive.1, rfl⟩⟩
      have hdue : p.due now = true := decide_eq_true ⟨hlive.2, of_decide_eq_true hsel⟩
      refine Table.mem_update.mpr ⟨p, hp, ?_⟩
      rw [if_pos hdue]
    · obtain ⟨p, hp, hlive⟩ := List.any_eq_true.mp hany
      simp only [decide_eq_true_eq] at hlive
      have := hnone p hp
      simp only [PermitRow.liveOf, decide_eq_false_iff_not, not_and] at this
      exact this hlive.2.1 hlive.2.2

/-! ### The calls are edits -/

/-- The same request, perhaps in another status. -/
def DisclosureRequest.Same (r o : DisclosureRequest) : Prop :=
  o = { r with status := o.status, updatedAt := o.updatedAt }

theorem settledRequest_ok (env : DisclosureEnv) (call : DisclosureCall) (h : DisclosureInv P db)
    (hr : r ∈ db.requests) :
    DisclosureEdits P env call db (settledRequest r env.now db).1 ∧
      DisclosureInv P (settledRequest r env.now db).1 ∧
      (settledRequest r env.now db).2 ∈ (settledRequest r env.now db).1.requests ∧
      r.Same (settledRequest r env.now db).2 := by
  unfold settledRequest
  by_cases hs : r.status = .permitted
  · rw [if_pos hs]
    have hexpires := expireUnusedPermits_expires h hr env.now
    have hinv := hexpires.inv h
    obtain ⟨sel, hrequests, -⟩ := hexpires.requests
    have hmem : (if sel r then r.moved .awaitingDisclosureApproval env.now else r) ∈
        (expireUnusedPermits r env.now db).requests := by
      rw [hrequests]
      exact Table.mem_update.mpr ⟨r, hr, rfl⟩
    have hid : (if sel r then r.moved .awaitingDisclosureApproval env.now else r).requestId =
        r.requestId := by
      split <;> rfl
    have hfind := Table.find_key hinv.ids hmem
    rw [hid] at hfind
    simp only [hfind, Option.getD_some]
    refine ⟨.single (.expire db _ hexpires), hinv, hmem, ?_⟩
    split <;> rfl
  · rw [if_neg hs]
    exact ⟨.refl, h, hr, rfl⟩

theorem findRequest_ok {run : RunKey} {id : String} {code : DisclosureCode}
    (hfind : findRequest db run id code = .ok r) :
    r ∈ db.requests ∧ r.run = run ∧ r.requestId = id := by
  unfold findRequest at hfind
  split at hfind
  · rename_i o ho
    cases hfind
    have hkeys := List.find?_some ho
    simp only [decide_eq_true_eq] at hkeys
    exact ⟨List.mem_of_find?_eq_some ho, hkeys⟩
  · cases hfind

theorem DisclosureInv.matches_iff (h : DisclosureInv P db) (hr : r ∈ db.requests) :
    ∀ o ∈ db.requests, r.matches o = true ↔ o = r := by
  intro o ho
  simp only [DisclosureRequest.matches, decide_eq_true_eq]
  exact ⟨fun hkeys => h.eq_of_id ho hr hkeys.2, fun hor => by rw [hor]; exact ⟨rfl, rfl⟩⟩

theorem runContext_ok {run : RunKey} {runnerId : Option String} {row : RunContext}
    (hc : runContext env run runnerId = .ok row) :
    env.context run = some row ∧ runnerId.all (· = row.runnerId) = true := by
  unfold runContext at hc
  split at hc
  · rename_i found hfound
    simp only [bind_ok, require_ok, exists_const] at hc
    obtain ⟨hrunner, hc⟩ := hc
    cases hc
    exact ⟨hfound, hrunner⟩
  · cases hc

theorem offerMetadata_ok {schemaVersion : String} {offer : Offer}
    (h : offerMetadata schemaVersion offer = .ok ()) :
    offerMetadata findingsSchema offer = .ok () := by
  simp only [offerMetadata, require_ok] at h ⊢
  exact ⟨trivial, h.2⟩

theorem preview_edits {c : PreviewCall} (hc : preview env c db = .ok (t, r)) :
    DisclosureEdits P env (.preview c) db t := by
  simp only [preview, bind_ok, require_ok, exists_const] at hc
  obtain ⟨-, -, -, -, _, hoffer, row, hrow, -, -, -, -, hkey, hc⟩ := hc
  split at hc
  · simp only [bind_ok, require_ok, exists_const] at hc
    obtain ⟨-, hc⟩ := hc
    cases hc
    exact .refl
  · simp only [bind_ok] at hc
    obtain ⟨mid, hmid, hc⟩ := hc
    cases hc
    simp only [DisclosureDb.insertRequest, bind_ok, require_ok, exists_const] at hmid
    obtain ⟨hfresh, hmid⟩ := hmid
    cases hmid
    obtain ⟨hcontext, hrunner⟩ := runContext_ok hrow
    have hdeclares : Declares env c row :=
      ⟨hcontext, ⟨by simpa using hrunner, hkey⟩, offerMetadata_ok hoffer⟩
    exact .single (.request db c row rfl hdeclares fun o ho => ⟨(hfresh o ho).1, (hfresh o ho).2.1⟩)

theorem localOnly_edits {c : LocalOnlyCall} (h : DisclosureInv P db)
    (hc : localOnly env c db = .ok t) : DisclosureEdits P env (.localOnly c) db t := by
  simp only [localOnly, bind_ok, require_ok, exists_const] at hc
  obtain ⟨-, -, -, -, -, -, row, -, -, r, hfind, hc⟩ := hc
  obtain ⟨hr, -⟩ := findRequest_ok hfind
  obtain ⟨hedits, hinv, ho, -⟩ := settledRequest_ok env (.localOnly c) h hr
  split at hc
  · cases hc
    exact hedits
  · simp only [bind_ok, require_ok, exists_const] at hc
    obtain ⟨hs, hc⟩ := hc
    cases hc
    refine hedits.tail (.decline _ _ _ ?_ (hinv.matches_iff ho))
    simpa [DisclosureRequest.pending] using hs

theorem mintPermit_ok {c : PermitCall} {row : RunContext} {value : DisclosurePermit}
    (hc : mintPermit P env c row = .ok value) :
    value.expiresAtMs = env.now + disclosurePermitTtlMs := by
  simp only [mintPermit] at hc
  split at hc
  · cases hc
  · simp only [bind_ok, require_ok, exists_const] at hc
    obtain ⟨-, hc⟩ := hc
    cases hc
    rfl

theorem grantPermit_edits {c : PermitCall} {row : RunContext} {value : DisclosurePermit}
    (h : DisclosureInv P db) (hr : r ∈ db.requests) (hs : r.pending) (happroves : Approves env c r)
    (hc : grantPermit P env c row r db = .ok (t, value)) :
    DisclosureEdits P env (.permit c) db t := by
  simp only [grantPermit, DisclosureDb.insertPermit, bind_ok, require_ok, exists_const] at hc
  obtain ⟨minted, hminted, mid, ⟨hfresh, hmid⟩, hc⟩ := hc
  cases hmid
  cases hc
  exact .single (.permit db c row _ r _ rfl happroves (mintPermit_ok hminted) hr hs
    (h.matches_iff hr) fun o ho => (hfresh o ho).1)

theorem permitStatus_edits {c : PermitCall} {row : RunContext} {value : DisclosurePermit}
    (h : DisclosureInv P db) (hr : r ∈ db.requests) (happroves : Approves env c r)
    (hc : permitStatus P env c row r db = .ok (t, value)) :
    DisclosureEdits P env (.permit c) db t := by
  simp only [permitStatus, bind_ok, require_ok, exists_const] at hc
  obtain ⟨-, hc⟩ := hc
  split at hc
  · cases hc
  · simp only [bind_ok] at hc
    obtain ⟨existing, -, hc⟩ := hc
    split at hc
    · cases hc
      exact .single (.expire db _ (expireUnusedPermits_expires h hr env.now))
    · cases hc
  · rename_i hs
    exact grantPermit_edits h hr (.inl hs) happroves hc
  · rename_i hs
    exact grantPermit_edits h hr (.inr hs) happroves hc
  · cases hc
  · cases hc

theorem permit_edits {c : PermitCall} {value : DisclosurePermit} (h : DisclosureInv P db)
    (hc : permit P env c db = .ok (t, value)) : DisclosureEdits P env (.permit c) db t := by
  simp only [permit, bind_ok, require_ok, exists_const] at hc
  obtain ⟨-, -, -, -, -, -, -, row, -, -, -, -, -, ⟨hhuman, -⟩, r, hfind, hexact, hc⟩ := hc
  obtain ⟨hr, hrun, hid⟩ := findRequest_ok hfind
  obtain ⟨hedits, hinv, ho, hsame⟩ := settledRequest_ok env (.permit c) h hr
  refine hedits.trans (permitStatus_edits hinv ho ⟨hhuman, ?_, ?_, hexact.1⟩ hc)
  · rw [hsame]
    exact hrun
  · rw [hsame]
    exact hid

theorem CanaryFindings.validate_digest {v : CanaryFindings} (h : v.validate P = .ok ()) :
    Json.canonicalDigest P v.unsigned = .ok v.projectionDigest := by
  simp only [CanaryFindings.validate, bind_ok, require_ok, exists_const] at h
  obtain ⟨-, -, -, -, -, -, -, -, -, -, -, -, -, -, -, -, -, -, -, -, -, -, -, -, -, -, -, -, -, -,
    -,
    expected, hdigest, heq⟩ := h
  rw [heq]
  exact hdigest

/-- A permit that may be used: the row an upload names, live and unexpired. -/
theorem usablePermit_ok {run : RunKey} {runnerId : String} {row : RunContext}
    {value : DisclosurePermit} (hc : usablePermit P env run runnerId row value db = .ok p) :
    p ∈ db.permits ∧ p.permitId = value.permitId ∧ p.run = run ∧ p.status = .permitted ∧
      env.now < p.expiresAt := by
  unfold usablePermit at hc
  split at hc
  · cases hc
  · rename_i o ho
    simp only [bind_ok, require_ok, exists_const] at hc
    obtain ⟨-, ⟨-, hunexpired⟩, hs, -, hc⟩ := hc
    cases hc
    have hkeys := List.find?_some ho
    simp only [decide_eq_true_eq] at hkeys
    exact ⟨List.mem_of_find?_eq_some ho, hkeys.1, hkeys.2.1, hs, Int.not_le.mp hunexpired⟩

theorem verifyProjectionBindings_ok {run : RunKey} {row : RunContext} {value : DisclosurePermit}
    {f : CanaryFindings} {bytes : List Char}
    (hc : verifyProjectionBindings P run row p value f = .ok bytes) :
    Json.canonicalBytes P f.record = .ok bytes ∧ p.offer = f.offer bytes := by
  unfold verifyProjectionBindings at hc
  split at hc
  · cases hc
  · rename_i found hfound
    simp only [bind_ok, require_ok, exists_const] at hc
    obtain ⟨hoffer, -, hc⟩ := hc
    cases hc
    exact ⟨hfound, hoffer.2⟩

/-- The row that `synchronize` stores. -/
def storedFindings (env : DisclosureEnv) (run : RunKey) (runnerId : String) (row : RunContext)
    (value : DisclosurePermit) (f : CanaryFindings) (bytes : List Char) (digest : String) :
    FindingsRow where
  findingId := f.projectionId
  run := run
  grantId := row.grantId
  permitId := value.permitId
  runnerId := runnerId
  runnerKeyId := row.runnerKeyId
  offer := f.offer bytes
  projectionJson := some bytes
  receiptId := env.freshReceipt
  receiptDigest := digest
  acceptedAt := env.now
  purgeAt := env.now + findingsRetentionMs

theorem synchronize_ok {run : RunKey} {runnerId : String} {row : RunContext}
    {value : DisclosurePermit} {f : CanaryFindings} {bytes : List Char} {receipt : FindingsReceipt}
    (hc : synchronize P env run runnerId row value f bytes r db = .ok (t, receipt)) :
    ∃ digest, (∀ o ∈ db.findings, o.run ≠ run) ∧ t = {
      requests := Table.update (fun o => r.matches o ∧ o.status = .permitted)
        (·.moved .synchronized env.now) db.requests
      permits := Table.update (fun o => decide (o.run.project = run.project ∧
        o.permitId = value.permitId ∧ o.status = .permitted)) (·.consume env.now) db.permits
      findings := db.findings ++ [storedFindings env run runnerId row value f bytes digest] } := by
  simp only [synchronize] at hc
  split at hc
  · cases hc
  · rename_i digest hdigest
    simp only [DisclosureDb.insertFindings, bind_ok, require_ok, exists_const] at hc
    obtain ⟨-, mid, ⟨hfresh, hmid⟩, hc⟩ := hc
    cases hmid
    cases hc
    exact ⟨digest, fun o ho => (hfresh o ho).2.1, rfl⟩

/-- A validated record whose bytes the permit names is what the row says it is. -/
theorem storedFindings_exact {run : RunKey} {runnerId : String} {row : RunContext}
    {value : DisclosurePermit} {f : CanaryFindings} {bytes : List Char} {digest : String}
    (hvalid : f.validate P = .ok ()) (hbytes : Json.canonicalBytes P f.record = .ok bytes) :
    (storedFindings env run runnerId row value f bytes digest).Exact P := by
  intro stored hstored
  cases hstored
  exact ⟨f, hbytes, CanaryFindings.validate_digest hvalid, rfl⟩

theorem upload_edits {run : RunKey} {runnerId : String} {u : FindingsUpload}
    {receipt : FindingsReceipt} (h : DisclosureInv P db)
    (hc : upload P env run runnerId u db = .ok (t, receipt)) :
    DisclosureEdits P env (.upload run runnerId u) db t := by
  simp only [upload, validateUpload, bind_ok, require_ok, exists_const] at hc
  obtain ⟨-, -, -, -, ⟨-, -, -, -, hvalid⟩, hrunid, -, row, hrow, -, -, -, -, hbinding, p, husable,
    hc⟩ := hc
  obtain ⟨hp, hpid, hrun, hs, hunexpired⟩ := usablePermit_ok husable
  split at hc
  · cases hc
  · rename_i r hfind
    simp only [bind_ok, require_ok, exists_const] at hc
    obtain ⟨hpermitted, -, bytes, hverify, hc⟩ := hc
    obtain ⟨hbytes, hoffer⟩ := verifyProjectionBindings_ok hverify
    obtain ⟨digest, hfresh, rfl⟩ := synchronize_ok hc
    have hr := List.mem_of_find?_eq_some hfind
    have hkeys := List.find?_some hfind
    simp only [decide_eq_true_eq] at hkeys
    obtain ⟨_, hvalid⟩ := (accepts_iff _).mp hvalid
    refine .single (.synchronize db r p (storedFindings env run runnerId row u.permit u.findings
      bytes digest) _ _ hr hpermitted ?_ hp ?_ ?_ ?_ (storedFindings_exact hvalid hbytes)
      hfresh)
    · intro o ho
      rw [decide_eq_true_eq, h.matches_iff hr o ho]
      exact ⟨fun ho => ho.1, fun ho => ⟨ho, ho ▸ hpermitted⟩⟩
    · exact decide_eq_true ⟨hkeys.2.1.symm, hs⟩
    · intro o ho
      rw [decide_eq_true_eq]
      constructor
      · rintro ⟨-, hid, -⟩
        exact Table.eq_of_key h.permitIds ho hp (hid.trans hpid.symm)
      · rintro rfl
        exact ⟨congrArg RunKey.project hrun, hpid, hs⟩
    · exact ⟨hpid.symm, hrun.symm, hoffer.symm, hunexpired⟩

theorem disclosureCall_edits {c : DisclosureCall} (h : DisclosureInv P db)
    (hc : disclosureCall P env db c = .ok t) : DisclosureEdits P env c db t := by
  cases c with
  | preview c =>
    obtain ⟨r, hc⟩ := fst_ok hc
    exact preview_edits hc
  | permit c =>
    obtain ⟨value, hc⟩ := fst_ok hc
    exact permit_edits h hc
  | localOnly c => exact localOnly_edits h hc
  | upload run runnerId u =>
    obtain ⟨receipt, hc⟩ := fst_ok hc
    exact upload_edits h hc
  | purge =>
    cases hc
    exact .single (.purge db)
  | sweep =>
    cases hc
    exact .single (.expire db _ (sweepPermits_expires h env.now))

theorem disclosureTransact_edits (h : DisclosureInv P db) (c : DisclosureCall) :
    DisclosureEdits P env c db (disclosureTransact P env db c) := by
  unfold disclosureTransact
  split
  · rename_i t ht
    exact disclosureCall_edits h ht
  · exact .refl

end Heel.Cloud
