import Heel.Saas.DisclosureOnce

/-! The disclosure service over whole runs: what every later state keeps of a request, a permit and
a findings row, and which call brought each of them in. -/
namespace Heel.Cloud
open Lib Lib.Checks

/-- The columns of a run that no statement changes once it has a grant. -/
structure RunIdentity where
  grantId : String
  runnerId : String
  runnerKeyId : String
  deriving DecidableEq, Repr

def RunContext.identity (row : RunContext) : RunIdentity :=
  ⟨row.grantId, row.runnerId, row.runnerKeyId⟩

/-- Any calls in any order; the clock, the memberships and the run rows may change between them. -/
def disclosure (P : Platform) (identity : RunKey → RunIdentity) :
    Transition DisclosureDb (DisclosureEnv × DisclosureCall) where
  init db := db = {}
  step db a t := (∀ run row, a.1.context run = some row → row.identity = identity run) ∧
    t = disclosureTransact P a.1 db a.2

variable {P : Platform} {identity : RunKey → RunIdentity} {env : DisclosureEnv}
  {call : DisclosureCall} {db t : DisclosureDb} {r : DisclosureRequest} {p : PermitRow}

theorem disclosure_inv (hs : (disclosure P identity).Reachable db) : DisclosureInv P db := by
  refine Transition.invariant _ ?_ ?_ hs
  · rintro s rfl
    refine ⟨?_, ?_, ?_, ?_, ?_, ?_, ?_, ?_⟩ <;> simp
  · rintro s ⟨env, c⟩ t h ⟨-, rfl⟩
    exact (disclosureTransact_edits h c).inv h

structure DisclosureRequest.Kept (r o : DisclosureRequest) : Prop where
  same : r.Same o
  settled : r.status = .localOnly ∨ r.status = .synchronized → o.status = r.status
  open_ : r.status ≠ .expired → o.status ≠ .expired

/-- A permit that is no longer live never changes again. -/
structure PermitRow.Kept (p o : PermitRow) : Prop where
  same : o = { p with status := o.status, consumedAt := o.consumedAt }
  once : p.status ≠ .permitted → o = p

structure FindingsRow.Kept (f g : FindingsRow) : Prop where
  same : g = { f with projectionJson := g.projectionJson }
  json : g.projectionJson = f.projectionJson ∨ g.projectionJson = none

structure DisclosureKept (db t : DisclosureDb) : Prop where
  requests : ∀ r ∈ db.requests, ∃ o ∈ t.requests, r.Kept o
  permits : ∀ p ∈ db.permits, ∃ o ∈ t.permits, p.Kept o
  findings : ∀ f ∈ db.findings, ∃ g ∈ t.findings, f.Kept g

theorem DisclosureRequest.Kept.refl (r : DisclosureRequest) : r.Kept r := ⟨rfl, fun _ => rfl, id⟩

theorem PermitRow.Kept.refl (p : PermitRow) : p.Kept p := ⟨rfl, fun _ => rfl⟩

theorem FindingsRow.Kept.refl (f : FindingsRow) : f.Kept f := ⟨rfl, .inl rfl⟩

theorem DisclosureRequest.Same.trans {r o u : DisclosureRequest} (h : r.Same o) (h' : o.Same u) :
    r.Same u := by
  unfold Same at h h' ⊢
  rw [h] at h'
  exact h'

theorem DisclosureRequest.Kept.trans {r o u : DisclosureRequest} (h : r.Kept o) (h' : o.Kept u) :
    r.Kept u := by
  refine ⟨h.same.trans h'.same, fun hs => ?_, fun hs => h'.open_ (h.open_ hs)⟩
  have hso := h.settled hs
  rw [← hso] at hs ⊢
  exact h'.settled hs

theorem PermitRow.Kept.trans {p o u : PermitRow} (h : p.Kept o) (h' : o.Kept u) : p.Kept u := by
  refine ⟨?_, fun hs => ?_⟩
  · have hsame := h'.same
    rw [h.same] at hsame
    exact hsame
  · have hpo := h.once hs
    subst hpo
    exact h'.once hs

theorem FindingsRow.Kept.trans {f g u : FindingsRow} (h : f.Kept g) (h' : g.Kept u) : f.Kept u := by
  refine ⟨?_, ?_⟩
  · have hsame := h'.same
    rw [h.same] at hsame
    exact hsame
  · rcases h'.json with hj | hj
    · rw [hj]
      exact h.json
    · exact .inr hj

theorem DisclosureKept.refl (db : DisclosureDb) : DisclosureKept db db :=
  ⟨fun r hr => ⟨r, hr, .refl r⟩, fun p hp => ⟨p, hp, .refl p⟩, fun f hf => ⟨f, hf, .refl f⟩⟩

theorem DisclosureKept.trans {s : DisclosureDb} (h : DisclosureKept s db)
    (h' : DisclosureKept db t) :
    DisclosureKept s t := by
  refine ⟨fun r hr => ?_, fun p hp => ?_, fun f hf => ?_⟩
  · obtain ⟨o, ho, hk⟩ := h.requests r hr
    obtain ⟨u, hu, hk'⟩ := h'.requests o ho
    exact ⟨u, hu, hk.trans hk'⟩
  · obtain ⟨o, ho, hk⟩ := h.permits p hp
    obtain ⟨u, hu, hk'⟩ := h'.permits o ho
    exact ⟨u, hu, hk.trans hk'⟩
  · obtain ⟨g, hg, hk⟩ := h.findings f hf
    obtain ⟨u, hu, hk'⟩ := h'.findings g hg
    exact ⟨u, hu, hk.trans hk'⟩

/-- A move of a request that is neither local only nor synchronized. -/
theorem moved_kept {status : RequestStatus} {now : Int} (hr : r.pending ∨ r.status = .permitted)
    (hs : status ≠ .expired) : r.Kept (r.moved status now) := by
  refine ⟨rfl, fun hsettled => ?_, fun _ => hs⟩
  rcases hr with (hr | hr) | hr <;> rcases hsettled with hs | hs <;> rw [hr] at hs <;> cases hs

theorem expire_kept (hp : p.status = .permitted) : p.Kept p.expire :=
  ⟨rfl, fun hs => absurd hp hs⟩

theorem consume_kept (hp : p.status = .permitted) (now : Int) : p.Kept (p.consume now) :=
  ⟨rfl, fun hs => absurd hp hs⟩

/-- The rows one edit leaves, each the row it was, or a new one of the call. -/
structure Traced (env : DisclosureEnv) (call : DisclosureCall) (db t : DisclosureDb) : Prop where
  kept : DisclosureKept db t
  requests : ∀ o ∈ t.requests, (∃ r ∈ db.requests, r.Kept o) ∨
    ∃ c row, call = .preview c ∧ Declares env c row ∧ (previewedRequest env c row).Kept o
  permits : ∀ o ∈ t.permits, (∃ p ∈ db.permits, p.Kept o) ∨
    ∃ c r, call = .permit c ∧ Approves env c r ∧ o.run = c.run ∧ o.requestId = c.requestId ∧
      o.offer = c.offer ∧ o.approvedBy = c.actor ∧ o.expiresAt = env.now + disclosurePermitTtlMs

theorem requests_update_kept (db : DisclosureDb) {sel : DisclosureRequest → Bool}
    {status : RequestStatus} (now : Int) (hsel : ∀ r ∈ db.requests, sel r = true → r.pending ∨
    r.status = .permitted)
    (hs : status ≠ .expired) :
    (∀ r ∈ db.requests, ∃ o ∈ Table.update sel (·.moved status now) db.requests, r.Kept o) ∧
      ∀ o ∈ Table.update sel (·.moved status now) db.requests, ∃ r ∈ db.requests, r.Kept o := by
  have hkept : ∀ r ∈ db.requests, r.Kept (if sel r then r.moved status now else r) :=
    fun r hr => Table.update_rel DisclosureRequest.Kept.refl
      (fun r hr hsr => moved_kept (hsel r hr hsr) hs) hr
  refine ⟨fun r hr => ⟨_, Table.mem_update.mpr ⟨r, hr, rfl⟩, hkept r hr⟩, fun o ho => ?_⟩
  obtain ⟨r, hr, rfl⟩ := Table.mem_update.mp ho
  exact ⟨r, hr, hkept r hr⟩

theorem permits_update_kept (db : DisclosureDb) (sel : PermitRow → Bool) {f : PermitRow → PermitRow}
    (hsel : ∀ p ∈ db.permits, sel p = true → p.Kept (f p)) :
    (∀ p ∈ db.permits, ∃ o ∈ Table.update sel f db.permits, p.Kept o) ∧
      ∀ o ∈ Table.update sel f db.permits, ∃ p ∈ db.permits, p.Kept o := by
  have hkept : ∀ p ∈ db.permits, p.Kept (if sel p then f p else p) :=
    fun p hp => Table.update_rel PermitRow.Kept.refl hsel hp
  refine ⟨fun p hp => ⟨_, Table.mem_update.mpr ⟨p, hp, rfl⟩, hkept p hp⟩, fun o ho => ?_⟩
  obtain ⟨p, hp, rfl⟩ := Table.mem_update.mp ho
  exact ⟨p, hp, hkept p hp⟩

theorem DisclosureEdit.traced (hedit : DisclosureEdit P env call db t) : Traced env call db t := by
  have hfindings : ∀ f ∈ db.findings, ∃ g ∈ db.findings, f.Kept g := fun f hf => ⟨f, hf, .refl f⟩
  have hpermits : ∀ p ∈ db.permits, ∃ o ∈ db.permits, p.Kept o := fun p hp => ⟨p, hp, .refl p⟩
  cases hedit with
  | request c row hcall hdeclares hfresh =>
    refine ⟨⟨fun r hr => ⟨r, List.mem_append_left _ hr, .refl r⟩, hpermits, hfindings⟩,
      fun o ho => ?_, fun o ho => .inl ⟨o, ho, .refl o⟩⟩
    rcases List.mem_append.mp ho with ho | ho
    · exact .inl ⟨o, ho, .refl o⟩
    · rw [List.mem_singleton.mp ho]
      exact .inr ⟨c, row, hcall, hdeclares, .refl _⟩
  | expire _ he =>
    obtain ⟨sel, hpermits⟩ := he.permits
    obtain ⟨choose, hrequests, hchoose⟩ := he.requests
    have hr := requests_update_kept db env.now (fun r hr hs => .inr ((hchoose r hr).mp hs).1)
      (show RequestStatus.awaitingDisclosureApproval ≠ .expired by decide)
    have hp := permits_update_kept db (fun p => p.status = .permitted ∧ sel p) fun p _ hs =>
      expire_kept (of_decide_eq_true hs).1
    rw [← hrequests] at hr
    rw [← hpermits] at hp
    exact ⟨⟨hr.1, hp.1, he.findings ▸ hfindings⟩, fun o ho => .inl (hr.2 o ho),
      fun o ho => .inl (hp.2 o ho)⟩
  | decline r sel hs hsel =>
    have hr := requests_update_kept db env.now (fun o ho hso => .inl ((hsel o ho).mp hso ▸ hs))
      (show RequestStatus.localOnly ≠ .expired by decide)
    exact ⟨⟨hr.1, hpermits, hfindings⟩, fun o ho => .inl (hr.2 o ho),
      fun o ho => .inl ⟨o, ho, .refl o⟩⟩
  | permit c row value r sel hcall happroves hexpires hr hs hsel hfresh =>
    have hreq := requests_update_kept db env.now (fun o ho hso => .inl ((hsel o ho).mp hso ▸ hs))
      (show RequestStatus.permitted ≠ .expired by decide)
    refine ⟨⟨hreq.1, fun p hp => ⟨p, List.mem_append_left _ hp, .refl p⟩, hfindings⟩,
      fun o ho => .inl (hreq.2 o ho), fun o ho => ?_⟩
    rcases List.mem_append.mp ho with ho | ho
    · exact .inl ⟨o, ho, .refl o⟩
    · rw [List.mem_singleton.mp ho]
      exact .inr ⟨c, r, hcall, happroves, rfl, rfl, rfl, rfl, hexpires⟩
  | synchronize r p f sel unused hr hs hsel hp hlive hunused hf hexact hfresh =>
    have hreq := requests_update_kept db env.now (fun o ho hso => .inr ((hsel o ho).mp hso ▸ hs))
      (show RequestStatus.synchronized ≠ .expired by decide)
    have hpermitted : p.status = .permitted := (of_decide_eq_true hlive).2
    have hper := permits_update_kept db unused
      fun o ho hso => consume_kept ((hunused o ho).mp hso ▸ hpermitted) env.now
    exact ⟨⟨hreq.1, hper.1, fun g hg => ⟨g, List.mem_append_left _ hg, .refl g⟩⟩,
      fun o ho => .inl (hreq.2 o ho), fun o ho => .inl (hper.2 o ho)⟩
  | purge =>
    refine ⟨⟨fun r hr => ⟨r, hr, .refl r⟩, hpermits, fun f hf => ?_⟩,
      fun o ho => .inl ⟨o, ho, .refl o⟩, fun o ho => .inl ⟨o, ho, .refl o⟩⟩
    refine ⟨_, Table.mem_update.mpr ⟨f, hf, rfl⟩, ?_⟩
    split
    · exact ⟨rfl, .inr rfl⟩
    · exact .refl f

theorem DisclosureEdits.traced (hedits : DisclosureEdits P env call db t) :
    Traced env call db t := by
  induction hedits with
  | refl =>
    exact ⟨.refl db, fun o ho => .inl ⟨o, ho, .refl o⟩, fun o ho => .inl ⟨o, ho, .refl o⟩⟩
  | tail _ hedit ih =>
    have hlast := hedit.traced
    refine ⟨ih.kept.trans hlast.kept, fun u hu => ?_, fun u hu => ?_⟩
    · rcases hlast.requests u hu with ⟨o, ho, hk⟩ | hnew
      · rcases ih.requests o ho with ⟨r, hr, hk'⟩ | ⟨c, row, hcall, hdeclares, hk'⟩
        · exact .inl ⟨r, hr, hk'.trans hk⟩
        · exact .inr ⟨c, row, hcall, hdeclares, hk'.trans hk⟩
      · exact .inr hnew
    · rcases hlast.permits u hu with ⟨o, ho, hk⟩ | hnew
      · rcases ih.permits o ho with ⟨p, hp, hk'⟩ | ⟨c, r, hcall, happroves, hnew⟩
        · exact .inl ⟨p, hp, hk'.trans hk⟩
        · refine .inr ⟨c, r, hcall, happroves, ?_⟩
          rw [hk.same]
          exact hnew
      · exact .inr hnew

theorem disclosure_traced (hs : (disclosure P identity).Reachable db)
    (h : (disclosure P identity).step db (env, call) t) : Traced env call db t := by
  obtain ⟨-, rfl⟩ := h
  exact (disclosureTransact_edits (disclosure_inv hs) call).traced

/-- Every later state keeps what a reachable state says of its rows. -/
theorem disclosure_kept (hs : (disclosure P identity).Reachable db)
    (h : (disclosure P identity).Later db t) : DisclosureKept db t :=
  Transition.later_rel _ DisclosureKept.refl (fun _ _ _ => DisclosureKept.trans)
    (fun _ _ _ hs h => (disclosure_traced hs h).kept) hs h

/-- The preview of a runner that declared what a request offers: it returned, and the request that
it left is `r` in the later state `db`. -/
def RunnerDeclared (P : Platform) (identity : RunKey → RunIdentity) (db : DisclosureDb)
    (r : DisclosureRequest) : Prop :=
  ∃ s env c mid o value, (disclosure P identity).Reachable s ∧
    (disclosure P identity).step s (env, .preview c) mid ∧ (disclosure P identity).Later mid db ∧
    preview env c s = .ok (mid, value) ∧ (∀ o ∈ s.requests, o.run ≠ r.run) ∧ o ∈ mid.requests ∧
    o.Kept r ∧ c.run = r.run ∧ c.runnerId = r.runnerId ∧ c.runnerKeyId = r.runnerKeyId ∧
    c.offer = r.offer ∧ identity r.run = ⟨r.grantId, r.runnerId, r.runnerKeyId⟩ ∧
    offerMetadata findingsSchema r.offer = .ok ()

theorem RunnerDeclared.metadata (h : RunnerDeclared P identity db r) :
    identity r.run = ⟨r.grantId, r.runnerId, r.runnerKeyId⟩ ∧
      offerMetadata findingsSchema r.offer = .ok () := by
  obtain ⟨_, _, _, _, _, _, -, -, -, -, -, -, -, -, -, -, -, h⟩ := h
  exact h

/-- The call of a human owner or admin that minted a permit: it returned, and the row that it left
is `p` in the later state `db`. -/
def HumanApproved (P : Platform) (identity : RunKey → RunIdentity) (db : DisclosureDb)
    (p : PermitRow) : Prop :=
  ∃ s env c mid o value, (disclosure P identity).Reachable s ∧
    (disclosure P identity).step s (env, .permit c) mid ∧ (disclosure P identity).Later mid db ∧
    permit P env c s = .ok (mid, value) ∧ (∀ o ∈ s.permits, o.permitId ≠ p.permitId) ∧
    o ∈ mid.permits ∧ o.Kept p ∧
    isHuman (env.membership p.run.workspaceId p.approvedBy) = true ∧ c.run = p.run ∧
    c.requestId = p.requestId ∧ c.offer = p.offer ∧ c.actor = p.approvedBy ∧
    p.expiresAt = env.now + disclosurePermitTtlMs

theorem disclosureTransact_ok (h : disclosureTransact P env db call ≠ db) :
    disclosureCall P env db call = .ok (disclosureTransact P env db call) := by
  unfold disclosureTransact at h ⊢
  split
  · assumption
  · rename_i e he
    simp only [he] at h
    exact absurd rfl h

theorem permits_approved (hs : (disclosure P identity).Reachable db) (hp : p ∈ db.permits) :
    HumanApproved P identity db p := by
  obtain ⟨s, ⟨env, call⟩, u, o, hreach, hstep, hold, ho, hnew, hlater, hk⟩ :=
    hs.origin (R := fun s p => p ∈ s.permits) (K := PermitRow.Kept)
      PermitRow.Kept.refl (fun _ _ _ => PermitRow.Kept.trans) (by rintro s p rfl; simp)
      (fun s a t hs h => (disclosure_traced hs h).permits) hp
  obtain ⟨c, r, rfl, happroves, hrun, hid, hoffer, hactor, hexpires⟩ := hnew
  have hfresh : ∀ z ∈ s.permits, z.permitId ≠ o.permitId := by
    intro z hz hzid
    obtain ⟨z', hz', hkz⟩ := (disclosure_traced hreach hstep).kept.permits z hz
    have hzo : z' = o := by
      refine Table.eq_of_key (disclosure_inv (hreach.step hstep)).permitIds hz' ho ?_
      rw [hkz.same]
      exact hzid
    exact hold ⟨z, hz, hzo ▸ hkz⟩
  have hcall : disclosureCall P env s (.permit c) = .ok u := by
    rw [hstep.2]
    refine disclosureTransact_ok fun hsame => hold ⟨o, ?_, .refl o⟩
    rw [hstep.2, hsame] at ho
    exact ho
  obtain ⟨value, hpermit⟩ := fst_ok hcall
  have hhuman := happroves.human
  refine ⟨s, env, c, u, o, value, hreach, hstep, hlater, hpermit, ?_⟩
  rw [← hrun, ← hactor] at hhuman
  have hall : (∀ z ∈ s.permits, z.permitId ≠ o.permitId) ∧ o ∈ u.permits ∧ o.Kept p ∧
      isHuman (env.membership o.run.workspaceId o.approvedBy) = true ∧ c.run = o.run ∧
      c.requestId = o.requestId ∧ c.offer = o.offer ∧ c.actor = o.approvedBy ∧
      o.expiresAt = env.now + disclosurePermitTtlMs :=
    ⟨hfresh, ho, hk, hhuman, hrun.symm, hid.symm, hoffer.symm, hactor.symm, hexpires⟩
  have hsame := hk.same
  rw [hsame] at hk ⊢
  exact ⟨hall.1, hall.2.1, hk, hall.2.2.2⟩

theorem requests_declared (hs : (disclosure P identity).Reachable db) (hr : r ∈ db.requests) :
    RunnerDeclared P identity db r ∧ r.status ≠ .expired := by
  obtain ⟨s, ⟨env, call⟩, u, o, hreach, hstep, hold, ho, hnew, hlater, hk⟩ :=
    hs.origin (R := fun s r => r ∈ s.requests) (K := DisclosureRequest.Kept)
      DisclosureRequest.Kept.refl (fun _ _ _ => DisclosureRequest.Kept.trans)
      (by rintro s p rfl; simp) (fun s a t hs h => (disclosure_traced hs h).requests) hr
  obtain ⟨c, row, rfl, hdeclares, hko⟩ := hnew
  have hfresh : ∀ z ∈ s.requests, z.run ≠ o.run := by
    intro z hz hzrun
    obtain ⟨z', hz', hkz⟩ := (disclosure_traced hreach hstep).kept.requests z hz
    have hzo : z' = o := by
      refine Table.eq_of_key (disclosure_inv (hreach.step hstep)).runs hz' ho ?_
      rw [hkz.same]
      exact hzrun
    exact hold ⟨z, hz, hzo ▸ hkz⟩
  have hcall : disclosureCall P env s (.preview c) = .ok u := by
    rw [hstep.2]
    refine disclosureTransact_ok fun hsame => hold ⟨o, ?_, .refl o⟩
    rw [hstep.2, hsame] at ho
    exact ho
  obtain ⟨value, hpreview⟩ := fst_ok hcall
  have hall := hko.trans hk
  have hidentity : identity c.run = ⟨row.grantId, c.runnerId, c.runnerKeyId⟩ := by
    rw [← hstep.1 c.run row hdeclares.context, RunContext.identity, hdeclares.runner.1,
      hdeclares.runner.2]
  refine ⟨⟨s, env, c, u, o, value, hreach, hstep, hlater, hpreview, ?_⟩,
    hall.open_ (by simp [previewedRequest])⟩
  rw [hko.same] at hfresh
  have hsame := hall.same
  rw [hsame] at hk ⊢
  exact ⟨hfresh, ho, hk, rfl, rfl, rfl, rfl, hidentity, hdeclares.offer⟩

end Heel.Cloud
