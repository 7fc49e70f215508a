import Heel.Saas.AuthorityStops
import Heel.Saas.DiscoveryBounds

/-! The gates `claim` and `heartbeat` answer over the life of a run, whoever else writes its rows:
their server times only grow, an active gate says what the database holds, and a recorded stop is
never taken back. -/
namespace Heel.Cloud
open Lib Lib.Checks

/-! ### What every transaction keeps -/

/-- What no transaction on a run takes back, whoever makes it. -/
structure GateKept (s t : RunDb) : Prop where
  ended : Cloud.ended s.run.status = true → Cloud.ended t.run.status = true
  stopped : s.run.stopReason ≠ .none → t.run.stopReason ≠ .none
  expiresAt : t.grant.expiresAt = s.grant.expiresAt
  lastGate : ∀ n, s.run.lastGateAtMs = some n → ∃ m, t.run.lastGateAtMs = some m ∧ n ≤ m

variable {P : Platform} {R : RunDb → Prop} {env : Env} {s t u : RunDb}

theorem GateKept.refl (s : RunDb) : GateKept s s := ⟨id, id, rfl, fun n h => ⟨n, h, le_refl n⟩⟩

theorem GateKept.trans (h : GateKept s t) (h' : GateKept t u) : GateKept s u := by
  refine ⟨fun he => h'.ended (h.ended he), fun hs => h'.stopped (h.stopped hs),
    h'.expiresAt.trans h.expiresAt, fun n hn => ?_⟩
  obtain ⟨m, hm, hle⟩ := h.lastGate n hn
  obtain ⟨k, hk, hle'⟩ := h'.lastGate m hm
  exact ⟨k, hk, hle.trans hle'⟩

theorem GateKept.of_gate (hl : t.run.lastGateAtMs = s.run.lastGateAtMs)
    (he : t.grant.expiresAt = s.grant.expiresAt)
    (hended : Cloud.ended s.run.status = true → Cloud.ended t.run.status = true)
    (hstopped : s.run.stopReason ≠ .none → t.run.stopReason ≠ .none) : GateKept s t :=
  ⟨hended, hstopped, he, fun n hn => ⟨n, hl.trans hn, le_refl n⟩⟩

theorem Edit.gateKept (h : Edit P R s t) : GateKept s t := by
  cases h with
  | live heartbeat updated events => exact .of_gate rfl rfl id id
  | gate serverTime updated hlater =>
    exact ⟨id, id, rfl, fun n hn => ⟨serverTime, rfl, (hlater n hn).le⟩⟩
  | claim now hs hg hn => exact .of_gate rfl rfl (by simp [hs, Cloud.ended]) id
  | revoke hs hg => exact .of_gate rfl rfl id id
  | stop reason error generation now deadline hr hs h =>
    exact .of_gate rfl rfl (by simp [hs]) fun _ => hr
  | move status error hs =>
    refine .of_gate rfl rfl (fun he => ?_) id
    rcases hs with ⟨hs, -⟩ | ⟨hs, -⟩ | ⟨hs, -⟩
    · simp [hs, Cloud.ended] at he
    · simp only [List.mem_cons, List.not_mem_nil, or_false] at hs
      rcases hs with hs | hs <;> simp [hs, Cloud.ended] at he
    · simp only [List.mem_cons, List.not_mem_nil, or_false] at hs
      rcases hs with hs | hs | hs | hs <;> simp [hs, Cloud.ended] at he
  | report v state started purgeAt hv hs hl hq => exact .of_gate rfl rfl id id
  | evidence v state hv hs hl hq => exact .of_gate rfl rfl id id
  | acknowledge sequence digest at_ local_ late h => exact .of_gate rfl rfl id id
  | consume ledger hq hl => exact .of_gate rfl rfl id id
  | terminate disposition error reason requested started now grantPurge approvalPurge ledger quota
      hs hr hq =>
    exact .of_gate rfl rfl (fun _ => rfl) fun hne => by rw [hr hne]; exact hne
  | release now approvalPurge ledger quota hu hR hq =>
    refine .of_gate rfl rfl (fun _ => ?_) id
    show Cloud.ended (if s.grant.status = .issued then Phase.expired else .cancelled) = true
    split <;> rfl

theorem Edits.gateKept (h : Edits P R s t) : GateKept s t := by
  induction h with
  | refl => exact .refl s
  | tail _ hedit ih => exact ih.trans hedit.gateKept

theorem purge_gateKept (s : RunDb) (now : Int) : GateKept s (s.purge now) := by
  refine .of_gate rfl ?_ id id
  unfold RunDb.purge
  simp only
  split <;> rfl

theorem transact_gateKept (c : Call) : GateKept s (transact P env s c) := by
  obtain ⟨last, hedits, h⟩ := transact_edits (P := P) (R := fun _ => True) c
    (fun _ _ _ => trivial)
  rcases h with h | ⟨now, h⟩
  · rw [h]
    exact hedits.gateKept
  · rw [h]
    exact hedits.gateKept.trans (purge_gateKept last now)

/-! ### What the other writers keep -/

theorem live_ended {p : Phase} (h : p ∈ [Phase.claimed, .running, .finalizing]) :
    Cloud.ended p = false := by
  simp only [List.mem_cons, List.not_mem_nil, or_false] at h
  rcases h with rfl | rfl | rfl <;> rfl

theorem QuotaFrame.gateKept (h : QuotaFrame s t) : GateKept s t := by
  refine .of_gate ?_ ?_ ?_ ?_
  · rw [h.run]
  · rw [h.grant]
  · rw [h.run]
    exact id
  · rw [h.run]
    exact id

theorem refundReserved_frame {created : Bool} (h : refundReserved s = .ok (t, created)) :
    QuotaFrame s t := by
  simp only [refundReserved, bind_ok, pure, Except.pure] at h
  obtain ⟨⟨answer, ledger⟩, -, h⟩ := h
  split at h <;> cases h <;> exact ⟨rfl, rfl, rfl, rfl⟩

theorem refundCancelled_frame {created : Bool} (h : refundCancelled s = .ok (t, created)) :
    QuotaFrame s t := by
  unfold refundCancelled at h
  split at h
  · simp only [bind_ok, require_ok, exists_const] at h
    obtain ⟨⟨out, answer⟩, hout, -, h⟩ := h
    cases h
    exact refundReserved_frame hout
  · cases h
    exact .refl s

theorem refundUnstarted_frame {created : Bool} (h : refundUnstarted s = .ok (t, created)) :
    QuotaFrame s t := by
  unfold refundUnstarted at h
  split at h
  · exact refundReserved_frame h
  · cases h
    exact .refl s

theorem appendEvent_gateKept (s : RunDb) : GateKept s s.appendEvent := .of_gate rfl rfl id id

theorem cancelUnclaimed_gateKept {now : Int} (h : cancelUnclaimed env now s = .ok t) :
    GateKept s t := by
  unfold cancelUnclaimed at h
  split at h
  · simp only [bind_ok, pure, Except.pure, Except.ok.injEq] at h
    obtain ⟨⟨mid, created⟩, hmid, _, -, rfl⟩ := h
    have hcancelled : GateKept mid (mid.cancelled now) := .of_gate rfl rfl (fun _ => rfl) id
    refine (refundCancelled_frame hmid).gateKept.trans (hcancelled.trans ?_)
    split
    · exact appendEvent_gateKept _
    · exact .refl _
  · cases h
    exact .refl s

theorem finalizeDisconnected_gateKept {now : Int} (h : finalizeDisconnected now s = .ok t) :
    GateKept s t := by
  unfold finalizeDisconnected at h
  split at h
  · simp only [bind_ok, pure, Except.pure, Except.ok.injEq] at h
    obtain ⟨⟨mid, created⟩, hmid, _, -, rfl⟩ := h
    have habandoned : GateKept mid (mid.abandoned now) := .of_gate rfl rfl (fun _ => rfl) id
    refine (refundUnstarted_frame hmid).gateKept.trans (habandoned.trans ?_)
    split
    · exact appendEvent_gateKept _
    · exact .refl _
  · cases h
    exact .refl s

theorem recordStop_gateKept (now : Int) : GateKept s (recordStop env now s) := by
  unfold recordStop
  split
  · rename_i hlive
    split
    · exact .refl s
    · exact .of_gate rfl rfl (fun hended => by simp [live_ended hlive.1] at hended)
        (fun hne => absurd hlive.2 hne)
  · exact .refl s

theorem requestAuthorityStops_gateKept {now : Int}
    (h : requestAuthorityStops env now s = .ok t) : GateKept s t := by
  simp only [requestAuthorityStops, bind_ok, pure, Except.pure, Except.ok.injEq] at h
  obtain ⟨mid, hmid, last, hlast, rfl⟩ := h
  exact (cancelUnclaimed_gateKept hmid).trans
    ((finalizeDisconnected_gateKept hlast).trans (recordStop_gateKept now))

theorem revokeUnusedGrant_gateKept {now : Int} {audited : Except Refusal Unit}
    (h : revokeUnusedGrant now audited s = .ok t) : GateKept s t := by
  unfold revokeUnusedGrant at h
  split at h
  · simp only [bind_ok, pure, Except.pure, Except.ok.injEq] at h
    obtain ⟨⟨refunded, ledger⟩, -, _, -, _, -, rfl⟩ := h
    split
    · exact .of_gate rfl rfl (fun _ => rfl) id
    · exact .of_gate rfl rfl (fun _ => rfl) id
  · cases h
    exact .refl s

theorem stopInflight_gateKept {now : Int} {audited : Except Refusal Unit}
    (h : stopInflight env now audited s = .ok t) : GateKept s t := by
  unfold stopInflight at h
  split at h
  · rename_i hlive
    simp only [bind_ok, pure, Except.pure, Except.ok.injEq] at h
    obtain ⟨_, -, _, -, rfl⟩ := h
    exact .of_gate rfl rfl (fun hended => by simp [live_ended hlive.1] at hended)
      (fun hne => absurd hlive.2 hne)
  · cases h
    exact .refl s

theorem outsideTransact_gateKept (c : OutsideCall) : GateKept s (outsideTransact env s c) := by
  unfold outsideTransact
  cases hout : outsideCall env s c with
  | ok out =>
    cases c with
    | authorityStops now => exact requestAuthorityStops_gateKept hout
    | runnerRevoked now audited =>
      simp only [outsideCall, revokeRunner, bind_ok] at hout
      obtain ⟨mid, hmid, hlast⟩ := hout
      exact (revokeUnusedGrant_gateKept hmid).trans (stopInflight_gateKept hlast)
    | keyRotated now audited => exact revokeUnusedGrant_gateKept hout
    | reconcileRefund row ledger due => exact (reconcileRefund_frame hout).gateKept
    | reconcileCompensation row => exact (reconcileCompensation_frame hout).gateKept
  | error e => exact .refl s

/-! ### One gate -/

theorem gate_ok {answer : Gate} (h : gate env s = .ok (t, answer)) :
    ∃ approval grant row, Edits P R s row ∧
      storedOperationalAuthority env (discoveryLiveCheck env (env.now .liveCheck) s) =
        .ok (approval, grant) ∧
      (verificationDigestMatches env approval grant = true →
        row = discoveryLiveCheck env (env.now .liveCheck) s) ∧
      answer = gateAnswer env (!verificationDigestMatches env approval grant) row ∧
      t.run.status = row.run.status ∧ t.run.stopReason = row.run.stopReason ∧
      t.grant = row.grant ∧ t.run.binding = row.run.binding ∧
      t.run.lastGateAtMs = some answer.serverTimeMs := by
  simp only [gate, bind_ok, pure, Except.pure, Except.ok.injEq, Prod.mk.injEq] at h
  obtain ⟨⟨approval, grant⟩, hauthority, h, hanswer⟩ := h
  subst h
  refine ⟨approval, grant, _, ?_, hauthority, fun hmatch => ?_,
    hanswer.symm, rfl, rfl, rfl, rfl, ?_⟩
  · split
    · exact (discoveryLiveCheck_edits _).trans (persistAuthorityStop_edits .gateStop)
    · exact discoveryLiveCheck_edits _
  · simp [hmatch]
  · rw [← hanswer]

theorem gateAnswer_active {mismatch : Bool} (h : (gateAnswer env mismatch s).active = true) :
    s.run.status ∈ [Phase.claimed, .running, .finalizing] ∧ s.run.stopReason = .none ∧
      s.grant.status = .claimed ∧ env.now .gate < s.grant.expiresAt ∧ env.runnerStatus = .active ∧
      mismatch = false ∧ env.proofRevoked = false ∧ env.environmentStatus ≠ .revoked ∧
      env.proofExpiresAtMs.any (env.now .gate < ·) = true ∧ env.killActive = false ∧
      env.controlGeneration = s.run.binding.killSwitchGeneration := by
  simp only [gateAnswer, decide_eq_true_eq] at h
  obtain ⟨hstatus, hrunner, hproof, hgrant, hlive, hgeneration, hkill, hstop⟩ := h
  have hreason : s.run.stopReason = .none := by
    by_contra hne
    simp [hne] at hstop
  have hactive : env.runnerStatus = .active := by
    split at hrunner
    · exact hrunner
    · cases hrunner
  split at hproof
  · cases hproof
  · rename_i hvalid
    simp only [not_or, Bool.not_eq_true] at hvalid
    split at hproof
    · rename_i hunexpired
      exact ⟨hstatus, hreason, hgrant, hlive, hactive, hvalid.1, hvalid.2.1, hvalid.2.2,
        hunexpired, by simpa using hkill, hgeneration⟩
    · cases hproof

/-- A live check that leaves the run live and unstopped has found the authorization open. -/
theorem discoveryLiveCheck_open {now : Int} {round : RoundView} (hround : env.round = some round)
    (hstatus : (discoveryLiveCheck env now s).run.status ∈ [Phase.claimed, .running, .finalizing])
    (hstop : (discoveryLiveCheck env now s).run.stopReason = .none) :
    round.state = .opened ∧ now < round.expiresAtMs := by
  by_contra hclosed
  have hcheck : discoveryLiveCheck env now s = stopDiscoveryRound env now s := by
    simp only [discoveryLiveCheck, hround]
    rw [if_neg]
    rintro ⟨hopen, hlive⟩
    exact hclosed ⟨hopen, not_le.mp hlive⟩
  rw [hcheck] at hstatus hstop
  unfold stopDiscoveryRound at hstatus hstop
  by_cases happroved : s.run.status = .approved
  · rw [if_pos happroved] at hstatus
    split at hstatus
    · simp [RunDb.appendEvent, happroved] at hstatus
    · simp [happroved] at hstatus
  · rw [if_neg happroved] at hstatus hstop
    unfold persistDiscoveryStop at hstatus hstop
    by_cases hlive : s.run.stopReason = .none ∧
      s.run.status ∈ [Phase.claimed, .running, .finalizing]
    · rw [if_pos hlive] at hstop
      cases hstop
    · rw [if_neg hlive] at hstatus hstop
      exact hlive ⟨hstop, hstatus⟩

/-! ### The gates of a run -/

structure RunRound where
  authorizationId : String
  state : RoundState
  deriving DecidableEq, Repr

/-- The authorization as the live check finds it: of a round in state `issued` only. -/
def RunRound.view (rows : CanaryDb) (r : RunRound) : Option RoundView :=
  if r.state = .issued then
    (rows.authorization r.authorizationId).map fun a => ⟨a.state, a.expiresAtMs⟩
  else none

/-- A run with its discovery round, if it is one, and the rows of the authorizations. -/
structure GateDb where
  db : RunDb
  round : Option RunRound
  rows : CanaryDb
  deriving DecidableEq, Repr

/-- How a round moves beside its run: it is settled only once its run has ended. -/
inductive RoundMoves (runEnded : Prop) : Option RunRound → Option RunRound → Prop
  | scan : RoundMoves runEnded none none
  | round (r r' : RunRound) (hid : r'.authorizationId = r.authorizationId)
      (hs : r'.state = r.state ∨ runEnded) : RoundMoves runEnded (some r) (some r')

/-- The gate a call answers, if it commits. -/
def gateOf (P : Platform) (env : Env) (db : RunDb) : Call → Option Gate
  | .claim first => (claim env first db).toOption.bind Prod.snd
  | .heartbeat v => (heartbeat P env v db).toOption.map Prod.snd
  | _ => none

inductive GateAct where
  | call (c : Call)
  | outside (c : OutsideCall)
  | elsewhere

def gateAct (P : Platform) (env : Env) (db : RunDb) : GateAct → RunDb
  | .call c => transact P env db c
  | .outside c => outsideTransact env db c
  | .elsewhere => db

/-- Does the grant of a run end with the authorization of its round at the latest? -/
def EndsWithAuthorization (s : GateDb) (r : RunRound) : Prop :=
  ∃ a, s.rows.authorization r.authorizationId = some a ∧ s.db.grant.expiresAt ≤ a.expiresAtMs

/-- Every interleaving of the transactions on a run, those of the other writers of its rows, and the
calls on discovery authorizations. The grant of a round is issued to end with its authorization at
the latest. -/
def gates (P : Platform) : Transition GateDb (Env × GateAct) where
  init s := s.db.run.status = .approved ∧ (discovery P).Reachable s.rows ∧
    ∀ r, s.round = some r → r.state = .issued ∧ EndsWithAuthorization s r
  step s a t := a.1.round = s.round.bind (RunRound.view s.rows) ∧
    t.db = gateAct P a.1 s.db a.2 ∧
    (t.rows = s.rows ∨ (discovery P).Next s.rows t.rows) ∧
    RoundMoves (ended t.db.run.status = true) s.round t.round

/-- The authorizations of one database in a later one: with their expiry, and closed for good. -/
def AuthorizationsStay (db t : CanaryDb) : Prop :=
  ∀ a ∈ db.authorizations, ∃ a' ∈ t.authorizations, a'.authorizationId = a.authorizationId ∧
    a'.expiresAtMs = a.expiresAtMs ∧ (a.state ≠ .opened → a'.state = a.state)

theorem AuthorizationsStay.refl (db : CanaryDb) : AuthorizationsStay db db :=
  fun a ha => ⟨a, ha, rfl, rfl, fun _ => rfl⟩

theorem AuthorizationsStay.of_eq {db t : CanaryDb} (h : t.authorizations = db.authorizations) :
    AuthorizationsStay db t :=
  fun a ha => ⟨a, h ▸ ha, rfl, rfl, fun _ => rfl⟩

theorem AuthorizationsStay.trans {db t u : CanaryDb} (h : AuthorizationsStay db t)
    (h' : AuthorizationsStay t u) : AuthorizationsStay db u := by
  intro a ha
  obtain ⟨b, hb, hid, hexpires, hstate⟩ := h a ha
  obtain ⟨c, hc, hid', hexpires', hstate'⟩ := h' b hb
  refine ⟨c, hc, hid'.trans hid, hexpires'.trans hexpires, fun hne => ?_⟩
  have hb := hstate hne
  exact (hstate' (hb ▸ hne)).trans hb

/-- An update of authorizations that keeps their names and expiries, and the state of the closed. -/
theorem AuthorizationsStay.update {db t : CanaryDb} {p : Authorization → Bool}
    {f : Authorization → Authorization}
    (h : t.authorizations = Table.update p f db.authorizations)
    (hf : ∀ a ∈ db.authorizations, p a = true → (f a).authorizationId = a.authorizationId ∧
      (f a).expiresAtMs = a.expiresAtMs ∧ (a.state ≠ .opened → (f a).state = a.state)) :
    AuthorizationsStay db t := by
  intro a ha
  refine ⟨if p a then f a else a, h ▸ Table.mem_update.mpr ⟨a, ha, rfl⟩, ?_⟩
  split
  · exact hf a ha ‹_›
  · exact ⟨rfl, rfl, fun _ => rfl⟩

theorem DiscoveryEdit.authorizationsStay {db t : CanaryDb}
    (hids : (db.authorizations.map (·.authorizationId)).Nodup) (h : DiscoveryEdit db t) :
    AuthorizationsStay db t := by
  -- a close names one row, and that row was opened
  have hclose : ∀ a ∈ db.authorizations, a.state = .opened → ∀ o ∈ db.authorizations,
      decide (o.authorizationId = a.authorizationId) = true → o.state = .opened := by
    intro a ha hs o ho hkey
    rw [Table.eq_of_key hids ho ha (of_decide_eq_true hkey)]
    exact hs
  cases h with
  | aside hl ha hr hg => exact .of_eq ha
  | stop r => exact .of_eq (stopRun_stops db r).authorizations
  | create env q hfresh huniq =>
    exact fun a ha => ⟨a, List.mem_append_left _ ha, rfl, rfl, fun _ => rfl⟩
  | close a state reason now revokedBy ha hs hstate =>
    exact .update rfl fun o ho hkey => ⟨rfl, rfl, fun hne => absurd (hclose a ha hs o ho hkey) hne⟩
  | refund a state reason now revokedBy answer ledger ha hs hstate hn hq hl =>
    exact .update rfl fun o ho hkey => ⟨rfl, rfl, fun hne => absurd (hclose a ha hs o ho hkey) hne⟩
  | settle r terminalAtMs requestsCompleted hr hs =>
    exact .update rfl fun _ _ _ => ⟨rfl, rfl, fun _ => rfl⟩
  | bytes roundId id received => exact .update rfl fun _ _ _ => ⟨rfl, rfl, fun _ => rfl⟩

theorem DiscoveryEdits.authorizationsStay {db t : CanaryDb} (hinv : DiscoveryInv db)
    (h : DiscoveryEdits db t) : AuthorizationsStay db t := by
  induction h with
  | refl => exact .refl db
  | tail hedits hedit ih => exact ih.trans (hedit.authorizationsStay (hinv.edits hedits).ids)

theorem Issues.authorizationsStay {db t : CanaryDb} {a : Authorization} {r : Round}
    (h : Issues db t a r) : AuthorizationsStay db t := by
  rcases h.counted with ⟨-, -, _, -, -, ht⟩ | ⟨-, -, ht⟩
  · exact .update ht fun _ _ _ => ⟨rfl, rfl, fun _ => rfl⟩
  · exact .update ht fun _ _ _ => ⟨rfl, rfl, fun _ => rfl⟩

/-- No step gives an authorization more time or opens a closed one. -/
theorem authorizations_stay {db t : CanaryDb} (hs : (discovery P).Reachable db)
    (h : (discovery P).Next db t) : AuthorizationsStay db t := by
  obtain ⟨label, h⟩ := h
  cases label with
  | call c =>
    obtain ⟨hfresh, rfl⟩ := h
    rcases discoveryTransact_ok (discovery_inv hs) hfresh with
      hedits | ⟨env, b, plan, a, r, -, hissue, -⟩
    · exact hedits.authorizationsStay (discovery_inv hs)
    · exact hissue.authorizationsStay
  | elsewhere => exact .of_eq h.1

theorem AuthorizationsStay.authorization {db t : CanaryDb} (h : AuthorizationsStay db t)
    (hids : (t.authorizations.map (·.authorizationId)).Nodup) {id : String} {a : Authorization}
    (ha : db.authorization id = some a) :
    ∃ a', t.authorization id = some a' ∧ a'.expiresAtMs = a.expiresAtMs := by
  have hid : a.authorizationId = id := by simpa using List.find?_some ha
  obtain ⟨a', ha', hsame, hexpires, -⟩ := h a (List.mem_of_find?_eq_some ha)
  refine ⟨a', ?_, hexpires⟩
  rw [← hid, ← hsame]
  exact Table.find_key hids ha'

/-- What holds of a run, its round and the authorizations. -/
structure RoundInv (P : Platform) (s : GateDb) : Prop where
  rows : (discovery P).Reachable s.rows
  ends : ∀ r, s.round = some r → EndsWithAuthorization s r
  settled : ∀ r, s.round = some r → r.state ≠ .issued → ended s.db.run.status = true

variable {a b c : GateDb}

theorem gates_step_kept {label : Env × GateAct} (h : (gates P).step a label b) :
    GateKept a.db b.db := by
  obtain ⟨-, hdb, -⟩ := h
  rw [hdb]
  cases label.2 with
  | call c => exact transact_gateKept c
  | outside c => exact outsideTransact_gateKept c
  | elsewhere => exact .refl a.db

theorem gates_inv (hs : (gates P).Reachable a) : RoundInv P a := by
  refine (gates P).invariant (P := RoundInv P) ?_ ?_ hs
  · rintro s ⟨-, hrows, hround⟩
    exact ⟨hrows, fun r hr => (hround r hr).2, fun r hr hne => absurd (hround r hr).1 hne⟩
  · intro s label t hs h
    have hkept := gates_step_kept h
    obtain ⟨-, -, hrows, hmoves⟩ := h
    have hreach : (discovery P).Reachable t.rows := by
      rcases hrows with hsame | ⟨label, hnext⟩
      · exact hsame ▸ hs.rows
      · exact .step hs.rows hnext
    have hstay : AuthorizationsStay s.rows t.rows := by
      rcases hrows with hsame | hnext
      · exact .of_eq (by rw [hsame])
      · exact authorizations_stay hs.rows hnext
    refine ⟨hreach, fun r' hr' => ?_, fun r' hr' hne => ?_⟩
    · rw [hr'] at hmoves
      generalize hsr : s.round = before at hmoves
      cases hmoves with
      | round r _ hid hstate =>
        obtain ⟨auth, hauth, hexpires⟩ := hs.ends r hsr
        obtain ⟨auth', hauth', hsame⟩ := hstay.authorization (discovery_inv hreach).ids hauth
        exact ⟨auth', by rw [hid]; exact hauth', by rw [hkept.expiresAt, hsame]; exact hexpires⟩
    · rw [hr'] at hmoves
      generalize hsr : s.round = before at hmoves
      cases hmoves with
      | round r _ hid hstate =>
        rcases hstate with hsame | hend
        · exact hkept.ended (hs.settled r hsr (hsame ▸ hne))
        · exact hend

theorem gates_later_kept (hs : (gates P).Reachable a) (h : (gates P).Later a b) :
    GateKept a.db b.db :=
  Transition.later_rel (gates P) (R := fun s t => GateKept s.db t.db) (fun s => .refl s.db)
    (fun _ _ _ => GateKept.trans) (fun _ _ _ _ h => gates_step_kept h) hs h

theorem gateOf_gate {c : Call} {answer : Gate} (h : gateOf P env s c = some answer) :
    ∃ mid, Edits P (fun _ => True) s mid ∧ gate env mid = .ok (transact P env s c, answer) := by
  cases c with
  | claim first =>
    simp only [gateOf] at h
    cases hc : claim env first s with
    | error e => simp [hc, Except.toOption] at h
    | ok out =>
      obtain ⟨db, gate'⟩ := out
      simp only [hc, Except.toOption, Option.bind_some] at h
      subst h
      have hout : transact P env s (.claim first) = db := by
        simp [transact, call, hc, Functor.map, Except.map]
      obtain ⟨mid, hmid, ⟨-, hnone⟩ | ⟨g, hg, hgate⟩⟩ :=
        claim_gate (P := P) (R := fun _ => True) hc
      · cases hnone
      · cases hg
        exact ⟨mid, hmid, hout ▸ hgate⟩
  | heartbeat v =>
    simp only [gateOf] at h
    cases hc : heartbeat P env v s with
    | error e => simp [hc, Except.toOption] at h
    | ok out =>
      obtain ⟨db, gate'⟩ := out
      simp only [hc, Except.toOption, Option.map_some, Option.some.injEq] at h
      subst h
      have hout : transact P env s (.heartbeat v) = db := by
        simp [transact, call, hc, Functor.map, Except.map]
      rw [hout]
      exact heartbeat_gate hc
  | _ => cases h

/-- What an active gate vouches for: the rows of the run and the grant, the proof and the
controls in its environment, and the authorization of the round it found. -/
structure Backed (env : Env) (rows : CanaryDb) (round : Option RunRound) (db : RunDb) : Prop where
  status : db.run.status ∈ [Phase.claimed, .running, .finalizing]
  unstopped : db.run.stopReason = .none
  claimed : db.grant.status = .claimed
  unexpired : env.now .gate < db.grant.expiresAt
  runner : env.runnerStatus = .active
  proof : env.proofRevoked = false ∧ env.environmentStatus ≠ .revoked ∧
    env.proofExpiresAtMs.any (env.now .gate < ·) = true
  digest : ∃ grant, db.grant.grantJson = some grant ∧
    env.verificationRecordDigest = some grant.environment.verificationRecordDigest
  control : env.killActive = false ∧ env.controlGeneration = db.run.binding.killSwitchGeneration
  round : ∀ r, round = some r → ∃ a, rows.authorization r.authorizationId = some a ∧
    a.state = .opened ∧ env.now .gate < a.expiresAtMs

theorem storedOperationalAuthority_grant {approval : Approval} {grant : Grant}
    (h : storedOperationalAuthority env s = .ok (approval, grant)) :
    s.grant.grantJson = some grant := by
  unfold storedOperationalAuthority at h
  split at h
  · rename_i hgrant
    simp only [bind_ok, require_ok, exists_const] at h
    obtain ⟨-, h⟩ := h
    cases h
    exact hgrant
  · cases h

/-- An active gate is backed, on a run whose round is settled only after it. -/
theorem gate_backed (P : Platform) {answer : Gate} {rows : CanaryDb} {round : Option RunRound}
    (h : gate env s = .ok (t, answer)) (ha : answer.active = true)
    (hview : env.round = round.bind (RunRound.view rows))
    (hround : ∀ r, round = some r → EndsWithAuthorization ⟨s, round, rows⟩ r ∧
      (r.state ≠ .issued → Cloud.ended s.run.status = true)) : Backed env rows round t := by
  obtain ⟨approval, grant, row, hedits, hauthority, hrow, rfl, hstatus, hstop, hgrant, hbinding,
    -⟩ := gate_ok (P := P) (R := fun _ => True) h
  have hkept := hedits.gateKept
  obtain ⟨hlive, hnone, hclaimed, hunexpired, hrunner, hmatch, hproof, henvironment, hvalid, hkill,
    hgeneration⟩ := gateAnswer_active ha
  simp only [Bool.not_eq_eq_eq_not, Bool.not_false] at hmatch
  have hcheck := hrow hmatch
  subst hcheck
  simp only [verificationDigestMatches, decide_eq_true_eq] at hmatch
  refine ⟨hstatus ▸ hlive, hstop.trans hnone, by rw [hgrant, hclaimed], hgrant ▸ hunexpired,
    hrunner, ⟨hproof, henvironment, hvalid⟩, ⟨grant, ?_, hmatch.2⟩,
    ⟨hkill, by rw [hbinding, hgeneration]⟩, fun r hr => ?_⟩
  · rw [hgrant]
    exact storedOperationalAuthority_grant hauthority
  · obtain ⟨⟨auth, hauth, hexpires⟩, hsettled⟩ := hround r hr
    have hissued : r.state = .issued := by
      by_contra hne
      have hended := hkept.ended (hsettled hne)
      simp [live_ended hlive] at hended
    have hopen : env.round = some ⟨auth.state, auth.expiresAtMs⟩ := by
      rw [hview, hr]
      simp [RunRound.view, hissued, hauth]
    refine ⟨auth, hauth, (discoveryLiveCheck_open hopen hlive hnone).1, ?_⟩
    -- the grant never outlives the authorization, so the later reading of the clock is covered
    calc env.now .gate < s.grant.expiresAt := hkept.expiresAt ▸ hunexpired
      _ ≤ auth.expiresAtMs := hexpires

theorem gate_later (P : Platform) {answer : Gate} {previous : Int}
    (h : gate env s = .ok (t, answer))
    (hprevious : s.run.lastGateAtMs = some previous) : previous < answer.serverTimeMs := by
  obtain ⟨approval, grant, row, hedits, -, -, rfl, -⟩ :=
    gate_ok (P := P) (R := fun _ => True) h
  obtain ⟨last, hlast, hle⟩ := hedits.gateKept.lastGate previous hprevious
  exact hle.trans_lt (gateAnswer_later last hlast)

/-- Gates of one run: an active one is backed by the rows at its moment, later ones carry later
server times, and none is active after a gate that carried a recorded stop. -/
theorem gates_never_reopen {env : Env} {c : Call} {answer : Gate} (ha : (gates P).Reachable a)
    (hstep : (gates P).step a (env, .call c) b) (hgate : gateOf P env a.db c = some answer) :
    (answer.active = true → Backed env a.rows a.round b.db) ∧
    ∀ u v env' c' answer', (gates P).Later b u → (gates P).step u (env', .call c') v →
      gateOf P env' u.db c' = some answer' →
      answer.serverTimeMs < answer'.serverTimeMs ∧
      (answer.stopReason ≠ .none → b.db.run.stopReason = answer.stopReason →
        answer'.active = false) := by
  obtain ⟨mid, hedits, hanswer⟩ := gateOf_gate hgate
  have hb : transact P env a.db c = b.db := hstep.2.1.symm
  rw [hb] at hanswer
  refine ⟨fun hactive => ?_, fun u v env' c' answer' hlater hstep' hgate' => ?_⟩
  · have hinv := gates_inv ha
    refine gate_backed P hanswer hactive hstep.1 fun r hr => ⟨?_, ?_⟩
    · obtain ⟨auth, hauth, hexpires⟩ := hinv.ends r hr
      exact ⟨auth, hauth, by rw [hedits.gateKept.expiresAt]; exact hexpires⟩
    · exact fun hne => hedits.gateKept.ended (hinv.settled r hr hne)
  · have hreach : (gates P).Reachable b := .step ha hstep
    have hkept := gates_later_kept hreach hlater
    obtain ⟨mid', hedits', hanswer'⟩ := gateOf_gate hgate'
    have hmid := hkept.trans hedits'.gateKept
    obtain ⟨-, -, -, -, -, -, -, -, -, -, -, hlast⟩ := gate_ok (P := P) (R := fun _ => True) hanswer
    obtain ⟨last, hlast', hle⟩ := hmid.lastGate _ hlast
    refine ⟨hle.trans_lt (gate_later P hanswer' hlast'), fun hne hrecorded => ?_⟩
    by_contra hactive
    simp only [Bool.not_eq_false] at hactive
    obtain ⟨approval, grant, row, hrow, -, -, rfl, -⟩ :=
      gate_ok (P := P) (R := fun _ => True) hanswer'
    have hstopped := (hmid.trans hrow.gateKept).stopped (hrecorded ▸ hne)
    exact hstopped (gateAnswer_active hactive).2.1

/-- The run of a discovery round, beside the rows its authorization is in. -/
def roundRun : GateDb := ⟨sampleRound, some ⟨"authorization_1", .issued⟩, discoveringDb⟩

/-- The sample environment as a call on that round finds it, whose clock is read again `late`. -/
def openEnv (now late : Int) : Env :=
  { sampleEnv now with
    now := fun reading => if reading = .start then now else late
    round := some ⟨.opened, 901000⟩ }

def roundClaimed (late : Int) : GateDb :=
  { roundRun with db := transact textPlatform (openEnv 2000 late) sampleRound (.claim true) }

theorem roundRun_authorization : ∃ a, discoveringDb.authorization "authorization_1" = some a ∧
    a.state = .opened ∧ a.expiresAtMs = 901000 := by
  rw [discoveringDb, authorizedDb_rows]
  exact ⟨_, rfl, rfl, rfl⟩

theorem roundRun_reachable : (gates textPlatform).Reachable roundRun := by
  refine .init ⟨rfl, discoveringDb_reachable, ?_⟩
  rintro r ⟨⟩
  obtain ⟨a, ha, -, hexpires⟩ := roundRun_authorization
  refine ⟨rfl, a, ha, ?_⟩
  rw [hexpires]
  decide

theorem roundRun_claim (late : Int) : (gates textPlatform).step roundRun
    (openEnv 2000 late, .call (.claim true)) (roundClaimed late) := by
  refine ⟨?_, rfl, .inl rfl, .round _ _ rfl (.inl rfl)⟩
  obtain ⟨a, ha, hopen, hexpires⟩ := roundRun_authorization
  simp only [openEnv, roundRun, Option.bind_some, RunRound.view, ha, if_true, Option.map_some,
    hopen,
    hexpires]

/-- A claim in time answers an active gate, which the rows back and later gates follow in time; a
claim in which the authorization falls due answers one with the stop, and no later gate
is active. -/
theorem gates_never_reopen_sample :
    (Backed (openEnv 2000 2000) discoveringDb roundRun.round (roundClaimed 2000).db ∧
      ∀ u v env c answer, (gates textPlatform).Later (roundClaimed 2000) u →
        (gates textPlatform).step u (env, .call c) v →
        gateOf textPlatform env u.db c = some answer → 2000 < answer.serverTimeMs) ∧
    ∀ u v env c answer, (gates textPlatform).Later (roundClaimed 950000) u →
      (gates textPlatform).step u (env, .call c) v →
      gateOf textPlatform env u.db c = some answer → answer.active = false := by
  have htime : gateOf textPlatform (openEnv 2000 2000) sampleRound (.claim true) =
      some ⟨true, .active, .valid, 10000000, 1, .none, 2000⟩ := by
    decide
  have hlate : gateOf textPlatform (openEnv 2000 950000) sampleRound (.claim true) =
      some ⟨false, .active, .valid, 10000000, 1, .cloudStop, 950000⟩ := by
    decide
  obtain ⟨hbacked, hlater⟩ := gates_never_reopen roundRun_reachable (roundRun_claim 2000) htime
  obtain ⟨-, hstopped⟩ := gates_never_reopen roundRun_reachable (roundRun_claim 950000) hlate
  refine ⟨⟨hbacked rfl, ?_⟩, ?_⟩
  · intro u v env c answer hu hstep hanswer
    exact (hlater u v env c answer hu hstep hanswer).1
  · intro u v env c answer hu hstep hanswer
    exact (hstopped u v env c answer hu hstep hanswer).2 (by decide) (by decide)

end Heel.Cloud
