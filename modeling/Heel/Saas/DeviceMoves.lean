import Heel.Saas.DeviceAuth

/-! What one call of the device store does to its tables, and what it is a witness of. -/
namespace Heel.Cloud
open Lib

/-- What happened, as far as the life of grants and families is concerned. -/
inductive DeviceEvent where
  | started (grantId challenge : String)
  | inspected (grantId userId nonce : String) (expiresAt : ℚ)
  | decided (grantId userId nonce : String) (workspaceId : Option String) (instant : ℚ)
  | exchanged (grantId verifier familyId : String)
  | refreshed (familyId : String)
  | reused (familyId : String)
  | revoked (familyId : String)
  | resolved (familyId : String)
  deriving DecidableEq, Repr

inductive DeviceCall where
  | start (q : StartRequest)
  | poll (deviceCode verifier : String)
  | inspect (userCode userId : String)
  | decide (d : DeviceDecision)
  | exchange (deviceCode verifier : String)
  | refresh (refreshToken : String)
  | revoke (refreshToken : String)
  | resolve (accessToken : String)

structure DeviceWorld where
  conn : Connection DeviceDb := .clean {}
  history : List DeviceEvent := []

/-- One call: the events are read off the tables before and after, and off its answer. -/
def DeviceWorld.run {α : Type} (w : DeviceWorld) (op : DeviceSession α)
    (events : DeviceDb → DeviceDb → Except DeviceError α → List DeviceEvent) : DeviceWorld where
  conn := (op w.conn).1
  history := w.history ++ events w.conn.working (op w.conn).1.working (op w.conn).2

variable (K : DeviceKeys) (fresh : DeviceDraws) (now : ℚ)

def startEvents (old new : DeviceDb) (_ : Except DeviceError DeviceStart) : List DeviceEvent :=
  (new.authorizations.drop old.authorizations.length).map fun a =>
    .started a.grantId a.deviceChallenge

def inspectEvents (userCode userId : String) (old _ : DeviceDb) :
    Except DeviceError DeviceClaim → List DeviceEvent
  | .ok claim => (old.byUserCode K userCode).toList.map fun row =>
    .inspected row.grantId userId claim.confirmationNonce (min row.expiresAt (now + 300))
  | .error _ => []

def decideEvents (d : DeviceDecision) (old _ : DeviceDb) :
    Except DeviceError Unit → List DeviceEvent
  | .ok _ => (old.byUserCode K d.userCode).toList.map fun row =>
    .decided row.grantId d.userId d.nonce d.workspaceId now
  | .error _ => []

def exchangeEvents (deviceCode verifier : String) (old _ : DeviceDb) :
    Except DeviceError DeviceTokens → List DeviceEvent
  | .ok _ => (old.authorization K deviceCode).toList.map fun row =>
    .exchanged row.grantId verifier fresh.familyId
  | .error _ => []

def refreshEvents (refreshToken : String) (old new : DeviceDb)
    (answer : Except DeviceError DeviceTokens) : List DeviceEvent :=
  (old.refreshRow K refreshToken).toList.flatMap fun found =>
    match answer with
    | .ok _ => [.refreshed found.1.familyId]
    | .error .reuseDetected => [.reused found.1.familyId]
    | .error _ => if new = old then [] else [.revoked found.1.familyId]

def revokeEvents (refreshToken : String) (old _ : DeviceDb) (_ : Except DeviceError Unit) :
    List DeviceEvent :=
  if hasForm "heel_rt_" 64 refreshToken then
    (old.refresh.find? fun r =>
      r.tokenHash = K.hash "refresh-token" refreshToken).toList.map fun row => .revoked row.familyId
  else []

def resolveEvents (accessToken : String) (old _ : DeviceDb) :
    Except DeviceError (Option DevicePrincipal) → List DeviceEvent
  | .ok (some _) => (old.liveAccess K now accessToken).toList.map fun c => .resolved c.familyId
  | _ => []

def DeviceWorld.call (w : DeviceWorld) : DeviceCall → DeviceWorld
  | .start q => w.run (startDevice K fresh now q) startEvents
  | .poll deviceCode verifier => w.run (pollDevice K now deviceCode verifier) fun _ _ _ => []
  | .inspect userCode userId =>
    w.run (inspectDevice K fresh now userCode userId) (inspectEvents K now userCode userId)
  | .decide d => w.run (decideDevice K now d) (decideEvents K now d)
  | .exchange deviceCode verifier =>
    w.run (exchangeDevice K fresh now deviceCode verifier)
      (exchangeEvents K fresh deviceCode verifier)
  | .refresh refreshToken =>
    w.run (refreshDevice K fresh now refreshToken) (refreshEvents K refreshToken)
  | .revoke refreshToken => w.run (revokeDevice K now refreshToken) (revokeEvents K refreshToken)
  | .resolve accessToken =>
    w.run (resolveAccess K now accessToken) (resolveEvents K now accessToken)

/-! ### Moves -/

/-- A row that is polled, or found to be out of time. -/
structure Touched (a b : DeviceAuthorization) : Prop where
  grantId : b.grantId = a.grantId
  challenge : b.deviceChallenge = a.deviceChallenge
  inspectedBy : b.inspectedBy = a.inspectedBy
  nonceHash : b.confirmationNonceHash = a.confirmationNonceHash
  nonceExpires : b.confirmationExpiresAt = a.confirmationExpiresAt
  status : b.status = a.status ∨ b.status = .expired

structure Pair (deviceId familyId : String) (absoluteExpiresAt : ℚ) (a : AccessToken)
    (r : RefreshToken) : Prop where
  access : a.deviceId = deviceId
  refresh : r.deviceId = deviceId
  family : r.familyId = familyId
  absolute : r.absoluteExpiresAt = absoluteExpiresAt
  live : a.revokedAt = none
  unconsumed : r.consumedAt = none

inductive DeviceMove (K : DeviceKeys) (s : DeviceDb) : List DeviceEvent → DeviceDb → Prop
  | idle : DeviceMove K s [] s
  | started (row : DeviceAuthorization) (hclash : ∀ a ∈ s.authorizations, a.grantId ≠ row.grantId)
    (hpending : row.status = .pending) (hnonce : row.confirmationNonceHash = none) :
    DeviceMove K s [.started row.grantId row.deviceChallenge]
      { s with authorizations := s.authorizations ++ [row] }
  | touched (grantId : String) (f : DeviceAuthorization → DeviceAuthorization)
    (hf : ∀ a, Touched a (f a)) : DeviceMove K s [] (updateGrant grantId f s)
  | inspected (row : DeviceAuthorization) (userId nonce : String) (expiresAt : ℚ)
    (hrow : row ∈ s.authorizations) (hpending : row.status = .pending) :
    DeviceMove K s [.inspected row.grantId userId nonce expiresAt]
      (updateGrant row.grantId (fun a => { a with
        inspectedBy := some userId
        confirmationNonceHash := some (K.hash "confirmation-nonce" nonce)
        confirmationExpiresAt := some expiresAt }) s)
  | decided (row : DeviceAuthorization) (d : DeviceDecision) (now : ℚ)
    (hrow : row ∈ s.authorizations) (hformed : d.wellFormed = true)
    (hdecidable : decidable K now d row = true) :
    DeviceMove K s [.decided row.grantId d.userId d.nonce d.workspaceId now]
      (updateGrant row.grantId (fun a => { a with
        status := if d.action = "approve" then .approved else .denied
        confirmationNonceHash := none
        confirmationExpiresAt := none
        approvedUserId := some d.userId
        workspaceId := d.workspaceId
        approvedAt := if d.action = "approve" then some now else none }) s)
  | exchanged (row : DeviceAuthorization) (verifier : String) (now : ℚ) (c : DeviceCredential)
    (a : AccessToken) (r : RefreshToken) (hrow : row ∈ s.authorizations)
    (hproof : K.challengeOf verifier = row.deviceChallenge) (happroved : row.status = .approved)
    (hclash : ∀ o ∈ s.credentials, o.deviceId ≠ c.deviceId ∧ o.familyId ≠ c.familyId)
    (hlive : c.revokedAt = none)
    (hpair : Pair c.deviceId c.familyId c.refreshAbsoluteExpiresAt a r) :
    DeviceMove K s [.exchanged row.grantId verifier c.familyId]
      (updateGrant row.grantId (fun o => { o with status := .consumed, consumedAt := some now })
        { s with
          credentials := s.credentials ++ [c]
          access := s.access ++ [a]
          refresh := s.refresh ++ [r] })
  | refreshed (row : RefreshToken) (c : DeviceCredential) (now : ℚ) (a : AccessToken)
    (r : RefreshToken) (hrow : row ∈ s.refresh) (hc : c ∈ s.credentials)
    (hdevice : c.deviceId = row.deviceId) (hconsumed : row.consumedAt = none)
    (hlive : c.revokedAt = none)
    (hpair : Pair row.deviceId c.familyId row.absoluteExpiresAt a r) :
    DeviceMove K s [.refreshed row.familyId] { rotateRefresh now row s with
      access := (rotateRefresh now row s).access ++ [a]
      refresh := (rotateRefresh now row s).refresh ++ [r] }
  | ended (row : RefreshToken) (now : ℚ) (e : DeviceEvent) (hrow : row ∈ s.refresh)
    (he : e = .reused row.familyId ∨ e = .revoked row.familyId) :
    DeviceMove K s [e] (revokeFamily now row.familyId s)
  | resolved (c : DeviceCredential) (hc : c ∈ s.credentials) (hlive : c.revokedAt = none) :
    DeviceMove K s [.resolved c.familyId] s

/-- A call from a clean connection leaves a clean one, and makes a move. -/
def Moves {α : Type} (K : DeviceKeys) (op : DeviceSession α)
    (events : DeviceDb → DeviceDb → Except DeviceError α → List DeviceEvent) : Prop :=
  ∀ s, ∃ t, (op (.clean s)).1 = .clean t ∧ DeviceMove K s (events s t (op (.clean s)).2) t

variable {K fresh now}

theorem startOnce_cases (K : DeviceKeys) (now : ℚ) (q : StartRequest)
    (draw : String × String × String) (s : DeviceDb) :
    (∃ e, startOnce K now q draw (.clean s) = (.clean s, .error e)) ∨
    authorizationClash (newAuthorization K now q draw) s = false ∧
      startOnce K now q draw (.clean s) = (.clean { s with
        authorizations := s.authorizations ++ [newAuthorization K now q draw] },
        .ok { deviceCode := draw.2.1, userCode := draw.2.2 }) := by
  unfold startOnce
  rw [Session.run_transaction]
  simp only [Session.run_read, Session.run_demand, Session.run_insert, Session.run_commit,
    Session.run_pure, Connection.working_clean]
  cases startAllowed now q s with
  | false => exact .inl ⟨_, rfl⟩
  | true =>
    cases hclash : authorizationClash (newAuthorization K now q draw) s with
    | true => exact .inl ⟨_, rfl⟩
    | false => exact .inr ⟨rfl, rfl⟩

theorem startTries_moves (q : StartRequest) (draws : List (String × String × String)) :
    Moves K (startTries K now q draws) startEvents := by
  intro s
  induction draws with
  | nil =>
    refine ⟨s, rfl, ?_⟩
    simp only [startEvents, List.drop_length, List.map_nil]
    exact .idle
  | cons draw rest ih =>
    unfold startTries
    rcases startOnce_cases K now q draw s with ⟨e, h⟩ | ⟨hclash, h⟩
    · rw [h]
      split
      · rename_i heq
        cases heq
        exact ih
      · refine ⟨s, rfl, ?_⟩
        simp only [startEvents, List.drop_length, List.map_nil]
        exact .idle
    · rw [h]
      refine ⟨_, rfl, ?_⟩
      simp only [startEvents, List.drop_left, List.map_cons, List.map_nil]
      refine .started _ (fun a ha => ?_) rfl rfl
      simp only [authorizationClash, List.any_eq_false, decide_eq_true_eq, not_or] at hclash
      exact (hclash a ha).1

theorem startDevice_moves (q : StartRequest) : Moves K (startDevice K fresh now q) startEvents := by
  intro s
  unfold startDevice
  simp only [Session.run_demand]
  have hidle : ∀ r, DeviceMove K s (startEvents s s r) s := by
    intro r
    simp only [startEvents, List.drop_length, List.map_nil]
    exact .idle
  cases validDeviceName K q.deviceName with
  | false => exact ⟨s, rfl, hidle _⟩
  | true =>
    cases hasForm "" 43 q.deviceChallenge with
    | false => exact ⟨s, rfl, hidle _⟩
    | true =>
      cases isClientKey q.clientKey with
      | false => exact ⟨s, rfl, hidle _⟩
      | true => exact startTries_moves q fresh.starts s

theorem pollDevice_moves (deviceCode verifier : String) :
    Moves K (pollDevice K now deviceCode verifier) fun _ _ _ => [] := by
  intro s
  unfold pollDevice
  simp only [Session.run_read, Connection.working_clean]
  rcases (s.authorization K deviceCode).filter _ with _ | row
  · exact ⟨s, rfl, .idle⟩
  · dsimp only
    by_cases hlate : row.expiresAt < now
    · rw [if_pos hlate]
      exact ⟨_, rfl, .touched _ _ fun a => ⟨rfl, rfl, rfl, rfl, rfl, .inr rfl⟩⟩
    · rw [if_neg hlate]
      by_cases hsoon : row.lastPolledAt.any (now - · < row.pollInterval) = true
      · rw [if_pos hsoon]
        exact ⟨_, rfl, .touched _ _ fun a => ⟨rfl, rfl, rfl, rfl, rfl, .inl rfl⟩⟩
      · rw [if_neg hsoon]
        exact ⟨_, rfl, .touched _ _ fun a => ⟨rfl, rfl, rfl, rfl, rfl, .inl rfl⟩⟩

theorem byUserCode_mem {s : DeviceDb} {userCode : String} {row : DeviceAuthorization}
    (h : s.byUserCode K userCode = some row) : row ∈ s.authorizations :=
  List.mem_of_find?_eq_some h

theorem deviceAuthorization_mem {s : DeviceDb} {deviceCode : String} {row : DeviceAuthorization}
    (h : s.authorization K deviceCode = some row) : row ∈ s.authorizations := by
  unfold DeviceDb.authorization at h
  split at h
  · exact List.mem_of_find?_eq_some h
  · cases h

theorem inspectDevice_moves (userCode userId : String) :
    Moves K (inspectDevice K fresh now userCode userId) (inspectEvents K now userCode userId) := by
  intro s
  unfold inspectDevice
  simp only [Session.run_demand, Session.run_read, Connection.working_clean]
  cases isUserCode userCode with
  | false => exact ⟨s, rfl, .idle⟩
  | true =>
    rcases hfound : (s.byUserCode K userCode).filter _ with _ | row
    · exact ⟨s, rfl, .idle⟩
    · obtain ⟨hrow, hpending⟩ := Option.filter_eq_some_iff.mp hfound
      rw [cond_true]
      dsimp only
      by_cases hlate : row.expiresAt < now
      · rw [if_pos hlate]
        exact ⟨_, rfl, .touched _ _ fun a => ⟨rfl, rfl, rfl, rfl, rfl, .inr rfl⟩⟩
      · rw [if_neg hlate]
        refine ⟨_, rfl, ?_⟩
        simp only [Session.run_write, Session.run_commit, Session.run_pure, inspectEvents, hrow,
          Option.toList_some, List.map_cons, List.map_nil, Connection.working_clean]
        exact .inspected row userId fresh.nonce _ (byUserCode_mem hrow) (of_decide_eq_true hpending)

theorem decideDevice_moves (d : DeviceDecision) :
    Moves K (decideDevice K now d) (decideEvents K now d) := by
  intro s
  unfold decideDevice
  simp only [Session.run_demand]
  cases hformed : d.wellFormed with
  | false => exact ⟨s, rfl, .idle⟩
  | true =>
    rw [cond_true, Session.run_transaction]
    simp only [Session.run_read, Connection.working_clean]
    rcases hfound : (s.byUserCode K d.userCode).filter _ with _ | row
    · exact ⟨s, rfl, .idle⟩
    · obtain ⟨hrow, hdecidable⟩ := Option.filter_eq_some_iff.mp hfound
      refine ⟨_, rfl, ?_⟩
      have hevents : ∀ t, decideEvents K now d s t (.ok ()) =
          [.decided row.grantId d.userId d.nonce d.workspaceId now] := by
        intro t
        simp only [decideEvents, hrow, Option.toList_some, List.map_cons, List.map_nil]
      exact (hevents _).symm ▸ .decided row d now (byUserCode_mem hrow) hformed hdecidable

/-! ### Credentials -/

theorem mintPair_cases (K : DeviceKeys) (fresh : DeviceDraws) (now : ℚ)
    (deviceId workspaceId : String) (absoluteExpiresAt : ℚ)
    (c : Connection DeviceDb) :
    (∃ e, (mintPair K fresh now deviceId workspaceId absoluteExpiresAt c).2 = .error e ∧
      e ≠ .reuseDetected ∧
      (mintPair K fresh now deviceId workspaceId absoluteExpiresAt c).1.committed = c.committed) ∨
    ∃ credential a r tokens, c.working.credentials.find? (fun o => o.deviceId = deviceId) =
        some credential ∧
      Pair deviceId credential.familyId absoluteExpiresAt a r ∧
      mintPair K fresh now deviceId workspaceId absoluteExpiresAt c =
        ({ c with working := { c.working with
          access := c.working.access ++ [a], refresh := c.working.refresh ++ [r] } },
          .ok tokens) := by
  unfold mintPair
  simp only [Session.run_read]
  rcases hfound : c.working.credentials.find? _ with _ | credential
  · exact .inl ⟨_, rfl, by decide, rfl⟩
  · simp only [Session.run_insert, Session.run_pure]
    cases c.working.access.any _ with
    | true => exact .inl ⟨_, rfl, by decide, rfl⟩
    | false =>
      cases c.working.refresh.any _ with
      | true => exact .inl ⟨_, rfl, by decide, rfl⟩
      | false => exact .inr ⟨credential, _, _, _, rfl, ⟨rfl, rfl, rfl, rfl, rfl, rfl⟩, rfl⟩

theorem mintPair_keeps (deviceId workspaceId : String) (absoluteExpiresAt : ℚ) :
    Session.Keeps (mintPair K fresh now deviceId workspaceId absoluteExpiresAt) := by
  unfold mintPair
  refine .bind (.read _) fun found => ?_
  cases found with
  | none => exact .raise _
  | some credential =>
    exact .bind (.insert _ _ _) fun _ => .bind (.insert _ _ _) fun _ => .pure _

theorem exchangeBody_keeps (K : DeviceKeys) (fresh : DeviceDraws) (now : ℚ)
    (deviceCode verifier : String) :
    Session.Keeps (exchangeBody K fresh now deviceCode verifier) := by
  unfold exchangeBody
  refine .bind (.read _) fun found => ?_
  cases found with
  | none => exact .raise _
  | some row =>
    dsimp only
    split
    · exact .raise _
    · split
      · exact .bind (.insert _ _ _) fun _ =>
          .bind (mintPair_keeps _ _ _) fun _ => .bind (.write _) fun _ => .pure _
      · exact .raise _

theorem exchangeBody_cases (K : DeviceKeys) (fresh : DeviceDraws) (now : ℚ)
    (deviceCode verifier : String) (s : DeviceDb) :
    (∃ e, (exchangeBody K fresh now deviceCode verifier (.clean s)).2 = .error e) ∨
    ∃ row t tokens, s.authorization K deviceCode = some row ∧
      exchangeBody K fresh now deviceCode verifier (.clean s) = (⟨t, s⟩, .ok tokens) ∧
      DeviceMove K s [.exchanged row.grantId verifier fresh.familyId] t := by
  unfold exchangeBody
  simp only [Session.run_read, Connection.working_clean]
  rcases hfound : (s.authorization K deviceCode).filter _ with _ | row
  · exact .inl ⟨_, rfl⟩
  · obtain ⟨hrow, hproof⟩ := Option.filter_eq_some_iff.mp hfound
    dsimp only
    rcases hrefusal : exchangeRefusal now row with _ | e
    · have happroved : row.status = .approved := by
        unfold exchangeRefusal at hrefusal
        split at hrefusal
        · cases hrefusal
        · split at hrefusal
          all_goals first | assumption | cases hrefusal
      dsimp only
      rcases row.approvedUserId with _ | userId
      · exact .inl ⟨.integrityError, rfl⟩
      · rcases row.workspaceId with _ | workspaceId
        · exact .inl ⟨.integrityError, rfl⟩
        · simp only [Session.run_insert, Connection.working_clean]
          cases hclash : s.credentials.any fun c =>
              decide (c.deviceId = fresh.deviceId ∨ c.familyId = fresh.familyId) with
          | true => exact .inl ⟨_, rfl⟩
          | false =>
            have hmint := mintPair_cases K fresh now fresh.deviceId
              workspaceId (now + refreshAbsoluteTtl) ⟨{ s with
                credentials := s.credentials ++
                  [⟨fresh.deviceId, fresh.familyId, userId, workspaceId,
                  now, now + refreshAbsoluteTtl, now, none⟩] }, s⟩
            rw [cond_false]
            rcases hmint with ⟨e, he, -⟩ | ⟨c, a, r, tokens, hc, hpair, hrun⟩
            · exact .inl ⟨e, congrArg Prod.snd (Session.run_bind_error he _)⟩
            · refine .inr ⟨row, _, tokens, hrow, Session.run_bind_ok hrun _, ?_⟩
              have hfresh : ∀ o ∈ s.credentials,
                  o.deviceId ≠ fresh.deviceId ∧ o.familyId ≠ fresh.familyId := by
                simpa only [List.any_eq_false, decide_eq_true_eq, not_or] using hclash
              have hnone : s.credentials.find? (fun o => o.deviceId = fresh.deviceId) = none := by
                rw [List.find?_eq_none]
                exact fun o ho => by simpa using (hfresh o ho).1
              dsimp only at hc
              rw [List.find?_append, hnone] at hc
              simp only [decide_true, List.find?_cons_of_pos, Option.none_or,
                Option.some.injEq] at hc
              subst hc
              simp only [proofMatches, Bool.decide_and, Bool.decide_eq_true, Bool.and_eq_true,
                decide_eq_true_eq] at hproof
              exact .exchanged row verifier now
                ⟨fresh.deviceId, fresh.familyId, userId, workspaceId,
                now, now + refreshAbsoluteTtl, now, none⟩ a r
                (deviceAuthorization_mem hrow) hproof.2
                happroved hfresh rfl hpair
    · exact .inl ⟨_, rfl⟩

theorem exchangeDevice_moves (deviceCode verifier : String) :
    Moves K (exchangeDevice K fresh now deviceCode verifier)
      (exchangeEvents K fresh deviceCode verifier) := by
  intro s
  rcases exchangeBody_cases K fresh now deviceCode verifier s with
    ⟨e, he⟩ | ⟨row, t, tokens, hrow, hrun, hmove⟩
  · have hrun := Session.transaction_error (exchangeBody_keeps K fresh now
      deviceCode verifier) he
    exact ⟨s, congrArg Prod.fst hrun, by rw [exchangeDevice, hrun]; exact .idle⟩
  · have hdone := Session.transaction_ok hrun
    refine ⟨t, congrArg Prod.fst hdone, ?_⟩
    have hevents : exchangeEvents K fresh deviceCode verifier s t (.ok tokens) =
        [.exchanged row.grantId verifier fresh.familyId] := by
      simp only [exchangeEvents, hrow, Option.toList_some, List.map_cons, List.map_nil]
    rw [exchangeDevice, hdone, hevents]
    exact hmove

theorem exchangeDevice_error {deviceCode verifier : String} {s : DeviceDb} {e : DeviceError}
    (h : (exchangeDevice K fresh now deviceCode verifier (.clean s)).2 = .error e) :
    (exchangeDevice K fresh now deviceCode verifier (.clean s)).1 = .clean s := by
  rcases exchangeBody_cases K fresh now deviceCode verifier s with
    ⟨e', he⟩ | ⟨row, t, tokens, -, hrun, -⟩
  · exact congrArg Prod.fst
      (Session.transaction_error (exchangeBody_keeps K fresh now deviceCode verifier) he)
  · rw [exchangeDevice, Session.transaction_ok hrun] at h
    cases h

/-! ### Rotation -/

theorem refreshRow_mem {s : DeviceDb} {token : String} {row : RefreshToken} {c : DeviceCredential}
    (h : s.refreshRow K token = some (row, c)) :
    row ∈ s.refresh ∧ c ∈ s.credentials ∧ c.deviceId = row.deviceId := by
  obtain ⟨r, hr, hmap⟩ := Option.bind_eq_some_iff.mp h
  obtain ⟨c', hc, hpair⟩ := Option.map_eq_some_iff.mp hmap
  cases hpair
  exact ⟨List.mem_of_find?_eq_some hr, List.mem_of_find?_eq_some hc,
    by simpa using List.find?_some hc⟩

inductive Refreshed (K : DeviceKeys) (now : ℚ) (s : DeviceDb) (token : String) :
    Connection DeviceDb × Except DeviceError DeviceTokens → Prop
  | refused (e : DeviceError) (he : e ≠ .reuseDetected) :
      Refreshed K now s token (.clean s, .error e)
  | reused (row : RefreshToken) (c : DeviceCredential)
    (hfound : s.refreshRow K token = some (row, c)) (hconsumed : row.consumedAt ≠ none) :
    Refreshed K now s token (.clean (revokeFamily now row.familyId s), .error .reuseDetected)
  | ended (row : RefreshToken) (c : DeviceCredential)
    (hfound : s.refreshRow K token = some (row, c)) (hended : refreshEnded now row c = true) :
    Refreshed K now s token (.clean (revokeFamily now row.familyId s),
      .error (.permissionError "invalid refresh token"))
  | rotated (row : RefreshToken) (c : DeviceCredential) (a : AccessToken) (r : RefreshToken)
    (tokens : DeviceTokens) (o : DeviceCredential)
    (hfound : s.refreshRow K token = some (row, c)) (hconsumed : row.consumedAt = none)
    (hended : refreshEnded now row c = false)
    (ho : (rotateRefresh now row s).credentials.find? (fun o => o.deviceId = row.deviceId) = some o)
    (hpair : Pair row.deviceId o.familyId row.absoluteExpiresAt a r) :
    Refreshed K now s token (.clean { rotateRefresh now row s with
      access := (rotateRefresh now row s).access ++ [a]
      refresh := (rotateRefresh now row s).refresh ++ [r] }, .ok tokens)

theorem refreshDevice_cases (K : DeviceKeys) (fresh : DeviceDraws) (now : ℚ) (token : String)
    (s : DeviceDb) :
    Refreshed K now s token (refreshDevice K fresh now token (.clean s)) := by
  unfold refreshDevice
  simp only [Session.run_demand]
  cases hasForm "heel_rt_" 64 token with
  | false => exact .refused _ (by decide)
  | true =>
    rw [cond_true]
    unfold Session.guarded
    simp only [Session.run_read, Connection.working_clean]
    rcases hfound : s.refreshRow K token with _ | ⟨row, c⟩
    · exact .refused _ (by decide)
    · dsimp only
      by_cases hconsumed : row.consumedAt = none
      · rw [if_neg (not_not.mpr hconsumed)]
        cases hended : refreshEnded now row c with
        | true => exact .ended row c hfound hended
        | false =>
          have hmint := mintPair_cases K fresh now row.deviceId
            c.workspaceId row.absoluteExpiresAt ⟨rotateRefresh now row s, s⟩
          simp only [Bool.false_eq_true, if_false, Session.run_write, Connection.working_clean,
            Connection.committed_clean]
          rcases hmint with ⟨e, he, hne, hkeep⟩ | ⟨o, a, r, tokens, ho, hpair, hrun⟩
          · rw [Session.run_bind_error he]
            simp only [hne, decide_false, Bool.false_eq_true, if_false, hkeep]
            exact .refused e hne
          · rw [Session.run_bind_ok hrun]
            exact .rotated row c a r tokens o hfound hconsumed hended ho hpair
      · rw [if_pos hconsumed]
        exact .reused row c hfound hconsumed

theorem refreshDevice_moves (token : String) :
    Moves K (refreshDevice K fresh now token) (refreshEvents K token) := by
  intro s
  have hcases := refreshDevice_cases K fresh now token s
  generalize refreshDevice K fresh now token (.clean s) = answer at hcases
  cases hcases with
  | refused e he =>
    refine ⟨s, rfl, ?_⟩
    have hevents : refreshEvents K token s s (.error e) = [] := by
      rw [refreshEvents, List.flatMap_eq_nil_iff]
      intro found _
      cases e <;> first | exact absurd rfl he | exact if_pos rfl
    rw [hevents]
    exact .idle
  | reused row c hfound hconsumed =>
    refine ⟨_, rfl, ?_⟩
    have hevents : ∀ t, refreshEvents K token s t (.error .reuseDetected) =
        [.reused row.familyId] := by
      intro t
      simp only [refreshEvents, hfound, Option.toList_some, List.flatMap_cons, List.flatMap_nil,
        List.append_nil]
    rw [hevents]
    exact .ended row now _ (refreshRow_mem hfound).1 (.inl rfl)
  | ended row c hfound hended =>
    refine ⟨_, rfl, ?_⟩
    have hevents : ∀ t, refreshEvents K token s t
        (.error (.permissionError "invalid refresh token")) =
          if t = s then [] else [.revoked row.familyId] := by
      intro t
      simp only [refreshEvents, hfound, Option.toList_some, List.flatMap_cons, List.flatMap_nil,
        List.append_nil]
    rw [hevents]
    by_cases hsame : revokeFamily now row.familyId s = s
    · rw [if_pos hsame, hsame]
      exact .idle
    · rw [if_neg hsame]
      exact .ended row now _ (refreshRow_mem hfound).1 (.inr rfl)
  | rotated row c a r tokens o hfound hconsumed hended ho hpair =>
    refine ⟨_, rfl, ?_⟩
    have hevents : ∀ t, refreshEvents K token s t (.ok tokens) = [.refreshed row.familyId] := by
      intro t
      simp only [refreshEvents, hfound, Option.toList_some, List.flatMap_cons, List.flatMap_nil,
        List.append_nil]
    rw [hevents]
    obtain ⟨hrow, hc, hdevice⟩ := refreshRow_mem hfound
    obtain ⟨r', hr', hmap⟩ := Option.bind_eq_some_iff.mp hfound
    obtain ⟨c', hfind, hboth⟩ := Option.map_eq_some_iff.mp hmap
    cases hboth
    have hrotated : (rotateRefresh now row s).credentials.find?
        (fun o => o.deviceId = row.deviceId) =
        (s.credentials.find? fun o => o.deviceId = row.deviceId).map
          fun o => { o with lastRefreshedAt := now } := Table.find_update fun _ h => h
    rw [hfind] at hrotated
    have hfamily : o.familyId = c.familyId := by
      cases Option.some.inj (ho.symm.trans hrotated)
      rfl
    have hlive : c.revokedAt = none := by
      simp only [refreshEnded, Bool.decide_or, Bool.or_eq_false_iff, decide_eq_false_iff_not,
        not_not] at hended
      exact hended.1
    exact .refreshed row c now a r hrow hc hdevice hconsumed hlive (hfamily ▸ hpair)

/-- A refresh that raises changes nothing, except that a replay and a token that has come to its end
revoke the family. -/
theorem refreshDevice_error {token : String} {s : DeviceDb} {e : DeviceError}
    (h : (refreshDevice K fresh now token (.clean s)).2 = .error e) :
    (refreshDevice K fresh now token (.clean s)).1 = .clean s ∨
      ∃ row c, s.refreshRow K token = some (row, c) ∧
        (row.consumedAt ≠ none ∧ e = .reuseDetected ∨ refreshEnded now row c = true) ∧
        (refreshDevice K fresh now token (.clean s)).1 =
            .clean (revokeFamily now row.familyId s) := by
  have hcases := refreshDevice_cases K fresh now token s
  generalize refreshDevice K fresh now token (.clean s) = answer at hcases h
  cases hcases with
  | refused e he => exact .inl rfl
  | reused row c hfound hconsumed =>
    cases h
    exact .inr ⟨row, c, hfound, .inl ⟨hconsumed, rfl⟩, rfl⟩
  | ended row c hfound hended => exact .inr ⟨row, c, hfound, .inr hended, rfl⟩
  | rotated => cases h

theorem revokeDevice_moves (token : String) :
    Moves K (revokeDevice K now token) (revokeEvents K token) := by
  intro s
  unfold revokeDevice
  cases hform : hasForm "heel_rt_" 64 token with
  | false =>
    refine ⟨s, rfl, ?_⟩
    simp only [revokeEvents, hform, Bool.false_eq_true, if_false]
    exact .idle
  | true =>
    simp only [if_true, Session.run_read, Connection.working_clean]
    rcases hfound : s.refresh.find? _ with _ | row
    · refine ⟨s, rfl, ?_⟩
      simp only [revokeEvents, hform, if_true, hfound, Option.toList_none, List.map_nil]
      exact .idle
    · refine ⟨_, rfl, ?_⟩
      simp only [revokeEvents, hform, if_true, hfound, Option.toList_some, List.map_cons,
        List.map_nil]
      exact .ended row now _ (List.mem_of_find?_eq_some hfound) (.inr rfl)

theorem liveAccess_live {s : DeviceDb} {token : String} {c : DeviceCredential}
    (h : s.liveAccess K now token = some c) : c ∈ s.credentials ∧ c.revokedAt = none := by
  unfold DeviceDb.liveAccess at h
  split at h
  · obtain ⟨a, -, hfilter⟩ := Option.bind_eq_some_iff.mp h
    obtain ⟨hc, hlive⟩ := Option.filter_eq_some_iff.mp hfilter
    exact ⟨List.mem_of_find?_eq_some hc, (of_decide_eq_true hlive).1⟩
  · cases h

theorem resolveAccess_moves (token : String) :
    Moves K (resolveAccess K now token) (resolveEvents K now token) := by
  intro s
  refine ⟨s, rfl, ?_⟩
  cases hlive : s.liveAccess K now token with
  | none =>
    have hevents : resolveEvents K now token s s (resolveAccess K now token (.clean s)).2 = [] := by
      simp [resolveEvents, resolveAccess, Session.read, hlive]
    rw [hevents]
    exact .idle
  | some c =>
    have hevents : resolveEvents K now token s s (resolveAccess K now token (.clean s)).2 =
        [.resolved c.familyId] := by
      simp [resolveEvents, resolveAccess, Session.read, hlive]
    rw [hevents]
    obtain ⟨hc, hnone⟩ := liveAccess_live hlive
    exact .resolved c hc hnone

theorem call_moves (K : DeviceKeys) (fresh : DeviceDraws) (now : ℚ) (call : DeviceCall)
    (s : DeviceDb) (history : List DeviceEvent) :
    ∃ t events, DeviceMove K s events t ∧
      DeviceWorld.call K fresh now ⟨.clean s, history⟩ call = ⟨.clean t, history ++ events⟩ := by
  have hrun : ∀ {α : Type} {op : DeviceSession α}
      {events : DeviceDb → DeviceDb → Except DeviceError α → List DeviceEvent}, Moves K op events →
      ∃ t es, DeviceMove K s es t ∧
        DeviceWorld.run ⟨.clean s, history⟩ op events = ⟨.clean t, history ++ es⟩ := by
    intro α op events h
    obtain ⟨t, hconn, hmove⟩ := h s
    refine ⟨t, _, hmove, ?_⟩
    unfold DeviceWorld.run
    rw [hconn]
    rfl
  cases call with
  | start q => exact hrun (startDevice_moves q)
  | poll deviceCode verifier => exact hrun (pollDevice_moves deviceCode verifier)
  | inspect userCode userId => exact hrun (inspectDevice_moves userCode userId)
  | decide d => exact hrun (decideDevice_moves d)
  | exchange deviceCode verifier => exact hrun (exchangeDevice_moves deviceCode verifier)
  | refresh token => exact hrun (refreshDevice_moves token)
  | revoke token => exact hrun (revokeDevice_moves token)
  | resolve token => exact hrun (resolveAccess_moves token)

end Heel.Cloud
