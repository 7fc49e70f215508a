import Heel.Lib.History
import Heel.Lib.Transition
import Heel.Saas.DeviceMoves

/-! The life of a device grant and of a credential family over whole runs of the device store. -/
namespace Heel.Cloud
open Lib

/-! ### The system -/

/-- Every call with every clock reading and every draw. -/
def devicePlane (K : DeviceKeys) : Transition DeviceWorld (DeviceDraws × ℚ × DeviceCall) where
  init w := w = {}
  step w a t := t = w.call K a.1 a.2.1 a.2.2

namespace DeviceEvent

/-- The user, the nonce and the end of an inspection of a grant. -/
def inspection (grantId : String) : DeviceEvent → Option (String × String × ℚ)
  | .inspected g userId nonce expiresAt =>
    if g = grantId then some (userId, nonce, expiresAt) else none
  | _ => none

/-- The family that is at its end: a replay, a revocation. -/
def ends : DeviceEvent → Option String
  | .reused familyId | .revoked familyId => some familyId
  | _ => none

def uses : DeviceEvent → Option String
  | .refreshed familyId | .resolved familyId => some familyId
  | _ => none

end DeviceEvent

def lastInspection (h : List DeviceEvent) (grantId : String) : Option (String × String × ℚ) :=
  History.newest (DeviceEvent.inspection grantId) h

/-- The grant was approved by the user who inspected it last, with the nonce of that inspection. -/
def DeviceApproved (h : List DeviceEvent) (grantId : String) : Prop :=
  ∃ before after userId nonce workspaceId instant expiresAt,
    h = before ++ .decided grantId userId nonce (some workspaceId) instant :: after ∧
    lastInspection before grantId = some (userId, nonce, expiresAt) ∧ instant ≤ expiresAt

/-- An exchange is the first of an approved grant, by who holds the verifier of its challenge. -/
def ExchangeAllowed (K : DeviceKeys) (before : List DeviceEvent) (e : DeviceEvent) : Prop :=
  ∀ grantId verifier familyId, e = .exchanged grantId verifier familyId →
    .started grantId (K.challengeOf verifier) ∈ before ∧ DeviceApproved before grantId ∧
      ∀ verifier' familyId', .exchanged grantId verifier' familyId' ∉ before

def UseAllowed (before : List DeviceEvent) (e : DeviceEvent) : Prop :=
  ∀ familyId ∈ e.uses, ∀ d ∈ before, d.ends ≠ some familyId

/-! ### Grants -/

/-- The authorizations agree with what has happened. -/
structure DeviceGrantInv (K : DeviceKeys) (s : DeviceDb) (h : List DeviceEvent) : Prop where
  ids : (s.authorizations.map (·.grantId)).Nodup
  started : ∀ a ∈ s.authorizations, .started a.grantId a.deviceChallenge ∈ h
  inspected : ∀ a ∈ s.authorizations, ∀ n ∈ a.confirmationNonceHash, ∃ userId nonce expiresAt,
    lastInspection h a.grantId = some (userId, nonce, expiresAt) ∧ a.inspectedBy = some userId ∧
      n = K.hash "confirmation-nonce" nonce ∧ a.confirmationExpiresAt = some expiresAt
  approved : ∀ a ∈ s.authorizations, a.status = .approved → DeviceApproved h a.grantId
  exchanged : ∀ g v f, .exchanged g v f ∈ h →
    ∃ a ∈ s.authorizations, a.grantId = g ∧ (a.status = .consumed ∨ a.status = .expired)
  exchanges : History.Each (ExchangeAllowed K) h

variable {K : DeviceKeys} {s t : DeviceDb} {h : List DeviceEvent} {e : DeviceEvent}

theorem DeviceApproved.append {g : String} (ha : DeviceApproved h g) (e : DeviceEvent) :
    DeviceApproved (h ++ [e]) g := by
  obtain ⟨before, after, user, nonce, workspace, instant, expires, rfl, hlast, hle⟩ := ha
  exact ⟨before, after ++ [e], user, nonce, workspace, instant, expires, by simp, hlast, hle⟩

theorem lastInspection_append {g : String} (he : e.inspection g = none) :
    lastInspection (h ++ [e]) g = lastInspection h g := by
  rw [lastInspection, History.newest_concat, he]
  rfl

theorem DeviceGrantInv.append (hi : DeviceGrantInv K s h) (hinspection : ∀ g, e.inspection g = none)
    (hexchange : ∀ g v f, e ≠ .exchanged g v f) : DeviceGrantInv K s (h ++ [e]) where
  ids := hi.ids
  started a ha := List.mem_append_left _ (hi.started a ha)
  inspected a ha n hn := by
    rw [lastInspection_append (hinspection _)]
    exact hi.inspected a ha n hn
  approved a ha hstatus := (hi.approved a ha hstatus).append e
  exchanged g v f hmem := by
    rcases List.mem_append.mp hmem with hmem | hmem
    · exact hi.exchanged g v f hmem
    · exact absurd (List.mem_singleton.mp hmem).symm (hexchange g v f)
  exchanges := History.each_concat.mpr ⟨hi.exchanges, fun g v f he => absurd he (hexchange g v f)⟩

theorem DeviceGrantInv.frame (hi : DeviceGrantInv K s h)
    (hsame : t.authorizations = s.authorizations) :
    DeviceGrantInv K t h := by
  refine ⟨?_, ?_, ?_, ?_, ?_, hi.exchanges⟩ <;> rw [hsame]
  · exact hi.ids
  · exact hi.started
  · exact hi.inspected
  · exact hi.approved
  · exact hi.exchanged

theorem DeviceGrantInv.ids_update (hi : DeviceGrantInv K s h) {g : String}
    {f : DeviceAuthorization → DeviceAuthorization} (hf : ∀ a, (f a).grantId = a.grantId) :
    ((updateGrant g f s).authorizations.map (·.grantId)).Nodup := by
  have hsame : (updateGrant g f s).authorizations.map (·.grantId) =
      s.authorizations.map (·.grantId) := Table.map_update fun a _ => hf a
  rw [hsame]
  exact hi.ids

/-- A row after an update is an old row of another grant, or the changed row. -/
theorem mem_updateGrant {g : String} {f : DeviceAuthorization → DeviceAuthorization}
    {a : DeviceAuthorization} (ha : a ∈ (updateGrant g f s).authorizations) :
    (a ∈ s.authorizations ∧ a.grantId ≠ g) ∨ ∃ o ∈ s.authorizations, o.grantId = g ∧ a = f o := by
  obtain ⟨o, ho, rfl⟩ := Table.mem_update.mp ha
  by_cases hg : o.grantId = g
  · rw [if_pos (decide_eq_true hg)]
    exact .inr ⟨o, ho, hg, rfl⟩
  · rw [if_neg (by simpa using hg)]
    exact .inl ⟨ho, hg⟩

theorem updateGrant_mem {g : String} {f : DeviceAuthorization → DeviceAuthorization}
    {o : DeviceAuthorization} (ho : o ∈ s.authorizations) :
    (o.grantId ≠ g ∧ o ∈ (updateGrant g f s).authorizations) ∨
      (o.grantId = g ∧ f o ∈ (updateGrant g f s).authorizations) := by
  by_cases hg : o.grantId = g
  · exact .inr ⟨hg, Table.mem_update.mpr ⟨o, ho, by rw [if_pos (decide_eq_true hg)]⟩⟩
  · exact .inl ⟨hg, Table.mem_update.mpr ⟨o, ho, by rw [if_neg (by simpa using hg)]⟩⟩

theorem DeviceGrantInv.touched (hi : DeviceGrantInv K s h) {g : String}
    {f : DeviceAuthorization → DeviceAuthorization} (hf : ∀ a, Touched a (f a)) :
    DeviceGrantInv K (updateGrant g f s) h where
  ids := hi.ids_update fun a => (hf a).grantId
  started a ha := by
    rcases mem_updateGrant ha with ⟨ha, -⟩ | ⟨o, ho, -, rfl⟩
    · exact hi.started a ha
    · rw [(hf o).grantId, (hf o).challenge]
      exact hi.started o ho
  inspected a ha n hn := by
    rcases mem_updateGrant ha with ⟨ha, -⟩ | ⟨o, ho, -, rfl⟩
    · exact hi.inspected a ha n hn
    · rw [(hf o).nonceHash] at hn
      rw [(hf o).grantId, (hf o).inspectedBy, (hf o).nonceExpires]
      exact hi.inspected o ho n hn
  approved a ha hstatus := by
    rcases mem_updateGrant ha with ⟨ha, -⟩ | ⟨o, ho, -, rfl⟩
    · exact hi.approved a ha hstatus
    · rw [(hf o).grantId]
      rcases (hf o).status with hsame | hexpired
      · exact hi.approved o ho (hsame ▸ hstatus)
      · rw [hexpired] at hstatus
        cases hstatus
  exchanged g' v f' hmem := by
    obtain ⟨a, ha, hid, hstatus⟩ := hi.exchanged g' v f' hmem
    rcases updateGrant_mem (g := g) (f := f) ha with ⟨-, ha'⟩ | ⟨-, ha'⟩
    · exact ⟨a, ha', hid, hstatus⟩
    · refine ⟨f a, ha', (hf a).grantId.trans hid, ?_⟩
      rcases (hf a).status with hsame | hexpired
      · rw [hsame]
        exact hstatus
      · exact .inr hexpired
  exchanges := hi.exchanges

theorem DeviceGrantInv.start (hi : DeviceGrantInv K s h) {row : DeviceAuthorization}
    (hclash : ∀ a ∈ s.authorizations, a.grantId ≠ row.grantId) (hpending : row.status = .pending)
    (hnonce : row.confirmationNonceHash = none) :
    DeviceGrantInv K { s with authorizations := s.authorizations ++ [row] }
      (h ++ [.started row.grantId row.deviceChallenge]) := by
  have hold := hi.append (e := .started row.grantId row.deviceChallenge) (fun _ => rfl)
    fun _ _ _ he => by cases he
  refine ⟨?_, ?_, ?_, ?_, ?_, hold.exchanges⟩
  · rw [List.map_append]
    refine List.nodup_append.mpr ⟨hi.ids, by simp, ?_⟩
    rintro _ hin _ hlast rfl
    obtain ⟨a, ha, hid⟩ := List.mem_map.mp hin
    exact hclash a ha (hid.trans (List.mem_singleton.mp hlast))
  all_goals intro a ha
  · rcases List.mem_append.mp ha with ha | ha
    · exact hold.started a ha
    · rw [List.mem_singleton.mp ha]
      exact List.mem_append_right _ (List.mem_singleton.mpr rfl)
  · rcases List.mem_append.mp ha with ha | ha
    · exact hold.inspected a ha
    · rw [List.mem_singleton.mp ha, hnonce]
      intro n hn
      cases hn
  · rcases List.mem_append.mp ha with ha | ha
    · exact hold.approved a ha
    · rw [List.mem_singleton.mp ha, hpending]
      intro hstatus
      cases hstatus
  · intro f hmem
    obtain ⟨o, ho, hspec⟩ := hold.exchanged a ha f hmem
    exact ⟨o, List.mem_append_left _ ho, hspec⟩

theorem DeviceGrantInv.inspect (hi : DeviceGrantInv K s h) {row : DeviceAuthorization}
    {userId nonce : String}
    {expiresAt : ℚ} : DeviceGrantInv K (updateGrant row.grantId (fun a => { a with
        inspectedBy := some userId
        confirmationNonceHash := some (K.hash "confirmation-nonce" nonce)
        confirmationExpiresAt := some expiresAt }) s)
      (h ++ [.inspected row.grantId userId nonce expiresAt]) where
  ids := hi.ids_update fun _ => rfl
  started a ha := by
    rcases mem_updateGrant ha with ⟨ha, -⟩ | ⟨o, ho, -, rfl⟩
    · exact List.mem_append_left _ (hi.started a ha)
    · exact List.mem_append_left _ (hi.started o ho)
  inspected a ha n hn := by
    rcases mem_updateGrant ha with ⟨ha, hne⟩ | ⟨o, ho, hid, rfl⟩
    · have hother : (DeviceEvent.inspected row.grantId userId nonce expiresAt).inspection
          a.grantId = none := if_neg fun heq => hne heq.symm
      rw [lastInspection_append hother]
      exact hi.inspected a ha n hn
    · refine ⟨userId, nonce, expiresAt, ?_, rfl, (Option.some.inj hn).symm, rfl⟩
      rw [lastInspection, History.newest_concat]
      simp [DeviceEvent.inspection, hid]
  approved a ha hstatus := by
    rcases mem_updateGrant ha with ⟨ha, -⟩ | ⟨o, ho, -, rfl⟩
    · exact (hi.approved a ha hstatus).append _
    · exact (hi.approved o ho hstatus).append _
  exchanged g v f hmem := by
    rcases List.mem_append.mp hmem with hmem | hmem
    · obtain ⟨a, ha, hid, hstatus⟩ := hi.exchanged g v f hmem
      rcases updateGrant_mem ha with ⟨-, ha'⟩ | ⟨-, ha'⟩
      · exact ⟨a, ha', hid, hstatus⟩
      · exact ⟨_, ha', hid, hstatus⟩
    · cases List.mem_singleton.mp hmem
  exchanges := History.each_concat.mpr ⟨hi.exchanges, fun _ _ _ he => by cases he⟩

theorem decidable_iff {now : ℚ} {d : DeviceDecision} {row : DeviceAuthorization}
    (hd : decidable K now d row = true) : row.status = .pending ∧ row.inspectedBy = some d.userId ∧
      row.confirmationNonceHash = some (K.hash "confirmation-nonce" d.nonce) ∧
      ∃ expires, row.confirmationExpiresAt = some expires ∧ now ≤ expires := by
  simp only [decidable, Bool.decide_and, Bool.decide_eq_true, Bool.and_eq_true,
    decide_eq_true_eq] at hd
  obtain ⟨hstatus, huser, hnonce, hexpires, -⟩ := hd
  refine ⟨hstatus, huser, hnonce, ?_⟩
  cases hrow : row.confirmationExpiresAt with
  | none =>
    rw [hrow] at hexpires
    cases hexpires
  | some expires =>
    rw [hrow] at hexpires
    exact ⟨expires, rfl, by simpa using hexpires⟩

theorem DeviceGrantInv.decide (hi : DeviceGrantInv K s h)
    (hinj : ∀ a b, K.hash "confirmation-nonce" a = K.hash "confirmation-nonce" b → a = b)
    {row : DeviceAuthorization} {d : DeviceDecision} {now : ℚ} (hrow : row ∈ s.authorizations)
    (hformed : d.wellFormed = true) (hd : decidable K now d row = true) :
    DeviceGrantInv K (updateGrant row.grantId (fun a => { a with
        status := if d.action = "approve" then .approved else .denied
        confirmationNonceHash := none
        confirmationExpiresAt := none
        approvedUserId := some d.userId
        workspaceId := d.workspaceId
        approvedAt := if d.action = "approve" then some now else none }) s)
      (h ++ [.decided row.grantId d.userId d.nonce d.workspaceId now]) := by
  obtain ⟨hstatus, huser, hnonce, expires, hexpires, hle⟩ := decidable_iff hd
  have hold := hi.append (e := .decided row.grantId d.userId d.nonce d.workspaceId now)
    (fun _ => rfl) fun _ _ _ he => by cases he
  refine ⟨hi.ids_update fun _ => rfl, ?_, ?_, ?_, ?_, hold.exchanges⟩
  all_goals intro a ha
  · rcases mem_updateGrant ha with ⟨ha, -⟩ | ⟨o, ho, -, rfl⟩
    · exact hold.started a ha
    · exact hold.started o ho
  · rcases mem_updateGrant ha with ⟨ha, -⟩ | ⟨o, ho, -, rfl⟩
    · exact hold.inspected a ha
    · intro n hn
      cases hn
  · rcases mem_updateGrant ha with ⟨ha, -⟩ | ⟨o, ho, hid, rfl⟩
    · exact hold.approved a ha
    · intro happroved
      obtain ⟨userId, nonce, expiresAt, hlast, huser', hhash, hexpires'⟩ :=
        hi.inspected row hrow _ hnonce
      obtain rfl : d.nonce = nonce := hinj _ _ hhash
      rw [huser] at huser'
      rw [hexpires] at hexpires'
      cases huser'
      cases hexpires'
      have happrove : d.action = "approve" := by
        by_contra hne
        simp [hne] at happroved
      have hsome := (DeviceDecision.approves_iff hformed).mp happrove
      cases hw : d.workspaceId with
      | none =>
        rw [hw] at hsome
        cases hsome
      | some workspaceId =>
        rw [← hid] at hlast ⊢
        exact ⟨h, [], d.userId, d.nonce, workspaceId, now, expires, rfl, hlast, hle⟩
  · intro f hmem
    obtain ⟨o, ho, hid, hclosed⟩ := hold.exchanged a ha f hmem
    rcases updateGrant_mem (g := row.grantId) ho with ⟨-, ho'⟩ | ⟨hsame, -⟩
    · exact ⟨o, ho', hid, hclosed⟩
    · -- the row that is decided is pending
      obtain rfl := Table.eq_of_key hi.ids ho hrow hsame
      rw [hstatus] at hclosed
      rcases hclosed with hclosed | hclosed <;> cases hclosed

theorem DeviceGrantInv.exchange (hi : DeviceGrantInv K s h) {row : DeviceAuthorization}
    {verifier familyId : String}
    {now : ℚ} (hrow : row ∈ s.authorizations)
    (hproof : K.challengeOf verifier = row.deviceChallenge)
    (happroved : row.status = .approved) :
    DeviceGrantInv K (updateGrant row.grantId
      (fun o => { o with status := .consumed, consumedAt := some now }) s)
      (h ++ [.exchanged row.grantId verifier familyId]) where
  ids := hi.ids_update fun _ => rfl
  started a ha := by
    rcases mem_updateGrant ha with ⟨ha, -⟩ | ⟨o, ho, -, rfl⟩
    · exact List.mem_append_left _ (hi.started a ha)
    · exact List.mem_append_left _ (hi.started o ho)
  inspected a ha n hn := by
    rw [lastInspection_append (by rfl)]
    rcases mem_updateGrant ha with ⟨ha, -⟩ | ⟨o, ho, -, rfl⟩
    · exact hi.inspected a ha n hn
    · exact hi.inspected o ho n hn
  approved a ha hstatus := by
    rcases mem_updateGrant ha with ⟨ha, -⟩ | ⟨o, ho, -, rfl⟩
    · exact (hi.approved a ha hstatus).append _
    · cases hstatus
  exchanged g v f hmem := by
    rcases List.mem_append.mp hmem with hmem | hmem
    · obtain ⟨a, ha, hid, hstatus⟩ := hi.exchanged g v f hmem
      rcases updateGrant_mem ha with ⟨-, ha'⟩ | ⟨-, ha'⟩
      · exact ⟨a, ha', hid, hstatus⟩
      · exact ⟨_, ha', hid, .inl rfl⟩
    · cases List.mem_singleton.mp hmem
      rcases updateGrant_mem hrow with ⟨hne, -⟩ | ⟨-, ha'⟩
      · exact absurd rfl hne
      · exact ⟨_, ha', rfl, .inl rfl⟩
  exchanges := by
    refine History.each_concat.mpr ⟨hi.exchanges, ?_⟩
    intro g v f he
    cases he
    refine ⟨hproof ▸ hi.started row hrow, hi.approved row hrow happroved, fun v' f' hmem => ?_⟩
    obtain ⟨a, ha, hid, hstatus⟩ := hi.exchanged _ v' f' hmem
    obtain rfl := Table.eq_of_key hi.ids ha hrow hid
    rw [happroved] at hstatus
    rcases hstatus with hstatus | hstatus <;> cases hstatus

/-! ### Families -/

/-- The tokens of a family that are still good for something. -/
def DeviceDb.unconsumed (s : DeviceDb) (familyId : String) : List RefreshToken :=
  s.refresh.filter fun r => r.familyId = familyId ∧ r.consumedAt = none

def DeviceDb.unrevoked (s : DeviceDb) (deviceId : String) : List AccessToken :=
  s.access.filter fun a => a.deviceId = deviceId ∧ a.revokedAt = none

/-- The credentials and their tokens agree with each other and with what has happened. -/
structure DeviceFamilyInv (s : DeviceDb) (h : List DeviceEvent) : Prop where
  devices : (s.credentials.map (·.deviceId)).Nodup
  families : (s.credentials.map (·.familyId)).Nodup
  access : ∀ a ∈ s.access, ∃ c ∈ s.credentials, c.deviceId = a.deviceId
  refresh : ∀ r ∈ s.refresh, ∃ c ∈ s.credentials, c.deviceId = r.deviceId ∧
    c.familyId = r.familyId ∧ c.refreshAbsoluteExpiresAt = r.absoluteExpiresAt
  oneAccess : ∀ c ∈ s.credentials, (s.unrevoked c.deviceId).length ≤ 1
  oneRefresh : ∀ c ∈ s.credentials, (s.unconsumed c.familyId).length ≤ 1
  ended : ∀ e ∈ h, ∀ f ∈ e.ends, ∃ c ∈ s.credentials, c.familyId = f ∧ c.revokedAt ≠ none
  used : History.Each UseAllowed h

theorem DeviceFamilyInv.append (hi : DeviceFamilyInv s h) (hends : e.ends = none)
    (huses : UseAllowed h e) : DeviceFamilyInv s (h ++ [e]) :=
  { hi with
    ended := fun x hx f hf => by
      rcases List.mem_append.mp hx with hx | hx
      · exact hi.ended x hx f hf
      · rw [List.mem_singleton.mp hx, hends] at hf
        cases hf
    used := History.each_concat.mpr ⟨hi.used, huses⟩ }

theorem DeviceFamilyInv.frame (hi : DeviceFamilyInv s h)
    (hcredentials : t.credentials = s.credentials)
    (haccess : t.access = s.access) (hrefresh : t.refresh = s.refresh) : DeviceFamilyInv t h := by
  rcases s with ⟨auth, credentials, access, refresh⟩
  rcases t with ⟨auth', credentials', access', refresh'⟩
  cases hcredentials
  cases haccess
  cases hrefresh
  exact ⟨hi.devices, hi.families, hi.access, hi.refresh, hi.oneAccess, hi.oneRefresh, hi.ended,
    hi.used⟩

theorem useAllowed_none (he : e.uses = none) : UseAllowed h e := by
  intro f hf
  rw [he] at hf
  cases hf

/-- An event about no family that leaves the credentials and tokens alone. -/
theorem DeviceFamilyInv.elsewhere (hi : DeviceFamilyInv s h)
    (hcredentials : t.credentials = s.credentials)
    (haccess : t.access = s.access) (hrefresh : t.refresh = s.refresh) (hends : e.ends = none)
    (huses : e.uses = none) : DeviceFamilyInv t (h ++ [e]) :=
  (hi.frame hcredentials haccess hrefresh).append hends (useAllowed_none huses)

theorem DeviceFamilyInv.useAllowed (hi : DeviceFamilyInv s h) {c : DeviceCredential}
    (hc : c ∈ s.credentials) (hlive : c.revokedAt = none) (he : e.uses = some c.familyId) :
    UseAllowed h e := by
  intro f hf d hd hends
  rw [he] at hf
  cases hf
  obtain ⟨o, ho, hid, hrevoked⟩ := hi.ended d hd _ hends
  rw [Table.eq_of_key hi.families ho hc hid] at hrevoked
  exact hrevoked hlive

theorem DeviceFamilyInv.enroll (hi : DeviceFamilyInv s h) {c : DeviceCredential}
    (hclash : ∀ o ∈ s.credentials, o.deviceId ≠ c.deviceId ∧ o.familyId ≠ c.familyId) :
    DeviceFamilyInv { s with credentials := s.credentials ++ [c] } h ∧
      s.unrevoked c.deviceId = [] ∧ s.unconsumed c.familyId = [] := by
  have hnoAccess : s.unrevoked c.deviceId = [] := by
    rw [DeviceDb.unrevoked, List.filter_eq_nil_iff]
    intro x hx
    obtain ⟨o, ho, hid⟩ := hi.access x hx
    simp [← hid, (hclash o ho).1]
  have hnoRefresh : s.unconsumed c.familyId = [] := by
    rw [DeviceDb.unconsumed, List.filter_eq_nil_iff]
    intro x hx
    obtain ⟨o, ho, -, hid, -⟩ := hi.refresh x hx
    simp [← hid, (hclash o ho).2]
  refine ⟨⟨?_, ?_, ?_, ?_, ?_, ?_, ?_, hi.used⟩, hnoAccess, hnoRefresh⟩
  · rw [List.map_append]
    refine List.nodup_append.mpr ⟨hi.devices, by simp, ?_⟩
    rintro _ hin _ hlast rfl
    obtain ⟨o, ho, hid⟩ := List.mem_map.mp hin
    exact (hclash o ho).1 (hid.trans (List.mem_singleton.mp hlast))
  · rw [List.map_append]
    refine List.nodup_append.mpr ⟨hi.families, by simp, ?_⟩
    rintro _ hin _ hlast rfl
    obtain ⟨o, ho, hid⟩ := List.mem_map.mp hin
    exact (hclash o ho).2 (hid.trans (List.mem_singleton.mp hlast))
  · intro x hx
    obtain ⟨o, ho, hid⟩ := hi.access x hx
    exact ⟨o, List.mem_append_left _ ho, hid⟩
  · intro x hx
    obtain ⟨o, ho, hspec⟩ := hi.refresh x hx
    exact ⟨o, List.mem_append_left _ ho, hspec⟩
  · intro o ho
    rcases List.mem_append.mp ho with ho | ho
    · exact hi.oneAccess o ho
    · rw [List.mem_singleton.mp ho]
      exact hnoAccess ▸ Nat.zero_le 1
  · intro o ho
    rcases List.mem_append.mp ho with ho | ho
    · exact hi.oneRefresh o ho
    · rw [List.mem_singleton.mp ho]
      exact hnoRefresh ▸ Nat.zero_le 1
  · intro x hx f hf
    obtain ⟨o, ho, hspec⟩ := hi.ended x hx f hf
    exact ⟨o, List.mem_append_left _ ho, hspec⟩

theorem DeviceFamilyInv.mint (hi : DeviceFamilyInv s h) {c : DeviceCredential} {a : AccessToken}
    {r : RefreshToken} (hc : c ∈ s.credentials) (hnoAccess : s.unrevoked c.deviceId = [])
    (hnoRefresh : s.unconsumed c.familyId = [])
    (hpair : Pair c.deviceId c.familyId c.refreshAbsoluteExpiresAt a r) :
    DeviceFamilyInv { s with access := s.access ++ [a], refresh := s.refresh ++ [r] } h where
  devices := hi.devices
  families := hi.families
  access x hx := by
    rcases List.mem_append.mp hx with hx | hx
    · exact hi.access x hx
    · rw [List.mem_singleton.mp hx]
      exact ⟨c, hc, hpair.access.symm⟩
  refresh x hx := by
    rcases List.mem_append.mp hx with hx | hx
    · exact hi.refresh x hx
    · rw [List.mem_singleton.mp hx]
      exact ⟨c, hc, hpair.refresh.symm, hpair.family.symm, hpair.absolute.symm⟩
  oneAccess o ho := by
    have hsplit : DeviceDb.unrevoked
        { s with access := s.access ++ [a], refresh := s.refresh ++ [r] }
        o.deviceId = s.unrevoked o.deviceId ++ [a].filter
          (fun x => decide (x.deviceId = o.deviceId ∧ x.revokedAt = none)) := List.filter_append ..
    rw [hsplit]
    by_cases hsame : o.deviceId = c.deviceId
    · rw [hsame, hnoAccess, List.nil_append]
      exact List.length_filter_le _ _
    · have hnew : [a].filter (fun x => decide (x.deviceId = o.deviceId ∧ x.revokedAt = none)) =
          [] := by
        simp [hpair.access, Ne.symm hsame]
      rw [hnew, List.append_nil]
      exact hi.oneAccess o ho
  oneRefresh o ho := by
    have hsplit : DeviceDb.unconsumed
        { s with access := s.access ++ [a], refresh := s.refresh ++ [r] }
        o.familyId = s.unconsumed o.familyId ++ [r].filter
          (fun x => decide (x.familyId = o.familyId ∧ x.consumedAt = none)) := List.filter_append ..
    rw [hsplit]
    by_cases hsame : o.familyId = c.familyId
    · rw [hsame, hnoRefresh, List.nil_append]
      exact List.length_filter_le _ _
    · have hnew : [r].filter (fun x => decide (x.familyId = o.familyId ∧ x.consumedAt = none)) =
          [] := by
        simp [hpair.family, Ne.symm hsame]
      rw [hnew, List.append_nil]
      exact hi.oneRefresh o ho
  ended := hi.ended
  used := hi.used

theorem DeviceFamilyInv.exchange (hi : DeviceFamilyInv s h) {c : DeviceCredential} {a : AccessToken}
    {r : RefreshToken}
    (hclash : ∀ o ∈ s.credentials, o.deviceId ≠ c.deviceId ∧ o.familyId ≠ c.familyId)
    (hpair : Pair c.deviceId c.familyId c.refreshAbsoluteExpiresAt a r) :
    DeviceFamilyInv { s with
      credentials := s.credentials ++ [c]
      access := s.access ++ [a]
      refresh := s.refresh ++ [r] } h := by
  obtain ⟨hnew, hnoAccess, hnoRefresh⟩ := hi.enroll hclash
  exact hnew.mint (List.mem_append_right _ (List.mem_singleton.mpr rfl)) hnoAccess hnoRefresh hpair

/-- A credential whose device, family and absolute expiry stay, and that is not revived. -/
structure CredentialKept (c d : DeviceCredential) : Prop where
  deviceId : d.deviceId = c.deviceId
  familyId : d.familyId = c.familyId
  absolute : d.refreshAbsoluteExpiresAt = c.refreshAbsoluteExpiresAt
  revoked : c.revokedAt ≠ none → d.revokedAt ≠ none

theorem CredentialKept.refl (c : DeviceCredential) : CredentialKept c c := ⟨rfl, rfl, rfl, id⟩

theorem CredentialKept.trans {c d e : DeviceCredential} (h : CredentialKept c d)
    (h' : CredentialKept d e) : CredentialKept c e :=
  ⟨h'.deviceId.trans h.deviceId, h'.familyId.trans h.familyId, h'.absolute.trans h.absolute,
    fun hc => h'.revoked (h.revoked hc)⟩

/-- Credentials that are kept row by row, and no token that is good for more. -/
theorem DeviceFamilyInv.update (hi : DeviceFamilyInv s h)
    (hcredentials : List.Forall₂ CredentialKept s.credentials t.credentials)
    (haccess : ∀ a ∈ t.access, ∃ o ∈ s.access, a.deviceId = o.deviceId)
    (hrefresh : ∀ r ∈ t.refresh, ∃ o ∈ s.refresh, r.deviceId = o.deviceId ∧
      r.familyId = o.familyId ∧
      r.absoluteExpiresAt = o.absoluteExpiresAt)
    (hfewerAccess : ∀ d, (t.unrevoked d).length ≤ (s.unrevoked d).length)
    (hfewerRefresh : ∀ f, (t.unconsumed f).length ≤ (s.unconsumed f).length) :
    DeviceFamilyInv t h where
  devices := by
    rw [Table.map_eq_of_forall₂ hcredentials fun _ _ hk => hk.deviceId]
    exact hi.devices
  families := by
    rw [Table.map_eq_of_forall₂ hcredentials fun _ _ hk => hk.familyId]
    exact hi.families
  access a ha := by
    obtain ⟨o, ho, hid⟩ := haccess a ha
    obtain ⟨c, hc, hdevice⟩ := hi.access o ho
    obtain ⟨d, hd, hk⟩ := Table.exists_right hcredentials hc
    exact ⟨d, hd, (hk.deviceId.trans hdevice).trans hid.symm⟩
  refresh r hr := by
    obtain ⟨o, ho, hid, hfamily, habsolute⟩ := hrefresh r hr
    obtain ⟨c, hc, hdevice, hcfamily, hcabsolute⟩ := hi.refresh o ho
    obtain ⟨d, hd, hk⟩ := Table.exists_right hcredentials hc
    exact ⟨d, hd, (hk.deviceId.trans hdevice).trans hid.symm, (hk.familyId.trans hcfamily).trans
      hfamily.symm, (hk.absolute.trans hcabsolute).trans habsolute.symm⟩
  oneAccess d hd := by
    obtain ⟨c, hc, hk⟩ := Table.exists_left hcredentials hd
    rw [hk.deviceId]
    exact (hfewerAccess _).trans (hi.oneAccess c hc)
  oneRefresh d hd := by
    obtain ⟨c, hc, hk⟩ := Table.exists_left hcredentials hd
    rw [hk.familyId]
    exact (hfewerRefresh _).trans (hi.oneRefresh c hc)
  ended x hx f hf := by
    obtain ⟨c, hc, hid, hrevoked⟩ := hi.ended x hx f hf
    obtain ⟨d, hd, hk⟩ := Table.exists_right hcredentials hc
    exact ⟨d, hd, hk.familyId.trans hid, hk.revoked hrevoked⟩
  used := hi.used

theorem revokeFamily_credentials (now : ℚ) (familyId : String) (s : DeviceDb) :
    List.Forall₂ CredentialKept s.credentials (revokeFamily now familyId s).credentials := by
  refine Table.forall₂_update CredentialKept.refl fun c _ _ => ⟨rfl, rfl, rfl, fun hc => ?_⟩
  cases hr : c.revokedAt with
  | none => exact absurd hr hc
  | some instant => simp

theorem DeviceFamilyInv.revoke (hi : DeviceFamilyInv s h) (now : ℚ) (familyId : String) :
    DeviceFamilyInv (revokeFamily now familyId s) h := by
  refine hi.update (revokeFamily_credentials now familyId s) (fun a ha => ?_)
    (fun r hr => ⟨r, hr, rfl, rfl, rfl⟩) (fun d => ?_) fun f => le_rfl
  · obtain ⟨o, ho, rfl⟩ := Table.mem_update.mp ha
    refine ⟨o, ho, ?_⟩
    split <;> rfl
  · refine Table.filter_update_le fun o _ hq => ?_
    simp only [decide_eq_true_eq, Option.or_eq_none_iff] at hq ⊢
    exact ⟨hq.1, hq.2.1⟩

theorem DeviceFamilyInv.end (hi : DeviceFamilyInv s h) {row : RefreshToken} {now : ℚ}
    (hrow : row ∈ s.refresh) (he : e = .reused row.familyId ∨ e = .revoked row.familyId) :
    DeviceFamilyInv (revokeFamily now row.familyId s) (h ++ [e]) := by
  have hnew := hi.revoke now row.familyId
  have hends : e.ends = some row.familyId := by rcases he with rfl | rfl <;> rfl
  have huses : e.uses = none := by rcases he with rfl | rfl <;> rfl
  refine { hnew with
    ended := fun x hx f hf => ?_
    used := History.each_concat.mpr ⟨hnew.used, useAllowed_none huses⟩ }
  rcases List.mem_append.mp hx with hx | hx
  · exact hnew.ended x hx f hf
  · rw [List.mem_singleton.mp hx, hends] at hf
    cases hf
    obtain ⟨c, hc, -, hfamily, -⟩ := hi.refresh row hrow
    refine ⟨_, Table.mem_update.mpr ⟨c, hc, rfl⟩, ?_, ?_⟩ <;>
      rw [if_pos (decide_eq_true hfamily)]
    · exact hfamily
    · simp

theorem rotateRefresh_credentials (now : ℚ) (row : RefreshToken) (s : DeviceDb) :
    List.Forall₂ CredentialKept s.credentials (rotateRefresh now row s).credentials :=
  Table.forall₂_update CredentialKept.refl fun _ _ _ => ⟨rfl, rfl, rfl, id⟩

/-- A rotation leaves the device without access, and its family without a refresh token. -/
theorem DeviceFamilyInv.rotate (hi : DeviceFamilyInv s h) {row : RefreshToken}
    {c : DeviceCredential}
    (now : ℚ) (hrow : row ∈ s.refresh) (hc : c ∈ s.credentials)
    (hfamily : c.familyId = row.familyId) (hconsumed : row.consumedAt = none) :
    DeviceFamilyInv (rotateRefresh now row s) h ∧
      (rotateRefresh now row s).unrevoked row.deviceId = [] ∧
      (rotateRefresh now row s).unconsumed row.familyId = [] := by
  refine ⟨hi.update (rotateRefresh_credentials now row s) (fun a ha => ?_) (fun r hr => ?_)
    (fun d => ?_) (fun f => ?_), ?_, ?_⟩
  · obtain ⟨o, ho, rfl⟩ := Table.mem_update.mp ha
    refine ⟨o, ho, ?_⟩
    split <;> rfl
  · obtain ⟨o, ho, rfl⟩ := Table.mem_update.mp hr
    refine ⟨o, ho, ?_⟩
    split <;> exact ⟨rfl, rfl, rfl⟩
  · refine Table.filter_update_le fun o _ hq => ?_
    simp only [decide_eq_true_eq, Option.or_eq_none_iff] at hq ⊢
    exact ⟨hq.1, hq.2.1⟩
  · refine Table.filter_update_le fun o _ hq => ?_
    simp at hq
  · rw [DeviceDb.unrevoked, List.filter_eq_nil_iff]
    intro a ha
    obtain ⟨o, ho, rfl⟩ := Table.mem_update.mp ha
    by_cases hd : o.deviceId = row.deviceId
    · simp [hd]
    · simp [hd]
  · rw [DeviceDb.unconsumed, List.filter_eq_nil_iff]
    intro r hr hq
    obtain ⟨o, ho, rfl⟩ := Table.mem_update.mp hr
    by_cases hhash : o.tokenHash = row.tokenHash
    · simp [hhash] at hq
    · -- the token presented is the only one of the family that is not consumed
      simp only [hhash, decide_false, Bool.false_eq_true, if_false, decide_eq_true_eq] at hq
      have hone := hi.oneRefresh c hc
      rw [hfamily] at hone
      have hsame := Table.eq_of_one hone ho hrow (by simpa using hq) (by simp [hconsumed])
      exact hhash (congrArg RefreshToken.tokenHash hsame)

theorem DeviceFamilyInv.refreshed (hi : DeviceFamilyInv s h) {row : RefreshToken}
    {c : DeviceCredential} {a : AccessToken} {r : RefreshToken} {now : ℚ} (hrow : row ∈ s.refresh)
    (hc : c ∈ s.credentials) (hdevice : c.deviceId = row.deviceId)
      (hconsumed : row.consumedAt = none)
    (hlive : c.revokedAt = none) (hpair : Pair row.deviceId c.familyId row.absoluteExpiresAt a r) :
    DeviceFamilyInv { rotateRefresh now row s with
      access := (rotateRefresh now row s).access ++ [a]
      refresh := (rotateRefresh now row s).refresh ++ [r] } (h ++ [.refreshed row.familyId]) := by
  obtain ⟨o, ho, hid, hfamily, habsolute⟩ := hi.refresh row hrow
  obtain rfl : o = c := Table.eq_of_key hi.devices ho hc (hid.trans hdevice.symm)
  obtain ⟨hrotated, hnoAccess, hnoRefresh⟩ := hi.rotate now hrow hc hfamily hconsumed
  obtain ⟨d, hd, hkept⟩ := Table.exists_right (rotateRefresh_credentials now row s) hc
  rw [← hdevice, ← hkept.deviceId] at hnoAccess hpair
  rw [← hfamily, ← hkept.familyId] at hnoRefresh
  rw [← hkept.familyId, ← habsolute, ← hkept.absolute] at hpair
  have huse : UseAllowed h (.refreshed row.familyId) :=
    hi.useAllowed hc hlive (congrArg some hfamily.symm)
  exact (hrotated.mint hd hnoAccess hnoRefresh hpair).append rfl huse

/-! ### Runs -/

theorem DeviceMove.keeps {events : List DeviceEvent}
    (hinj : ∀ a b, K.hash "confirmation-nonce" a = K.hash "confirmation-nonce" b → a = b)
    (hm : DeviceMove K s events t) (hg : DeviceGrantInv K s h) (hf : DeviceFamilyInv s h) :
    DeviceGrantInv K t (h ++ events) ∧ DeviceFamilyInv t (h ++ events) := by
  cases hm with
  | idle => exact ⟨by rwa [List.append_nil], by rwa [List.append_nil]⟩
  | started row hclash hpending hnonce =>
    exact ⟨hg.start hclash hpending hnonce,
      hf.elsewhere rfl rfl rfl rfl rfl⟩
  | touched g f hf' =>
    rw [List.append_nil]
    exact ⟨hg.touched hf', hf.frame rfl rfl rfl⟩
  | inspected row userId nonce expiresAt hrow hpending =>
    exact ⟨hg.inspect, hf.elsewhere rfl rfl rfl rfl rfl⟩
  | decided row d now hrow hformed hdecidable =>
    exact ⟨hg.decide hinj hrow hformed hdecidable, hf.elsewhere rfl rfl rfl rfl rfl⟩
  | exchanged row verifier now c a r hrow hproof happroved hclash hlive hpair =>
    exact ⟨(hg.exchange hrow hproof happroved).frame rfl,
      (hf.exchange hclash hpair).elsewhere rfl rfl rfl rfl rfl⟩
  | refreshed row c now a r hrow hc hdevice hconsumed hlive hpair =>
    have hgrants := hg.append (e := .refreshed row.familyId) (fun _ => rfl)
      fun _ _ _ he => by cases he
    exact ⟨hgrants.frame rfl, hf.refreshed hrow hc hdevice hconsumed hlive hpair⟩
  | ended row now e hrow he =>
    refine ⟨(hg.append (fun g => ?_) fun g v f => ?_).frame rfl, hf.end hrow he⟩ <;>
      rcases he with rfl | rfl
    · rfl
    · rfl
    · intro he
      cases he
    · intro he
      cases he
  | resolved c hc hlive =>
    have hgrants := hg.append (e := .resolved c.familyId) (fun _ => rfl) fun _ _ _ he => by cases he
    exact ⟨hgrants, hf.append rfl (hf.useAllowed hc hlive rfl)⟩

theorem DeviceMove.credentials {events : List DeviceEvent} (hm : DeviceMove K s events t)
    {c : DeviceCredential} (hc : c ∈ s.credentials) : ∃ d ∈ t.credentials, CredentialKept c d := by
  cases hm with
  | exchanged row verifier now d a r =>
    exact ⟨c, List.mem_append_left _ hc, .refl c⟩
  | refreshed row o now a r => exact Table.exists_right (rotateRefresh_credentials now row s) hc
  | ended row now e => exact Table.exists_right (revokeFamily_credentials now row.familyId s) hc
  | _ => exact ⟨c, hc, .refl c⟩

/-- Between calls the connection is clean, and its tables agree with what has happened. -/
structure DeviceInv (K : DeviceKeys) (w : DeviceWorld) : Prop where
  clean : w.conn = .clean w.conn.committed
  grants : DeviceGrantInv K w.conn.committed w.history
  families : DeviceFamilyInv w.conn.committed w.history

theorem deviceGrantInv_empty : DeviceGrantInv K {} [] where
  ids := List.nodup_nil
  started _ ha := absurd ha List.not_mem_nil
  inspected _ ha := absurd ha List.not_mem_nil
  approved _ ha := absurd ha List.not_mem_nil
  exchanged _ _ _ hf := absurd hf List.not_mem_nil
  exchanges := History.each_nil

theorem deviceFamilyInv_empty : DeviceFamilyInv {} [] where
  devices := List.nodup_nil
  families := List.nodup_nil
  access _ ha := absurd ha List.not_mem_nil
  refresh _ hr := absurd hr List.not_mem_nil
  oneAccess _ hc := absurd hc List.not_mem_nil
  oneRefresh _ hc := absurd hc List.not_mem_nil
  ended _ he := absurd he List.not_mem_nil
  used := History.each_nil

theorem devicePlane_step {w v : DeviceWorld} {label : DeviceDraws × ℚ × DeviceCall}
    (hclean : w.conn = .clean w.conn.committed) (hstep : (devicePlane K).step w label v) :
    ∃ events, DeviceMove K w.conn.committed events v.conn.committed ∧
      v = ⟨.clean v.conn.committed, w.history ++ events⟩ := by
  obtain ⟨fresh, now, call⟩ := label
  obtain ⟨t, events, hmove, hcall⟩ :=
    call_moves K fresh now call w.conn.committed w.history
  rw [← hclean] at hcall
  have hv : v = ⟨.clean t, w.history ++ events⟩ := Eq.trans hstep hcall
  rw [hv]
  exact ⟨events, hmove, rfl⟩

theorem DeviceInv.reachable
    (hinj : ∀ a b, K.hash "confirmation-nonce" a = K.hash "confirmation-nonce" b → a = b)
    {w : DeviceWorld} (hw : (devicePlane K).Reachable w) : DeviceInv K w := by
  refine Transition.invariant (devicePlane K) ?_ ?_ hw
  · rintro _ rfl
    exact ⟨rfl, deviceGrantInv_empty, deviceFamilyInv_empty⟩
  · intro w label v hi hstep
    obtain ⟨events, hmove, hv⟩ := devicePlane_step hi.clean hstep
    obtain ⟨hgrants, hfamilies⟩ := hmove.keeps hinj hi.grants hi.families
    rw [hv]
    exact ⟨rfl, hgrants, hfamilies⟩

theorem CredentialKept.later
    (hinj : ∀ a b, K.hash "confirmation-nonce" a = K.hash "confirmation-nonce" b → a = b)
    {w v : DeviceWorld} (hw : (devicePlane K).Reachable w) (hv : (devicePlane K).Later w v) :
    ∀ c ∈ w.conn.committed.credentials, ∃ d ∈ v.conn.committed.credentials, CredentialKept c d := by
  refine (devicePlane K).later_rel
    (R := fun w v => ∀ c ∈ w.conn.committed.credentials,
      ∃ d ∈ v.conn.committed.credentials, CredentialKept c d)
    (fun w c hc => ⟨c, hc, .refl c⟩) (fun w v u hwv hvu c hc => ?_)
    (fun w label v hw hstep c hc => ?_) hw hv
  · obtain ⟨d, hd, hcd⟩ := hwv c hc
    obtain ⟨e, he, hde⟩ := hvu d hd
    exact ⟨e, he, hcd.trans hde⟩
  · obtain ⟨events, hmove, -⟩ := devicePlane_step (DeviceInv.reachable hinj hw).clean hstep
    exact hmove.credentials hc

/-- The access tokens of a family that are not revoked. -/
def DeviceDb.familyAccess (s : DeviceDb) (familyId : String) : List AccessToken :=
  s.access.filter fun a => a.deviceId ∈ s.devicesOf familyId ∧ a.revokedAt = none

theorem DeviceFamilyInv.unconsumed_le (hi : DeviceFamilyInv s h) (familyId : String) :
    (s.unconsumed familyId).length ≤ 1 := by
  cases hrow : s.unconsumed familyId with
  | nil => exact Nat.zero_le 1
  | cons r rest =>
    have hr : r ∈ s.unconsumed familyId := hrow ▸ List.mem_cons_self
    obtain ⟨hmem, hfamily⟩ := List.mem_filter.mp hr
    obtain ⟨c, hc, -, hcfamily, -⟩ := hi.refresh r hmem
    rw [(of_decide_eq_true hfamily).1] at hcfamily
    rw [← hrow, ← hcfamily]
    exact hi.oneRefresh c hc

theorem DeviceFamilyInv.familyAccess_le (hi : DeviceFamilyInv s h) (familyId : String) :
    (s.familyAccess familyId).length ≤ 1 := by
  have hdevice : ∀ d ∈ s.devicesOf familyId,
      ∃ c ∈ s.credentials, c.familyId = familyId ∧ c.deviceId = d := by
    intro d hd
    obtain ⟨c, hc, rfl⟩ := List.mem_map.mp hd
    obtain ⟨hmem, hfamily⟩ := List.mem_filter.mp hc
    exact ⟨c, hmem, of_decide_eq_true hfamily, rfl⟩
  cases hrow : s.familyAccess familyId with
  | nil => exact Nat.zero_le 1
  | cons a rest =>
    have ha : a ∈ s.familyAccess familyId := hrow ▸ List.mem_cons_self
    obtain ⟨-, hain⟩ := List.mem_filter.mp ha
    obtain ⟨c, hc, hfamily, hcd⟩ := hdevice _ (of_decide_eq_true hain).1
    rw [← hrow]
    refine le_trans (List.Sublist.length_le (List.monotone_filter_right _ fun x hx => ?_))
      (hi.oneAccess c hc)
    have hx := of_decide_eq_true hx
    obtain ⟨o, ho, hofamily, hod⟩ := hdevice _ hx.1
    obtain rfl : o = c := Table.eq_of_key hi.families ho hc (hofamily.trans hfamily.symm)
    exact decide_eq_true ⟨hod.symm, hx.2⟩

/-- Over every run of the device store an exchange is allowed and happens once per grant, a family
has at most one refresh token and one access token, is not used after its end and keeps its absolute
expiry, and a call that raises changes nothing but the revocation of a family at its end. -/
theorem device_families
    (hinj : ∀ a b, K.hash "confirmation-nonce" a = K.hash "confirmation-nonce" b → a = b)
    {w : DeviceWorld} (hw : (devicePlane K).Reachable w) :
    History.Each (ExchangeAllowed K) w.history ∧
    (∀ familyId, (w.conn.committed.unconsumed familyId).length ≤ 1 ∧
      (w.conn.committed.familyAccess familyId).length ≤ 1) ∧
    History.Each UseAllowed w.history ∧
    (∀ v, (devicePlane K).Later w v → ∀ r ∈ w.conn.committed.refresh,
      ∀ r' ∈ v.conn.committed.refresh, r'.familyId = r.familyId →
        r'.absoluteExpiresAt = r.absoluteExpiresAt) ∧
    (∀ fresh now deviceCode verifier e,
      (exchangeDevice K fresh now deviceCode verifier w.conn).2 = .error e →
        (exchangeDevice K fresh now deviceCode verifier w.conn).1 = w.conn) ∧
    (∀ fresh now token e, (refreshDevice K fresh now token w.conn).2 = .error e →
      (refreshDevice K fresh now token w.conn).1 = w.conn ∨
      ∃ row c, w.conn.committed.refreshRow K token = some (row, c) ∧
        (row.consumedAt ≠ none ∧ e = .reuseDetected ∨ refreshEnded now row c = true) ∧
        (refreshDevice K fresh now token w.conn).1 =
          .clean (revokeFamily now row.familyId w.conn.committed)) := by
  have hi := DeviceInv.reachable hinj hw
  refine ⟨hi.grants.exchanges,
    fun f => ⟨hi.families.unconsumed_le f, hi.families.familyAccess_le f⟩,
    hi.families.used, fun v hv r hr r' hr' hsame => ?_, fun fresh now deviceCode verifier e => ?_,
    fun fresh now token e => ?_⟩
  · have hi' := DeviceInv.reachable hinj (hw.later hv)
    obtain ⟨c, hc, -, hfamily, habsolute⟩ := hi.families.refresh r hr
    obtain ⟨d', hd', -, hfamily', habsolute'⟩ := hi'.families.refresh r' hr'
    obtain ⟨d, hd, hkept⟩ := CredentialKept.later hinj hw hv c hc
    have hid : d'.familyId = d.familyId := by
      rw [hfamily', hsame, ← hfamily, hkept.familyId]
    obtain rfl := Table.eq_of_key hi'.families.families hd' hd hid
    rw [← habsolute', ← habsolute, hkept.absolute]
  · rw [hi.clean]
    exact exchangeDevice_error
  · rw [hi.clean]
    exact refreshDevice_error

section Sample

def deviceKeys : DeviceKeys where
  hash domain text := domain ++ text
  challengeOf verifier := String.ofList (verifier.toList.drop 8)
  fingerprint grantId challenge := grantId ++ challenge
  stripped _ := true

def deviceBody (length : Nat) : String := String.ofList (List.replicate length 'a')

def deviceDraws : DeviceDraws where
  starts := [("grant_1", "heel_dev_" ++ deviceBody 43, "ABCD-EFGH")]
  nonce := "heel_dcn_1"
  deviceId := "device_1"
  familyId := "family_1"
  accessToken := "heel_at_" ++ deviceBody 43
  refreshToken := "heel_rt_" ++ deviceBody 64

def laterDraws : DeviceDraws :=
  { deviceDraws with
    accessToken := "heel_at_" ++ deviceBody 42 ++ "b"
    refreshToken := "heel_rt_" ++ deviceBody 63 ++ "b" }

/-- A grant that is started, inspected, approved and exchanged; its refresh token is used twice, and
after the replay neither the newer tokens nor the grant are good for anything. -/
def deviceCalls : List (DeviceDraws × ℚ × DeviceCall) :=
  let verifier := "heel_dv_" ++ deviceBody 43
  [(deviceDraws, 0, .start ⟨"laptop", deviceBody 43, deviceBody 64⟩),
    (deviceDraws, 1, .inspect "ABCD-EFGH" "user_1"),
    (deviceDraws, 2, .decide ⟨"ABCD-EFGH", "heel_dcn_1", "user_1", "approve", some "workspace_1"⟩),
    (deviceDraws, 3, .exchange ("heel_dev_" ++ deviceBody 43) verifier),
    (laterDraws, 4, .refresh deviceDraws.refreshToken),
    (deviceDraws, 5, .resolve laterDraws.accessToken),
    (deviceDraws, 6, .refresh deviceDraws.refreshToken),
    (deviceDraws, 7, .resolve laterDraws.accessToken),
    (deviceDraws, 8, .refresh laterDraws.refreshToken),
    (deviceDraws, 9, .exchange ("heel_dev_" ++ deviceBody 43) verifier)]

def deviceWorldAfter (calls : List (DeviceDraws × ℚ × DeviceCall)) : DeviceWorld :=
  calls.foldl (fun w a => w.call deviceKeys a.1 a.2.1 a.2.2) {}

theorem deviceRun_reachable {w : DeviceWorld} (hw : (devicePlane K).Reachable w)
    (calls : List (DeviceDraws × ℚ × DeviceCall)) :
    (devicePlane K).Reachable (calls.foldl (fun w a => w.call K a.1 a.2.1 a.2.2) w) := by
  induction calls generalizing w with
  | nil => exact hw
  | cons a calls ih => exact ih (.step (a := a) hw rfl)

/-- The replay ended the family. -/
theorem device_families_sample :
    (deviceWorldAfter deviceCalls).history =
      [.started "grant_1" (deviceBody 43), .inspected "grant_1" "user_1" "heel_dcn_1" 301,
        .decided "grant_1" "user_1" "heel_dcn_1" (some "workspace_1") 2,
        .exchanged "grant_1" ("heel_dv_" ++ deviceBody 43) "family_1", .refreshed "family_1",
        .resolved "family_1", .reused "family_1"] ∧
    History.Each (ExchangeAllowed deviceKeys) (deviceWorldAfter deviceCalls).history ∧
    (((deviceWorldAfter deviceCalls).conn.committed.unconsumed "family_1").length ≤ 1 ∧
      ((deviceWorldAfter deviceCalls).conn.committed.familyAccess "family_1").length ≤ 1) ∧
    History.Each UseAllowed (deviceWorldAfter deviceCalls).history := by
  have hinj : ∀ a b, deviceKeys.hash "confirmation-nonce" a =
      deviceKeys.hash "confirmation-nonce" b → a = b :=
    fun a b hab => (String.append_right_inj _).mp hab
  obtain ⟨hexchanges, hfamilies, huses, -⟩ :=
    device_families (K := deviceKeys) hinj (deviceRun_reachable (.init rfl) deviceCalls)
  exact ⟨by decide +kernel, hexchanges, hfamilies "family_1", huses⟩

end Sample

end Heel.Cloud
