import Heel.Sync.Queue

/-! What one call on the sync queue may write and answer. -/
namespace Heel.SyncQueue
open Lib.Checks

inductive SyncCall where
  | prepare (request : Except QueueError PreparedRequest) (workspaceRef : String)
  | approve (a : HumanSyncApproval)
  | claim (key : SyncKey)
  | claimNext (workspaceRef : String) (listing : List (String × String))
  | renew (lease : SyncLease)
  | bind (lease : SyncLease) (a : TransportApproval)
  | begin (lease : SyncLease)
  | retry (authority : Handle) (due : ℚ) (code : String)
  | complete (permit : SyncTransmissionPermit) (receipt : Option Receipt)

def SyncCall.presents : SyncCall → Option Handle
  | .renew lease | .bind lease _ | .begin lease => some (.lease lease)
  | .retry authority _ _ => some authority
  | .complete permit _ => some (.permit permit)
  | _ => none

/-- A call of a worker: its clock reading, its limit and its draws. -/
structure SyncTurn where
  now : ℚ
  config : QueueConfig
  draws : List String := []
  permitToken : String := ""
  call : SyncCall

inductive SyncAnswer where
  | record (r : SyncRecord)
  | handle (h : Option Handle)
  | flag (done : Bool)
  | refused (e : QueueError)
  deriving DecidableEq, Repr

def SyncAnswer.yields : SyncAnswer → Option Handle
  | .handle h => h
  | _ => none

/-- An answer that yields a handle or reports success. -/
def SyncAnswer.succeeds : SyncAnswer → Bool
  | .handle h => h.isSome
  | .flag done => done
  | _ => false

def reply {α : Type} (f : α → SyncAnswer) :
    Except QueueError (Outcome α) → Option SyncRecord × SyncAnswer
  | .ok o => (o.written, f o.value)
  | .error e => (none, .refused e)

variable (K : StoredRequests) (files : Files)

def SyncTurn.respond (turn : SyncTurn) : Option SyncRecord × SyncAnswer :=
  let leased := fun l : Option SyncLease => SyncAnswer.handle (l.map .lease)
  match turn.call with
  | .prepare request workspaceRef => reply .record (prepare K files request workspaceRef)
  | .approve a => reply .record (recordHumanApproval K files turn.now a)
  | .claim key => reply leased (claim K files turn.now turn.config turn.draws key)
  | .claimNext workspaceRef listing =>
    reply leased (claimNext K files turn.now turn.config turn.draws workspaceRef listing)
  | .renew lease => reply leased (renew K files turn.now turn.config turn.draws lease)
  | .bind lease a => reply leased (bindTransportApproval K files turn.now lease a)
  | .begin lease => reply (fun p => .handle (p.map .permit))
      (beginTransmission K files turn.now turn.permitToken lease)
  | .retry authority due code => reply .flag (scheduleRetry K files turn.now authority due code)
  | .complete permit receipt => reply .flag (complete K files turn.now permit receipt)

def SyncRecord.holder (r : SyncRecord) : Option Handle :=
  if r.receipt.isSome then none
  else match r.transmission with
    | some t => some (.permit ⟨t.permitToken, t.begunAt, t.effectiveExpiresAt, r⟩)
    | none => r.retry.leaseToken.bind fun token =>
      r.retry.leaseExpiresAt.map fun expires => .lease ⟨token, expires, r⟩

inductive SyncMove (turn : SyncTurn) : Option SyncRecord → SyncAnswer → Prop
  | quiet (answer : SyncAnswer) (hquiet : answer.succeeds = false) : SyncMove turn none answer
  | prepared (r : SyncRecord) (hnew : files r.toSyncKey = none) (hhuman : r.humanApproval = none)
    (htransport : r.transportApproval = none) (hnone : r.holder = none) :
    SyncMove turn (some r) (.record r)
  | approved (a : HumanSyncApproval) (r : SyncRecord) (hcall : turn.call = .approve a)
    (hr : files r.toSyncKey = some r) (hkey : r.toSyncKey = a.toSyncKey) (hopen : r.receipt = none)
    (hdue : ∀ h ∈ r.humanApproval, h.expiresAt ≤ turn.now) :
    SyncMove turn (some (r.approve turn.now ⟨a.approvedAt, a.expiresAt⟩))
      (.record (r.approve turn.now ⟨a.approvedAt, a.expiresAt⟩))
  | claimed (r : SyncRecord) (token : String) (expires : ℚ) (hcall : turn.call.presents = none)
    (hr : files r.toSyncKey = some r) (hclaimable : claimable turn.now r = true) :
    SyncMove turn (some (r.claimed token expires))
      (.handle (some (.lease ⟨token, expires, r.claimed token expires⟩)))
  | renewed (lease : SyncLease) (r : SyncRecord) (token : String) (expires : ℚ)
    (hcall : turn.call = .renew lease) (hr : files r.toSyncKey = some r)
    (hheld : r.holder = some (.lease lease)) :
    SyncMove turn (some (r.renewed turn.now token expires))
      (.handle (some (.lease ⟨token, expires, r.renewed turn.now token expires⟩)))
  | bound (lease : SyncLease) (a : TransportApproval) (r : SyncRecord)
    (hcall : turn.call = .bind lease a) (hr : files r.toSyncKey = some r)
    (hheld : r.holder = some (.lease lease)) (hkey : a.toSyncKey = r.toSyncKey) :
    SyncMove turn (some (r.bound a))
      (.handle (some (.lease ⟨lease.leaseToken, lease.leaseExpiresAt, r.bound a⟩)))
  | begun (lease : SyncLease) (r : SyncRecord) (human : StoredHumanApproval)
    (transport : StoredTransportApproval) (effective : ℚ) (hcall : turn.call = .begin lease)
    (hr : files r.toSyncKey = some r) (hheld : r.holder = some (.lease lease))
    (hhuman : r.humanApproval = some human) (htransport : r.transportApproval = some transport)
    (happroved : human.approvedAt ≤ turn.now) (hauthorized : transport.approvedAt ≤ turn.now)
    (heffective : effective = min (min human.expiresAt transport.expiresAt) lease.leaseExpiresAt)
    (hlive : turn.now < effective) (t : SyncRecord)
    (ht : t = { r with
      transmission :=
        some ⟨turn.permitToken, lease.leaseToken, r.requestDigest, turn.now, effective⟩
      receipt := none }) :
    SyncMove turn (some t) (.handle (some (.permit ⟨turn.permitToken, turn.now, effective, t⟩)))
  | retried (authority : Handle) (r : SyncRecord) (due : ℚ) (code : String)
    (hcall : turn.call = .retry authority due code) (hr : files r.toSyncKey = some r)
    (hheld : r.holder = some authority) : SyncMove turn (some (r.retried due code)) (.flag true)
  | completed (permit : SyncTransmissionPermit) (r : SyncRecord) (receipt : Receipt)
    (hcall : turn.call = .complete permit (some receipt)) (hr : files r.toSyncKey = some r)
    (hheld : r.holder = some (.permit permit)) :
    SyncMove turn (some (r.completed receipt)) (.flag true)

variable {K files} {turn : SyncTurn} {now : ℚ}

theorem readable_some {key : SyncKey} {r : SyncRecord} (h : readable K files key = some r) :
    files r.toSyncKey = some r ∧ r.toSyncKey = key := by
  obtain ⟨hfile, hvalid⟩ := Option.filter_eq_some_iff.mp h
  have hkey : r.toSyncKey = key := (of_decide_eq_true hvalid).1
  exact ⟨hkey ▸ hfile, hkey⟩

theorem readRecord_some {key : SyncKey} {r : SyncRecord}
    (h : readRecord K files key = .ok (some r)) :
    files r.toSyncKey = some r ∧ r.toSyncKey = key := by
  apply readable_some (K := K)
  unfold readRecord at h
  cases hfile : files key with
  | none =>
    rw [hfile] at h
    cases h
  | some o =>
    rw [hfile] at h
    dsimp only at h
    split at h
    · cases h
      rw [readable, hfile, Option.filter_some, if_pos ‹_›]
    · cases h

theorem readRecord_none {key : SyncKey} (h : readRecord K files key = .ok none) :
    files key = none := by
  unfold readRecord at h
  cases hfile : files key with
  | none => rfl
  | some o =>
    rw [hfile] at h
    dsimp only at h
    split at h <;> cases h

theorem leaseMatches_holder {r : SyncRecord} {lease : SyncLease}
    (hvalid : validateLeaseHandle lease = .ok ()) (h : leaseMatches now r lease = true) :
    r.holder = some (.lease lease) := by
  have hfields := of_decide_eq_true h
  simp only [validateLeaseHandle, bind_ok, require_ok, not_or, not_not] at hvalid
  obtain ⟨-, -, -, -, -, -, htransmission⟩ := hvalid
  obtain ⟨token, expires, record⟩ := lease
  obtain ⟨h1, h2, h3, h4, h5, h6, h7, h8, h9, hreceipt, htoken, hexpires, -⟩ := hfields
  have hsame : r = record := by
    rcases r with ⟨⟨_, _, _⟩, _, _, _, _, _, _⟩
    rcases record with ⟨⟨_, _, _⟩, _, _, _, _, _, _⟩
    simp only at h1 h2 h3 h4 h5 h6 h7 h8 h9
    rw [h1, h2, h3, h4, h5, h6, h7, h8, h9]
  subst hsame
  simp only at htransmission htoken hexpires
  simp [SyncRecord.holder, hreceipt, htransmission, htoken, hexpires]

theorem permitMatches_holder {r : SyncRecord} {permit : SyncTransmissionPermit}
    (hvalid : validatePermitHandle permit = .ok ()) (h : permitMatches r permit = true) :
    r.holder = some (.permit permit) := by
  obtain ⟨hsame, hreceipt, -⟩ := of_decide_eq_true h
  simp only [validatePermitHandle, bind_ok, require_ok] at hvalid
  obtain ⟨-, -, -, -, -, -, hany⟩ := hvalid
  obtain ⟨token, begunAt, effective, record⟩ := permit
  simp only at hsame hany
  subst hsame
  cases htransmission : r.transmission with
  | none => simp [htransmission] at hany
  | some t =>
    simp only [htransmission, Option.any_some, decide_eq_true_eq] at hany
    obtain ⟨rfl, rfl, rfl, -, -⟩ := hany
    simp [SyncRecord.holder, hreceipt, htransmission]

theorem updateLiveLease_some {lease : SyncLease} {t : SyncRecord}
    {update : SyncRecord → Except QueueError (Option SyncRecord)}
    (h : updateLiveLease K files now lease update = .ok (some t)) :
    ∃ r, files r.toSyncKey = some r ∧ r.holder = some (.lease lease) ∧ update r = .ok (some t) := by
  simp only [updateLiveLease, bind_ok] at h
  obtain ⟨_, hvalid, h⟩ := h
  cases hread : readable K files lease.record.toSyncKey with
  | none =>
    rw [hread] at h
    cases h
  | some r =>
    simp only [hread, bind_ok] at h
    obtain ⟨-, -, h⟩ := h
    by_cases hmatch : leaseMatches now r lease = true
    · rw [if_pos hmatch] at h
      exact ⟨r, (readable_some hread).1, leaseMatches_holder hvalid hmatch, h⟩
    · rw [if_neg hmatch] at h
      cases h

theorem updateCurrentPermit_some {permit : SyncTransmissionPermit} {t : SyncRecord}
    {update : SyncRecord → Except QueueError (Option SyncRecord)}
    (h : updateCurrentPermit K files now permit update = .ok (some t)) :
    ∃ r, files r.toSyncKey = some r ∧ r.holder = some (.permit permit) ∧
        update r = .ok (some t) := by
  simp only [updateCurrentPermit, bind_ok] at h
  obtain ⟨_, hvalid, h⟩ := h
  cases hread : readable K files permit.record.toSyncKey with
  | none =>
    rw [hread] at h
    cases h
  | some r =>
    simp only [hread, bind_ok] at h
    obtain ⟨-, -, h⟩ := h
    by_cases hmatch : permitMatches r permit = true
    · rw [if_pos hmatch] at h
      exact ⟨r, (readable_some hread).1, permitMatches_holder hvalid hmatch, h⟩
    · rw [if_neg hmatch] at h
      cases h

theorem updateHeld_some {authority : Handle} {t : SyncRecord}
    {update : SyncRecord → Except QueueError (Option SyncRecord)}
    (h : updateHeld K files now authority update = .ok (some t)) :
    ∃ r, files r.toSyncKey = some r ∧ r.holder = some authority ∧ update r = .ok (some t) := by
  cases authority with
  | lease lease => exact updateLiveLease_some h
  | permit permit => exact updateCurrentPermit_some h

theorem holder_spec {r : SyncRecord} {h : Handle} (hheld : r.holder = some h) :
    r.receipt = none ∧ h.record = r := by
  unfold SyncRecord.holder at hheld
  cases hreceipt : r.receipt with
  | some c =>
    rw [hreceipt] at hheld
    cases hheld
  | none =>
    rw [hreceipt] at hheld
    cases htransmission : r.transmission with
    | some t =>
      rw [htransmission] at hheld
      cases hheld
      exact ⟨rfl, rfl⟩
    | none =>
      rw [htransmission] at hheld
      obtain ⟨token, -, hmap⟩ := Option.bind_eq_some_iff.mp hheld
      obtain ⟨expires, -, rfl⟩ := Option.map_eq_some_iff.mp hmap
      exact ⟨rfl, rfl⟩

theorem holder_lease {r : SyncRecord} {lease : SyncLease} (hheld : r.holder = some (.lease lease)) :
    r.transmission = none ∧ r.retry.leaseToken = some lease.leaseToken ∧
      r.retry.leaseExpiresAt = some lease.leaseExpiresAt := by
  have hreceipt := (holder_spec hheld).1
  unfold SyncRecord.holder at hheld
  rw [hreceipt] at hheld
  cases htransmission : r.transmission with
  | some t =>
    rw [htransmission] at hheld
    cases hheld
  | none =>
    rw [htransmission] at hheld
    obtain ⟨token, htoken, hmap⟩ := Option.bind_eq_some_iff.mp hheld
    obtain ⟨expires, hexpires, hlease⟩ := Option.map_eq_some_iff.mp hmap
    cases hlease
    exact ⟨rfl, htoken, hexpires⟩

theorem holder_permit {r : SyncRecord} {permit : SyncTransmissionPermit}
    (hheld : r.holder = some (.permit permit)) :
    ∃ t, r.transmission = some t ∧ permit.effectiveExpiresAt = t.effectiveExpiresAt := by
  have hreceipt := (holder_spec hheld).1
  unfold SyncRecord.holder at hheld
  rw [hreceipt] at hheld
  cases htransmission : r.transmission with
  | some t =>
    rw [htransmission] at hheld
    cases hheld
    exact ⟨t, rfl, rfl⟩
  | none =>
    rw [htransmission] at hheld
    obtain ⟨token, -, hmap⟩ := Option.bind_eq_some_iff.mp hheld
    obtain ⟨expires, -, hlease⟩ := Option.map_eq_some_iff.mp hmap
    cases hlease

/-- The answer of a call that writes nothing yields nothing. -/
def Silent {α : Type} (f : α → SyncAnswer) (o : Outcome α) : Prop :=
  o.written = none ∧ (f o.value).succeeds = false

theorem reply_move {α : Type} {f : α → SyncAnswer} {x : Except QueueError (Outcome α)}
    (h : ∀ o, x = .ok o → Silent f o ∨ SyncMove files turn o.written (f o.value)) :
    SyncMove files turn (reply f x).1 (reply f x).2 := by
  cases x with
  | error e => exact .quiet _ rfl
  | ok o =>
    rcases h o rfl with ⟨hwritten, hquiet⟩ | hmove
    · rw [show (reply f (.ok o)).1 = none from hwritten]
      exact .quiet _ hquiet
    · exact hmove

theorem prepare_move {request : Except QueueError PreparedRequest} {workspaceRef : String}
    {o : Outcome SyncRecord} (h : prepare K files request workspaceRef = .ok o) :
    Silent .record o ∨ SyncMove files turn o.written (.record o.value) := by
  simp only [prepare, bind_ok] at h
  obtain ⟨-, -, validated, -, found, hfound, h⟩ := h
  cases found with
  | some existing =>
    simp only [bind_ok, require_ok] at h
    obtain ⟨-, -, h⟩ := h
    cases h
    exact .inl ⟨rfl, rfl⟩
  | none =>
    cases h
    exact .inr (.prepared _ (readRecord_none hfound) rfl rfl rfl)

theorem recordHumanApproval_move {a : HumanSyncApproval} {o : Outcome SyncRecord}
    (hcall : turn.call = .approve a) (h : recordHumanApproval K files turn.now a = .ok o) :
    Silent .record o ∨ SyncMove files turn o.written (.record o.value) := by
  simp only [recordHumanApproval, bind_ok] at h
  obtain ⟨-, -, found, hfound, h⟩ := h
  cases found with
  | none => cases h
  | some current =>
    simp only [bind_ok] at h
    obtain ⟨-, -, approved, happroved, h⟩ := h
    obtain ⟨hfile, hkey⟩ := readRecord_some hfound
    simp only [validateHumanApproval, bind_ok] at happroved
    obtain ⟨-, -, -, -, -, -, happroved⟩ := happroved
    cases happroved
    by_cases hsame : current.receipt.isSome = true ∨
        current.humanApproval = some ⟨a.approvedAt, a.expiresAt⟩
    · rw [if_pos hsame] at h
      cases h
      exact .inl ⟨rfl, rfl⟩
    · rw [if_neg hsame] at h
      simp only [bind_ok, require_ok] at h
      obtain ⟨-, hdue, h⟩ := h
      cases h
      refine .inr (.approved a current hcall hfile hkey (by simpa using (not_or.mp hsame).1) ?_)
      intro human hhuman
      rw [Option.mem_def.mp hhuman] at hdue
      simpa using hdue

theorem claimLocked_move {r : SyncRecord} {o : Outcome (Option SyncLease)}
    (hcall : turn.call.presents = none) (hr : files r.toSyncKey = some r)
    (h : claimLocked turn.now turn.config turn.draws r = .ok o) :
    Silent (fun l => .handle (l.map .lease)) o ∨
      SyncMove files turn o.written (.handle (o.value.map .lease)) := by
  unfold claimLocked at h
  by_cases hclaimable : claimable turn.now r = true
  · rw [if_pos hclaimable, bind_ok] at h
    obtain ⟨token, -, h⟩ := h
    cases h
    exact .inr (.claimed r token _ hcall hr hclaimable)
  · rw [if_neg hclaimable] at h
    cases h
    exact .inl ⟨rfl, rfl⟩

theorem claim_move {key : SyncKey} {o : Outcome (Option SyncLease)}
    (hcall : turn.call.presents = none)
    (h : claim K files turn.now turn.config turn.draws key = .ok o) :
    Silent (fun l => .handle (l.map .lease)) o ∨
      SyncMove files turn o.written (.handle (o.value.map .lease)) := by
  simp only [claim, bind_ok] at h
  obtain ⟨-, -, h⟩ := h
  cases hread : readable K files key with
  | none =>
    rw [hread] at h
    cases h
    exact .inl ⟨rfl, rfl⟩
  | some current =>
    simp only [hread, bind_ok] at h
    obtain ⟨-, -, h⟩ := h
    exact claimLocked_move hcall (readable_some hread).1 h

theorem soonest_mem {records : List SyncRecord} {r : SyncRecord} (h : soonest records = some r) :
    r ∈ records := by
  induction records generalizing r with
  | nil => cases h
  | cons o rest ih =>
    unfold soonest at h
    cases hrest : soonest rest with
    | none =>
      rw [hrest] at h
      cases h
      exact List.mem_cons_self
    | some p =>
      rw [hrest] at h
      dsimp only at h
      split at h
      · cases h
        exact List.mem_cons_of_mem _ (ih hrest)
      · cases h
        exact List.mem_cons_self

theorem claimNext_move {workspaceRef : String} {listing : List (String × String)}
    {o : Outcome (Option SyncLease)} (hcall : turn.call.presents = none)
    (h : claimNext K files turn.now turn.config turn.draws workspaceRef listing = .ok o) :
    Silent (fun l => .handle (l.map .lease)) o ∨
      SyncMove files turn o.written (.handle (o.value.map .lease)) := by
  simp only [claimNext, bind_ok] at h
  obtain ⟨-, -, -, -, h⟩ := h
  cases hsoonest : soonest _ with
  | none =>
    rw [hsoonest] at h
    cases h
    exact .inl ⟨rfl, rfl⟩
  | some r =>
    rw [hsoonest] at h
    obtain ⟨name, -, hread⟩ := List.mem_filterMap.mp (List.mem_filter.mp (soonest_mem hsoonest)).1
    exact claimLocked_move hcall (readable_some hread).1 h

theorem renew_move {lease : SyncLease} {o : Outcome (Option SyncLease)}
    (hcall : turn.call = .renew lease)
    (h : renew K files turn.now turn.config turn.draws lease = .ok o) :
    Silent (fun l => .handle (l.map .lease)) o ∨
      SyncMove files turn o.written (.handle (o.value.map .lease)) := by
  simp only [renew, bind_ok] at h
  obtain ⟨token, -, result, hresult, h⟩ := h
  cases h
  cases result with
  | none => exact .inl ⟨rfl, rfl⟩
  | some updated =>
    obtain ⟨r, hr, hheld, hupdate⟩ := updateLiveLease_some hresult
    simp only [pure, Except.pure, Except.ok.injEq, Option.ite_none_right_eq_some,
      Option.some.injEq] at hupdate
    obtain ⟨-, rfl⟩ := hupdate
    exact .inr (.renewed lease r token _ hcall hr hheld)

theorem bindTransportApproval_move {lease : SyncLease} {a : TransportApproval}
    {o : Outcome (Option SyncLease)} (hcall : turn.call = .bind lease a)
    (h : bindTransportApproval K files turn.now lease a = .ok o) :
    Silent (fun l => .handle (l.map .lease)) o ∨
      SyncMove files turn o.written (.handle (o.value.map .lease)) := by
  simp only [bindTransportApproval, bind_ok, require_ok] at h
  obtain ⟨-, -, -, -, -, -, -, hadmissible, result, hresult, h⟩ := h
  cases h
  cases result with
  | none => exact .inl ⟨rfl, rfl⟩
  | some updated =>
    obtain ⟨r, hr, hheld, hupdate⟩ := updateLiveLease_some hresult
    simp only [bind_ok, require_ok] at hupdate
    obtain ⟨-, -, -, -, hupdate⟩ := hupdate
    cases hupdate
    refine .inr (.bound lease a r hcall hr hheld ?_)
    have hrecord : lease.record = r := (holder_spec hheld).2
    have hbinds := of_decide_eq_true hadmissible
    simp only [not_or, not_not, hrecord] at hbinds
    obtain ⟨hworkspace, hproject, hdigest, -⟩ := hbinds
    rw [SyncKey.mk.injEq]
    exact ⟨hworkspace, hproject, hdigest⟩

theorem beginTransmission_move {lease : SyncLease} {o : Outcome (Option SyncTransmissionPermit)}
    (hcall : turn.call = .begin lease)
    (h : beginTransmission K files turn.now turn.permitToken lease = .ok o) :
    Silent (fun p => .handle (p.map .permit)) o ∨
      SyncMove files turn o.written (.handle (o.value.map .permit)) := by
  simp only [beginTransmission, bind_ok] at h
  obtain ⟨result, hresult, h⟩ := h
  cases h
  cases result with
  | none => exact .inl ⟨rfl, rfl⟩
  | some updated =>
    obtain ⟨r, hr, hheld, hupdate⟩ := updateLiveLease_some hresult
    obtain ⟨-, -, hexpires⟩ := holder_lease hheld
    unfold beginUpdate at hupdate
    cases hhuman : r.humanApproval.filter _ with
    | none =>
      rw [hhuman] at hupdate
      cases hupdate
    | some human =>
      cases htransport : r.transportApproval.filter _ with
      | none =>
        rw [hhuman] at hupdate
        dsimp only at hupdate
        rw [htransport] at hupdate
        cases hupdate
      | some transport =>
        rw [hhuman] at hupdate
        dsimp only at hupdate
        rw [htransport, hexpires] at hupdate
        simp only [bind_ok, require_ok] at hupdate
        obtain ⟨-, hlive, hupdate⟩ := hupdate
        cases hupdate
        obtain ⟨hrhuman, happroved⟩ := Option.filter_eq_some_iff.mp hhuman
        obtain ⟨hrtransport, hauthorized⟩ := Option.filter_eq_some_iff.mp htransport
        exact .inr (.begun lease r human transport _ hcall hr hheld hrhuman hrtransport
          (of_decide_eq_true happroved).1 (of_decide_eq_true hauthorized).1 rfl hlive _ rfl)

theorem scheduleRetry_move {authority : Handle} {due : ℚ} {code : String} {o : Outcome Bool}
    (hcall : turn.call = .retry authority due code)
    (h : scheduleRetry K files turn.now authority due code = .ok o) :
    Silent .flag o ∨ SyncMove files turn o.written (.flag o.value) := by
  simp only [scheduleRetry, bind_ok] at h
  obtain ⟨-, -, -, -, result, hresult, h⟩ := h
  cases h
  cases result with
  | none => exact .inl ⟨rfl, rfl⟩
  | some updated =>
    obtain ⟨r, hr, hheld, hupdate⟩ := updateHeld_some hresult
    rw [bind_ok] at hupdate
    obtain ⟨-, -, hupdate⟩ := hupdate
    cases hupdate
    exact .inr (.retried authority r due code hcall hr hheld)

theorem complete_move {permit : SyncTransmissionPermit} {receipt : Option Receipt}
    {o : Outcome Bool} (hcall : turn.call = .complete permit receipt)
    (h : complete K files turn.now permit receipt = .ok o) :
    Silent .flag o ∨ SyncMove files turn o.written (.flag o.value) := by
  simp only [complete, bind_ok] at h
  obtain ⟨-, -, -, -, h⟩ := h
  cases hfilter : receipt.filter _ with
  | none =>
    rw [hfilter] at h
    cases h
  | some c =>
    simp only [hfilter, bind_ok] at h
    obtain ⟨result, hresult, h⟩ := h
    cases h
    cases result with
    | none => exact .inl ⟨rfl, rfl⟩
    | some updated =>
      obtain ⟨r, hr, hheld, hupdate⟩ := updateCurrentPermit_some hresult
      rw [bind_ok] at hupdate
      obtain ⟨-, -, hupdate⟩ := hupdate
      cases hupdate
      rw [(Option.filter_eq_some_iff.mp hfilter).1] at hcall
      exact .inr (.completed permit r c hcall hr hheld)

theorem respond_move (K : StoredRequests) (files : Files) (turn : SyncTurn) :
    SyncMove files turn (turn.respond K files).1 (turn.respond K files).2 := by
  unfold SyncTurn.respond
  cases hcall : turn.call with
  | prepare request workspaceRef => exact reply_move fun o h => prepare_move h
  | approve a => exact reply_move fun o h => recordHumanApproval_move hcall h
  | claim key =>
    exact reply_move fun o h => claim_move (congrArg SyncCall.presents hcall) h
  | claimNext workspaceRef listing =>
    exact reply_move fun o h => claimNext_move (congrArg SyncCall.presents hcall) h
  | renew lease => exact reply_move fun o h => renew_move hcall h
  | bind lease a => exact reply_move fun o h => bindTransportApproval_move hcall h
  | begin lease => exact reply_move fun o h => beginTransmission_move hcall h
  | retry authority due code => exact reply_move fun o h => scheduleRetry_move hcall h
  | complete permit receipt => exact reply_move fun o h => complete_move hcall h

end Heel.SyncQueue
