import Heel.Saas.RunnerRetention

/-! What one item of retention work may do to the tables, what the tables of runner authentication
satisfy for it, and that a lane does nothing else. -/
namespace Heel.RunnerAuth
open Lib Lib.Checks Cloud

def AuthDb.Names (db : AuthDb) (k : KeyRef) : Prop :=
  (∃ row ∈ db.identities, row.identity.workspaceId = k.workspaceId ∧
    row.identity.runnerId = k.runnerId ∧ row.identity.keyId = k.keyId) ∨
  (∃ r ∈ db.ledger, r.toKeyRef = k) ∨ (∃ r ∈ db.references, r.2 = k) ∨
  (∃ p ∈ db.pairings, p.workspaceId = k.workspaceId ∧ p.runnerId = k.runnerId ∧
    p.keyId = some k.keyId) ∨
  ∃ r ∈ db.rotations, r.workspaceId = k.workspaceId ∧ r.runnerId = k.runnerId ∧
    (r.keyId = k.keyId ∨ r.oldKeyId = k.keyId)

/-- The pairing or rotation has ended and its time is over. -/
def Pairing.Over (now : ℚ) (p : Pairing) : Prop :=
  p.expiresAt ≤ now ∧ p.status ∈ [PairingStatus.activated, .expired]

def Rotation.Over (now : ℚ) (r : Rotation) : Prop :=
  r.expiresAt ≤ now ∧ r.status ∈ [RotationStatus.rotated, .expired]

/-- One logical item of retention work, with what entitles the reaper to it. -/
inductive Work (now : ℚ) : AuthDb → AuthDb → Prop
  | requestReceipt {db : AuthDb} {r : LedgerRow} (hr : r ∈ db.ledger)
      (hexpired : r.retentionExpiresAt ≤ now) : Work now db { db with ledger := db.ledger.erase r }
  | receipt {db : AuthDb} {lane : Lane} {r : Receipt} (hr : r ∈ db.receipts lane)
      (hexpired : r.expiresAt ≤ now) :
      Work now db (db.setReceipts ((db.receipts lane).erase r) lane)
  | pairing {db : AuthDb} {p : Pairing} (hp : p ∈ db.pairings) (hover : p.Over now)
      (hfree : ∀ r ∈ db.pairingReceipts ++ db.pairingAborts, r.pairingId ≠ p.pairingId) :
      Work now db { db with
        pairings := db.pairings.erase p
        pairingProtocols := db.pairingProtocols.filter fun o => o.pairingId ≠ p.pairingId }
  | rotation {db : AuthDb} {r : Rotation} (hr : r ∈ db.rotations) (hover : r.Over now)
      (hfree : ∀ o ∈ db.rotationReceipts ++ db.rotationAborts, o.pairingId ≠ r.pairingId) :
      Work now db { db with rotations := db.rotations.erase r }
  | oldKey {db : AuthDb} {k : Key} {revokedAt : ℚ} (hk : k ∈ db.keys)
      (hstatus : k.status = .verificationOnly) (hrevoked : k.revokedAt = some revokedAt)
      (heligible : revokedAt + receiptRetention ≤ now) (hfree : ¬ db.Names k.toKeyRef) :
      Work now db { db with
        keys := db.keys.erase k
        queue := db.queue.filter fun o => o.toKeyRef ≠ k.toKeyRef }
  | reschedule {db : AuthDb} {q : QueueRow} (hnamed : db.Names q.toKeyRef) :
      Work now db { db with queue := Table.update (q.matchesDue now) (q.postponed now) db.queue }

/-- So many items of work, one after the other. -/
inductive Works (now : ℚ) : Nat → AuthDb → AuthDb → Prop
  | refl {db : AuthDb} : Works now 0 db db
  | tail {n : Nat} {db mid db' : AuthDb} (h : Works now n db mid) (hwork : Work now mid db') :
      Works now (n + 1) db db'

theorem Works.trans {now : ℚ} {m n : Nat} {a b c : AuthDb} (hab : Works now m a b)
    (hbc : Works now n b c) : Works now (m + n) a c := by
  induction hbc with
  | refl => exact hab
  | tail _ hwork ih => exact .tail (ih hab) hwork

/-- Pairings have distinct ids, and an aborted one has expired. -/
structure PairingsInv (pairings : List Pairing) (aborts : List Receipt) : Prop where
  ids : (pairings.map Pairing.pairingId).Nodup
  aborted : ∀ r ∈ aborts, ∃ p ∈ pairings, p.pairingId = r.pairingId ∧ p.status = .expired
  ascii : ∀ p ∈ pairings, Containment.isAscii p.runnerId = true

def IdentityRow.of (workspaceId runnerId : String) (row : IdentityRow) : Prop :=
  row.identity.workspaceId = workspaceId ∧ row.identity.runnerId = runnerId

/-- A runner has at most one open rotation, and while it has one its identity is not active. -/
structure RotationsInv (P : Platform) (runners : List Runner) (identities : List IdentityRow)
    (rotations : List Rotation) : Prop where
  ids : (rotations.map Rotation.pairingId).Nodup
  known : ∀ r ∈ rotations, ∃ o ∈ runners, o.runnerId = r.runnerId
  one : ∀ a ∈ rotations, ∀ b ∈ rotations, a.isOpen = true → b.isOpen = true →
    a.workspaceId = b.workspaceId → a.runnerId = b.runnerId → a = b
  held : ∀ r ∈ rotations, r.isOpen = true → ∀ row ∈ identities,
    row.of r.workspaceId r.runnerId → row.identity.state ≠ .active
  normal : ∀ row ∈ identities, P.nfc row.identity.workspaceId = row.identity.workspaceId ∧
    P.nfc row.identity.runnerId = row.identity.runnerId

/-- A queued key is not tried before thirty days after the end of its overlap. -/
def QueueRow.Waits (q : QueueRow) : Prop := q.revokedAt + receiptRetention ≤ q.nextAttemptAt

structure AuthInv (P : Platform) (db : AuthDb) : Prop where
  pairings : PairingsInv db.pairings db.pairingAborts
  rotations : RotationsInv P db.runners db.identities db.rotations
  queue : ∀ q ∈ db.queue, q.Waits

theorem RotationsInv.mono {P : Platform} {runners : List Runner} {identities : List IdentityRow}
    {rotations kept : List Rotation} (h : RotationsInv P runners identities rotations)
    (hsub : kept.Sublist rotations) : RotationsInv P runners identities kept where
  ids := h.ids.sublist (hsub.map _)
  known r hr := h.known r (hsub.subset hr)
  one a ha b hb := h.one a (hsub.subset ha) b (hsub.subset hb)
  held r hr := h.held r (hsub.subset hr)
  normal := h.normal

theorem PairingsInv.mono {pairings kept : List Pairing} {aborts left : List Receipt}
    (h : PairingsInv pairings aborts) (hsub : kept.Sublist pairings)
    (hleft : ∀ r ∈ left, r ∈ aborts)
    (hkept : ∀ p ∈ pairings, p.status = .expired → (∃ r ∈ left, r.pairingId = p.pairingId) →
      p ∈ kept) : PairingsInv kept left where
  ids := h.ids.sublist (hsub.map _)
  aborted r hr := by
    obtain ⟨p, hp, hid, hexpired⟩ := h.aborted r (hleft r hr)
    exact ⟨p, hkept p hp hexpired ⟨r, hr, hid.symm⟩, hid, hexpired⟩
  ascii p hp := h.ascii p (hsub.subset hp)

variable {P : Platform} {now : ℚ} {db db' : AuthDb}

theorem retryDelay_pos (attempts : Nat) : 0 < retryDelay attempts := by
  unfold retryDelay
  positivity

theorem Work.keeps (h : AuthInv P db) (hw : Work now db db') : AuthInv P db' := by
  cases hw with
  | requestReceipt hr hexpired => exact ⟨h.pairings, h.rotations, h.queue⟩
  | @receipt lane r hr hexpired =>
    cases lane with
    | pairingAborts =>
      exact ⟨h.pairings.mono (List.Sublist.refl _) (fun _ ho => List.mem_of_mem_erase ho)
        fun p hp _ _ => hp, h.rotations, h.queue⟩
    | _ => exact ⟨h.pairings, h.rotations, h.queue⟩
  | @pairing p hp hover hfree =>
    refine ⟨h.pairings.mono List.erase_sublist (fun _ hr => hr) ?_, h.rotations, h.queue⟩
    intro o ho _ haborted
    obtain ⟨r, hr, hid⟩ := haborted
    apply (List.mem_erase_of_ne ?_).mpr ho
    rintro rfl
    exact hfree r (List.mem_append_right _ hr) hid
  | rotation hr hover hfree =>
    exact ⟨h.pairings, h.rotations.mono List.erase_sublist, h.queue⟩
  | oldKey hk hstatus hrevoked heligible hfree =>
    exact ⟨h.pairings, h.rotations, fun q hq => h.queue q (List.mem_of_mem_filter hq)⟩
  | @reschedule q hnamed =>
    refine ⟨h.pairings, h.rotations, fun o ho => ?_⟩
    obtain ⟨before, hbefore, rfl⟩ := Table.mem_update.mp ho
    split
    · rename_i hmatch
      have hwaits := h.queue before hbefore
      have hdelay := retryDelay_pos q.attemptCount
      simp only [QueueRow.matchesDue, decide_eq_true_eq] at hmatch
      simp only [QueueRow.Waits, QueueRow.postponed] at hwaits ⊢
      linarith [hmatch.2.2.1]
    · exact h.queue before hbefore

theorem Works.keeps (h : AuthInv P db) {n : Nat} (hw : Works now n db db') : AuthInv P db' := by
  induction hw with
  | refl => exact h
  | tail _ hwork ih => exact hwork.keeps (ih h)

theorem deleteOne_ok {ρ : Type} {p : ρ → Bool} {rows left : List ρ} :
    deleteOne p rows = .ok left ↔
      (rows.filter p).length = 1 ∧ (rows.filter fun r => ¬ p r) = left := by
  simp [deleteOne, pure, Except.pure]

/-- How far a loop has got that deletes rows of one table by their key. `Rest` says what it leaves
alone. -/
structure Deleted {ρ κ : Type} [DecidableEq κ] (now : ℚ) (get : AuthDb → List ρ) (key : ρ → κ)
    (Rest : AuthDb → Prop) (db : AuthDb) (gone : List ρ) (s : AuthDb) : Prop where
  works : Works now gone.length db s
  rest : Rest s
  only : ∀ r ∈ gone, ∀ o ∈ get db, key o = key r → o = r
  left : get s = (get db).filter fun o => key o ∉ gone.map key

/-- The loop of a lane over rows that are due: one item of work for each, and if they were all the
due ones, none is left. -/
theorem delete_loop {ρ κ : Type} [DecidableEq ρ] [DecidableEq κ] (now : ℚ) (db : AuthDb)
    (get : AuthDb → List ρ)
    (key : ρ → κ) (due : ρ → Bool) (Rest : AuthDb → Prop) {f : AuthDb → ρ → Except Refusal AuthDb}
    {items : List ρ} (hitems : ∀ r ∈ items, r ∈ get db ∧ due r = true) (hrest : Rest db)
    (hstep : ∀ r ∈ items, ∀ s t, AuthInv P s → Rest s → f s r = .ok t →
      deleteOne (fun o => key o = key r) (get s) = .ok (get t) ∧
        (r ∈ get s → get t = (get s).erase r → Rest t ∧ Work now s t))
    (h : AuthInv P db) (hrun : items.foldlM f db = .ok db') :
    Works now items.length db db' ∧ Rest db' ∧
      ((∀ o ∈ get db, due o = true → o ∈ items) → get db' = (get db).filter fun o => !due o) := by
  have hdone : Deleted now get key Rest db items db' := by
    refine foldlM_prefix f (Deleted now get key Rest db) ?_ ?_ hrun
    · intro pre r post s t hsplit hs hf
      obtain ⟨hworks, hrest, honly, hget⟩ := hs
      have hr : r ∈ items := hsplit ▸ List.mem_append_right _ List.mem_cons_self
      obtain ⟨hdelete, hwork⟩ := hstep r hr s t (hworks.keeps h) hrest hf
      obtain ⟨hone, hleft⟩ := deleteOne_ok.mp hdelete
      have hfresh : key r ∉ pre.map key := by
        intro hold
        obtain ⟨o, ho⟩ := List.exists_mem_of_length_pos (hone ▸ Nat.one_pos)
        rw [hget, List.mem_filter, List.mem_filter] at ho
        simp only [decide_eq_true_eq] at ho
        exact ho.1.2 (ho.2 ▸ hold)
      have hmem : r ∈ get s := by
        rw [hget, List.mem_filter]
        exact ⟨(hitems r hr).1, by simpa using hfresh⟩
      have herase : get t = (get s).erase r := by
        rw [← hleft]
        exact Table.filter_not_eq_erase hone hmem (by simp)
      obtain ⟨hrest', hwork'⟩ := hwork hmem herase
      refine ⟨?_, hrest', ?_, ?_⟩
      · rw [List.length_append]
        exact .tail hworks hwork'
      · intro o ho p hp hkey
        rcases List.mem_append.mp ho with ho | ho
        · exact honly o ho p hp hkey
        · obtain rfl := List.mem_singleton.mp ho
          have hps : p ∈ get s := by
            rw [hget, List.mem_filter]
            exact ⟨hp, by simpa [hkey] using hfresh⟩
          exact Table.eq_of_one hone.le hps hmem (by simpa using hkey) (by simp)
      · rw [← hleft, hget, List.filter_filter]
        apply List.filter_congr
        intro o _
        simp only [List.map_append, List.map_cons, List.map_nil, List.mem_append,
          List.mem_singleton, not_or, decide_not, Bool.decide_and, decide_eq_true_eq, Bool.and_comm]
    · exact ⟨.refl, hrest, by simp, by simp⟩
  obtain ⟨hworks, hrest, honly, hget⟩ := hdone
  refine ⟨hworks, hrest, fun hall => ?_⟩
  rw [hget]
  apply List.filter_congr
  intro o ho
  rw [Bool.eq_iff_iff, decide_eq_true_eq, Bool.not_eq_true', List.mem_map]
  constructor
  · intro hfree
    by_contra hdue
    exact hfree ⟨o, hall o ho (by simpa using hdue), rfl⟩
  · rintro hdue ⟨r, hr, hkey⟩
    rw [honly r hr o ho hkey.symm, (hitems r hr).2] at hdue
    cases hdue

/-- What a lane leaves that has done all its work. -/
def Swept (now : ℚ) (db db' : AuthDb) : Lane → Prop
  | .requestReceipts =>
    db' = { db with ledger := db.ledger.filter fun r => !decide (r.retentionExpiresAt ≤ now) }
  | .pairingParents => ∃ protocols, db' = { db with
      pairings := db.pairings.filter fun p => !db.duePairing now p
      pairingProtocols := protocols }
  | .rotationParents =>
    db' = { db with rotations := db.rotations.filter fun r => !db.dueRotation now r }
  | .oldKeys => ∃ keys queue, db' = { db with keys := keys, queue := queue } ∧
      ∀ q ∈ queue, now < q.nextAttemptAt
  | lane => db' = db.setReceipts ((db.receipts lane).filter fun r =>
    !decide (r.expiresAt ≤ now)) lane

/-- The first rows of a lane's query, taken as they stand in the table. -/
theorem taken_due {ρ κ : Type} [LinearOrder κ] {order : ρ → κ} {rows : List ρ} {due : ρ → Bool}
    {n : Nat} {r : ρ} (hr : r ∈ (ordered order (rows.filter due)).take n) :
    r ∈ rows ∧ due r = true := by
  have hmem := List.mem_of_mem_take hr
  rw [ordered, List.mem_insertionSort, List.mem_filter] at hmem
  exact hmem

theorem taken_all {ρ κ : Type} [LinearOrder κ] {order : ρ → κ} {rows : List ρ} {due : ρ → Bool}
    {n : Nat} (hn : (ordered order (rows.filter due)).length ≤ n) {r : ρ} (hr : r ∈ rows)
    (hdue : due r = true) : r ∈ (ordered order (rows.filter due)).take n := by
  rw [List.take_of_length_le hn, ordered, List.mem_insertionSort, List.mem_filter]
  exact ⟨hr, hdue⟩

/-- The work of a lane on at most `n` rows: one item each, and with room for all the lane
is swept. -/
def LaneWork (now : ℚ) (lane : Lane) (n : Nat) (db db' : AuthDb) : Prop :=
  Works now ((lane.due now db).take n).length db db' ∧
    ((lane.due now db).length ≤ n → Swept now db db' lane)

variable {n : Nat}

theorem ledger_lane (h : AuthInv P db)
    (hrun : ((Lane.requestReceipts.due now db).take n).foldlM (fun db i => perform now i db) db =
      .ok db') : LaneWork now .requestReceipts n db db' := by
  simp only [LaneWork, Lane.due, ← List.map_take, List.foldlM_map, List.length_map] at hrun ⊢
  have hloop := delete_loop now db AuthDb.ledger LedgerRow.key
    (fun r => r.retentionExpiresAt ≤ now) (fun s => ∃ rows, s = { db with ledger := rows })
    (fun r hr => taken_due hr) ⟨db.ledger, rfl⟩
    ?_ h hrun
  · obtain ⟨hworks, ⟨rows, rfl⟩, hleft⟩ := hloop
    refine ⟨hworks, fun hn => ?_⟩
    rw [Swept, ← hleft fun r hr hdue => taken_all hn hr hdue]
  · intro r hr s t _ hrest hperform
    obtain ⟨before, rfl⟩ := hrest
    simp only [perform, bind_ok, pure, Except.pure, Except.ok.injEq] at hperform
    obtain ⟨rows, hdelete, rfl⟩ := hperform
    refine ⟨hdelete, fun hmem herase => ⟨⟨rows, rfl⟩, ?_⟩⟩
    have hexpired := (taken_due hr).2
    rw [decide_eq_true_eq] at hexpired
    have hwork := Work.requestReceipt hmem hexpired
    rwa [← herase] at hwork

def Lane.ofReceipts : List Lane :=
  [.pairingReceipts, .rotationReceipts, .pairingAborts, .rotationAborts]

section
variable {lane : Lane} (hlane : lane ∈ Lane.ofReceipts)
include hlane

theorem due_receipts : lane.due now db = ((ordered (fun r : Receipt =>
    toLex (r.expiresAt, r.pairingId)) ((db.receipts lane).filter fun r => r.expiresAt ≤ now)).map
      (WorkItem.receipt lane)) := by
  cases lane <;> first | rfl | (exact absurd hlane (by decide))

theorem receipts_setReceipts (rows : List Receipt) :
    (db.setReceipts rows lane).receipts lane = rows := by
  cases lane <;> first | rfl | (exact absurd hlane (by decide))

omit hlane in
theorem setReceipts_same : db.setReceipts (db.receipts lane) lane = db := by
  cases lane <;> rfl

omit hlane in
theorem setReceipts_again (rows left : List Receipt) :
    (db.setReceipts rows lane).setReceipts left lane = db.setReceipts left lane := by
  cases lane <;> rfl

theorem swept_receipts : Swept now db db' lane ↔
    db' = db.setReceipts ((db.receipts lane).filter fun r => !decide (r.expiresAt ≤ now)) lane := by
  cases lane <;> first | rfl | (exact absurd hlane (by decide))

theorem receipts_lane (h : AuthInv P db)
    (hrun : ((lane.due now db).take n).foldlM (fun db i => perform now i db) db = .ok db') :
    LaneWork now lane n db db' := by
  simp only [LaneWork, due_receipts hlane, ← List.map_take, List.foldlM_map,
    List.length_map, swept_receipts hlane] at hrun ⊢
  have hloop := delete_loop now db (fun s => s.receipts lane) Receipt.pairingId
    (fun r => r.expiresAt ≤ now) (fun s => ∃ rows, s = db.setReceipts rows lane)
    (fun r hr => taken_due hr) ⟨db.receipts lane, setReceipts_same.symm⟩ ?_ h hrun
  · obtain ⟨hworks, ⟨rows, rfl⟩, hleft⟩ := hloop
    rw [receipts_setReceipts hlane] at hleft
    exact ⟨hworks, fun hn => by rw [hleft fun r hr hdue => taken_all hn hr hdue]⟩
  · intro r hr s t _ hrest hperform
    obtain ⟨before, rfl⟩ := hrest
    simp only [perform, bind_ok, pure, Except.pure, Except.ok.injEq] at hperform
    obtain ⟨rows, hdelete, rfl⟩ := hperform
    have hrows : ((db.setReceipts before lane).setReceipts rows lane).receipts lane = rows :=
      receipts_setReceipts hlane rows
    rw [← hrows] at hdelete
    refine ⟨hdelete, fun hmem herase => ⟨⟨rows, setReceipts_again _ _⟩, ?_⟩⟩
    rw [receipts_setReceipts hlane] at herase
    have hexpired := (taken_due hr).2
    rw [decide_eq_true_eq] at hexpired
    have hwork := Work.receipt hmem hexpired
    rwa [← herase] at hwork

end

theorem hasReceipt_false {lane : Lane} {id : String} :
    db.hasReceipt lane id = false ↔ ∀ r ∈ db.receipts lane, r.pairingId ≠ id := by
  simp [AuthDb.hasReceipt]

theorem duePairing_free (h : PairingsInv db.pairings db.pairingAborts) {p : Pairing}
    (hp : p ∈ db.pairings) (hdue : db.duePairing now p = true) :
    p.Over now ∧ ∀ r ∈ db.pairingReceipts ++ db.pairingAborts, r.pairingId ≠ p.pairingId := by
  simp only [AuthDb.duePairing, AuthDb.endedPairing, Bool.and_eq_true, Bool.decide_and,
    Bool.decide_or, Bool.or_eq_true, decide_eq_true_eq] at hdue
  obtain ⟨⟨hexpired, hstatus⟩, hblockers⟩ := hdue
  refine ⟨⟨hexpired, ?_⟩, fun r hr => ?_⟩
  · rcases hstatus with hstatus | hstatus
    · simp [hstatus.1]
    · simp [hstatus]
  · rcases List.mem_append.mp hr with hr | hr
    · refine hasReceipt_false.mp (hblockers .pairingReceipts ?_) r hr
      unfold Pairing.blockers
      split <;> simp
    · by_cases hactivated : p.status = .activated
      · intro hid
        obtain ⟨o, ho, hsame, hended⟩ := h.aborted r hr
        obtain rfl := Table.eq_of_key h.ids ho hp (hsame.trans hid)
        rw [hactivated] at hended
        cases hended
      · refine hasReceipt_false.mp (hblockers .pairingAborts ?_) r hr
        rw [Pairing.blockers, if_neg hactivated]
        simp

theorem receipts_apart {rows : List Receipt} {id : String} (h : ∀ r ∈ rows, r.pairingId ≠ id) :
    (rows.filter fun r => ¬ r.pairingId = id) = rows := by
  rw [List.filter_eq_self]
  simpa using h

/-- The deletion of a pairing without receipts takes only its protocol along. -/
theorem deletePairings_free {p : Pairing} (hp : p ∈ db.pairings)
    (hfree : ∀ r ∈ db.pairingReceipts ++ db.pairingAborts, r.pairingId ≠ p.pairingId) :
    deletePairings (fun o => o.pairingId = p.pairingId) db = { db with
      pairings := db.pairings.filter fun o => ¬ decide (o.pairingId = p.pairingId)
      pairingProtocols := db.pairingProtocols.filter fun o => o.pairingId ≠ p.pairingId } := by
  have hgone : ∀ id, (db.pairings.any fun r => r.pairingId = p.pairingId ∧ r.pairingId = id) =
      decide (id = p.pairingId) := by
    intro id
    rw [Bool.eq_iff_iff, List.any_eq_true, decide_eq_true_eq]
    simp only [decide_eq_true_eq]
    constructor
    · rintro ⟨r, -, hid, rfl⟩
      exact hid
    · rintro rfl
      exact ⟨p, hp, rfl, rfl⟩
  simp only [deletePairings, decide_eq_true_eq, hgone]
  rw [receipts_apart fun r hr => hfree r (List.mem_append_left _ hr),
    receipts_apart fun r hr => hfree r (List.mem_append_right _ hr)]

theorem pairings_lane (h : AuthInv P db)
    (hrun : ((Lane.pairingParents.due now db).take n).foldlM (fun db i => perform now i db) db =
      .ok db') : LaneWork now .pairingParents n db db' := by
  simp only [LaneWork, Lane.due, ← List.map_take, List.foldlM_map, List.length_map] at hrun ⊢
  have hloop := delete_loop now db AuthDb.pairings Pairing.pairingId (db.duePairing now)
    (fun s => ∃ pairings protocols,
      s = { db with pairings := pairings, pairingProtocols := protocols })
    (fun p hp => taken_due hp) ⟨db.pairings, db.pairingProtocols, rfl⟩ ?_ h hrun
  · obtain ⟨hworks, ⟨pairings, protocols, rfl⟩, hleft⟩ := hloop
    refine ⟨hworks, fun hn => ⟨protocols, ?_⟩⟩
    rw [← hleft fun p hp hdue => taken_all hn hp hdue]
  · intro p hp s t hs hrest hperform
    obtain ⟨pairings, protocols, rfl⟩ := hrest
    simp only [perform, bind_ok, pure, Except.pure, Except.ok.injEq] at hperform
    obtain ⟨rows, hdelete, rfl⟩ := hperform
    obtain ⟨hone, rfl⟩ := deleteOne_ok.mp hdelete
    refine ⟨hdelete, fun hmem herase => ?_⟩
    obtain ⟨hover, hfree⟩ := duePairing_free hs.pairings hmem (taken_due hp).2
    have hsame := deletePairings_free hmem hfree
    rw [hsame] at herase ⊢
    refine ⟨⟨_, _, rfl⟩, ?_⟩
    have hwork := Work.pairing hmem hover hfree
    rwa [← herase] at hwork

theorem rotations_lane (h : AuthInv P db)
    (hrun : ((Lane.rotationParents.due now db).take n).foldlM (fun db i => perform now i db) db =
      .ok db') : LaneWork now .rotationParents n db db' := by
  simp only [LaneWork, Lane.due, ← List.map_take, List.foldlM_map, List.length_map] at hrun ⊢
  have hloop := delete_loop now db AuthDb.rotations Rotation.pairingId (db.dueRotation now)
    (fun s => ∃ rotations, s = { db with rotations := rotations })
    (fun r hr => taken_due hr) ⟨db.rotations, rfl⟩ ?_ h hrun
  · obtain ⟨hworks, ⟨rotations, rfl⟩, hleft⟩ := hloop
    refine ⟨hworks, fun hn => ?_⟩
    rw [Swept, ← hleft fun r hr hdue => taken_all hn hr hdue]
  · intro r hr s t hs hrest hperform
    obtain ⟨rotations, rfl⟩ := hrest
    simp only [perform, bind_ok, pure, Except.pure, Except.ok.injEq] at hperform
    obtain ⟨rows, hdelete, rfl⟩ := hperform
    have hdue := (taken_due hr).2
    simp only [AuthDb.dueRotation, Rotation.ended, Bool.decide_and, Bool.and_eq_true,
      decide_eq_true_eq, rotationBlockers, List.forall_mem_cons, hasReceipt_false,
      AuthDb.receipts] at hdue
    obtain ⟨hover, hreceipts, haborts, -⟩ := hdue
    rw [receipts_apart hreceipts, receipts_apart haborts]
    refine ⟨hdelete, fun hmem herase => ⟨⟨_, rfl⟩, ?_⟩⟩
    have hwork := Work.rotation hmem hover (by
      intro o ho
      rcases List.mem_append.mp ho with ho | ho
      · exact hreceipts o ho
      · exact haborts o ho)
    rwa [← herase] at hwork

theorem keyIsReferenced_iff {k : KeyRef} : keyIsReferenced k db = true ↔
    (∃ row ∈ db.identities, row.identity.workspaceId = k.workspaceId ∧
      row.identity.runnerId = k.runnerId ∧ row.identity.keyId = k.keyId) ∨
    (∃ r ∈ db.ledger, r.toKeyRef = k) ∨
    (∃ r ∈ db.references, r.2 = k ∧ r.1 ∈ [KeyTable.contextBindings, .contextLinks,
      .contextEvents, .contextAffinities, .executionGrants, .approvalProjections]) ∨
    (∃ p ∈ db.pairings, p.workspaceId = k.workspaceId ∧ p.runnerId = k.runnerId ∧
      p.keyId = some k.keyId) ∨
    ∃ r ∈ db.rotations, r.workspaceId = k.workspaceId ∧ r.runnerId = k.runnerId ∧
      (r.keyId = k.keyId ∨ r.oldKeyId = k.keyId) := by
  simp only [keyIsReferenced, Bool.or_eq_true, List.any_eq_true, decide_eq_true_eq, or_assoc]

theorem names_of_referenced {k : KeyRef} (h : keyIsReferenced k db = true) : db.Names k := by
  rcases keyIsReferenced_iff.mp h with h | h | ⟨r, hr, hkey, -⟩ | h | h
  · exact .inl h
  · exact .inr (.inl h)
  · exact .inr (.inr (.inl ⟨r, hr, hkey⟩))
  · exact .inr (.inr (.inr (.inl h)))
  · exact .inr (.inr (.inr (.inr h)))

theorem not_names {k : KeyRef} (h : keyIsReferenced k db = false)
    (hforeign : ∀ r ∈ db.references, r.1.constrained = true → r.2 ≠ k) : ¬ db.Names k := by
  have hprobes : ¬ keyIsReferenced k db = true := by rw [h]; decide
  rw [keyIsReferenced_iff] at hprobes
  rintro (hnames | hnames | ⟨⟨table, key⟩, hr, hkey⟩ | hnames | hnames)
  · exact hprobes (.inl hnames)
  · exact hprobes (.inr (.inl hnames))
  · cases table with
    | contextLinks | contextEvents =>
      exact hprobes (.inr (.inr (.inl ⟨_, hr, hkey, by simp⟩)))
    | _ => exact hforeign _ hr rfl hkey
  · exact hprobes (.inr (.inr (.inr (.inl hnames))))
  · exact hprobes (.inr (.inr (.inr (.inr hnames))))

/-- One row of the retirement queue: its key is deleted, or its next attempt put off. -/
theorem oldKey_work {q : QueueRow} (hwaits : q.Waits) (hdue : q.nextAttemptAt ≤ now)
    (hperform : perform now (.oldKey q) db = .ok db') :
    Work now db db' ∧ (∃ keys queue, db' = { db with keys := keys, queue := queue }) ∧
      ∀ o ∈ db'.queue, o.nextAttemptAt ≤ now → o ∈ db.queue ∧ o ≠ q := by
  simp only [perform] at hperform
  split at hperform
  · rename_i hnamed
    simp only [rescheduleKey, bind_ok, pure, Except.pure, Except.ok.injEq] at hperform
    obtain ⟨-, -, rfl⟩ := hperform
    refine ⟨.reschedule (names_of_referenced hnamed), ⟨db.keys, _, rfl⟩, fun o ho hnow => ?_⟩
    obtain ⟨before, hbefore, rfl⟩ := Table.mem_update.mp ho
    by_cases hmatch : q.matchesDue now before = true
    · have hdelay := retryDelay_pos q.attemptCount
      rw [if_pos hmatch] at hnow
      simp only [QueueRow.postponed] at hnow
      linarith
    · rw [if_neg hmatch] at hnow ⊢
      refine ⟨hbefore, ?_⟩
      rintro rfl
      simp [QueueRow.matchesDue, hdue] at hmatch
  · rename_i hfree
    simp only [deleteKey, bind_ok, require_ok, exists_const, pure, Except.pure,
      Except.ok.injEq] at hperform
    obtain ⟨keys, hdelete, hforeign, rfl⟩ := hperform
    obtain ⟨hone, rfl⟩ := deleteOne_ok.mp hdelete
    obtain ⟨k, hmem⟩ := List.exists_mem_of_length_pos (hone ▸ Nat.one_pos)
    obtain ⟨hk, hkey⟩ := List.mem_filter.mp hmem
    have herase := Table.filter_not_eq_erase hone hk hkey
    rw [decide_eq_true_eq] at hkey
    obtain ⟨hrevoked, hsame, hstatus⟩ := hkey
    rw [herase, ← hsame]
    refine ⟨.oldKey hk hstatus hrevoked (le_trans hwaits hdue) ?_, ⟨_, _, rfl⟩, fun o ho _ => ?_⟩
    · rw [hsame]
      exact not_names (by simpa using hfree) hforeign
    · obtain ⟨ho, hne⟩ := List.mem_filter.mp ho
      refine ⟨ho, ?_⟩
      rintro rfl
      simp [hsame] at hne

theorem oldKeys_lane (h : AuthInv P db)
    (hrun : ((Lane.oldKeys.due now db).take n).foldlM (fun db i => perform now i db) db = .ok db') :
    LaneWork now .oldKeys n db db' := by
  simp only [LaneWork, Lane.due, ← List.map_take, List.foldlM_map, List.length_map] at hrun ⊢
  have hrun := foldlM_prefix _ (fun pre s => Works now pre.length db s ∧
    (∃ keys queue, s = { db with keys := keys, queue := queue }) ∧
    ∀ o ∈ s.queue, o.nextAttemptAt ≤ now → o ∈ db.queue ∧ o ∉ pre) ?_ ?_ hrun
  · obtain ⟨hworks, ⟨keys, queue, rfl⟩, hleft⟩ := hrun
    refine ⟨hworks, fun hn => ⟨keys, queue, rfl, fun q hq => ?_⟩⟩
    by_contra hdue
    obtain ⟨hold, hfree⟩ := hleft q hq (not_lt.mp hdue)
    exact hfree (taken_all hn hold (by simpa using hdue))
  · intro pre q post s t hsplit hs hperform
    obtain ⟨hworks, ⟨keys, queue, rfl⟩, hleft⟩ := hs
    obtain ⟨hq, hdue⟩ := taken_due (hsplit ▸ List.mem_append_right pre List.mem_cons_self)
    obtain ⟨hwork, ⟨keys', queue', rfl⟩, hrows⟩ :=
      oldKey_work (h.queue q hq) (by simpa using hdue) hperform
    refine ⟨?_, ⟨_, _, rfl⟩, fun o ho hnow => ?_⟩
    · rw [List.length_append]
      exact .tail hworks hwork
    · obtain ⟨hbefore, hne⟩ := hrows o ho hnow
      obtain ⟨hold, hfree⟩ := hleft o hbefore hnow
      exact ⟨hold, by simp [hfree, hne]⟩
  · exact ⟨.refl, ⟨db.keys, db.queue, rfl⟩, fun o ho _ => ⟨ho, List.not_mem_nil⟩⟩

theorem lane_work (lane : Lane) (h : AuthInv P db)
    (hrun : ((lane.due now db).take n).foldlM (fun db i => perform now i db) db = .ok db') :
    LaneWork now lane n db db' := by
  cases lane with
  | requestReceipts => exact ledger_lane h hrun
  | pairingParents => exact pairings_lane h hrun
  | rotationParents => exact rotations_lane h hrun
  | oldKeys => exact oldKeys_lane h hrun
  | _ => exact receipts_lane (by decide) h hrun

theorem consumeLane_work {s s' : Reap} {lane : Lane} (h : AuthInv P s.db)
    (hrun : consumeLane now s lane = .ok s') :
    LaneWork now lane s.remaining s.db s'.db ∧
      s'.done = s.done ++ (lane.due now s.db).take s.remaining ∧
      s'.remaining = s.remaining - (lane.due now s.db).length ∧
      s'.done.length + s'.remaining = s.done.length + s.remaining ∧
      (s'.hasMore = false ↔ s.hasMore = false ∧ (lane.due now s.db).length ≤ s.remaining) := by
  simp only [consumeLane, bind_ok, pure, Except.pure, Except.ok.injEq, List.take_take] at hrun
  obtain ⟨db', hfold, rfl⟩ := hrun
  rw [Nat.min_eq_left (Nat.le_succ _)] at hfold ⊢
  refine ⟨lane_work lane h hfold, rfl, ?_, ?_, ?_⟩
  · simp only [List.length_take]
    omega
  · simp only [List.length_append, List.length_take]
    omega
  · simp only [List.length_take, Bool.or_eq_false_iff, decide_eq_false_iff_not]
    rw [and_comm]
    refine and_congr_right fun _ => ?_
    omega

end Heel.RunnerAuth
