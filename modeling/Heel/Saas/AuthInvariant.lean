import Heel.Runner.PlainJson
import Heel.Saas.RetentionWork

/-! Every call keeps the invariant of the tables of runner authentication, and none takes away an
open rotation whose time is over. -/
namespace Heel.RunnerAuth
open Lib Lib.Checks Cloud

/-- Documented behaviour of form C: it is idempotent and leaves ASCII text alone. -/
structure NfcLaws (P : Platform) : Prop where
  idempotent : ∀ s, P.nfc (P.nfc s) = P.nfc s
  ascii : ∀ s, Containment.isAscii s = true → P.nfc s = s

variable {A : AuthPlatform} {env : AuthEnv} {db db' : AuthDb} {P : Platform}

structure Kept (P : Platform) (now : ℚ) (db db' : AuthDb) : Prop where
  inv : AuthInv P db'
  expired : ∀ r ∈ db.rotations, r.isOpen = true → r.expiresAt ≤ now → r ∈ db'.rotations

/-! ### The pairings -/

section
variable {pairings : List Pairing} {aborts : List Receipt}

theorem PairingsInv.append (h : PairingsInv pairings aborts) {p : Pairing}
    (hfresh : ∀ o ∈ pairings, o.pairingId ≠ p.pairingId)
    (hascii : Containment.isAscii p.runnerId = true) : PairingsInv (pairings ++ [p]) aborts where
  ids := by
    rw [List.map_append, List.nodup_append]
    refine ⟨h.ids, List.nodup_singleton _, ?_⟩
    intro id hid other hother
    obtain ⟨o, ho, rfl⟩ := List.mem_map.mp hid
    obtain rfl := List.mem_singleton.mp hother
    exact hfresh o ho
  aborted r hr := by
    obtain ⟨o, ho, hid⟩ := h.aborted r hr
    exact ⟨o, List.mem_append_left _ ho, hid⟩
  ascii o ho := by
    rcases List.mem_append.mp ho with ho | ho
    · exact h.ascii o ho
    · rwa [List.mem_singleton.mp ho]

theorem PairingsInv.edit (h : PairingsInv pairings aborts) {row : Pairing} (hrow : row ∈ pairings)
    {f : Pairing → Pairing} (hid : ∀ r, (f r).pairingId = r.pairingId)
    (hstatus : row.status ≠ .expired)
    (hascii : Containment.isAscii row.runnerId = true →
      Containment.isAscii (f row).runnerId = true) :
    PairingsInv (Table.update (fun r => r.pairingId = row.pairingId) f pairings) aborts where
  ids := by
    rw [Table.map_update fun r _ => hid r]
    exact h.ids
  aborted r hr := by
    obtain ⟨p, hp, hsame, hexpired⟩ := h.aborted r hr
    refine ⟨p, Table.mem_update.mpr ⟨p, hp, ?_⟩, hsame, hexpired⟩
    rw [if_neg]
    intro heq
    rw [decide_eq_true_eq] at heq
    rw [Table.eq_of_key h.ids hp hrow heq] at hexpired
    exact hstatus hexpired
  ascii p hp := by
    obtain ⟨o, ho, rfl⟩ := Table.mem_update.mp hp
    split
    · rename_i heq
      rw [decide_eq_true_eq] at heq
      rw [Table.eq_of_key h.ids ho hrow heq]
      exact hascii (h.ascii row hrow)
    · exact h.ascii o ho

theorem PairingsInv.receipt (h : PairingsInv pairings aborts) {r : Receipt}
    (hr : ∃ p ∈ pairings, p.pairingId = r.pairingId ∧ p.status = .expired) :
    PairingsInv pairings (aborts ++ [r]) where
  ids := h.ids
  aborted o ho := by
    rcases List.mem_append.mp ho with ho | ho
    · exact h.aborted o ho
    · rwa [List.mem_singleton.mp ho]
  ascii := h.ascii

end

theorem PairingsInv.delete (h : PairingsInv db.pairings db.pairingAborts) (p : Pairing → Bool) :
    PairingsInv (deletePairings p db).pairings (deletePairings p db).pairingAborts := by
  refine h.mono List.filter_sublist (fun r hr => List.mem_of_mem_filter hr) ?_
  rintro o ho - ⟨r, hr, hid⟩
  rw [deletePairings, List.mem_filter] at hr ⊢
  refine ⟨ho, ?_⟩
  rw [decide_eq_true_eq]
  intro hgone
  have hkept := hr.2
  rw [decide_eq_true_eq, List.any_eq_true] at hkept
  exact hkept ⟨o, ho, by simp [hgone, hid]⟩

/-! ### The rotations and the identities -/

section
variable {runners : List Runner} {identities : List IdentityRow} {rotations : List Rotation}

theorem RotationsInv.withRunners {more : List Runner}
    (h : RotationsInv P runners identities rotations)
    (hmore : ∀ o ∈ runners, ∃ o' ∈ more, o'.runnerId = o.runnerId) :
    RotationsInv P more identities rotations where
  ids := h.ids
  known r hr := by
    obtain ⟨o, ho, hid⟩ := h.known r hr
    obtain ⟨o', ho', hsame⟩ := hmore o ho
    exact ⟨o', ho', hsame.trans hid⟩
  one := h.one
  held := h.held
  normal := h.normal

/-- The identities with that of a runner saved. -/
def savedIdentities (P : Platform) (i : RunnerIdentity) (digest : String)
    (identities : List IdentityRow) : List IdentityRow :=
  (identities.filter fun row => ¬ (row.identity.workspaceId = P.nfc i.workspaceId ∧
    row.identity.runnerId = P.nfc i.runnerId) ∧ row.digest ≠ digest) ++
    [⟨normalIdentity P i, digest⟩]

theorem saveIdentity_ok {i : RunnerIdentity} (h : saveIdentity A i db = .ok db') :
    ∃ digest, db' = { db with
      identities := savedIdentities A.toPlatform i digest db.identities } := by
  simp only [saveIdentity, bind_ok, require_ok, exists_const, pure, Except.pure,
    Except.ok.injEq] at h
  obtain ⟨-, -, digest, -, -, rfl⟩ := h
  exact ⟨digest, rfl⟩

theorem loadIdentity_ok {workspaceId runnerId : String} {i : RunnerIdentity}
    (h : loadIdentity A workspaceId runnerId db = .ok i) :
    ∃ row ∈ db.identities, row.of workspaceId runnerId ∧ row.identity = i := by
  simp only [loadIdentity, bind_ok, found_ok, pure, Except.pure, Except.ok.injEq] at h
  obtain ⟨row, hfind, -, -, rfl⟩ := h
  refine ⟨row, List.mem_of_find?_eq_some hfind, ?_, rfl⟩
  simpa [IdentityRow.of] using List.find?_some hfind

theorem mem_saved {i : RunnerIdentity} {digest : String} {row : IdentityRow}
    (h : row ∈ savedIdentities P i digest identities) :
    row.identity = normalIdentity P i ∨
      row ∈ identities ∧ ¬ row.of (P.nfc i.workspaceId) (P.nfc i.runnerId) := by
  rcases List.mem_append.mp h with h | h
  · obtain ⟨hmem, hother⟩ := List.mem_filter.mp h
    rw [decide_eq_true_eq] at hother
    exact .inr ⟨hmem, hother.1⟩
  · rw [List.mem_singleton.mp h]
    exact .inl rfl

/-- An identity is saved that is not active, or whose runner has no open rotation. -/
theorem RotationsInv.save (hP : NfcLaws P) (h : RotationsInv P runners identities rotations)
    {i : RunnerIdentity} (digest : String)
    (hfree : ∀ r ∈ rotations, r.isOpen = true → P.nfc i.workspaceId = r.workspaceId →
      P.nfc i.runnerId = r.runnerId → i.state ≠ .active) :
    RotationsInv P runners (savedIdentities P i digest identities) rotations where
  ids := h.ids
  known := h.known
  one := h.one
  held r hr hopen row hrow hof := by
    rcases mem_saved hrow with hnew | ⟨hold, -⟩
    · rw [IdentityRow.of, hnew] at hof
      rw [hnew]
      exact hfree r hr hopen hof.1 hof.2
    · exact h.held r hr hopen row hold hof
  normal row hrow := by
    rcases mem_saved hrow with hnew | ⟨hold, -⟩
    · rw [hnew]
      exact ⟨hP.idempotent _, hP.idempotent _⟩
    · exact h.normal row hold

theorem RotationsInv.resave (hP : NfcLaws P) (h : RotationsInv P runners identities rotations)
    {i : RunnerIdentity} (digest : String) {row : IdentityRow} (hrow : row ∈ identities)
    (hof : row.of i.workspaceId i.runnerId) (hstate : row.identity.state = i.state) :
    RotationsInv P runners (savedIdentities P i digest identities) rotations := by
  refine h.save hP digest fun r hr hopen hworkspace hrunner => ?_
  rw [← hstate]
  refine h.held r hr hopen row hrow ⟨?_, ?_⟩
  · rw [hof.1, ← hworkspace, ← hof.1, (h.normal row hrow).1]
  · rw [hof.2, ← hrunner, ← hof.2, (h.normal row hrow).2]

/-- The open rotation of an id is changed, and stays with its runner. -/
theorem RotationsInv.edit (h : RotationsInv P runners identities rotations) {row : Rotation}
    (hrow : row ∈ rotations) (hopen : row.isOpen = true) {f : Rotation → Rotation}
    (hf : ∀ r, (f r).pairingId = r.pairingId ∧ (f r).workspaceId = r.workspaceId ∧
      (f r).runnerId = r.runnerId) :
    RotationsInv P runners identities
      (Table.update (fun r => r.pairingId = row.pairingId) f rotations) := by
  have horigin : ∀ r ∈ Table.update (fun r => r.pairingId = row.pairingId) f rotations,
      ∃ o ∈ rotations, r = (if decide (o.pairingId = row.pairingId) then f o else o) ∧
        r.workspaceId = o.workspaceId ∧ r.runnerId = o.runnerId ∧
        (r.isOpen = true → o.isOpen = true) := by
    intro r hr
    obtain ⟨o, ho, rfl⟩ := Table.mem_update.mp hr
    refine ⟨o, ho, rfl, ?_⟩
    split
    · rename_i hid
      rw [decide_eq_true_eq] at hid
      rw [Table.eq_of_key h.ids ho hrow hid]
      exact ⟨(hf row).2.1, (hf row).2.2, fun _ => hopen⟩
    · exact ⟨rfl, rfl, id⟩
  constructor
  · rw [Table.map_update fun r _ => (hf r).1]
    exact h.ids
  · intro r hr
    obtain ⟨o, ho, -, -, hrunner, -⟩ := horigin r hr
    rw [hrunner]
    exact h.known o ho
  · intro a ha b hb haopen hbopen hworkspace hrunner
    obtain ⟨a', ha', rfl, hwa, hra, hoa⟩ := horigin a ha
    obtain ⟨b', hb', rfl, hwb, hrb, hob⟩ := horigin b hb
    rw [h.one a' ha' b' hb' (hoa haopen) (hob hbopen) (by rw [← hwa, hworkspace, hwb])
      (by rw [← hra, hrunner, hrb])]
  · intro r hr hropen identity hidentity hof
    obtain ⟨o, ho, -, hworkspace, hrunner, hoopen⟩ := horigin r hr
    rw [hworkspace, hrunner] at hof
    exact h.held o ho (hoopen hropen) identity hidentity hof
  · exact h.normal

/-- An expired rotation is not the one of another time that is changed. -/
theorem RotationsInv.edit_expired (h : RotationsInv P runners identities rotations)
    {row : Rotation} (hrow : row ∈ rotations) {now : ℚ} (hlive : now < row.expiresAt)
    {f : Rotation → Rotation} {r : Rotation} (hr : r ∈ rotations) (hexpired : r.expiresAt ≤ now) :
    r ∈ Table.update (fun r => r.pairingId = row.pairingId) f rotations := by
  refine Table.mem_update.mpr ⟨r, hr, ?_⟩
  rw [if_neg]
  intro hid
  rw [decide_eq_true_eq] at hid
  rw [Table.eq_of_key h.ids hr hrow hid] at hexpired
  exact absurd hexpired (not_le.mpr hlive)

end

/-- The queue after keys have changed: a new row waits for thirty days. -/
theorem updateKeys_queue (h : ∀ q ∈ db.queue, q.Waits) (p : Key → Bool) (f : Key → Key) :
    ∀ q ∈ (updateKeys p f db).queue, q.Waits := by
  intro q hq
  rcases List.mem_append.mp hq with hq | hq
  · exact h q (List.mem_of_mem_filter hq)
  · obtain ⟨k, -, hk⟩ := List.mem_filterMap.mp hq
    unfold retirement at hk
    split at hk
    · rw [← Option.some.inj hk]
      exact le_refl _
    · cases hk

/-! ### The calls -/

theorem invite_kept (h : AuthInv A.toPlatform db) {workspaceId : String}
    (hc : invite A env workspaceId db = .ok db') : Kept A.toPlatform env.now db db' := by
  simp only [invite, bind_ok, require_ok, exists_const, pure, Except.pure, Except.ok.injEq] at hc
  obtain ⟨-, -, hfresh, rfl⟩ := hc
  refine ⟨⟨?_, h.rotations, h.queue⟩, fun _ hr _ _ => hr⟩
  exact (h.pairings.delete _).append (fun o ho => (hfresh o ho).1) rfl

theorem exchange_kept (h : AuthInv A.toPlatform db) {q : ExchangeRequest}
    (hc : exchange A env q db = .ok db') : Kept A.toPlatform env.now db db' := by
  simp only [exchange, bind_ok, found_ok, require_ok, exists_const, pure, Except.pure] at hc
  obtain ⟨raw, -, row, hfind, ⟨hstatus, -⟩, runnerId, hdraw, hc⟩ := hc
  have hascii := env.draws.runnerIds_ascii runnerId (List.mem_of_find?_eq_some hdraw)
  split at hc
  · cases hc
    refine ⟨⟨?_, h.rotations, h.queue⟩, fun _ hr _ _ => hr⟩
    exact h.pairings.edit (List.mem_of_find?_eq_some hfind) (fun _ => rfl)
      (by rw [hstatus]; decide) fun _ => hascii
  · simp only [bind_ok, require_ok, exists_const, Except.ok.injEq] at hc
    obtain ⟨-, rfl⟩ := hc
    refine ⟨⟨?_, h.rotations, h.queue⟩, fun _ hr _ _ => hr⟩
    exact h.pairings.edit (List.mem_of_find?_eq_some hfind) (fun _ => rfl)
      (by rw [hstatus]; decide) fun _ => hascii

theorem find_pairing {workspaceId pairingId : String} {row : Pairing}
    (h : db.pairings.find? (fun r => r.workspaceId = workspaceId ∧ r.pairingId = pairingId) =
      some row) : row ∈ db.pairings ∧ row.pairingId = pairingId := by
  have hrow := List.find?_some h
  rw [decide_eq_true_eq] at hrow
  exact ⟨List.mem_of_find?_eq_some h, hrow.2⟩

theorem find_pairingId {pairingId : String} {row : Pairing}
    (h : db.pairings.find? (fun r => r.pairingId = pairingId) = some row) :
    row ∈ db.pairings ∧ row.pairingId = pairingId := by
  have hrow := List.find?_some h
  rw [decide_eq_true_eq] at hrow
  exact ⟨List.mem_of_find?_eq_some h, hrow⟩

theorem approve_kept (h : AuthInv A.toPlatform db)
    {workspaceId pairingId phrase fingerprint actor : String}
    (hc : approve env workspaceId pairingId phrase fingerprint actor db = .ok db') :
    Kept A.toPlatform env.now db db' := by
  simp only [approve, bind_ok, found_ok, require_ok, exists_const, pure, Except.pure,
    Except.ok.injEq] at hc
  obtain ⟨row, hfind, ⟨hstatus, -⟩, rfl⟩ := hc
  obtain ⟨hrow, rfl⟩ := find_pairing hfind
  refine ⟨⟨?_, h.rotations, h.queue⟩, fun _ hr _ _ => hr⟩
  exact h.pairings.edit hrow (fun _ => rfl) (by rw [hstatus]; decide) id

theorem openRunner_kept (hP : NfcLaws A.toPlatform) (h : AuthInv A.toPlatform db) {row : Pairing}
    (hrow : row ∈ db.pairings) {maxActive : Option Nat}
    (hc : openRunner A env row maxActive db = .ok db') : AuthInv A.toPlatform db' ∧
      db'.rotations = db.rotations ∧ db'.pairings = db.pairings ∧
      db'.pairingAborts = db.pairingAborts := by
  simp only [openRunner, bind_ok, found_ok, require_ok, exists_const] at hc
  obtain ⟨-, hfresh, publicKey, -, keyId, -, fingerprint, -, pairedBy, -, pairedAt, -, -, hc⟩ := hc
  obtain ⟨digest, rfl⟩ := saveIdentity_ok hc
  refine ⟨⟨h.pairings, ?_, h.queue⟩, rfl, rfl, rfl⟩
  refine (h.rotations.withRunners fun o ho => ⟨o, List.mem_append_left _ ho, rfl⟩).save hP digest ?_
  -- the runner is new, so it has no rotation
  intro r hr _ _ hrunner
  obtain ⟨o, ho, hid⟩ := h.rotations.known r hr
  rw [hP.ascii _ (h.pairings.ascii row hrow)] at hrunner
  exact absurd (hid.trans hrunner.symm) (hfresh o ho)

theorem activate_kept (hP : NfcLaws A.toPlatform) (h : AuthInv A.toPlatform db)
    {pairingId signature : String} {maxActive : Option Nat}
    (hc : activate A env pairingId signature maxActive db = .ok db') :
    Kept A.toPlatform env.now db db' := by
  simp only [activate, bind_ok, found_ok, require_ok, exists_const, pure, Except.pure,
    Except.ok.injEq] at hc
  obtain ⟨row, hfind, ⟨hstatus, -⟩, -, -, -, -, -, mid, hopen, rfl⟩ := hc
  obtain ⟨hrow, rfl⟩ := find_pairingId hfind
  obtain ⟨hmid, hrotations, hpairings, -⟩ := openRunner_kept hP h hrow hopen
  refine ⟨⟨?_, hmid.rotations, hmid.queue⟩, fun _ hr _ _ => hrotations ▸ hr⟩
  exact hmid.pairings.edit (hpairings ▸ hrow) (fun _ => rfl) (by rw [hstatus]; decide) id

theorem activateExecutable_kept (hP : NfcLaws A.toPlatform) (h : AuthInv A.toPlatform db)
    {pairingId : String} {q : ActivationRequest} {maxActive : Option Nat}
    (hc : activateExecutable A env pairingId q maxActive db = .ok db') :
    Kept A.toPlatform env.now db db' := by
  simp only [activateExecutable, bind_ok, found_ok] at hc
  obtain ⟨row, hfind, protocol, -, hc⟩ := hc
  split at hc
  · simp only [bind_ok, found_ok, require_ok, exists_const, pure, Except.pure,
      Except.ok.injEq] at hc
    obtain ⟨-, -, -, -, rfl⟩ := hc
    exact ⟨h, fun _ hr _ _ => hr⟩
  · simp only [bind_ok, found_ok, require_ok, exists_const, pure, Except.pure,
      Except.ok.injEq] at hc
    obtain ⟨⟨hstatus, -⟩, -, -, -, -, -, mid, hopen, -, -, -, rfl⟩ := hc
    obtain ⟨hrow, rfl⟩ := find_pairingId hfind
    obtain ⟨hmid, hrotations, hpairings, -⟩ := openRunner_kept hP h hrow hopen
    refine ⟨⟨?_, hmid.rotations, hmid.queue⟩, fun _ hr _ _ => hrotations ▸ hr⟩
    exact hmid.pairings.edit (hpairings ▸ hrow) (fun _ => rfl) (by rw [hstatus]; decide) id

theorem abortPairingActivation_kept (h : AuthInv A.toPlatform db) {pairingId : String}
    {q : PairingAbortRequest} (hc : abortPairingActivation A env pairingId q db = .ok db') :
    Kept A.toPlatform env.now db db' := by
  simp only [abortPairingActivation, bind_ok, found_ok, require_ok, exists_const] at hc
  obtain ⟨-, -, row, hfind, -, -, -, -, -, -, hc⟩ := hc
  split at hc
  · simp only [bind_ok, require_ok, exists_const, pure, Except.pure, Except.ok.injEq] at hc
    obtain ⟨-, -, rfl⟩ := hc
    exact ⟨h, fun _ hr _ _ => hr⟩
  · simp only [bind_ok, require_ok, exists_const, insertReceipt, pure, Except.pure,
      Except.ok.injEq] at hc
    obtain ⟨-, -, -, -, ⟨hstatus, -⟩, receipts, ⟨-, rfl⟩, rfl⟩ := hc
    obtain ⟨hrow, rfl⟩ := find_pairingId hfind
    refine ⟨⟨?_, h.rotations, h.queue⟩, fun _ hr _ _ => hr⟩
    refine (h.pairings.edit hrow (fun r => by split <;> rfl) (by rw [hstatus]; decide)
      (by split <;> exact id)).receipt ?_
    refine ⟨_, Table.mem_update.mpr ⟨row, hrow, rfl⟩, ?_⟩
    simp [hstatus]

theorem find_rotation {workspaceId pairingId : String} {row : Rotation}
    (h : db.rotations.find? (fun r => r.workspaceId = workspaceId ∧ r.pairingId = pairingId) =
      some row) : row ∈ db.rotations ∧ row.pairingId = pairingId := by
  have hrow := List.find?_some h
  rw [decide_eq_true_eq] at hrow
  exact ⟨List.mem_of_find?_eq_some h, hrow.2⟩

theorem find_rotationId {pairingId : String} {row : Rotation}
    (h : db.rotations.find? (fun r => r.pairingId = pairingId) = some row) :
    row ∈ db.rotations ∧ row.pairingId = pairingId := by
  have hrow := List.find?_some h
  rw [decide_eq_true_eq] at hrow
  exact ⟨List.mem_of_find?_eq_some h, hrow⟩

/-- A runner without an open rotation, whose identity is saved as rotating, begins one. -/
theorem RotationsInv.start (hP : NfcLaws P) {runners : List Runner}
    {identities : List IdentityRow} {rotations : List Rotation}
    (h : RotationsInv P runners identities rotations) {i : RunnerIdentity} (digest : String)
    {row : IdentityRow} (hrow : row ∈ identities) (hi : row.identity = i) {r : Rotation}
    (hof : row.of r.workspaceId r.runnerId)
    (hnone : ∀ o ∈ rotations,
      ¬ (o.workspaceId = r.workspaceId ∧ o.runnerId = r.runnerId ∧ o.isOpen = true))
    (hknown : ∃ o ∈ runners, o.workspaceId = r.workspaceId ∧ o.runnerId = r.runnerId)
    (hfresh : ∀ o ∈ rotations, o.pairingId ≠ r.pairingId) :
    RotationsInv P runners (savedIdentities P { i with state := .rotating } digest identities)
      (rotations ++ [r]) := by
  have hsaved := h.save hP (i := { i with state := .rotating }) digest fun _ _ _ _ _ => by simp
  have hnormal := h.normal row hrow
  constructor
  · rw [List.map_append, List.nodup_append]
    refine ⟨h.ids, List.nodup_singleton _, ?_⟩
    intro id hid other hother
    obtain ⟨o, ho, rfl⟩ := List.mem_map.mp hid
    obtain rfl := List.mem_singleton.mp hother
    exact hfresh o ho
  · intro o ho
    rcases List.mem_append.mp ho with ho | ho
    · exact h.known o ho
    · obtain ⟨runner, hrunner, -, hid⟩ := hknown
      rw [List.mem_singleton.mp ho]
      exact ⟨runner, hrunner, hid⟩
  · intro a ha b hb haopen hbopen hworkspace hrunner
    rcases List.mem_append.mp ha with ha | ha <;> rcases List.mem_append.mp hb with hb | hb
    · exact h.one a ha b hb haopen hbopen hworkspace hrunner
    · rw [List.mem_singleton.mp hb] at hworkspace hrunner
      exact absurd ⟨hworkspace, hrunner, haopen⟩ (hnone a ha)
    · rw [List.mem_singleton.mp ha] at hworkspace hrunner
      exact absurd ⟨hworkspace.symm, hrunner.symm, hbopen⟩ (hnone b hb)
    · rw [List.mem_singleton.mp ha, List.mem_singleton.mp hb]
  · intro o ho hopen identity hidentity hidentityOf
    rcases List.mem_append.mp ho with ho | ho
    · exact hsaved.held o ho hopen identity hidentity hidentityOf
    · obtain rfl := List.mem_singleton.mp ho
      rcases mem_saved hidentity with hnew | ⟨-, hother⟩
      · rw [hnew]
        simp [normalIdentity]
      · -- the identity that was loaded is the one that is replaced
        subst hi
        rw [hof.1, hof.2] at hnormal
        simp only [hof.1, hof.2, hnormal.1, hnormal.2] at hother
        exact absurd hidentityOf hother
  · exact hsaved.normal

theorem startRotation_kept (hP : NfcLaws A.toPlatform) (h : AuthInv A.toPlatform db)
    {workspaceId runnerId : String} {q : RotationRequest}
    (hc : startRotation A env workspaceId runnerId q db = .ok db') :
    Kept A.toPlatform env.now db db' := by
  simp only [startRotation, bind_ok, found_ok, require_ok, exists_const] at hc
  obtain ⟨raw, -, hnone, old, -, oldRaw, -, identity, hload, -, -, -, ⟨hknown, hfresh⟩, hc⟩ := hc
  obtain ⟨row, hrow, hof, hi⟩ := loadIdentity_ok hload
  obtain ⟨digest, rfl⟩ := saveIdentity_ok hc
  refine ⟨⟨h.pairings, ?_, h.queue⟩, fun _ hr _ _ => List.mem_append_left _ hr⟩
  exact h.rotations.start hP digest hrow hi hof hnone hknown hfresh

theorem updateRotations_ok {p : Rotation → Bool} {f : Rotation → Rotation}
    (h : updateRotations p f db = .ok db') :
    (∀ r ∈ db.rotations, p r = true → (f r).phrase.isSome) ∧
      db' = { db with rotations := Table.update p f db.rotations } := by
  simp only [updateRotations, bind_ok, require_ok, exists_const, pure, Except.pure,
    Except.ok.injEq] at h
  exact ⟨h.1, h.2.symm⟩

theorem approveRotation_kept (h : AuthInv A.toPlatform db)
    {workspaceId pairingId phrase fingerprint actor : String}
    (hc : approveRotation A env workspaceId pairingId phrase fingerprint actor db = .ok db') :
    Kept A.toPlatform env.now db db' := by
  simp only [approveRotation, bind_ok, found_ok, require_ok, exists_const] at hc
  obtain ⟨row, hfind, ⟨hstatus, hlive, -⟩, -, -, hc⟩ := hc
  obtain ⟨-, rfl⟩ := updateRotations_ok hc
  obtain ⟨hrow, rfl⟩ := find_rotation hfind
  have hopen : row.isOpen = true := by simp [Rotation.isOpen, hstatus]
  refine ⟨⟨h.pairings, ?_, h.queue⟩, fun r hr _ hexpired => ?_⟩
  · exact h.rotations.edit hrow hopen fun _ => ⟨rfl, rfl, rfl⟩
  · exact h.rotations.edit_expired hrow hlive hr hexpired

/-- A rotation that is done lets its runner's identity be saved as active. -/
theorem RotationsInv.finish (hP : NfcLaws P) {runners : List Runner}
    {identities : List IdentityRow} {rotations : List Rotation}
    (h : RotationsInv P runners identities rotations) {row : Rotation} (hrow : row ∈ rotations)
    (hopen : row.isOpen = true) {f : Rotation → Rotation}
    (hf : ∀ r, (f r).pairingId = r.pairingId ∧ (f r).workspaceId = r.workspaceId ∧
      (f r).runnerId = r.runnerId) (hdone : ∀ r, (f r).isOpen = false) {i : RunnerIdentity}
    (digest : String) {identity : IdentityRow} (hidentity : identity ∈ identities)
    (hof : identity.of row.workspaceId row.runnerId) (hi : identity.of i.workspaceId i.runnerId) :
    RotationsInv P runners (savedIdentities P i digest identities)
      (Table.update (fun r => r.pairingId = row.pairingId) f rotations) := by
  refine (h.edit hrow hopen hf).save hP digest fun r hr hropen hworkspace hrunner => ?_
  obtain ⟨o, ho, rfl⟩ := Table.mem_update.mp hr
  by_cases hid : o.pairingId = row.pairingId
  · rw [if_pos (by simpa using hid), hdone] at hropen
    cases hropen
  · rw [if_neg (by simpa using hid)] at hropen hworkspace hrunner
    obtain ⟨hnormalWorkspace, hnormalRunner⟩ := h.normal identity hidentity
    rw [← hi.1, hnormalWorkspace, hof.1] at hworkspace
    rw [← hi.2, hnormalRunner, hof.2] at hrunner
    exact absurd (congrArg Rotation.pairingId
      (h.one o ho row hrow hropen hopen hworkspace.symm hrunner.symm)) hid

theorem activateRotation_kept (hP : NfcLaws A.toPlatform) (h : AuthInv A.toPlatform db)
    {pairingId signature : String} {overlapSeconds : Nat}
    (hc : activateRotation A env pairingId signature overlapSeconds db = .ok db') :
    Kept A.toPlatform env.now db db' := by
  simp only [activateRotation, bind_ok, found_ok, require_ok, exists_const] at hc
  obtain ⟨-, row, hfind, hc⟩ := hc
  split at hc
  · simp only [bind_ok, found_ok, require_ok, exists_const, pure, Except.pure,
      Except.ok.injEq] at hc
    obtain ⟨-, -, -, -, rfl⟩ := hc
    exact ⟨h, fun _ hr _ _ => hr⟩
  · simp only [bind_ok, found_ok, require_ok, exists_const] at hc
    obtain ⟨⟨hstatus, hlive⟩, -, -, -, old, -, -, -, identity, hload, saved, hsave, receipts, -,
      hc⟩ := hc
    obtain ⟨identityRow, hidentity, hof, rfl⟩ := loadIdentity_ok hload
    obtain ⟨digest, rfl⟩ := saveIdentity_ok hsave
    obtain ⟨-, rfl⟩ := updateRotations_ok hc
    obtain ⟨hrow, rfl⟩ := find_rotationId hfind
    have hopen : row.isOpen = true := by simp [Rotation.isOpen, hstatus]
    refine ⟨⟨h.pairings, ?_, updateKeys_queue h.queue _ _⟩, fun r hr _ hexpired => ?_⟩
    · refine h.rotations.finish hP hrow hopen ?_ ?_ digest hidentity hof ?_
      · exact fun _ => ⟨rfl, rfl, rfl⟩
      · intro r
        simp [Rotation.isOpen]
      · exact ⟨rfl, rfl⟩
    · exact h.rotations.edit_expired hrow hlive hr hexpired

/-- An aborted rotation keeps no phrase, which its column does not take: only the answer of an
abort that is on record is given again. -/
theorem abortRotationActivation_same {q : RotationAbortRequest}
    (hc : abortRotationActivation A env q db = .ok db') : db' = db := by
  simp only [abortRotationActivation, bind_ok, found_ok, require_ok, exists_const] at hc
  obtain ⟨-, -, oldSignature, -, newSignature, -, row, hfind, -, old, -, -, -, hc⟩ := hc
  split at hc
  · simp only [bind_ok, require_ok, exists_const, pure, Except.pure, Except.ok.injEq] at hc
    exact hc.2.2.symm
  · simp only [bind_ok, require_ok, exists_const] at hc
    obtain ⟨-, -, -, -, ⟨hstatus, -⟩, receipts, -, identity, -, -, mid, hsave, hc⟩ := hc
    obtain ⟨digest, rfl⟩ := saveIdentity_ok hsave
    obtain ⟨hphrase, -⟩ := updateRotations_ok hc
    obtain ⟨hrow, hid⟩ := find_rotationId hfind
    have hempty := hphrase row hrow (by simp [hid, hstatus])
    simp at hempty

theorem revoke_kept (hP : NfcLaws A.toPlatform) (h : AuthInv A.toPlatform db)
    {workspaceId runnerId actor reasonCode : String}
    (hc : revoke A env workspaceId runnerId actor reasonCode db = .ok db') :
    Kept A.toPlatform env.now db db' := by
  simp only [revoke, bind_ok] at hc
  obtain ⟨-, -, hc⟩ := hc
  split at hc
  · simp only [bind_ok] at hc
    obtain ⟨-, -, identity, -, hc⟩ := hc
    obtain ⟨digest, rfl⟩ := saveIdentity_ok hc
    refine ⟨⟨h.pairings, ?_, updateKeys_queue h.queue _ _⟩, fun _ hr _ _ => hr⟩
    refine (h.rotations.withRunners fun o ho =>
      ⟨_, Table.mem_update.mpr ⟨o, ho, rfl⟩, ?_⟩).save hP digest fun _ _ _ _ _ => by simp
    split <;> rfl
  · cases hc
    exact ⟨h, fun _ hr _ _ => hr⟩

theorem consumeRequest_kept (hP : NfcLaws A.toPlatform) (h : AuthInv A.toPlatform db)
    {q : RunnerRequest} (hc : consumeRequest A env q db = .ok db') :
    Kept A.toPlatform env.now db db' := by
  simp only [consumeRequest, bind_ok, require_ok, exists_const, pure, Except.pure,
    Except.ok.injEq] at hc
  obtain ⟨-, -, mid, hmid, rfl⟩ := hc
  split at hmid
  · simp only [bind_ok] at hmid
    obtain ⟨identity, hload, hsave⟩ := hmid
    obtain ⟨row, hrow, hof, rfl⟩ := loadIdentity_ok hload
    obtain ⟨digest, rfl⟩ := saveIdentity_ok hsave
    refine ⟨⟨h.pairings, ?_, h.queue⟩, fun _ hr _ _ => hr⟩
    exact h.rotations.resave hP digest hrow ⟨rfl, rfl⟩ rfl
  · cases hmid
    exact ⟨⟨h.pairings, h.rotations, h.queue⟩, fun _ hr _ _ => hr⟩

/-! ### The reaper -/

theorem reap_works (h : AuthInv P db) {now : ℚ} {limit phaseCursor : Nat} {result : ReapResult}
    (hc : reapExpiredAuth now limit phaseCursor db = .ok (db', result)) :
    Works now result.done.length db db' ∧ result.done.length ≤ limit := by
  simp only [reapExpiredAuth, bind_ok, require_ok, exists_const, pure, Except.pure,
    Except.ok.injEq, Prod.mk.injEq] at hc
  obtain ⟨-, s, hfold, rfl, rfl⟩ := hc
  have hpass := foldlM_invariant _ (fun _ (s : Reap) => Works now s.done.length db s.db ∧
    s.done.length + s.remaining = limit) ?_ _ _ _ ?_ hfold
  · exact ⟨hpass.1, hpass.2 ▸ Nat.le_add_right _ _⟩
  · intro lanes s lane t hs hlane
    obtain ⟨hwork, hdone, -, hbudget, -⟩ := consumeLane_work (hs.1.keeps h) hlane
    refine ⟨?_, hbudget.trans hs.2⟩
    rw [hdone, List.length_append]
    exact hs.1.trans hwork.1
  · exact ⟨.refl, Nat.zero_add limit⟩

theorem purge_works (h : AuthInv P db) {now : ℚ} {limit : Nat}
    (hc : purgeRequestReceipts now limit db = .ok db') : ∃ n, Works now n db db' := by
  simp only [purgeRequestReceipts, bind_ok, require_ok, exists_const, List.take_take] at hc
  rw [Nat.min_eq_left (Nat.le_succ _)] at hc
  exact ⟨_, (lane_work .requestReceipts h hc.2).1⟩

theorem Works.open_stays {now : ℚ} {n : Nat} (h : Works now n db db') {r : Rotation}
    (hr : r ∈ db.rotations) (hopen : r.isOpen = true) : r ∈ db'.rotations := by
  induction h with
  | refl => exact hr
  | tail _ hwork ih =>
    cases hwork with
    | @rotation o ho hover hfree =>
      apply (List.mem_erase_of_ne ?_).mpr (ih hr)
      rintro rfl
      rcases List.mem_cons.mp hover.2 with hstatus | hstatus
      · simp [Rotation.isOpen, hstatus] at hopen
      · simp [Rotation.isOpen, List.mem_singleton.mp hstatus] at hopen
    | @receipt lane r hr hexpired =>
      cases lane <;> exact ih ‹_›
    | _ => exact ih hr

theorem Works.kept (h : AuthInv P db) {now : ℚ} {n : Nat} (hw : Works now n db db') :
    Kept P now db db' :=
  ⟨hw.keeps h, fun _ hr hopen _ => hw.open_stays hr hopen⟩

/-! ### The runs -/

theorem call_kept (hP : NfcLaws A.toPlatform) (h : AuthInv A.toPlatform db) {c : Call}
    (hc : call A env db c = .ok db') : Kept A.toPlatform env.now db db' := by
  cases c with
  | invite workspaceId => exact invite_kept h hc
  | exchange q => exact exchange_kept h hc
  | approve workspaceId pairingId phrase fingerprint actor => exact approve_kept h hc
  | activate pairingId signature maxActive => exact activate_kept hP h hc
  | activateExecutable pairingId q maxActive => exact activateExecutable_kept hP h hc
  | abortPairingActivation pairingId q => exact abortPairingActivation_kept h hc
  | startRotation workspaceId runnerId q => exact startRotation_kept hP h hc
  | approveRotation workspaceId pairingId phrase fingerprint actor =>
    exact approveRotation_kept h hc
  | activateRotation pairingId signature overlapSeconds => exact activateRotation_kept hP h hc
  | abortRotationActivation q =>
    obtain rfl := abortRotationActivation_same hc
    exact ⟨h, fun _ hr _ _ => hr⟩
  | revoke workspaceId runnerId actor reasonCode => exact revoke_kept hP h hc
  | consumeRequest q => exact consumeRequest_kept hP h hc
  | purgeRequestReceipts limit =>
    obtain ⟨n, hworks⟩ := purge_works h hc
    exact hworks.kept h
  | reapExpiredAuth limit phaseCursor =>
    obtain ⟨result, hreap⟩ := fst_ok hc
    exact (reap_works h hreap).1.kept h
  | otherServices references =>
    simp only [call, otherServices, bind_ok, require_ok, exists_const, pure, Except.pure,
      Except.ok.injEq] at hc
    obtain ⟨-, rfl⟩ := hc
    exact ⟨⟨h.pairings, h.rotations, h.queue⟩, fun _ hr _ _ => hr⟩

theorem authInv_empty : AuthInv P {} where
  pairings := ⟨List.nodup_nil, by simp, by simp⟩
  rotations := ⟨List.nodup_nil, by simp, by simp, by simp, by simp⟩
  queue := by simp

theorem authInv_reachable (hP : NfcLaws A.toPlatform)
    (h : (authentication A).Reachable db) : AuthInv A.toPlatform db := by
  refine Transition.invariant _ (fun s hs => ?_) (fun s a t hs hstep => ?_) h
  · obtain rfl : s = {} := hs
    exact authInv_empty
  · obtain rfl : t = transact A a.1 s a.2 := hstep
    unfold transact
    split
    · exact (call_kept hP hs ‹_›).inv
    · exact hs

def afterCalls (A : AuthPlatform) (calls : List (AuthEnv × Call)) (db : AuthDb) : AuthDb :=
  calls.foldl (fun db a => transact A a.1 db a.2) db

theorem afterCalls_reachable (h : (authentication A).Reachable db)
    (calls : List (AuthEnv × Call)) : (authentication A).Reachable (afterCalls A calls db) := by
  induction calls generalizing db with
  | nil => exact h
  | cons a rest ih => exact ih (.step h rfl)

namespace Sample

def digest64 : String := "0000000000000000000000000000000000000000000000000000000000000000"

/-- Every signature verifies; the old key and the new one have ids of their own. -/
def platform : AuthPlatform where
  nfc := id
  sha256 _ := digest64
  verify _ _ _ := true
  publicKeyOf text := some (text.toList.map fun c => c.toNat.toUInt8)
  keyIdOf raw := if raw = [111] then "old-key" else "new-key"
  fingerprintOf _ := digest64
  signatureOf _ := some []
  challengeDigest _ := some digest64
  hash domain text := domain ++ text
  requestDigest _ := digest64

theorem laws : NfcLaws platform.toPlatform where
  idempotent _ := rfl
  ascii _ _ := rfl

def at_ (now : ℚ) : AuthEnv where
  now := now
  draws := { pairingId := "ceremony", token := "t", runnerIds := ["runr"], challenge := "c" }

def pairing : List (AuthEnv × Call) :=
  [(at_ 0, .invite "w"),
    (at_ 1, .exchange ⟨"t", "o", "phrase", "1", [], some "exchange"⟩),
    (at_ 2, .approve "w" "ceremony" "phrase" digest64 "owner"),
    (at_ 3, .activateExecutable "ceremony" ⟨"nonce", "s"⟩ none)]

def paired : AuthDb where
  runners := [⟨"runr", "w", .active⟩]
  keys := [⟨⟨"w", "runr", "old-key"⟩, "o", .active, 3, none⟩]
  identities :=
    [{ identity :=
        { runnerId := "runr", workspaceId := "w", keyId := "old-key", publicKey := "o"
          fingerprint := digest64, runnerVersion := "1", adapterVersions := []
          pairedBy := "owner", pairedAtMs := 2000, lastHeartbeatAtMs := 3000 }
       digest := digest64 }]
  pairings :=
    [{ pairingId := "ceremony", workspaceId := "w", runnerId := "runr"
       invitationHash := "consumed-invitationceremony", publicKey := some "o"
       fingerprint := some digest64, keyId := some "old-key", runnerVersion := "1"
       status := .activated, expiresAt := 2592003, approvedAt := some 2
       approvedBy := some "owner", activatedAt := some 3 }]
  pairingProtocols := [⟨"ceremony", "exchange"⟩]
  executable := [("w", "runr")]
  pairingReceipts := [⟨"ceremony", digest64, 2592003⟩]

/-- The identity of the runner as it stands between the calls. -/
def identityIn (state : IdentityState) : RunnerIdentity where
  runnerId := "runr"
  workspaceId := "w"
  keyId := "old-key"
  publicKey := "o"
  fingerprint := digest64
  runnerVersion := "1"
  adapterVersions := []
  pairedBy := "owner"
  pairedAtMs := 2000
  lastHeartbeatAtMs := 3000
  state := state

example : (identityIn .active).keyId = "old-key" := by decide +kernel

theorem identity_plain (state : IdentityState) :
    (identityIn state).unsigned.isPlain 0 = true ∧
    ((identityIn state).record digest64).isPlain 0 = true ∧
    ((identityIn state).record digest64).room ≤ 16 * 1024 := by
  cases state <;> decide +kernel
theorem digest64_hash : contractHash digest64 = .ok () := by
  simp only [contractHash, contractIdentifier, Literal.toList_eq]
  decide +kernel

theorem identity_digest (state : IdentityState) :
    (identityIn state).digest platform.toPlatform = .ok digest64 := by
  rw [RunnerIdentity.digest, Json.canonicalDigest,
    Json.canonicalBytes_plain laws.ascii (identity_plain state).1]
  rfl

theorem identity_valid {state : IdentityState} (h : state ∉ [IdentityState.revoked, .replaced]) :
    validIdentity platform (identityIn state) = .ok () := by
  obtain ⟨-, hrecord, hroom⟩ := identity_plain state
  have hsize := (Json.byteSize_plain _ hrecord).trans hroom
  have hids : (["runr", "w", "1", "old-key", "o"].forM fun s => contractIdentifier s) =
      (.ok () : Except Refusal Unit) := by decide +kernel
  have howner : contractIdentifier "owner" = .ok () := by decide +kernel
  have hnone : contractSortedUnique [] = .ok () := by decide
  have htimes : contractInteger 2000 = .ok () ∧ contractInteger 3000 = .ok () := by decide
  simp only [validIdentity, RunnerIdentity.validate, bind_ok, require_ok, exists_const]
  exact ⟨digest64, identity_digest state, _, Json.canonicalBytes_plain laws.ascii hrecord, hsize,
    (), hids, rfl, (), digest64_hash, (), hnone, (), rfl, (), howner, (), htimes.1, (),
    htimes.2, (),
    hnone, (), rfl, (), rfl, (fun hany => by cases hany),
    (fun _ hany => by cases hany), fun hrevoked => absurd hrevoked h,
    (), rfl, (), rfl, digest64_hash⟩

/-- A valid identity of the runner is saved over the one that is there. -/
theorem saveIdentity_sample {state : IdentityState}
    (h : state ∉ [IdentityState.revoked, .replaced])
    (hrunner : ⟨"runr", "w", .active⟩ ∈ db.runners)
    (hothers : ∀ row ∈ db.identities, row.identity.workspaceId = "w" ∧ row.identity.runnerId =
      "runr") :
    saveIdentity platform (identityIn state) db =
      .ok { db with identities := [⟨identityIn state, digest64⟩] } := by
  have hnormal : normalIdentity platform.toPlatform (identityIn state) = identityIn state := rfl
  simp only [saveIdentity, hnormal, bind_ok, require_ok, exists_const, identity_valid h,
    identity_digest, pure,
    Except.pure, Except.ok.injEq, exists_eq_left', true_and]
  refine ⟨⟨_, hrunner, rfl, rfl⟩, ?_⟩
  rw [List.filter_eq_nil_iff.mpr]
  · rfl
  · intro row hrow
    have hsame := hothers row hrow
    simp [hsame, identityIn]

def approvedRow : Pairing where
  pairingId := "ceremony"
  workspaceId := "w"
  runnerId := "runr"
  invitationHash := "consumed-invitationceremony"
  phrase := some "phrase"
  publicKey := some "o"
  fingerprint := some digest64
  keyId := some "old-key"
  runnerVersion := "1"
  challenge := some "c"
  status := .approved
  expiresAt := 600
  approvedAt := some 2
  approvedBy := some "owner"

/-- The tables once the pairing is approved. -/
def approvedDb : AuthDb where
  pairings := [approvedRow]
  pairingProtocols := [⟨"ceremony", "exchange"⟩]

example : approvedRow.status = .approved ∧ approvedRow.expiresAt = 600 := by decide +kernel

theorem pairing_approved : afterCalls platform (pairing.take 3) {} = approvedDb := by
  decide +kernel

theorem approved_proves : provesKey platform "o" "heel.runner-pairing-activate.v3\x00"
    (.obj [("pairing_id", .str "ceremony"), ("activation_challenge", .str "c"),
      ("pairing_exchange_digest", .str "exchange"), ("client_activation_nonce_b64", .str "nonce"),
      ("control_protocol", .str "heel.runner-control.v2")]) [] = true := by
  rw [provesKey, Json.canonicalBytes_plain laws.ascii (by decide +kernel)]
  rfl

theorem approved_opens : openRunner platform (at_ 3) approvedRow none approvedDb =
    .ok { approvedDb with
      runners := paired.runners, keys := paired.keys, identities := paired.identities } := by
  have hsave := @saveIdentity_sample { approvedDb with
    runners := paired.runners, keys := paired.keys } .active (by simp) (by simp [paired])
    (by simp [approvedDb])
  have htimes : milliseconds 2 = 2000 ∧ milliseconds 3 = 3000 := by decide +kernel
  simp only [openRunner, bind_ok, require_ok, exists_const]
  refine ⟨by simp, by simp [approvedDb], "o", rfl, "old-key", rfl, digest64, rfl, "owner",
    rfl, 2, rfl,
    by simp [approvedDb], ?_⟩
  have hnow : (at_ 3).now = 3 := rfl
  rw [hnow, htimes.1, htimes.2]
  exact hsave

theorem approved_activates :
    activateExecutable platform (at_ 3) "ceremony" ⟨"nonce", "s"⟩ none approvedDb = .ok paired := by
  have hrow : found (approvedDb.pairings.find? fun r => r.pairingId = "ceremony") invalidPairing =
      .ok approvedRow := rfl
  have hexpiry : (at_ 3).now + receiptRetention = 2592003 := by decide +kernel
  simp only [activateExecutable, bind_ok]
  refine ⟨approvedRow, hrow, ⟨"ceremony", "exchange"⟩, rfl, ?_⟩
  rw [if_neg (by decide)]
  simp only [bind_ok, require_ok, exists_const]
  refine ⟨⟨rfl, by decide +kernel⟩, [], rfl, "o", rfl, approved_proves, _, approved_opens,
    by simp [approvedDb], _, rfl, ?_⟩
  rw [hexpiry]
  rfl

theorem pairing_pairs : afterCalls platform pairing {} = paired := by
  have hactivate : transact platform (at_ 3) approvedDb
      (.activateExecutable "ceremony" ⟨"nonce", "s"⟩ none) = paired := by
    rw [transact, call, approved_activates]
  have hsplit : pairing = pairing.take 3 ++
      [(at_ 3, .activateExecutable "ceremony" ⟨"nonce", "s"⟩ none)] := rfl
  have happroved := pairing_approved
  rw [afterCalls] at happroved
  rw [afterCalls, hsplit, List.foldl_append, happroved, List.foldl_cons, List.foldl_nil]
  exact hactivate

theorem paired_reachable : (authentication platform).Reachable paired := by
  rw [← pairing_pairs]
  exact afterCalls_reachable (.init rfl) pairing

end Sample

end Heel.RunnerAuth
