import Heel.Saas.AuthInvariant

/-! What becomes of a rotation whose time is over: it can be neither approved, activated nor
aborted, it stands in the way of the next one, and the reaper leaves it. -/
namespace Heel.RunnerAuth
open Lib Lib.Checks Cloud

variable {A : AuthPlatform} {env : AuthEnv} {db db' : AuthDb} {r : Rotation} {now : ℚ}

/-- The runner of a rotation is free again: its identity and its old key are active, or it has a
fresh open rotation. -/
def Recovered (now : ℚ) (r : Rotation) (db : AuthDb) : Prop :=
  ((∃ row ∈ db.identities, row.of r.workspaceId r.runnerId ∧ row.identity.state = .active) ∧
    ∃ k ∈ db.keys, k.toKeyRef = ⟨r.workspaceId, r.runnerId, r.oldKeyId⟩ ∧ k.status = .active) ∨
  ∃ o ∈ db.rotations, o.workspaceId = r.workspaceId ∧ o.runnerId = r.runnerId ∧
    o.isOpen = true ∧ now < o.expiresAt

theorem AuthInv.not_recovered {P : Platform} (h : AuthInv P db) (hr : r ∈ db.rotations)
    (hopen : r.isOpen = true) (hexpired : r.expiresAt ≤ now) : ¬ Recovered now r db := by
  rintro (⟨⟨row, hrow, hof, hactive⟩, -⟩ | ⟨o, ho, hworkspace, hrunner, hoopen, hlive⟩)
  · exact h.rotations.held r hr hopen row hrow hof hactive
  · rw [h.rotations.one o ho r hr hoopen hopen hworkspace hrunner] at hlive
    exact absurd hexpired (not_le.mpr hlive)

theorem call_not_recovered (hP : NfcLaws A.toPlatform) (h : AuthInv A.toPlatform db)
    (hr : r ∈ db.rotations) (hopen : r.isOpen = true) (hexpired : r.expiresAt ≤ env.now) :
    ¬ ∃ c db', call A env db c = .ok db' ∧ Recovered env.now r db' := by
  rintro ⟨c, db', hc, hrecovered⟩
  have hkept := call_kept hP h hc
  exact hkept.inv.not_recovered (hkept.expired r hr hopen hexpired) hopen hexpired hrecovered

/-- No call at or after the expiry of an open rotation frees its runner. -/
theorem expired_rotation_blocks (hP : NfcLaws A.toPlatform)
    (hdb : (authentication A).Reachable db) (hr : r ∈ db.rotations) (hopen : r.isOpen = true)
    (hexpired : r.expiresAt ≤ env.now) :
    ¬ ∃ c db', call A env db c = .ok db' ∧ Recovered env.now r db' :=
  call_not_recovered hP (authInv_reachable hP hdb) hr hopen hexpired

theorem expired_rotation_stays (hP : NfcLaws A.toPlatform)
    (hdb : (authentication A).Reachable db) (hr : r ∈ db.rotations) (hopen : r.isOpen = true)
    (hrun : ((authentication A).restrict fun _ a => r.expiresAt ≤ a.1.now).Later db db')
    (hnow : r.expiresAt ≤ now) : ¬ Recovered now r db' := by
  have hstays : r ∈ db'.rotations ∧ AuthInv A.toPlatform db' := by
    induction hrun with
    | refl => exact ⟨hr, authInv_reachable hP hdb⟩
    | tail _ hstep ih =>
      obtain ⟨a, hstep, hexpired⟩ := hstep
      obtain ⟨hmem, hinv⟩ := ih
      rw [show _ = _ from hstep, transact]
      split
      · have hkept := call_kept hP hinv ‹_›
        exact ⟨hkept.expired r hmem hopen hexpired, hkept.inv⟩
      · exact ⟨hmem, hinv⟩
  exact hstays.2.not_recovered hstays.1 hopen hnow

namespace Sample

def approval : List (AuthEnv × Call) :=
  [(at_ 4, .startRotation "w" "runr" ⟨digest64, "n", "phrase", "2", []⟩),
    (at_ 5, .approveRotation "w" "ceremony" "phrase" digest64 "owner")]

def lateRotation : Rotation where
  pairingId := "ceremony"
  workspaceId := "w"
  runnerId := "runr"
  phrase := some "phrase"
  publicKey := "n"
  fingerprint := digest64
  keyId := "new-key"
  runnerVersion := "2"
  adapters := []
  challenge := some "c"
  status := .rotationApproved
  createdAt := 4
  expiresAt := 604
  approvedAt := some 5
  approvedBy := some "owner"
  oldKeyId := "old-key"
  oldFingerprint := digest64

def rotating : AuthDb :=
  { paired with
    identities := paired.identities.map fun row =>
      { row with identity := { row.identity with state := .rotating } }
    rotations := [lateRotation] }

theorem loadIdentity_sample {state : IdentityState}
    (h : state ∉ [IdentityState.revoked, .replaced])
    (hdb : db.identities = [⟨identityIn state, digest64⟩]) :
    loadIdentity platform "w" "runr" db = .ok (identityIn state) := by
  have hrow : found (db.identities.find? fun row =>
      row.identity.workspaceId = "w" ∧ row.identity.runnerId = "runr")
      (authError "invalid runner identity") = .ok ⟨identityIn state, digest64⟩ := by
    rw [hdb]
    rfl
  exact (bind_of_ok hrow _).trans ((bind_of_ok (identity_valid h) _).trans rfl)

def oldKey : Key := ⟨⟨"w", "runr", "old-key"⟩, "o", .active, 3, none⟩

theorem singleActiveKey_sample (h : db.keys = paired.keys) :
    singleActiveKey "w" "runr" db = .ok oldKey := by
  rw [singleActiveKey, h]
  rfl

def pending : AuthDb :=
  { rotating with
    rotations := [{ lateRotation with
      status := .rotationPending, approvedAt := none, approvedBy := none }] }

/-- While the runner rotates, its rotation is bound to the old key. -/
theorem boundKey_sample (hkeys : db.keys = paired.keys)
    (hdb : db.identities = [⟨identityIn .rotating, digest64⟩]) (hworkspace : r.workspaceId = "w")
    (hrunner : r.runnerId = "runr")
    (hold : r.oldKeyId = "old-key" ∧ r.oldFingerprint = digest64) :
    boundRotationOldKey platform r db = .ok oldKey := by
  simp only [boundRotationOldKey, bind_ok, require_ok, exists_const, hworkspace, hrunner]
  exact ⟨oldKey, singleActiveKey_sample hkeys, _, rfl, hold, identityIn .rotating,
    loadIdentity_sample (by simp) hdb, ⟨rfl, rfl, rfl⟩, rfl⟩

theorem pending_starts : startRotation platform (at_ 4) "w" "runr"
    ⟨digest64, "n", "phrase", "2", []⟩ paired = .ok pending := by
  have hsave := @saveIdentity_sample { paired with rotations := pending.rotations } .rotating
    (by simp) (by simp [paired]) (by simp [paired])
  simp only [startRotation, bind_ok, require_ok, exists_const]
  refine ⟨_, rfl, by simp [paired], oldKey, singleActiveKey_sample rfl, _, rfl,
    identityIn .active, loadIdentity_sample (by simp) rfl, ⟨rfl, rfl, rfl, rfl, rfl⟩,
    ?_, by simp [at_], ?_, ?_⟩
  · decide +kernel
  · decide +kernel
  · have hexpiry : (at_ 4).now + pairingTtl = 604 := by decide +kernel
    rw [hexpiry]
    exact hsave

theorem pending_approved :
    approveRotation platform (at_ 5) "w" "ceremony" "phrase" digest64 "owner" pending =
      .ok rotating := by
  have hbound := @boundKey_sample pending { lateRotation with
      status := .rotationPending, approvedAt := none, approvedBy := none } rfl rfl
      rfl rfl ⟨rfl, rfl⟩
  simp only [approveRotation, updateRotations, bind_ok, require_ok, exists_const]
  refine ⟨_, rfl, ?_, oldKey, hbound, ?_⟩
  · decide +kernel
  · decide +kernel

theorem approval_rotates : afterCalls platform approval paired = rotating := by
  have hstart : transact platform (at_ 4) paired (.startRotation "w" "runr"
      ⟨digest64, "n", "phrase", "2", []⟩) = pending := by
    rw [transact, call, pending_starts]
  have happrove : transact platform (at_ 5) pending (.approveRotation "w" "ceremony" "phrase"
      digest64 "owner") = rotating := by
    rw [transact, call, pending_approved]
  simp only [afterCalls, approval, List.foldl_cons, List.foldl_nil, hstart, happrove]

theorem rotating_reachable : (authentication platform).Reachable rotating := by
  rw [← approval_rotates]
  exact afterCalls_reachable paired_reachable approval

/-- The request that both keys have signed. -/
def abort : RotationAbortRequest where
  workspaceId := "w"
  runnerId := "runr"
  pairingId := "ceremony"
  oldRunnerKeyId := "old-key"
  newRunnerKeyId := "new-key"
  activationRequestDigest := digest64
  activationChallengeDigest := digest64
  challengeExpiresAtMs := 604000
  oldSignature := "s"
  newSignature := "s"

example : lateRotation.status = .rotationApproved ∧ abort.challengeExpiresAtMs = 604000 := by
  decide +kernel

theorem proves_abort (domain : String) : provesKey platform "o" domain abort.core [] = true ∧
    provesKey platform "n" domain abort.core [] = true := by
  have hplain : abort.core.isPlain 0 = true := by decide +kernel
  have hbytes := Json.canonicalBytes_plain laws.ascii hplain
  constructor <;> rw [provesKey, hbytes] <;> rfl

/-- The abort passes every check, and the statement of its last table does not. -/
theorem abort_refused : call platform (at_ 700) rotating (.abortRotationActivation abort) =
    .error (integrityError "NOT NULL constraint failed: canary_runner_rotations.phrase") := by
  let receipted : AuthDb := { rotating with
    rotationAborts := [⟨"ceremony", digest64, (at_ 700).now + receiptRetention⟩] }
  have hwell : abort.wellFormed = .ok () := by decide +kernel
  have hsigned : found (platform.signatureOf "s") invalidAbort = .ok [] := rfl
  have hrow : found (rotating.rotations.find? fun r => r.pairingId = abort.pairingId)
      invalidRotation = .ok lateRotation := rfl
  have hbound := @boundKey_sample rotating lateRotation rfl rfl rfl rfl ⟨rfl, rfl⟩
  have hreceipt : insertReceipt rotating.rotationAborts
      ⟨"ceremony", digest64, (at_ 700).now + receiptRetention⟩ = .ok receipted.rotationAborts := by
    decide +kernel
  have hload := @loadIdentity_sample receipted .rotating (by simp) rfl
  have hsave := @saveIdentity_sample receipted .active (by simp)
    (by simp [receipted, rotating, paired]) (by simp [receipted, rotating, paired])
  rw [call, abortRotationActivation]
  refine (bind_of_ok hwell _).trans ((bind_of_ok hsigned _).trans ((bind_of_ok hsigned _).trans ?_))
  refine (bind_of_ok hrow _).trans ((bind_of_ok (passed ⟨rfl, rfl, rfl, rfl⟩) _).trans ?_)
  refine (bind_of_ok hbound _).trans ?_
  refine (bind_of_ok (passed (proves_abort _).1) _).trans ?_
  refine (bind_of_ok (passed (proves_abort _).2) _).trans ?_
  -- no abort is stored, and the rotation is approved and over
  refine (bind_of_ok (passed (by decide)) _).trans ?_
  refine (bind_of_ok (passed (by decide)) _).trans ?_
  refine (bind_of_ok (passed (by decide +kernel)) _).trans ?_
  refine (bind_of_ok (passed (by decide +kernel)) _).trans ?_
  refine (bind_of_ok (passed (by decide)) _).trans ?_
  refine (bind_of_ok hreceipt _).trans ((bind_of_ok hload _).trans ?_)
  refine (bind_of_ok (passed rfl) _).trans ((bind_of_ok hsave _).trans ?_)
  decide +kernel

end Sample

open Sample in
/-- The runner is active and its rotation has run out of time: the abort under both signatures is
refused by the table, and no other call helps. -/
theorem approved_rotation_stuck : (authentication platform).Reachable rotating ∧
    (⟨"runr", "w", .active⟩ : Runner) ∈ rotating.runners ∧ lateRotation ∈ rotating.rotations ∧
    lateRotation.isOpen = true ∧ lateRotation.expiresAt ≤ (at_ 700).now ∧
    call platform (at_ 700) rotating (.abortRotationActivation abort) =
      .error (integrityError "NOT NULL constraint failed: canary_runner_rotations.phrase") ∧
    ¬ ∃ c db', call platform (at_ 700) rotating c = .ok db' ∧
      Recovered (at_ 700).now lateRotation db' := by
  refine ⟨rotating_reachable, by decide, List.mem_singleton_self _, by decide, by decide +kernel,
    abort_refused, ?_⟩
  exact call_not_recovered laws (authInv_reachable laws rotating_reachable)
    (List.mem_singleton_self _) (by decide) (by decide +kernel)

open Sample in
theorem expired_rotation_blocks_sample : ¬ ∃ c db',
    call platform (at_ 700) rotating c = .ok db' ∧ Recovered (at_ 700).now lateRotation db' :=
  expired_rotation_blocks laws rotating_reachable (List.mem_singleton_self _) (by decide)
    (by decide +kernel)

end Heel.RunnerAuth
