import Mathlib.Data.List.Rotate
import Heel.Saas.AuthInvariant

/-! What a pass of the reaper reports: it stays within its budget, and it says that nothing is left
unless a ceremony had its last receipt deleted after its own lane was visited. -/
namespace Heel.RunnerAuth
open Lib Lib.Checks Cloud

variable {P : Platform} {now : ℚ} {phaseCursor limit : Nat} {db db' : AuthDb}

def visitedBefore (phaseCursor : Nat) (a b : Lane) : Bool :=
  (laneOrder phaseCursor).idxOf a < (laneOrder phaseCursor).idxOf b

theorem laneOrder_nodup (phaseCursor : Nat) : (laneOrder phaseCursor).Nodup :=
  List.nodup_rotate.mpr (by decide)

theorem mem_laneOrder (phaseCursor : Nat) (lane : Lane) : lane ∈ laneOrder phaseCursor :=
  List.mem_rotate.mpr (by cases lane <;> decide)

theorem visited_iff {pre post : List Lane} {lane : Lane}
    (h : laneOrder phaseCursor = pre ++ lane :: post) (other : Lane) :
    visitedBefore phaseCursor other lane = true ↔ other ∈ pre := by
  have hnodup := laneOrder_nodup phaseCursor
  rw [h, List.nodup_middle, List.nodup_cons, List.mem_append, not_or] at hnodup
  have hlane : (pre ++ lane :: post).idxOf lane = pre.length := by
    rw [List.idxOf_append_of_notMem hnodup.1.1, List.idxOf_cons_self, Nat.add_zero]
  rw [visitedBefore, decide_eq_true_eq, h, hlane]
  by_cases hmem : other ∈ pre
  · rw [List.idxOf_append_of_mem hmem]
    exact iff_of_true (List.idxOf_lt_length_of_mem hmem) hmem
  · rw [List.idxOf_append_of_notMem hmem]
    exact iff_of_false (by omega) hmem

variable (now phaseCursor)

/-- Every receipt that some lanes hold of a ceremony has expired, and its lane satisfies `p`. -/
def AuthDb.settled (db : AuthDb) (p : Lane → Bool) (lanes : List Lane) (pairingId : String) :
    Bool :=
  ∀ lane ∈ lanes, ∀ r ∈ db.receipts lane, r.pairingId = pairingId →
    r.expiresAt ≤ now ∧ p lane = true

/-- An ended pairing whose receipts are all deleted by the time its lane is visited. -/
def AuthDb.freedPairing (db : AuthDb) (p : Pairing) : Bool :=
  db.endedPairing now p && db.settled now (visitedBefore phaseCursor · .pairingParents) p.blockers
    p.pairingId

def AuthDb.freedRotation (db : AuthDb) (r : Rotation) : Bool :=
  r.ended now && db.settled now (visitedBefore phaseCursor · .rotationParents) rotationBlockers
    r.pairingId

/-- The number of rows that are due in a lane when an unlimited pass visits it. -/
def AuthDb.dueAt (db : AuthDb) : Lane → Nat
  | .requestReceipts => (db.ledger.filter fun r => r.retentionExpiresAt ≤ now).length
  | .pairingParents => (db.pairings.filter (db.freedPairing now phaseCursor)).length
  | .rotationParents => (db.rotations.filter (db.freedRotation now phaseCursor)).length
  | .oldKeys => (db.queue.filter fun q => q.nextAttemptAt ≤ now).length
  | lane => ((db.receipts lane).filter fun r => r.expiresAt ≤ now).length

/-- The number of rows that an unlimited pass works on. -/
def AuthDb.dueWork (db : AuthDb) : Nat :=
  ((laneOrder phaseCursor).map (db.dueAt now phaseCursor)).sum

/-- A ceremony has ended and all its receipts have expired, but some lie in a lane that is visited
after the lane of the ceremony. -/
def AuthDb.Stranded (db : AuthDb) : Prop :=
  (∃ p ∈ db.pairings, db.endedPairing now p = true ∧
    db.settled now (fun _ => true) p.blockers p.pairingId = true ∧
    db.freedPairing now phaseCursor p = false) ∨
  ∃ r ∈ db.rotations, r.ended now = true ∧
    db.settled now (fun _ => true) rotationBlockers r.pairingId = true ∧
    db.freedRotation now phaseCursor r = false

instance (db : AuthDb) : Decidable (db.Stranded now phaseCursor) :=
  inferInstanceAs (Decidable (_ ∨ _))

/-- The tables when the lanes `pre` have been swept. -/
structure After (db : AuthDb) (pre : List Lane) (s : AuthDb) : Prop where
  ledger : s.ledger = if .requestReceipts ∈ pre then
    db.ledger.filter fun r => !decide (r.retentionExpiresAt ≤ now) else db.ledger
  receipts : ∀ lane, s.receipts lane = if lane ∈ pre then
    (db.receipts lane).filter fun r => !decide (r.expiresAt ≤ now) else db.receipts lane
  pairings : s.pairings = if .pairingParents ∈ pre then
    db.pairings.filter fun p => !db.freedPairing now phaseCursor p else db.pairings
  rotations : s.rotations = if .rotationParents ∈ pre then
    db.rotations.filter fun r => !db.freedRotation now phaseCursor r else db.rotations
  queue : if .oldKeys ∈ pre then ∀ q ∈ s.queue, now < q.nextAttemptAt else s.queue = db.queue
  executable : s.executable = db.executable

variable {now phaseCursor} {pre : List Lane} {s t : AuthDb}

/-- The receipts of a ceremony are gone if they had expired and their lanes have been visited. -/
theorem After.free (h : After now phaseCursor db pre s) (lanes : List Lane) (pairingId : String) :
    (∀ lane ∈ lanes, s.hasReceipt lane pairingId = false) ↔
      db.settled now (fun lane => decide (lane ∈ pre)) lanes pairingId = true := by
  simp only [AuthDb.settled, decide_eq_true_eq, hasReceipt_false]
  refine forall₂_congr fun lane _ => ?_
  rw [h.receipts lane]
  split
  · rename_i hvisited
    simp only [List.mem_filter, Bool.not_eq_true', decide_eq_false_iff_not, hvisited, and_true]
    constructor
    · intro hfree r hr hid
      by_contra hlive
      exact hfree r ⟨hr, hlive⟩ hid
    · exact fun hsettled r hr hid => hr.2 (hsettled r hr.1 hid)
  · rename_i hvisited
    simp only [hvisited, and_false]

theorem settled_congr {p q : Lane → Bool} (h : ∀ lane, p lane = q lane) (lanes : List Lane)
    (pairingId : String) :
    db.settled now p lanes pairingId = db.settled now q lanes pairingId := by
  rw [funext h]

theorem After.endedPairing (h : After now phaseCursor db pre s) (p : Pairing) :
    s.endedPairing now p = db.endedPairing now p := by
  rw [AuthDb.endedPairing, AuthDb.endedPairing, h.executable]

theorem After.duePairing (h : After now phaseCursor db pre s) (p : Pairing) :
    s.duePairing now p = true ↔ db.endedPairing now p = true ∧
      db.settled now (fun lane => decide (lane ∈ pre)) p.blockers p.pairingId = true := by
  rw [AuthDb.duePairing, decide_eq_true_eq, h.endedPairing, h.free]

theorem After.dueRotation (h : After now phaseCursor db pre s) (r : Rotation) :
    s.dueRotation now r = true ↔ r.ended now = true ∧
      db.settled now (fun lane => decide (lane ∈ pre)) rotationBlockers r.pairingId = true := by
  rw [AuthDb.dueRotation, decide_eq_true_eq, h.free]

/-- When the lane of the pairings is visited, those due are the freed ones. -/
theorem After.due_freed (h : After now phaseCursor db pre s) {lane : Lane} {post : List Lane}
    (horder : laneOrder phaseCursor = pre ++ lane :: post) :
    (lane = .pairingParents → ∀ p, s.duePairing now p = db.freedPairing now phaseCursor p) ∧
      (lane = .rotationParents →
        ∀ r, s.dueRotation now r = db.freedRotation now phaseCursor r) := by
  have hvisited : ∀ other, decide (other ∈ pre) = visitedBefore phaseCursor other lane := by
    intro other
    rw [Bool.eq_iff_iff, decide_eq_true_eq, visited_iff horder]
  constructor
  · rintro rfl p
    rw [Bool.eq_iff_iff, h.duePairing, AuthDb.freedPairing, Bool.and_eq_true,
      settled_congr hvisited]
  · rintro rfl r
    rw [Bool.eq_iff_iff, h.dueRotation, AuthDb.freedRotation, Bool.and_eq_true,
      settled_congr hvisited]

theorem length_ordered {ρ κ : Type} [LinearOrder κ] {order : ρ → κ} {rows : List ρ} :
    (ordered order rows).length = rows.length :=
  (List.perm_insertionSort _ rows).length_eq

/-- The rows due in the lane that is visited next were counted before the pass. -/
theorem After.dueAt (h : After now phaseCursor db pre s) {lane : Lane} {post : List Lane}
    (horder : laneOrder phaseCursor = pre ++ lane :: post) :
    (lane.due now s).length = db.dueAt now phaseCursor lane := by
  have hnodup := laneOrder_nodup phaseCursor
  rw [horder, List.nodup_middle, List.nodup_cons, List.mem_append, not_or] at hnodup
  have hnew := hnodup.1.1
  obtain ⟨hpairings, hrotations⟩ := h.due_freed horder
  cases lane with
  | requestReceipts =>
    simp only [Lane.due, List.length_map, length_ordered, AuthDb.dueAt, h.ledger, if_neg hnew]
  | pairingParents =>
    simp only [Lane.due, List.length_map, length_ordered, AuthDb.dueAt, h.pairings, if_neg hnew,
      funext (hpairings rfl)]
  | rotationParents =>
    simp only [Lane.due, List.length_map, length_ordered, AuthDb.dueAt, h.rotations, if_neg hnew,
      funext (hrotations rfl)]
  | oldKeys =>
    have hqueue := h.queue
    rw [if_neg hnew] at hqueue
    simp only [Lane.due, List.length_map, length_ordered, AuthDb.dueAt, hqueue]
  | _ =>
    simp only [Lane.due, List.length_map, length_ordered, AuthDb.dueAt, h.receipts, if_neg hnew]

theorem after_nil : After now phaseCursor db [] db where
  ledger := rfl
  receipts _ := rfl
  pairings := rfl
  rotations := rfl
  queue := rfl
  executable := rfl

/-- What sweeping one lane does to each table. -/
structure SweptTables (now : ℚ) (lane : Lane) (s t : AuthDb) : Prop where
  ledger : t.ledger = if lane = .requestReceipts then
    s.ledger.filter fun r => !decide (r.retentionExpiresAt ≤ now) else s.ledger
  receipts : ∀ other, t.receipts other = if lane = other then
    (s.receipts other).filter fun r => !decide (r.expiresAt ≤ now) else s.receipts other
  pairings : t.pairings = if lane = .pairingParents then
    s.pairings.filter fun p => !s.duePairing now p else s.pairings
  rotations : t.rotations = if lane = .rotationParents then
    s.rotations.filter fun r => !s.dueRotation now r else s.rotations
  queue : if lane = .oldKeys then ∀ q ∈ t.queue, now < q.nextAttemptAt else t.queue = s.queue
  executable : t.executable = s.executable

theorem Swept.tables {lane : Lane} (h : Swept now s t lane) : SweptTables now lane s t := by
  cases lane with
  | pairingParents =>
    obtain ⟨protocols, rfl⟩ := h
    exact ⟨rfl, fun other => by cases other <;> rfl, rfl, rfl, rfl, rfl⟩
  | oldKeys =>
    obtain ⟨keys, queue, rfl, hqueue⟩ := h
    exact ⟨rfl, fun other => by cases other <;> rfl, rfl, rfl, hqueue, rfl⟩
  | _ =>
    obtain rfl : t = _ := h
    exact ⟨rfl, fun other => by cases other <;> rfl, rfl, rfl, rfl, rfl⟩

theorem swept_table {τ : Type} {own lane : Lane} (hnew : lane ∉ pre) {before now after : τ}
    {filtered cut : τ} (hbefore : now = if own ∈ pre then cut else before)
    (hafter : after = if lane = own then filtered else now)
    (hcut : lane = own → now = before → filtered = cut) :
    after = if own ∈ pre ++ [lane] then cut else before := by
  by_cases hown : lane = own
  · subst hown
    rw [if_neg hnew] at hbefore
    rw [hafter, if_pos rfl, if_pos (by simp), hcut rfl hbefore]
  · have hsame : own ∈ pre ++ [lane] ↔ own ∈ pre := by simp [Ne.symm hown]
    rw [hafter, if_neg hown, hbefore, if_congr hsame rfl rfl]

theorem After.step (h : After now phaseCursor db pre s) {lane : Lane} {post : List Lane}
    (horder : laneOrder phaseCursor = pre ++ lane :: post) (hswept : Swept now s t lane) :
    After now phaseCursor db (pre ++ [lane]) t := by
  have hnodup := laneOrder_nodup phaseCursor
  rw [horder, List.nodup_middle, List.nodup_cons, List.mem_append, not_or] at hnodup
  have hnew := hnodup.1.1
  obtain ⟨hpairings, hrotations⟩ := h.due_freed horder
  have ht := hswept.tables
  constructor
  · exact swept_table hnew h.ledger ht.ledger fun _ hsame => by rw [hsame]
  · exact fun other => swept_table hnew (h.receipts other) (ht.receipts other)
      fun _ hsame => by rw [hsame]
  · exact swept_table hnew h.pairings ht.pairings fun hown hsame => by
      rw [hsame, funext (hpairings hown)]
  · exact swept_table hnew h.rotations ht.rotations fun hown hsame => by
      rw [hsame, funext (hrotations hown)]
  · have hqueue := ht.queue
    by_cases hown : lane = .oldKeys
    · subst hown
      rw [if_pos rfl] at hqueue
      rwa [if_pos (by simp)]
    · rw [if_neg hown] at hqueue
      have hsame : Lane.oldKeys ∈ pre ++ [lane] ↔ Lane.oldKeys ∈ pre := by simp [Ne.symm hown]
      rw [if_congr hsame rfl rfl, hqueue]
      exact h.queue
  · rw [ht.executable, h.executable]

/-- The progress of a pass: it says that nothing is left exactly if its budget has sufficed so
far, and then every lane it has visited is swept. -/
structure Progress (now : ℚ) (phaseCursor limit : Nat) (db : AuthDb) (pre : List Lane)
    (s : Reap) : Prop where
  honest : s.hasMore = false ↔ (pre.map (db.dueAt now phaseCursor)).sum ≤ limit
  swept : s.hasMore = false → After now phaseCursor db pre s.db ∧
    s.remaining = limit - (pre.map (db.dueAt now phaseCursor)).sum

theorem reap_progress (h : AuthInv P db) {result : ReapResult}
    (hc : reapExpiredAuth now limit phaseCursor db = .ok (db', result)) :
    (result.hasMore = false ↔ db.dueWork now phaseCursor ≤ limit) ∧
      (result.hasMore = false → After now phaseCursor db (laneOrder phaseCursor) db') := by
  simp only [reapExpiredAuth, bind_ok, require_ok, exists_const, pure, Except.pure,
    Except.ok.injEq, Prod.mk.injEq] at hc
  obtain ⟨-, s, hfold, rfl, rfl⟩ := hc
  have hpass := foldlM_prefix _ (fun pre (s : Reap) => AuthInv P s.db ∧
    Progress now phaseCursor limit db pre s) ?_ ?_ hfold
  · exact ⟨hpass.2.honest, fun hdone => (hpass.2.swept hdone).1⟩
  · intro pre lane post s t horder hs hlane
    obtain ⟨hinv, hprogress⟩ := hs
    obtain ⟨⟨hworks, hswept⟩, -, hremaining, -, hmore⟩ := consumeLane_work hinv hlane
    refine ⟨hworks.keeps hinv, ?_⟩
    have hsum : ((pre ++ [lane]).map (db.dueAt now phaseCursor)).sum =
        (pre.map (db.dueAt now phaseCursor)).sum + db.dueAt now phaseCursor lane := by simp
    by_cases hdone : s.hasMore = false
    · obtain ⟨hafter, hbudget⟩ := hprogress.swept hdone
      have hbound := hprogress.honest.mp hdone
      rw [hafter.dueAt horder] at hremaining hmore hswept
      constructor
      · rw [hmore, hsum, and_iff_right hdone, hbudget]
        omega
      · intro ht
        refine ⟨hafter.step horder (hswept (hmore.mp ht).2), ?_⟩
        rw [hremaining, hbudget, hsum]
        omega
    · have hover := mt hprogress.honest.mpr hdone
      constructor
      · rw [hmore, hsum]
        exact iff_of_false (fun ht => hdone ht.1) (by omega)
      · exact fun ht => absurd (hmore.mp ht).1 hdone
  · refine ⟨h, ?_, fun _ => ⟨after_nil, rfl⟩⟩
    exact iff_of_true rfl (Nat.zero_le _)

theorem due_nil {ρ κ : Type} [LinearOrder κ] {order : ρ → κ} {rows : List ρ} {due : ρ → Bool}
    {item : ρ → WorkItem} :
    (ordered order (rows.filter due)).map item = [] ↔ ∀ r ∈ rows, due r = false := by
  rw [List.map_eq_nil_iff, ← List.length_eq_zero_iff, length_ordered, List.length_eq_zero_iff,
    List.filter_eq_nil_iff]
  simp only [Bool.not_eq_true]

/-- When every lane is swept, a ceremony is due exactly if it is stranded. -/
theorem After.due_parents (h : After now phaseCursor db (laneOrder phaseCursor) s) :
    (Lane.pairingParents.due now s = [] ∧ Lane.rotationParents.due now s = []) ↔
      ¬ db.Stranded now phaseCursor := by
  have hall : ∀ lane, decide (lane ∈ laneOrder phaseCursor) = true :=
    fun lane => decide_eq_true (mem_laneOrder phaseCursor lane)
  have hpairings := h.pairings
  have hrotations := h.rotations
  rw [if_pos (mem_laneOrder _ _)] at hpairings hrotations
  simp only [Lane.due, due_nil, hpairings, hrotations, List.mem_filter, Bool.not_eq_true',
    ← Bool.not_eq_true (s.duePairing now _), ← Bool.not_eq_true (s.dueRotation now _),
    h.duePairing, h.dueRotation, settled_congr hall, AuthDb.Stranded, not_or, not_exists,
    not_and, and_imp]
  constructor
  · rintro ⟨hp, hr⟩
    exact ⟨fun p hmem hended hsettled hfree => hp p hmem hfree hended hsettled,
      fun r hmem hended hsettled hfree => hr r hmem hfree hended hsettled⟩
  · rintro ⟨hp, hr⟩
    exact ⟨fun p hmem hfree hended hsettled => hp p hmem hended hsettled hfree,
      fun r hmem hfree hended hsettled => hr r hmem hended hsettled hfree⟩

theorem After.due_others (h : After now phaseCursor db (laneOrder phaseCursor) s) {lane : Lane}
    (hpairings : lane ≠ .pairingParents) (hrotations : lane ≠ .rotationParents) :
    lane.due now s = [] := by
  cases lane with
  | requestReceipts =>
    rw [Lane.due, due_nil, h.ledger, if_pos (mem_laneOrder _ _)]
    exact fun r hr => by simpa using (List.mem_filter.mp hr).2
  | pairingParents => exact absurd rfl hpairings
  | rotationParents => exact absurd rfl hrotations
  | oldKeys =>
    have hqueue := h.queue
    rw [if_pos (mem_laneOrder _ _)] at hqueue
    rw [Lane.due, due_nil]
    exact fun q hq => by simpa using hqueue q hq
  | _ =>
    simp only [Lane.due, due_nil, h.receipts, if_pos (mem_laneOrder _ _)]
    exact fun r hr => by simpa using (List.mem_filter.mp hr).2

theorem After.stranded (h : After now phaseCursor db (laneOrder phaseCursor) s) :
    (∀ lane : Lane, lane.due now s = []) ↔ ¬ db.Stranded now phaseCursor := by
  rw [← h.due_parents]
  constructor
  · exact fun hall => ⟨hall _, hall _⟩
  · rintro ⟨hp, hr⟩ lane
    by_cases hpairings : lane = .pairingParents
    · rwa [hpairings]
    · by_cases hrotations : lane = .rotationParents
      · rwa [hrotations]
      · exact h.due_others hpairings hrotations

/-- A pass does at most `limit` items of work that it is entitled to, and it is right that nothing
is left exactly if it does not say so for want of budget, or if no ceremony is stranded. -/
theorem reap_reports {A : AuthPlatform} (hP : NfcLaws A.toPlatform)
    (hdb : (authentication A).Reachable db) {result : ReapResult}
    (hc : reapExpiredAuth now limit phaseCursor db = .ok (db', result)) :
    (Works now result.done.length db db' ∧ result.done.length ≤ limit) ∧
      ((result.hasMore = false → ∀ lane : Lane, lane.due now db' = []) ↔
        limit < db.dueWork now phaseCursor ∨ ¬ db.Stranded now phaseCursor) := by
  have hinv := authInv_reachable hP hdb
  refine ⟨reap_works hinv hc, ?_⟩
  obtain ⟨hmore, hafter⟩ := reap_progress hinv hc
  by_cases hdone : result.hasMore = false
  · have hbudget := hmore.mp hdone
    rw [(hafter hdone).stranded]
    constructor
    · exact fun hfree => .inr (hfree hdone)
    · rintro (hover | hfree) _
      · exact absurd hbudget (not_le.mpr hover)
      · exact hfree
  · exact iff_of_true (fun h => absurd h hdone) (.inl (not_le.mp (mt hmore.mpr hdone)))

namespace Sample

/-- The tables after the receipt of the pairing is deleted. -/
def purged : AuthDb := { paired with pairingReceipts := [] }

def purge : ReapResult where
  done := [.receipt .pairingReceipts ⟨"ceremony", digest64, 2592003⟩]
  hasMore := false

theorem purge_paired : reapExpiredAuth 2592003 128 5 paired = .ok (purged, purge) := by
  decide +kernel

end Sample

open Sample in
/-- From the lane of the pairings on, the receipt is deleted last: the pairing is due now, and the
pass says that nothing is left. -/
theorem freed_pairing_unreported : (authentication platform).Reachable paired ∧
    reapExpiredAuth 2592003 128 5 paired = .ok (purged, purge) ∧ purge.hasMore = false ∧
    Lane.pairingParents.due 2592003 purged ≠ [] :=
  ⟨paired_reachable, purge_paired, rfl, by decide +kernel⟩

open Sample in
theorem reap_reports_sample : (Works 2592003 purge.done.length paired purged ∧
    purge.done.length ≤ 128) ∧
      ((purge.hasMore = false → ∀ lane : Lane, lane.due 2592003 purged = []) ↔
        128 < paired.dueWork 2592003 5 ∨ ¬ paired.Stranded 2592003 5) :=
  reap_reports laws paired_reachable purge_paired

end Heel.RunnerAuth
