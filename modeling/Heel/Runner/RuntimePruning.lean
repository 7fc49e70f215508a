import Heel.Runner.RuntimeRuns

/-! Retention pruning: over settled runs a claim returns, takes the first expired disclosures and
frees their runs, so that repeated claims leave none. Over an unsettled run it raises for ever. -/
namespace Heel.Runtime
open Lib Lib.Checks

variable {H : Hashes} {db db' : RuntimeDb} {r : RunId}

/-- The due disclosures, in the order of the index. -/
def RuntimeDb.dueOrder (H : Hashes) (db : RuntimeDb) (now : SafeInt) : List Terminal :=
  (db.terminals.filter fun t => t.due now).insertionSort fun a b => a.dueKey H ≤ b.dueKey H

-- one name for the proof, wherever a condition of this module compares two values
local instance lawfulRunId : LawfulBEq RunId := inferInstance

/-- The database without the groups of the claimed disclosures, which await their pruning. -/
def RuntimeDb.pruned (H : Hashes) (claimed : List Terminal) (db : RuntimeDb) : RuntimeDb :=
  { db with
    active := db.active.filter fun a => a.runId ∉ claimed.map Terminal.runId
    chains := db.chains.filter fun c => c.runId.all fun q => q ∉ claimed.map Terminal.runId
    pending := db.pending.filter fun p => p.runId.all fun q => q ∉ claimed.map Terminal.runId
    terminals := Table.update (fun t => t.runId ∈ claimed.map Terminal.runId)
      (Terminal.prunePending H) db.terminals }

/-- A claim, made again and again with the same time. -/
def repeatPrune (H : Hashes) (now : SafeInt) (limit : Nat) : Nat → RuntimeDb →
    Except Fault RuntimeDb
  | 0, db => .ok db
  | n + 1, db => do
    let answer ← claimDuePrune H db now limit
    repeatPrune H now limit n answer.2

/-- One claimed disclosure: the group of its run is gone, and it awaits its pruning. -/
def RuntimeDb.claimed (H : Hashes) (db : RuntimeDb) (t : Terminal) : RuntimeDb :=
  (db.deleteGroup t.runId).updateTerminal (t.prunePending H)

theorem rows_claimed_other {t : Terminal} (hne : t.runId ≠ r) :
    (db.claimed H t).rows r = db.rows r := by
  unfold RuntimeDb.claimed
  rw [rows_updateTerminal_other (by exact hne), rows_deleteGroup_other hne]

theorem valid_prunePending {t : Terminal} (hvalid : t.valid) (hstate : t.state ≠ .prunePending) :
    (t.prunePending H).valid := by
  obtain ⟨htimes, hpos, hsafe, hchain, hrest⟩ := hvalid
  have hrev : t.revision ≤ 3 := by
    cases hs : t.state with
    | localTerminal =>
      rw [hs] at hrest
      simp only at hrest
      omega
    | available =>
      rw [hs] at hrest
      simp only at hrest
      omega
    | consumed =>
      rw [hs] at hrest
      simp only at hrest
      omega
    | prunePending => exact absurd hs hstate
  refine ⟨htimes, ?_, ?_, by simp [Terminal.prunePending], ?_⟩
  · simp [Terminal.prunePending]
  · simp only [Terminal.prunePending, maxSafeInt]
    omega
  · simp only [Terminal.prunePending, Option.isSome_some, true_and]
    omega

theorem RunInv.fourChains {v : RunRows} (h : RunInv H v) (ha : v.active ≠ []) :
    v.chains.length = 4 := by
  have hsub : v.chains.map Cursor.operation ⊆ runChainOps := by
    intro op hop
    obtain ⟨c, hc, rfl⟩ := List.mem_map.mp hop
    have hne := h.chainOps c hc
    cases hcop : c.operation with
    | claim => exact absurd hcop hne
    | heartbeat => decide
    | progress => decide
    | result => decide
    | stopAck => decide
  have hle := (List.subperm_of_subset h.chainOnce hsub).length_le
  have hge := (List.subperm_of_subset (show runChainOps.Nodup by decide)
    (h.activeChains ha)).length_le
  rw [List.length_map] at hle hge
  exact Nat.le_antisymm hle hge

theorem RunInv.active_nil {v : RunRows} (h : RunInv H v) (hnil : v.chains = []) :
    v.active = [] := by
  by_contra ha
  have hfour := h.fourChains ha
  rw [hnil] at hfour
  cases hfour

theorem RunInv.oneCall {v : RunRows} (h : RunInv H v) {t : Terminal} (ht : t ∈ v.terminals)
    (hstate : t.state = .localTerminal ∨ t.state = .available) : v.pending.length ≤ 1 := by
  have hnodup : v.pending.Nodup := h.callOnce.of_map _
  have honly : ∀ p ∈ v.pending, ∀ o ∈ v.pending, o = p :=
    fun p hp o ho => h.onlyCall ht hstate hp ho
  match hpending : v.pending with
  | [] => exact Nat.zero_le 1
  | [p] => exact Nat.le_refl 1
  | p :: o :: rest =>
    rw [hpending] at hnodup honly
    have hsame : o = p := honly p (by simp) o (by simp)
    rw [hsame, List.nodup_cons] at hnodup
    exact absurd List.mem_cons_self hnodup.1

theorem ownsRun_ok {t : Terminal} (hinv : RunInv H (db.rows t.runId)) (ht : t ∈ db.terminals)
    (hlocal : t.state = .localTerminal) :
    ownsRun H db t (db.rows t.runId).chains (db.rows t.runId).pending = .ok () ∧
      (db.rows t.runId).active.length = 1 ∧ (db.rows t.runId).chains.length = 4 := by
  have hin : t ∈ (db.rows t.runId).terminals := mem_terminals.mpr ⟨ht, rfl⟩
  have hs := hinv.standing t hin
  unfold Standing at hs
  rw [hlocal] at hs
  obtain ⟨⟨a, ha, hof⟩, hcalls⟩ := hs
  have hne : (db.rows t.runId).active ≠ [] := List.ne_nil_of_mem ha
  have hfour := hinv.fourChains hne
  have hactive : db.active? t.runId = some a := by
    apply Table.find_only (mem_active.mp ha).1
    · simpa using (mem_active.mp ha).2
    · intro o ho hrun
      exact eq_of_length_le_one hinv.activeOnce
        (mem_active.mpr ⟨ho, by simpa using hrun⟩) ha
  have hone := hinv.oneCall hin (Or.inl hlocal)
  refine ⟨?_, Nat.le_antisymm hinv.activeOnce (List.length_pos_of_mem ha), hfour⟩
  simp only [ownsRun, bind_ok, require_ok, found_ok]
  refine ⟨⟨⟩, ⟨Or.inr ⟨hfour, hinv.activeChains hne⟩, hone⟩, a, hactive, ⟨⟩, ⟨?_, hof⟩, hcalls⟩
  intro hnil
  rw [hnil] at hfour
  cases hfour

/-- Without cursors and an active run the group is the pending calls. -/
theorem deleteGroup_calls (hchains : (db.rows r).chains = []) (hactive : (db.rows r).active = []) :
    db.deleteGroup r = { db with pending := db.pending.filter fun p => p.runId ≠ some r } := by
  have hc : (db.chains.filter fun c => c.runId ≠ some r) = db.chains := by
    apply List.filter_eq_self.mpr
    intro c hc
    simpa using List.filter_eq_nil_iff.mp hchains c hc
  have ha : (db.active.filter fun a => a.runId ≠ r) = db.active := by
    apply List.filter_eq_self.mpr
    intro a ha
    simpa using List.filter_eq_nil_iff.mp hactive a ha
  simp only [RuntimeDb.deleteGroup, hc, ha]

/-- The claim of a disclosure that stands beside the rows of its run goes through. -/
theorem pruneRow_ok {t : Terminal} (hinv : RunInv H (db.rows t.runId)) (ht : t ∈ db.terminals)
    (hstate : t.state ≠ .prunePending) : pruneRow H none db t = .ok (db.claimed H t) := by
  have hin : t ∈ (db.rows t.runId).terminals := mem_terminals.mpr ⟨ht, rfl⟩
  have hs := hinv.standing t hin
  have hvalid : (t.prunePending H).valid := valid_prunePending (hinv.valid t hin) hstate
  have hboth : ownsExactly H db t (db.rows t.runId).chains (db.rows t.runId).pending = .ok () ∧
      releaseRun db t = .ok (db.deleteGroup t.runId) := by
    unfold Standing at hs
    unfold ownsExactly releaseRun
    cases hphase : t.state with
    | localTerminal =>
      obtain ⟨howns, hone, hfour⟩ := ownsRun_ok hinv ht hphase
      refine ⟨howns, ?_⟩
      rw [if_pos rfl, bind_ok]
      exact ⟨⟨⟩, (require_ok ..).mpr ⟨hone, hfour⟩, rfl⟩
    | available =>
      rw [hphase] at hs
      rw [if_neg (by simp), deleteGroup_calls hs.1 (hinv.active_nil hs.1)]
      refine ⟨?_, rfl⟩
      simp only [bind_ok, require_ok]
      exact ⟨⟨⟩, ⟨hs.1, hinv.oneCall hin (Or.inr hphase)⟩, hs.2⟩
    | consumed =>
      rw [hphase] at hs
      rw [if_neg (by simp), deleteGroup_calls hs.1 (hinv.active_nil hs.1)]
      exact ⟨(require_ok ..).mpr hs, rfl⟩
    | prunePending => exact absurd hphase hstate
  simp only [pruneRow, bind_ok, require_ok, pure, Except.pure, Except.ok.injEq]
  exact ⟨⟨⟩, hstate, ⟨⟩, by simp, ⟨⟩, hinv.chainOnce, ⟨⟩, hboth.1, ⟨⟩, hvalid, _, hboth.2, rfl⟩

theorem pruned_nil : db.pruned H [] = db := by
  have hterm : Table.update (fun _ => false) (Terminal.prunePending H) db.terminals =
      db.terminals := Table.update_none fun _ _ => rfl
  have hall : ∀ o : Option RunId, (o.all fun _ => true) = true := by
    intro o
    cases o <;> rfl
  simp [RuntimeDb.pruned, hterm, hall]

theorem pruned_cons {t : Terminal} {rest : List Terminal}
    (hone : (db.rows t.runId).terminals.length ≤ 1)
    (ht : t ∈ db.terminals) (hfresh : t.runId ∉ rest.map Terminal.runId) :
    (db.claimed H t).pruned H rest = db.pruned H (t :: rest) := by
  have hin : t ∈ (db.rows t.runId).terminals := mem_terminals.mpr ⟨ht, rfl⟩
  simp only [RuntimeDb.pruned, RuntimeDb.claimed, RuntimeDb.updateTerminal, RuntimeDb.deleteGroup,
    List.filter_filter, List.map_cons, List.mem_cons]
  generalize rest.map Terminal.runId = runs at hfresh ⊢
  congr 1
  · apply List.filter_congr
    intro c _
    cases hrun : c.runId with
    | none => simp
    | some q => simp [Bool.and_comm]
  · apply List.filter_congr
    intro p _
    cases hrun : p.runId with
    | none => simp
    | some q => simp [Bool.and_comm]
  · apply List.filter_congr
    intro a _
    simp [Bool.and_comm]
  · unfold Table.update
    rw [List.map_map]
    apply List.map_congr_left
    intro o ho
    by_cases hrun : o.runId = t.runId
    · have hsame : o = t := eq_of_length_le_one hone (mem_terminals.mpr ⟨ho, hrun⟩) hin
      rw [hsame]
      simp [Terminal.prunePending, hfresh]
    · simp [Terminal.prunePending, hrun]

theorem pruneRows_ok {claimed : List Terminal} (hnodup : (claimed.map Terminal.runId).Nodup)
    (hrows : ∀ t ∈ claimed, t ∈ db.terminals ∧ t.state ≠ .prunePending ∧
      RunInv H (db.rows t.runId)) :
    claimed.foldlM (pruneRow H none) db = .ok (db.pruned H claimed) := by
  induction claimed generalizing db with
  | nil => rw [pruned_nil]; rfl
  | cons t rest ih =>
    obtain ⟨ht, hstate, hinv⟩ := hrows t List.mem_cons_self
    rw [List.map_cons, List.nodup_cons] at hnodup
    rw [List.foldlM_cons, pruneRow_ok hinv ht hstate]
    have hrest : ∀ o ∈ rest, o ∈ (db.claimed H t).terminals ∧ o.state ≠ .prunePending ∧
        RunInv H ((db.claimed H t).rows o.runId) := by
      intro o ho
      have hne : t.runId ≠ o.runId := fun h => hnodup.1 (h ▸ List.mem_map_of_mem ho)
      obtain ⟨hin, hphase, hother⟩ := hrows o (List.mem_cons_of_mem _ ho)
      have hsame : (db.claimed H t).rows o.runId = db.rows o.runId := rows_claimed_other hne
      refine ⟨?_, hphase, hsame ▸ hother⟩
      have hrow : o ∈ (db.rows o.runId).terminals := mem_terminals.mpr ⟨hin, rfl⟩
      rw [← hsame] at hrow
      exact (mem_terminals.mp hrow).1
    rw [← pruned_cons hinv.terminalOnce ht hnodup.1]
    exact ih hnodup.2 hrest

theorem terminals_nodup (hinv : ∀ r, RunInv H (db.rows r)) :
    (db.terminals.map Terminal.runId).Nodup := by
  rw [List.nodup_iff_count_le_one]
  intro r
  rw [List.count, List.countP_map, List.countP_eq_length_filter]
  simpa [RuntimeDb.rows, Function.comp_def, beq_eq_decide] using (hinv r).terminalOnce

theorem dueKey_injective (hhash : Function.Injective H.runHash) {a b : Terminal}
    (h : a.dueKey H = b.dueKey H) : a.runId = b.runId := by
  have hpair := toLex.injective h
  exact hhash (Prod.mk.inj hpair).2

theorem mem_dueOrder {now : SafeInt} {t : Terminal} :
    t ∈ db.dueOrder H now ↔ t ∈ db.terminals ∧ t.due now = true := by
  unfold RuntimeDb.dueOrder
  rw [List.mem_insertionSort, List.mem_filter]

theorem dueKeys_nodup (hhash : Function.Injective H.runHash)
    (hinv : ∀ r, RunInv H (db.rows r)) (now : SafeInt) :
    ((db.terminals.filter fun t => t.due now).map (Terminal.dueKey H)).Nodup := by
  have hruns := terminals_nodup hinv
  have hrows : (db.terminals.filter fun t => t.due now).Nodup := (hruns.of_map _).filter _
  apply hrows.map_on
  intro a ha b hb hab
  exact Table.eq_of_key hruns (List.mem_of_mem_filter ha) (List.mem_of_mem_filter hb)
    (dueKey_injective hhash hab)

/-- A claimed disclosure is due no longer; the others stay as they are. -/
theorem dueOrder_pruned (hhash : Function.Injective H.runHash)
    (hinv : ∀ r, RunInv H (db.rows r)) (now : SafeInt) (limit : Nat) :
    (db.pruned H ((db.dueOrder H now).take limit)).dueOrder H now =
      (db.dueOrder H now).drop limit := by
  have hruns := terminals_nodup hinv
  have hleft : ∀ t ∈ db.terminals.filter fun t => t.due now,
      decide (t.runId ∉ ((db.dueOrder H now).take limit).map Terminal.runId) = true ↔
        t ∉ (db.dueOrder H now).take limit := by
    intro t ht
    rw [decide_eq_true_eq, not_iff_not]
    constructor
    · intro hmem
      obtain ⟨o, ho, hrun⟩ := List.mem_map.mp hmem
      have hterm := (mem_dueOrder.mp (List.mem_of_mem_take ho)).1
      exact Table.eq_of_key hruns hterm (List.mem_of_mem_filter ht) hrun ▸ ho
    · exact fun hmem => List.mem_map_of_mem hmem
  have hrest : ((db.terminals.filter fun t => t.due now).filter fun t =>
      decide (t.runId ∉ ((db.dueOrder H now).take limit).map Terminal.runId)).insertionSort
      (fun a b => a.dueKey H ≤ b.dueKey H) = (db.dueOrder H now).drop limit :=
    Page.insertionSort_rest (dueKeys_nodup hhash hinv now) hleft
  rw [← hrest]
  show ((Table.update _ _ db.terminals).filter _).insertionSort _ = _
  rw [Table.filter_update_out]
  · simp only [decide_not]
  · intro t _
    rfl

theorem dueRows_eq (now : SafeInt) (limit : Nat) :
    dueRows H db now none limit = (db.dueOrder H now).take limit := by
  simp [dueRows, RuntimeDb.dueOrder, Page.page]

theorem validateOpen_pruned {claimed : List Terminal} (h : validateOpen false db = .ok ⟨⟩) :
    validateOpen false (db.pruned H claimed) = .ok ⟨⟩ := by
  simp only [validateOpen, bind_ok, require_ok] at h ⊢
  obtain ⟨-, hfence, -, ⟨hchains, hpending, hactive⟩, hretired⟩ := h
  refine ⟨⟨⟩, hfence, ⟨⟩, ⟨?_, ?_, ?_⟩, ?_⟩
  · exact Nat.le_trans (List.length_filter_le _ _) hchains
  · exact Nat.le_trans (List.length_filter_le _ _) hpending
  · exact Nat.le_trans (List.length_filter_le _ _) hactive
  · intro q hq
    have hnone := hretired q hq
    simp only [RuntimeDb.names, Bool.or_eq_false_iff, List.any_eq_false] at hnone ⊢
    obtain ⟨⟨⟨ha, hc⟩, hp⟩, ht⟩ := hnone
    refine ⟨⟨⟨?_, ?_⟩, ?_⟩, ?_⟩
    · exact fun a hin => ha a (List.mem_of_mem_filter hin)
    · exact fun c hin => hc c (List.mem_of_mem_filter hin)
    · exact fun p hin => hp p (List.mem_of_mem_filter hin)
    · intro t hin
      obtain ⟨o, ho, rfl⟩ := Table.mem_update.mp hin
      split
      · exact ht o ho
      · exact ht o ho

theorem claimDuePrune_ok (hinv : ∀ r, RunInv H (db.rows r)) (hopen : validateOpen false db = .ok ⟨⟩)
    (now : SafeInt)
    {limit : Nat} (hlimit : 1 ≤ limit ∧ limit ≤ 16) :
    claimDuePrune H db now limit =
      .ok (⟨((db.dueOrder H now).take limit).map (Terminal.prunePending H),
          decide (limit < (db.dueOrder H now).length)⟩,
        db.pruned H ((db.dueOrder H now).take limit)) := by
  have hfold : ((db.dueOrder H now).take limit).foldlM (pruneRow H none) db =
      .ok (db.pruned H ((db.dueOrder H now).take limit)) := by
    apply pruneRows_ok
    · have hruns : ((db.dueOrder H now).map Terminal.runId).Nodup :=
        ((List.perm_insertionSort _ _).map _).nodup_iff.mpr
          ((terminals_nodup hinv).sublist (List.filter_sublist.map _))
      exact hruns.sublist ((List.take_sublist ..).map _)
    · intro t ht
      obtain ⟨hin, hdue⟩ := mem_dueOrder.mp (List.mem_of_mem_take ht)
      simp only [Terminal.due, Bool.and_eq_true, decide_eq_true_eq] at hdue
      exact ⟨hin, hdue.1, hinv t.runId⟩
  have hmore : (limit < ((db.dueOrder H now).take (limit + 1)).length) ↔
      limit < (db.dueOrder H now).length := by
    rw [List.length_take]
    omega
  simp only [claimDuePrune, claimDue, dueRows_eq, List.take_take, bind_ok, require_ok, pure,
    Except.pure, Except.ok.injEq, Prod.mk.injEq, PruneBatch.mk.injEq]
  rw [Nat.min_eq_left (Nat.le_succ limit)]
  exact ⟨⟨⟩, hlimit, ⟨⟩, hopen, _, hfold, ⟨rfl, decide_eq_decide.mpr hmore⟩, rfl⟩

theorem repeatPrune_empties (hhash : Function.Injective H.runHash) (now : SafeInt) {limit : Nat}
    (hlimit : 1 ≤ limit ∧ limit ≤ 16) {n : Nat} {db : RuntimeDb}
    (hinv : ∀ r, RunInv H (db.rows r)) (hopen : validateOpen false db = .ok ⟨⟩)
    (hn : (db.dueOrder H now).length ≤ n) :
    ∃ db', repeatPrune H now limit n db = .ok db' ∧ db'.dueOrder H now = [] := by
  induction n generalizing db with
  | zero => exact ⟨db, rfl, List.length_eq_zero_iff.mp (Nat.le_zero.mp hn)⟩
  | succ n ih =>
    have hclaim := claimDuePrune_ok hinv hopen now hlimit
    have hleft := dueOrder_pruned hhash hinv now limit
    obtain ⟨db', hrest, hempty⟩ := ih
      (fun r => claimDue_keeps hclaim (hinv r)) (validateOpen_pruned hopen)
      (by rw [hleft, List.length_drop]; omega)
    refine ⟨db', ?_, hempty⟩
    simp only [repeatPrune, bind_ok]
    exact ⟨_, hclaim, hrest⟩

/-- In a run whose steps settle what they terminate, in every state that opens, a claim returns the
first expired disclosures in the order of retention, frees their runs and no other, says whether
more are due, and claims made again leave no disclosure due. -/
theorem expired_disclosures_leave (hhash : Function.Injective H.runHash)
    (hrun : ((runtime H).restrict (settling H)).Reachable db)
    (hopen : validateOpen false db = .ok ⟨⟩) (now : SafeInt) {limit : Nat}
    (hlimit : 1 ≤ limit ∧ limit ≤ 16) :
    claimDuePrune H db now limit =
        .ok (⟨((db.dueOrder H now).take limit).map (Terminal.prunePending H),
            decide (limit < (db.dueOrder H now).length)⟩,
          db.pruned H ((db.dueOrder H now).take limit)) ∧
      (db.pruned H ((db.dueOrder H now).take limit)).dueOrder H now =
        (db.dueOrder H now).drop limit ∧
      ∃ n db', repeatPrune H now limit n db = .ok db' ∧ db'.dueOrder H now = [] := by
  have hinv := runInv_reachable hrun
  refine ⟨claimDuePrune_ok hinv hopen now hlimit, dueOrder_pruned hhash hinv now limit, ?_⟩
  exact ⟨_, repeatPrune_empties hhash now hlimit hinv hopen (Nat.le_refl _)⟩

instance (t : Terminal) (a : ActiveRun) : Decidable (t.ofActive a) := by
  unfold Terminal.ofActive
  infer_instance

instance (t : Terminal) : Decidable (Settled H db t) := by
  unfold Settled
  infer_instance

instance (runId : Option RunId) : Decidable (Installable db runId) := by
  unfold Installable
  infer_instance

instance (call : Call) : Decidable (settling H db call) := by
  unfold settling
  cases call <;> infer_instance

/-- A terminal is registered only for a run that is active. -/
def registersActive (db : RuntimeDb) : Call → Prop
  | .registerLocalTerminal l => ∃ a ∈ db.active, a.runId = l.runId
  | _ => True

instance (call : Call) : Decidable (registersActive db call) := by
  unfold registersActive
  cases call <;> infer_instance

/-- The database after some calls that meet a condition. -/
def follow (H : Hashes) (guard : RuntimeDb → Call → Prop) [∀ db c, Decidable (guard db c)]
    (calls : List Call) : Except Fault RuntimeDb :=
  calls.foldlM (fun db c => do
    require (guard db c) (stateError "the condition on the call")
    respond H db c) {}

theorem follow_reachable {guard : RuntimeDb → Call → Prop} [∀ db c, Decidable (guard db c)]
    {calls : List Call} (h : follow H guard calls = .ok db) :
    ((runtime H).restrict guard).Reachable db := by
  apply foldlM_invariant _ (fun _ s => ((runtime H).restrict guard).Reachable s) _ _ _ _
    (.init rfl) h
  intro _ s c t hs hstep
  simp only [bind_ok, require_ok] at hstep
  obtain ⟨-, hguard, hcall⟩ := hstep
  exact .step hs ⟨hcall, hguard⟩

namespace Sample

def digest (c : Char) (h : Containment.isHexDigit c = true) : Digest :=
  ⟨String.ofList (List.replicate 64 c), by simp [isHex, h]⟩

def nonce (c : Char) (h : isBase64Digit c = true) : Nonce :=
  ⟨String.ofList (List.replicate 43 c ++ ['=']), by simp [h]⟩

def d0 : Digest := digest '0' (by decide)
def d1 : Digest := digest '1' (by decide)
def d2 : Digest := digest '2' (by decide)
def n0 : Nonce := nonce 'A' (by decide)
def n1 : Nonce := nonce 'B' (by decide)

def run : RunId := ⟨"crun_00000000000000000000000000000000", by decide⟩
def label : Label := ⟨"name", by decide⟩

/-- Digests that tell the records of the run below apart. -/
def hashes : Hashes where
  runHash q := q.1
  chain c := if c.nextSequence.val = 1 then d0 else d1
  active _ := d0
  terminal t := if t.revision = 1 then d0 else d1
  call request _ _ _ _ _ _ :=
    if request = .claim then d0 else if request = .heartbeat then d1 else d2

def signed : SignedRequest := ⟨"path", d0, true⟩

def gate : Gate := ⟨true, .none, 0, 1⟩

def claiming : List Call :=
  [.installChain ⟨.claim, none, n0, 1, 0, 0⟩,
    .stageCall .claim none signed d0 0,
    .commitCall d0 n1 1 (runChainOps.map fun op => ⟨op, run, n0, 1, 0⟩)
      (some ⟨run, label, label, d0, 0, gate, d0, d0, 1, 1, true⟩) none]

def terminal : LocalTerminal := ⟨run, label, label, d0, d0, d0, 5, 10⟩

/-- A heartbeat of the run is pending when its terminal is registered. -/
def unsettled : List Call :=
  claiming ++ [.stageCall .heartbeat (some run) signed d0 2, .registerLocalTerminal terminal]

def later : RunId := ⟨"crun_00000000000000000000000000000001", by decide⟩

/-- The result of the run is pending, and a later run has ended that expires before it. -/
def settled : List Call :=
  claiming ++ [.registerLocalTerminal terminal, .stageCall .result (some run) signed d0 6,
    .stageCall .claim none signed d1 7,
    .commitCall d0 n0 7 (runChainOps.map fun op => ⟨op, later, n0, 1, 0⟩)
      (some ⟨later, label, label, d0, 0, gate, d0, d0, 7, 7, true⟩) none,
    .registerLocalTerminal { terminal with
      runId := later, terminalAtMs := 8, retentionExpiresAtMs := 9 }]

/-- The database once the terminal is registered. -/
def stuck : RuntimeDb := (follow hashes registersActive unsettled).toOption.getD {}

def ready : RuntimeDb := (follow hashes (settling hashes) settled).toOption.getD {}

end Sample

open Sample in
/-- With the heartbeat pending the claim of the due disclosure raises. -/
theorem pending_heartbeat_stops_pruning :
    ((runtime hashes).restrict registersActive).Reachable stuck ∧
      validateOpen false stuck = .ok ⟨⟩ ∧ stuck.dueOrder hashes 10 ≠ [] ∧
      claimDuePrune hashes stuck 10 16 =
        .error (corrupt "runtime terminal prune does not own the result") := by
  have hrun : follow hashes registersActive unsettled = .ok stuck := by decide +kernel
  refine ⟨follow_reachable hrun, ?_, ?_, ?_⟩
  · decide +kernel
  · decide +kernel
  · decide +kernel

open Sample in
/-- Two disclosures are due, and one claim takes one of them. -/
theorem expired_disclosures_leave_settled :
    (ready.dueOrder hashes 10).map Terminal.runId = [later, run] ∧
    claimDuePrune hashes ready 10 1 =
        .ok (⟨((ready.dueOrder hashes 10).take 1).map (Terminal.prunePending hashes),
            decide (1 < (ready.dueOrder hashes 10).length)⟩,
          ready.pruned hashes ((ready.dueOrder hashes 10).take 1)) ∧
      (ready.pruned hashes ((ready.dueOrder hashes 10).take 1)).dueOrder hashes 10 =
        (ready.dueOrder hashes 10).drop 1 ∧
      ∃ n db', repeatPrune hashes 10 1 n ready = .ok db' ∧ db'.dueOrder hashes 10 = [] := by
  have hrun : follow hashes (settling hashes) settled = .ok ready := by decide +kernel
  have hopen : validateOpen false ready = .ok ⟨⟩ := by decide +kernel
  exact ⟨by decide +kernel,
    expired_disclosures_leave Subtype.val_injective (follow_reachable hrun) hopen 10 (by decide)⟩

end Heel.Runtime
