import Heel.Runner.RuntimeState

/-! The rows of one run: which of them stand beside its terminal disclosure. A call that registers
a terminal over an unsettled run, or that unsettles it later, is what the condition on runs leaves
out. -/
namespace Heel.Runtime
open Lib Lib.Checks

variable {H : Hashes} {db db' : RuntimeDb} {r : RunId}

/-! ### The rows of a run -/

structure RunRows where
  chains : List Cursor
  pending : List PendingCall
  active : List ActiveRun
  terminals : List Terminal

def RuntimeDb.rows (db : RuntimeDb) (r : RunId) : RunRows where
  chains := db.chains.filter fun c => c.runId = some r
  pending := db.pending.filter fun p => p.runId = some r
  active := db.active.filter fun a => a.runId = r
  terminals := db.terminals.filter fun t => t.runId = r

/-- The terminal names the run that is active. -/
def Terminal.ofActive (t : Terminal) (a : ActiveRun) : Prop :=
  a.projectId = t.projectId ∧ a.grantId = t.grantId ∧
    a.approvalProjectionDigest = t.approvalProjectionDigest

def Standing (H : Hashes) (v : RunRows) (t : Terminal) : Prop :=
  match t.state with
  | .localTerminal => (∃ a ∈ v.active, t.ofActive a) ∧
      ∀ p ∈ v.pending, p.request = .result ∧
        ∃ c ∈ v.chains, c.operation = .result ∧ p.continues H c
  | .available => v.chains = [] ∧ ∀ p ∈ v.pending, p.request = .uploadFindings ∧ p.discloses H t
  | .consumed => v.chains = [] ∧ v.pending = []
  | .prunePending => True

structure RunInv (H : Hashes) (v : RunRows) : Prop where
  chainOps : ∀ c ∈ v.chains, c.operation ≠ .claim
  chainOnce : (v.chains.map Cursor.operation).Nodup
  callOnce : (v.pending.map fun p => p.request.chain).Nodup
  activeOnce : v.active.length ≤ 1
  activeChains : v.active ≠ [] → ∀ op ∈ runChainOps, op ∈ v.chains.map Cursor.operation
  terminalOnce : v.terminals.length ≤ 1
  valid : ∀ t ∈ v.terminals, t.valid
  standing : ∀ t ∈ v.terminals, Standing H v t

section edits
variable {v : RunRows}

theorem RunInv.empty : RunInv H ⟨[], [], [], []⟩ where
  chainOps := by simp
  chainOnce := by simp
  callOnce := by simp
  activeOnce := by simp
  activeChains := by simp
  terminalOnce := by simp
  valid := by simp
  standing := by simp

theorem RunInv.fewerCalls (h : RunInv H v) {ps : List PendingCall} (hsub : ps.Sublist v.pending) :
    RunInv H { v with pending := ps } where
  chainOps := h.chainOps
  chainOnce := h.chainOnce
  callOnce := h.callOnce.sublist (hsub.map _)
  activeOnce := h.activeOnce
  activeChains := h.activeChains
  terminalOnce := h.terminalOnce
  valid := h.valid
  standing t ht := by
    have hs := h.standing t ht
    unfold Standing at hs ⊢
    cases hstate : t.state with
    | localTerminal =>
      rw [hstate] at hs
      exact ⟨hs.1, fun p hp => hs.2 p (hsub.subset hp)⟩
    | available =>
      rw [hstate] at hs
      exact ⟨hs.1, fun p hp => hs.2 p (hsub.subset hp)⟩
    | consumed =>
      rw [hstate] at hs
      refine ⟨hs.1, ?_⟩
      have hnil : v.pending = [] := hs.2
      rw [hnil] at hsub
      exact List.sublist_nil.mp hsub
    | prunePending => trivial

theorem RunInv.addCall (h : RunInv H v) {p : PendingCall}
    (hfree : ∀ o ∈ v.pending, o.request.chain ≠ p.request.chain)
    (hfits : ∀ t ∈ v.terminals, Standing H { v with pending := [p] } t) :
    RunInv H { v with pending := v.pending ++ [p] } where
  chainOps := h.chainOps
  chainOnce := h.chainOnce
  callOnce := by
    rw [List.map_append, List.nodup_append]
    refine ⟨h.callOnce, by simp, ?_⟩
    intro a ha b hb
    obtain ⟨o, ho, rfl⟩ := List.mem_map.mp ha
    simp only [List.map_cons, List.map_nil, List.mem_singleton] at hb
    exact hb ▸ hfree o ho
  activeOnce := h.activeOnce
  activeChains := h.activeChains
  terminalOnce := h.terminalOnce
  valid := h.valid
  standing t ht := by
    have hs := h.standing t ht
    have hp := hfits t ht
    unfold Standing at hs hp ⊢
    cases hstate : t.state with
    | localTerminal =>
      rw [hstate] at hs hp
      refine ⟨hs.1, fun o ho => ?_⟩
      cases List.mem_append.mp ho with
      | inl hold => exact hs.2 o hold
      | inr hnew => exact hp.2 o hnew
    | available =>
      rw [hstate] at hs hp
      refine ⟨hs.1, fun o ho => ?_⟩
      cases List.mem_append.mp ho with
      | inl hold => exact hs.2 o hold
      | inr hnew => exact hp.2 o hnew
    | consumed =>
      rw [hstate] at hp
      exact absurd hp.2 (by simp)
    | prunePending => trivial

/-- A new chain, for a run whose disclosure does not await its end. -/
theorem RunInv.addChain (h : RunInv H v) {c : Cursor} (hop : c.operation ≠ .claim)
    (hnew : c.operation ∉ v.chains.map Cursor.operation)
    (hopen : ∀ t ∈ v.terminals, t.state ≠ .available ∧ t.state ≠ .consumed) :
    RunInv H { v with chains := v.chains ++ [c] } where
  chainOps o ho := by
    cases List.mem_append.mp ho with
    | inl hold => exact h.chainOps o hold
    | inr hone => exact List.mem_singleton.mp hone ▸ hop
  chainOnce := by
    rw [List.map_append, List.nodup_append]
    refine ⟨h.chainOnce, by simp, ?_⟩
    intro a ha b hb hab
    simp only [List.map_cons, List.map_nil, List.mem_singleton] at hb
    exact hnew (hb ▸ hab ▸ ha)
  callOnce := h.callOnce
  activeOnce := h.activeOnce
  activeChains ha op hop := by
    rw [List.map_append]
    exact List.mem_append_left _ (h.activeChains ha op hop)
  terminalOnce := h.terminalOnce
  valid := h.valid
  standing t ht := by
    have hs := h.standing t ht
    unfold Standing at hs ⊢
    cases hstate : t.state with
    | localTerminal =>
      rw [hstate] at hs
      refine ⟨hs.1, fun p hp => ?_⟩
      obtain ⟨hreq, c, hc, hrest⟩ := hs.2 p hp
      exact ⟨hreq, c, List.mem_append_left _ hc, hrest⟩
    | available => exact absurd hstate (hopen t ht).1
    | consumed => exact absurd hstate (hopen t ht).2
    | prunePending => trivial

/-- A chain moves on: its operation stays, and no pending result was signed at it. -/
theorem RunInv.moveChain (h : RunInv H v) {c : Cursor} (hop : c.operation ≠ .claim)
    (hidle : c.operation = .result → ∀ t ∈ v.terminals, t.state = .localTerminal →
      v.pending = []) :
    RunInv H { v with
      chains := Table.update (fun o => o.operation = c.operation) (fun _ => c) v.chains } := by
  have hmap : (Table.update (fun o => o.operation = c.operation) (fun _ => c) v.chains).map
      Cursor.operation = v.chains.map Cursor.operation := by
    apply Table.map_update
    intro o ho
    exact (of_decide_eq_true ho).symm
  refine ⟨?_, ?_, h.callOnce, h.activeOnce, ?_, h.terminalOnce, h.valid, ?_⟩
  · intro o ho
    obtain ⟨o', ho', rfl⟩ := Table.mem_update.mp ho
    split
    · exact hop
    · exact h.chainOps o' ho'
  · rw [hmap]
    exact h.chainOnce
  · rw [hmap]
    exact h.activeChains
  · intro t ht
    have hs := h.standing t ht
    unfold Standing at hs ⊢
    cases hstate : t.state with
    | localTerminal =>
      rw [hstate] at hs
      refine ⟨hs.1, fun p hp => ?_⟩
      obtain ⟨hreq, o, ho, hres, hcont⟩ := hs.2 p hp
      refine ⟨hreq, o, ?_, hres, hcont⟩
      -- a pending result keeps the result chain where it is
      have hne : o.operation ≠ c.operation := by
        intro heq
        have hnil := hidle (heq ▸ hres) t ht hstate
        have hp' : p ∈ v.pending := hp
        rw [hnil] at hp'
        cases hp'
      exact Table.mem_update.mpr ⟨o, ho, by simp [hne]⟩
    | available =>
      rw [hstate] at hs
      exact ⟨by simp [Table.update, hs.1], hs.2⟩
    | consumed =>
      rw [hstate] at hs
      exact ⟨by simp [Table.update, hs.1], hs.2⟩
    | prunePending => trivial

theorem RunInv.setActive (h : RunInv H v) {as : List ActiveRun} (hone : as.length ≤ 1)
    (hchains : as ≠ [] → ∀ op ∈ runChainOps, op ∈ v.chains.map Cursor.operation)
    (hkeep : ∀ t ∈ v.terminals, t.state = .localTerminal → ∀ a ∈ v.active, t.ofActive a →
      ∃ a' ∈ as, t.ofActive a') :
    RunInv H { v with active := as } where
  chainOps := h.chainOps
  chainOnce := h.chainOnce
  callOnce := h.callOnce
  activeOnce := hone
  activeChains := hchains
  terminalOnce := h.terminalOnce
  valid := h.valid
  standing t ht := by
    have hs := h.standing t ht
    unfold Standing at hs ⊢
    cases hstate : t.state with
    | localTerminal =>
      rw [hstate] at hs
      obtain ⟨⟨a, ha, hof⟩, hcalls⟩ := hs
      exact ⟨hkeep t ht hstate a ha hof, hcalls⟩
    | available => rwa [hstate] at hs
    | consumed => rwa [hstate] at hs
    | prunePending => trivial

theorem RunInv.setTerminal (h : RunInv H v) {ts : List Terminal} (hone : ts.length ≤ 1)
    (hvalid : ∀ t ∈ ts, t.valid) (hstanding : ∀ t ∈ ts, Standing H v t) :
    RunInv H { v with terminals := ts } where
  chainOps := h.chainOps
  chainOnce := h.chainOnce
  callOnce := h.callOnce
  activeOnce := h.activeOnce
  activeChains := h.activeChains
  terminalOnce := hone
  valid := hvalid
  standing := hstanding

theorem RunInv.released {ts : List Terminal} (hone : ts.length ≤ 1) (hvalid : ∀ t ∈ ts, t.valid)
    (hstate : ∀ t ∈ ts, t.state ≠ .localTerminal) : RunInv H ⟨[], [], [], ts⟩ := by
  refine RunInv.empty.setTerminal hone hvalid ?_
  intro t ht
  unfold Standing
  cases hs : t.state with
  | localTerminal => exact absurd hs (hstate t ht)
  | available => exact ⟨rfl, by simp⟩
  | consumed => exact ⟨rfl, rfl⟩
  | prunePending => trivial

end edits

/-! ### What an edit of the tables does to the rows of a run -/

theorem mem_terminals {t : Terminal} : t ∈ (db.rows r).terminals ↔ t ∈ db.terminals ∧
    t.runId = r := by
  simp [RuntimeDb.rows]

theorem mem_pending {p : PendingCall} :
    p ∈ (db.rows r).pending ↔ p ∈ db.pending ∧ p.runId = some r := by
  simp [RuntimeDb.rows]

theorem mem_chains {c : Cursor} : c ∈ (db.rows r).chains ↔ c ∈ db.chains ∧ c.runId = some r := by
  simp [RuntimeDb.rows]

theorem mem_active {a : ActiveRun} : a ∈ (db.rows r).active ↔ a ∈ db.active ∧ a.runId = r := by
  simp [RuntimeDb.rows]

theorem rows_deleteCall (callId : Digest) : (db.deleteCall callId).rows r =
    { db.rows r with pending := (db.rows r).pending.filter fun p => p.callId ≠ callId } := by
  simp only [RuntimeDb.rows, RuntimeDb.deleteCall, List.filter_filter]
  simp only [Bool.and_comm]

theorem rows_insertChain (c : Cursor) : (db.insertChain c).rows r =
    if c.runId = some r then { db.rows r with chains := (db.rows r).chains ++ [c] }
    else db.rows r := by
  by_cases hc : c.runId = some r
  · simp [RuntimeDb.rows, RuntimeDb.insertChain, List.filter_append, hc]
  · simp [RuntimeDb.rows, RuntimeDb.insertChain, List.filter_append, hc]

theorem rows_updateChain (c : Cursor) : (db.updateChain c).rows r =
    if c.runId = some r then
      { db.rows r with
        chains := Table.update (fun o => o.operation = c.operation) (fun _ => c)
          (db.rows r).chains }
    else db.rows r := by
  have hkeep : (Table.update (fun o => o.operation = c.operation ∧ o.runId = c.runId) (fun _ => c)
      db.chains).filter (fun o => o.runId = some r) =
      Table.update (fun o => o.operation = c.operation ∧ o.runId = c.runId) (fun _ => c)
        (db.chains.filter fun o => o.runId = some r) := by
    apply Table.filter_update
    intro o ho
    simp only [decide_eq_true_eq] at ho
    simp [ho.2]
  simp only [RuntimeDb.rows, RuntimeDb.updateChain, hkeep]
  split
  next hc =>
    congr 1
    unfold Table.update
    apply List.map_congr_left
    intro o ho
    have hrun : o.runId = some r := by simpa using (List.mem_filter.mp ho).2
    simp [hrun, hc]
  next hc =>
    congr 1
    apply Table.update_none
    intro o ho
    have hrun : o.runId = some r := by simpa using (List.mem_filter.mp ho).2
    simp [hrun, Ne.symm hc]

theorem rows_updateTerminal_own (t : Terminal) : (db.updateTerminal t).rows t.runId =
    { db.rows t.runId with terminals := (db.rows t.runId).terminals.map fun _ => t } := by
  have hkeep : (Table.update (fun o => o.runId = t.runId) (fun _ => t) db.terminals).filter
      (fun o => o.runId = t.runId) =
      Table.update (fun o => o.runId = t.runId) (fun _ => t)
        (db.terminals.filter fun o => o.runId = t.runId) := by
    apply Table.filter_update
    intro o ho
    simpa using of_decide_eq_true ho
  simp only [RuntimeDb.rows, RuntimeDb.updateTerminal, hkeep]
  congr 1
  unfold Table.update
  apply List.map_congr_left
  intro o ho
  have hrun : o.runId = t.runId := by simpa using (List.mem_filter.mp ho).2
  simp [hrun]

theorem rows_updateTerminal_other {t : Terminal} (hne : t.runId ≠ r) :
    (db.updateTerminal t).rows r = db.rows r := by
  have hkeep : (Table.update (fun o => o.runId = t.runId) (fun _ => t) db.terminals).filter
      (fun o => o.runId = r) = db.terminals.filter fun o => o.runId = r := by
    rw [Table.filter_update]
    · apply Table.update_none
      intro o ho
      have hrun : o.runId = r := by simpa using (List.mem_filter.mp ho).2
      simp [hrun, Ne.symm hne]
    · intro o ho
      simp [of_decide_eq_true ho]
  simp only [RuntimeDb.rows, RuntimeDb.updateTerminal, hkeep]

theorem rows_deleteGroup_own : (db.deleteGroup r).rows r =
    ⟨[], [], [], (db.rows r).terminals⟩ := by
  simp [RuntimeDb.rows, RuntimeDb.deleteGroup, List.filter_filter]

theorem rows_deleteGroup_other {q : RunId} (hne : q ≠ r) : (db.deleteGroup q).rows r =
    db.rows r := by
  simp only [RuntimeDb.rows, RuntimeDb.deleteGroup, List.filter_filter]
  congr 1
  · apply List.filter_congr
    intro c _
    by_cases hc : c.runId = some r
    · simp [hc, Ne.symm hne]
    · simp [hc]
  · apply List.filter_congr
    intro c _
    by_cases hc : c.runId = some r
    · simp [hc, Ne.symm hne]
    · simp [hc]
  · apply List.filter_congr
    intro a _
    by_cases ha : a.runId = r
    · simp [ha, Ne.symm hne]
    · simp [ha]

/-! ### What a search finds -/

theorem chain?_some {op : ChainOp} {run : Option RunId} {c : Cursor}
    (h : db.chain? op run = some c) : c ∈ db.chains ∧ c.operation = op ∧ c.runId = run := by
  refine ⟨List.mem_of_find?_eq_some h, ?_⟩
  have hc := List.find?_some h
  simpa using hc

theorem chain?_none {op : ChainOp} {run : Option RunId} (h : db.chain? op run = none) :
    ∀ c ∈ db.chains, c.operation = op → c.runId ≠ run := by
  intro c hc hop hrun
  have hnone := List.find?_eq_none.mp h c hc
  simp [hop, hrun] at hnone

theorem call?_some {id : Digest} {p : PendingCall} (h : db.call? id = some p) :
    p ∈ db.pending ∧ p.callId = id := by
  refine ⟨List.mem_of_find?_eq_some h, ?_⟩
  have hp := List.find?_some h
  simpa using hp

theorem active?_some {a : ActiveRun} (h : db.active? r = some a) : a ∈ db.active ∧ a.runId = r := by
  refine ⟨List.mem_of_find?_eq_some h, ?_⟩
  have ha := List.find?_some h
  simpa using ha

theorem terminal?_some {t : Terminal} (h : db.terminal? r = some t) :
    t ∈ db.terminals ∧ t.runId = r := by
  refine ⟨List.mem_of_find?_eq_some h, ?_⟩
  have ht := List.find?_some h
  simpa using ht

theorem terminal?_none (h : db.terminal? r = none) : (db.rows r).terminals = [] := by
  apply List.filter_eq_nil_iff.mpr
  intro t ht hrun
  have hnone := List.find?_eq_none.mp h t ht
  exact hnone hrun

theorem active?_none (h : db.active? r = none) : (db.rows r).active = [] := by
  apply List.filter_eq_nil_iff.mpr
  intro a ha hrun
  have hnone := List.find?_eq_none.mp h a ha
  exact hnone hrun

theorem not_busy {op : ChainOp} {run : Option RunId} (h : db.busy op run = false) :
    ∀ p ∈ db.pending, p.runId = run → p.request.chain ≠ op := by
  intro p hp hrun hop
  have hnone := List.any_eq_false.mp h p hp
  simp [hop, hrun] at hnone

theorem eq_of_length_le_one {α : Type} {xs : List α} (h : xs.length ≤ 1) {a b : α} (ha : a ∈ xs)
    (hb : b ∈ xs) : a = b := by
  match xs, h with
  | [c], _ =>
    rw [List.mem_singleton] at ha hb
    rw [ha, hb]

/-- A local terminal and an available disclosure leave room for one pending call. -/
theorem RunInv.onlyCall {v : RunRows} (h : RunInv H v) {t : Terminal} (ht : t ∈ v.terminals)
    (hstate : t.state = .localTerminal ∨ t.state = .available) {p o : PendingCall}
    (hp : p ∈ v.pending) (ho : o ∈ v.pending) : o = p := by
  have hs := h.standing t ht
  have hchain : ∀ q ∈ v.pending, q.request.chain = .result := by
    intro q hq
    unfold Standing at hs
    cases hstate with
    | inl hlocal =>
      rw [hlocal] at hs
      rw [(hs.2 q hq).1]
      rfl
    | inr havail =>
      rw [havail] at hs
      rw [(hs.2 q hq).1]
      rfl
  exact Table.eq_of_key h.callOnce ho hp ((hchain o ho).trans (hchain p hp).symm)

/-! ### Edits of the tables -/

/-- The run awaits no end, so that a chain may still be installed for it. -/
def Installable (db : RuntimeDb) (runId : Option RunId) : Prop :=
  ∀ t ∈ db.terminals, runId = some t.runId → t.state ≠ .available ∧ t.state ≠ .consumed

theorem insertChain_keeps (hinv : RunInv H (db.rows r)) {c : Cursor}
    (hshape : c.runId = some r → c.operation ≠ .claim)
    (hnew : db.chain? c.operation c.runId = none) (hopen : Installable db c.runId) :
    RunInv H ((db.insertChain c).rows r) := by
  rw [rows_insertChain]
  split
  next hc =>
    apply hinv.addChain (hshape hc)
    · intro hmem
      obtain ⟨o, ho, hop⟩ := List.mem_map.mp hmem
      have hin := mem_chains.mp ho
      exact chain?_none hnew o hin.1 hop (hin.2.trans hc.symm)
    · intro t ht
      have hin := mem_terminals.mp ht
      exact hopen t hin.1 (by rw [hc, hin.2])
  next => exact hinv

theorem updateChain_keeps (hinv : RunInv H (db.rows r)) {c : Cursor}
    (hshape : c.runId = some r → c.operation ≠ .claim)
    (hidle : c.runId = some r → c.operation = .result → ∀ t ∈ (db.rows r).terminals,
      t.state = .localTerminal → (db.rows r).pending = []) :
    RunInv H ((db.updateChain c).rows r) := by
  rw [rows_updateChain]
  split
  next hc => exact hinv.moveChain (hshape hc) (hidle hc)
  next => exact hinv

theorem deleteCall_keeps (hinv : RunInv H (db.rows r)) (callId : Digest) :
    RunInv H ((db.deleteCall callId).rows r) := by
  rw [rows_deleteCall]
  exact hinv.fewerCalls List.filter_sublist

theorem addCall_keeps {p : PendingCall} (h : addCall db p = .ok db')
    (hinv : RunInv H (db.rows r))
    (hfits : p.runId = some r → ∀ t ∈ (db.rows r).terminals,
      Standing H { db.rows r with pending := [p] } t) : RunInv H (db'.rows r) := by
  simp only [addCall, bind_ok, require_ok, pure, Except.pure, Except.ok.injEq] at h
  obtain ⟨-, hfree, -, -, -, -, rfl⟩ := h
  by_cases hp : p.runId = some r
  · have hrows : ({ db with pending := db.pending ++ [p] } : RuntimeDb).rows r =
        { db.rows r with pending := (db.rows r).pending ++ [p] } := by
      simp [RuntimeDb.rows, List.filter_append, hp]
    rw [hrows]
    apply hinv.addCall _ (hfits hp)
    intro o ho
    have hin := mem_pending.mp ho
    exact not_busy hfree o hin.1 (hin.2.trans hp.symm)
  · have hrows : ({ db with pending := db.pending ++ [p] } : RuntimeDb).rows r = db.rows r := by
      simp [RuntimeDb.rows, List.filter_append, hp]
    rw [hrows]
    exact hinv

theorem addChain_ok {c : Cursor} {clash : Fault} (h : addChain db c clash = .ok db') :
    db.chain? c.operation c.runId = some c ∧ db' = db ∨
      db.chain? c.operation c.runId = none ∧ db' = db.insertChain c := by
  unfold addChain at h
  split at h
  next prior hprior =>
    simp only [bind_ok, require_ok, pure, Except.pure, Except.ok.injEq] at h
    obtain ⟨-, hsame, rfl⟩ := h
    exact Or.inl ⟨hsame ▸ hprior, rfl⟩
  next hnone =>
    cases h
    exact Or.inr ⟨hnone, rfl⟩

theorem replaceChain_ok {current c : Cursor} {accepts : Bool} {stale : Fault}
    (h : replaceChain db current c accepts stale = .ok db') :
    db' = db ∨ db' = db.updateChain c := by
  unfold replaceChain at h
  split at h
  · cases h
    exact Or.inl rfl
  · simp only [bind_ok, require_ok, pure, Except.pure, Except.ok.injEq] at h
    obtain ⟨-, -, rfl⟩ := h
    exact Or.inr rfl

/-! ### The calls on the chains -/

theorem installChain_keeps {c : Cursor} (h : installChain db c = .ok db')
    (hinv : RunInv H (db.rows r)) (hopen : Installable db c.runId) : RunInv H (db'.rows r) := by
  simp only [installChain, chainShape, bind_ok, require_ok] at h
  obtain ⟨-, ⟨-, hshape, -⟩, -, -, -, -, hadd⟩ := h
  cases addChain_ok hadd with
  | inl hsame => exact hsame.2 ▸ hinv
  | inr hnew =>
    rw [hnew.2]
    apply insertChain_keeps hinv _ hnew.1 hopen
    intro hc hop
    rw [hop, hc] at hshape
    simp at hshape

theorem claimCursor_keeps (hinv : RunInv H (db.rows r)) {c : Cursor} (hc : c.runId = none) :
    RunInv H ((db.updateChain c).rows r) ∧ RunInv H ((db.insertChain c).rows r) := by
  rw [rows_updateChain, rows_insertChain, if_neg (by simp [hc]), if_neg (by simp [hc])]
  exact ⟨hinv, hinv⟩

theorem installRotationClaim_keeps {nonce : Nonce} {sequence generation now : SafeInt}
    (h : installRotationClaim db nonce sequence generation now = .ok db')
    (hinv : RunInv H (db.rows r)) : RunInv H (db'.rows r) := by
  simp only [installRotationClaim, bind_ok, require_ok] at h
  obtain ⟨-, -, -, -, -, -, h⟩ := h
  split at h
  next current _ =>
    cases replaceChain_ok h with
    | inl hsame => exact hsame ▸ hinv
    | inr hmoved => exact hmoved ▸ (claimCursor_keeps hinv rfl).1
  next =>
    cases h
    exact (claimCursor_keeps hinv rfl).2

theorem commitResyncChain_keeps {c : Cursor} (h : commitResyncChain db c = .ok db')
    (hinv : RunInv H (db.rows r))
    (hidle : c.operation = .result → ∀ t ∈ db.terminals, t.state = .localTerminal →
      c.runId = some t.runId → ∀ p ∈ db.pending, p.runId ≠ c.runId) : RunInv H (db'.rows r) := by
  simp only [commitResyncChain, chainShape, bind_ok, require_ok, found_ok] at h
  obtain ⟨-, ⟨-, hshape, -⟩, -, -, current, -, hreplace⟩ := h
  cases replaceChain_ok hreplace with
  | inl hsame => exact hsame ▸ hinv
  | inr hmoved =>
    rw [hmoved]
    apply updateChain_keeps hinv
    · intro hc hop
      rw [hop, hc] at hshape
      simp at hshape
    · intro hc hop t ht hstate
      have hin := mem_terminals.mp ht
      have hnone := hidle hop t hin.1 hstate (by rw [hc, hin.2])
      apply List.filter_eq_nil_iff.mpr
      intro p hp hrun
      exact hnone p hp ((of_decide_eq_true hrun).trans hc.symm)

theorem finishRotation_keeps {authority : Bool} {intent : Digest} {nonce : Nonce}
    {sequence generation accepted : SafeInt}
    (h : finishRotation db authority intent nonce sequence generation accepted = .ok db')
    (hinv : RunInv H (db.rows r)) : RunInv H (db'.rows r) := by
  simp only [finishRotation, bind_ok, require_ok, pure, Except.pure, Except.ok.injEq] at h
  obtain ⟨-, -, -, -, current, -, -, -, rfl⟩ := h
  exact (claimCursor_keeps hinv rfl).1

theorem assertRotationEligible_keeps {authority : Bool} {intent claim : Digest}
    (h : assertRotationEligible H db authority intent claim = .ok db')
    (hinv : RunInv H (db.rows r)) : RunInv H (db'.rows r) := by
  simp only [assertRotationEligible, bind_ok, require_ok, pure, Except.pure, Except.ok.injEq] at h
  obtain ⟨-, -, -, -, -, -, current, -, -, -, rfl⟩ := h
  exact hinv

theorem abortRotation_keeps {authority : Bool} {intent claim : Digest}
    (h : abortRotation H db authority intent claim = .ok db') (hinv : RunInv H (db.rows r)) :
    RunInv H (db'.rows r) := by
  simp only [abortRotation, bind_ok, require_ok, pure, Except.pure, Except.ok.injEq] at h
  obtain ⟨-, -, -, -, current, -, -, -, rfl⟩ := h
  exact hinv

theorem commitResyncSupersession_keeps {pending : PendingCall}
    {challenge challengeSequence sequence generation now : SafeInt} {nonce : Nonce}
    (h : commitResyncSupersession H db pending challenge challengeSequence nonce sequence generation
      now = .ok db') (hinv : RunInv H (db.rows r)) : RunInv H (db'.rows r) := by
  simp only [commitResyncSupersession, bind_ok, require_ok, found_ok, pure, Except.pure,
    Except.ok.injEq] at h
  obtain ⟨-, -, -, -, -, -, current, -, -, -, -, -, -, -, -, -, -, -, rfl⟩ := h
  exact deleteCall_keeps (claimCursor_keeps hinv rfl).1 _

/-! ### The calls on pending requests -/

theorem stageCall_keeps {request : RequestOp} {run : Option RunId} {signed : SignedRequest}
    {expected : Digest} {now : SafeInt}
    (h : stageCall H db request run signed expected now = .ok db') (hinv : RunInv H (db.rows r))
    (honly : ∀ t ∈ db.terminals, t.state = .localTerminal → run = some t.runId →
      request = .result) : RunInv H (db'.rows r) := by
  simp only [stageCall, bind_ok, require_ok, found_ok] at h
  obtain ⟨-, -, -, -, current, hcurrent, -, -, hadd⟩ := h
  apply addCall_keeps hadd hinv
  intro hrun t ht
  obtain ⟨hmem, hop, hof⟩ := chain?_some hcurrent
  have hchain : current ∈ (db.rows r).chains := mem_chains.mpr ⟨hmem, hof.trans hrun⟩
  have hin := mem_terminals.mp ht
  have hs := hinv.standing t ht
  unfold Standing at hs ⊢
  cases hstate : t.state with
  | localTerminal =>
    rw [hstate] at hs
    refine ⟨hs.1, ?_⟩
    intro p hp
    have hresult : request = .result := honly t hin.1 hstate (hrun.trans (by rw [hin.2]))
    rw [List.mem_singleton] at hp
    rw [hp]
    exact ⟨hresult, current, hchain, by rw [hop, hresult]; rfl, rfl, rfl, rfl, rfl⟩
  | available =>
    rw [hstate] at hs
    have hnil := hs.1
    rw [hnil] at hchain
    cases hchain
  | consumed =>
    rw [hstate] at hs
    have hnil := hs.1
    rw [hnil] at hchain
    cases hchain
  | prunePending => trivial

theorem advanced_ok {c next : Cursor} {nonce : Nonce} {now : SafeInt}
    (h : c.advanced nonce now = .ok next) :
    next.operation = c.operation ∧ next.runId = c.runId ∧ 1 ≤ next.nextSequence.val := by
  unfold Cursor.advanced at h
  split at h
  · cases h
    exact ⟨rfl, rfl, Nat.le_add_left 1 _⟩
  · cases h

theorem storeCursor_keeps {p : PendingCall} {current next : Cursor} {nonce : Nonce} {now : SafeInt}
    (hcall : db.call? p.callId = some p) (hcurrent : pendingCursor H db p = .ok current)
    (hnext : current.advanced nonce now = .ok next) (hinv : RunInv H (db.rows r)) :
    RunInv H (((storeCursor db next).deleteCall p.callId).rows r) := by
  obtain ⟨hop, hrun, -⟩ := advanced_ok hnext
  have hdel := deleteCall_keeps hinv p.callId
  unfold pendingCursor at hcurrent
  split at hcurrent
  next stored hstored =>
    simp only [bind_ok, require_ok, pure, Except.pure, Except.ok.injEq] at hcurrent
    obtain ⟨-, -, rfl⟩ := hcurrent
    obtain ⟨hmem, hchain, hof⟩ := chain?_some hstored
    have hstore : storeCursor db next = db.updateChain next := by
      unfold storeCursor
      rw [hop, hrun, hchain, hof, hstored]
      rfl
    rw [hstore]
    apply updateChain_keeps hdel
    · intro hc
      rw [hop]
      exact hinv.chainOps stored (mem_chains.mpr ⟨hmem, hrun.symm.trans hc⟩)
    · -- the call that is answered was the only one of the run
      intro hc hres t ht hstate
      have hp : p ∈ (db.rows r).pending :=
        mem_pending.mpr ⟨(call?_some hcall).1, (hof.symm.trans hrun.symm).trans hc⟩
      rw [rows_deleteCall]
      apply List.filter_eq_nil_iff.mpr
      intro o ho
      rw [hinv.onlyCall ht (Or.inl hstate) hp ho]
      simp
  next =>
    simp only [bind_ok, require_ok, pure, Except.pure, Except.ok.injEq] at hcurrent
    obtain ⟨-, -, rfl⟩ := hcurrent
    unfold storeCursor
    split
    · exact (claimCursor_keeps hdel hrun).1
    · exact (claimCursor_keeps hdel hrun).2

/-- What the installation of the chains of a claim has done so far. -/
structure ChainsAdded (db x : RuntimeDb) (done : List InstalledChain) : Prop where
  terminals : x.terminals = db.terminals
  active : x.active = db.active
  added : ∀ i ∈ done, ∃ c ∈ x.chains, c.operation = i.operation ∧ c.runId = some i.runId

theorem installChains_keeps {callId : Digest} {now : SafeInt} {clash : Fault} {x : RuntimeDb}
    {installed : List InstalledChain} (hterm : x.terminals = db.terminals)
    (hactive : x.active = db.active)
    (hops : ∀ i ∈ installed, i.operation ≠ .claim)
    (hopen : ∀ i ∈ installed, Installable db (some i.runId))
    (hx : RunInv H ((x.deleteCall callId).rows r))
    (h : installed.foldlM (fun y i => addChain y (i.cursor now) clash) x = .ok db') :
    ChainsAdded db db' installed ∧ RunInv H ((db'.deleteCall callId).rows r) := by
  apply foldlM_prefix _ (fun done y => ChainsAdded db y done ∧
    RunInv H ((y.deleteCall callId).rows r)) ?_ ⟨⟨hterm, hactive, by simp⟩, hx⟩ h
  intro pre i post y z hitems ih hadd
  have hi : i ∈ installed := by rw [hitems]; simp
  obtain ⟨hadded, hy⟩ := ih
  cases addChain_ok hadd with
  | inl hsame =>
    obtain ⟨hmem, hop, hrun⟩ := chain?_some hsame.1
    rw [hsame.2]
    refine ⟨⟨hadded.terminals, hadded.active, ?_⟩, hy⟩
    intro j hj
    cases List.mem_append.mp hj with
    | inl hold => exact hadded.added j hold
    | inr hone =>
      rw [List.mem_singleton.mp hone]
      exact ⟨_, hmem, rfl, rfl⟩
  | inr hnew =>
    rw [hnew.2]
    refine ⟨⟨hadded.terminals, hadded.active, ?_⟩, ?_⟩
    · intro j hj
      cases List.mem_append.mp hj with
      | inl hold =>
        obtain ⟨c, hc, hrest⟩ := hadded.added j hold
        exact ⟨c, List.mem_append_left _ hc, hrest⟩
      | inr hone =>
        rw [List.mem_singleton.mp hone]
        exact ⟨i.cursor now, List.mem_append_right _ List.mem_cons_self, rfl, rfl⟩
    · apply insertChain_keeps hy (fun _ => hops i hi) hnew.1
      intro t ht
      have ht' : t ∈ db.terminals := hadded.terminals ▸ ht
      exact hopen i hi t ht'

theorem mem_of_four {ops : List ChainOp} (hnodup : ops.Nodup) (hfour : ops.length = 4)
    (hrun : ∀ op ∈ ops, op ≠ .claim) : ∀ op ∈ runChainOps, op ∈ ops := by
  have hsub : ops ⊆ runChainOps := by
    intro op hop
    have hne := hrun op hop
    cases op with
    | claim => exact absurd rfl hne
    | heartbeat => decide
    | progress => decide
    | result => decide
    | stopAck => decide
  have hperm := (List.subperm_of_subset hnodup hsub).perm_of_length_le (by rw [hfour]; decide)
  intro op hop
  exact hperm.mem_iff.mpr hop

theorem setActive_keeps {x : RuntimeDb} {callId : Digest} {as : List ActiveRun}
    (hx : RunInv H ((x.deleteCall callId).rows r))
    (hone : (as.filter fun a => a.runId = r).length ≤ 1)
    (hchains : (as.filter fun a => a.runId = r) ≠ [] →
      ∀ op ∈ runChainOps, op ∈ (x.rows r).chains.map Cursor.operation)
    (hkeep : ∀ t : Terminal, ∀ a ∈ x.active, a.runId = r → t.ofActive a →
      ∃ a' ∈ as, a'.runId = r ∧ t.ofActive a') :
    RunInv H ((({ x with active := as } : RuntimeDb).deleteCall callId).rows r) := by
  apply RunInv.setActive hx hone hchains
  intro t _ _ a ha hof
  have hin := mem_active.mp ha
  obtain ⟨a', ha', hrun, hof'⟩ := hkeep t a hin.1 hin.2 hof
  exact ⟨a', List.mem_filter.mpr ⟨ha', by simpa using hrun⟩, hof'⟩

theorem installActive_keeps {x y : RuntimeDb} {callId : Digest} {install : Option ActiveRunInstall}
    (h : installActive x install = .ok y) (hx : RunInv H ((x.deleteCall callId).rows r))
    (hchains : ∀ a ∈ install, ∀ op ∈ runChainOps, ∃ c ∈ x.chains,
      c.operation = op ∧ c.runId = some a.runId) : RunInv H ((y.deleteCall callId).rows r) := by
  unfold installActive at h
  split at h
  next =>
    cases h
    exact hx
  next a =>
    simp only [bind_ok, require_ok, pure, Except.pure, Except.ok.injEq] at h
    obtain ⟨-, -, -, -, -, hnone, -, -, rfl⟩ := h
    apply setActive_keeps hx
    · rw [List.filter_append]
      by_cases ha : a.runId = r
      · rw [show x.active.filter (fun o => o.runId = r) = [] from active?_none (ha ▸ hnone)]
        exact List.length_filter_le _ _
      · rw [List.filter_cons_of_neg (by simpa using ha), List.filter_nil, List.append_nil]
        exact hx.activeOnce
    · by_cases ha : a.runId = r
      · intro _ op hop
        obtain ⟨c, hc, hcop, hrun⟩ := hchains a rfl op hop
        exact hcop ▸ List.mem_map_of_mem (mem_chains.mpr ⟨hc, by rw [hrun, ha]⟩)
      · rw [List.filter_append, List.filter_cons_of_neg (by simpa using ha), List.filter_nil,
          List.append_nil]
        exact hx.activeChains
    · intro t o ho hrun hof
      exact ⟨o, List.mem_append_left _ ho, hrun, hof⟩

theorem updateGate_keeps {x y : RuntimeDb} {callId : Digest} {run : Option RunId}
    {update : Option ActiveGateUpdate} (h : updateGate H x run update = .ok y)
    (hx : RunInv H ((x.deleteCall callId).rows r)) : RunInv H ((y.deleteCall callId).rows r) := by
  unfold updateGate at h
  split at h
  next =>
    cases h
    exact hx
  next g =>
    simp only [bind_ok, require_ok, found_ok, pure, Except.pure, Except.ok.injEq,
      Option.bind_eq_some_iff] at h
    obtain ⟨prior, ⟨run, -, hprior⟩, -, -, -, -, -, -, rfl⟩ := h
    have hin : prior ∈ x.active := (active?_some hprior).1
    have hkeep : (Table.update (fun a => a.runId = prior.runId) (fun _ => prior.regated H g)
        x.active).filter (fun a => a.runId = r) =
        Table.update (fun a => a.runId = prior.runId) (fun _ => prior.regated H g)
          (x.active.filter fun a => a.runId = r) := by
      apply Table.filter_update
      intro o ho
      have hrun : o.runId = prior.runId := of_decide_eq_true ho
      rw [hrun]
      rfl
    have hlen : (Table.update (fun a => a.runId = prior.runId) (fun _ => prior.regated H g)
        (x.active.filter fun a => a.runId = r)).length =
        (x.active.filter fun a => a.runId = r).length := List.length_map ..
    apply setActive_keeps hx
    · rw [hkeep, hlen]
      exact hx.activeOnce
    · intro hne
      apply hx.activeChains
      intro hnil
      apply hne
      rw [hkeep]
      exact List.map_eq_nil_iff.mpr hnil
    · intro t o ho hr hof
      by_cases hrun : o.runId = prior.runId
      · have hsame : o = prior := eq_of_length_le_one hx.activeOnce (mem_active.mpr ⟨ho, hr⟩)
          (mem_active.mpr ⟨hin, hrun ▸ hr⟩)
        refine ⟨prior.regated H g, Table.mem_update.mpr ⟨o, ho, by simp [hrun]⟩, ?_, hsame ▸ hof⟩
        exact hrun ▸ hr
      · exact ⟨o, Table.mem_update.mpr ⟨o, ho, by simp [hrun]⟩, hr, hof⟩

theorem commitCall_keeps {callId : Digest} {nonce : Nonce} {now : SafeInt}
    {installed : List InstalledChain} {activeRun : Option ActiveRunInstall}
    {gate : Option ActiveGateUpdate}
    (h : commitCall H db callId nonce now installed activeRun gate = .ok db')
    (hinv : RunInv H (db.rows r)) (hopen : ∀ i ∈ installed, Installable db (some i.runId)) :
    RunInv H (db'.rows r) := by
  simp only [commitCall, parseInstalled, bind_ok, require_ok, found_ok, pure, Except.pure,
    Except.ok.injEq] at h
  obtain ⟨-, hparsed, -, -, p, hcall, -, -, -, hactive, -, -, -, -, current, hcurrent, -, -, next,
    hnext, x, hx, y, hy, z, hz, rfl⟩ := h
  have hid : p.callId = callId := (call?_some hcall).2
  have hstore := storeCursor_keeps (hid ▸ hcall) hcurrent hnext hinv
  rw [hid] at hstore
  have hterm : (storeCursor db next).terminals = db.terminals := by
    unfold storeCursor
    split <;> rfl
  have hact : (storeCursor db next).active = db.active := by
    unfold storeCursor
    split <;> rfl
  have hops : ∀ i ∈ installed, i.operation ≠ .claim := by
    intro i hi
    cases hparsed with
    | inl hnil =>
      rw [hnil] at hi
      cases hi
    | inr hfour => exact (hfour.2.1 i hi).1
  obtain ⟨hadded, hchains⟩ := installChains_keeps hterm hact hops hopen hstore hx
  apply updateGate_keeps hz
  apply installActive_keeps hy hchains
  intro a ha op hop
  obtain ⟨-, hne, hsame⟩ := hactive a ha
  obtain ⟨hfour, -, hnodup, -⟩ := hparsed.resolve_left hne
  have hmem : op ∈ installed.map InstalledChain.operation := by
    apply mem_of_four hnodup (by rw [List.length_map]; exact hfour) _ op hop
    intro o ho
    obtain ⟨i, hi, rfl⟩ := List.mem_map.mp ho
    exact hops i hi
  obtain ⟨i, hi, rfl⟩ := List.mem_map.mp hmem
  obtain ⟨c, hc, hcop, hrun⟩ := hadded.added i hi
  exact ⟨c, hc, hcop, by rw [hrun, hsame i hi]⟩

/-! ### The calls on disclosures -/

/-- The run is settled: it is active under what the terminal names, and at most its result is
pending, at the cursor where the result chain is. -/
def Settled (H : Hashes) (db : RuntimeDb) (t : Terminal) : Prop :=
  (∃ a ∈ db.active, a.runId = t.runId ∧ t.ofActive a) ∧
    ∀ p ∈ db.pending, p.runId = some t.runId → p.request = .result ∧
      ∃ c ∈ db.chains, c.runId = some t.runId ∧ c.operation = .result ∧ p.continues H c

theorem LocalTerminal.valid_row {l : LocalTerminal} (h : l.terminalAtMs < l.retentionExpiresAtMs) :
    l.row.valid := by
  refine ⟨h, Nat.le_refl 1, by simp [LocalTerminal.row, maxSafeInt],
    by simp [LocalTerminal.row], ?_⟩
  simp [LocalTerminal.row]

theorem registerLocalTerminal_keeps {l : LocalTerminal}
    (h : registerLocalTerminal db l = .ok db') (hinv : RunInv H (db.rows r))
    (hsettled : db.terminal? l.runId = none → Settled H db l.row) : RunInv H (db'.rows r) := by
  simp only [registerLocalTerminal, bind_ok, require_ok] at h
  obtain ⟨-, htimes, -, -, h⟩ := h
  split at h
  next =>
    simp only [bind_ok, require_ok, pure, Except.pure, Except.ok.injEq] at h
    obtain ⟨-, -, rfl⟩ := h
    exact hinv
  next hnone =>
    cases h
    by_cases hl : l.runId = r
    · have hrows : ({ db with terminals := db.terminals ++ [l.row] } : RuntimeDb).rows r =
          { db.rows r with terminals := [l.row] } := by
        have hnil := terminal?_none (hl ▸ hnone)
        simp only [RuntimeDb.rows] at hnil ⊢
        rw [List.filter_append, hnil]
        simp [LocalTerminal.row, hl]
      rw [hrows]
      obtain ⟨⟨a, ha, hrun, hof⟩, hcalls⟩ := hsettled hnone
      apply hinv.setTerminal
      · exact Nat.le_refl 1
      · intro t ht
        exact List.mem_singleton.mp ht ▸ LocalTerminal.valid_row htimes
      · intro t ht
        rw [List.mem_singleton.mp ht]
        refine ⟨⟨a, mem_active.mpr ⟨ha, hrun.trans hl⟩, hof⟩, ?_⟩
        intro p hp
        have hin := mem_pending.mp hp
        obtain ⟨hres, c, hc, hcrun, hop, hcont⟩ := hcalls p hin.1 (hin.2.trans (by rw [← hl]; rfl))
        exact ⟨hres, c, mem_chains.mpr ⟨hc, hcrun.trans (by rw [← hl]; rfl)⟩, hop, hcont⟩
    · have hrows : ({ db with terminals := db.terminals ++ [l.row] } : RuntimeDb).rows r =
          db.rows r := by
        simp [RuntimeDb.rows, List.filter_append, LocalTerminal.row, hl]
      rw [hrows]
      exact hinv

theorem release_keeps (hinv : RunInv H (db.rows r)) {t : Terminal} (hvalid : t.valid)
    (hstate : t.state ≠ .localTerminal) :
    RunInv H (((db.updateTerminal t).deleteGroup t.runId).rows r) := by
  by_cases hr : t.runId = r
  · subst hr
    rw [rows_deleteGroup_own, rows_updateTerminal_own]
    apply RunInv.released
    · rw [List.length_map]
      exact hinv.terminalOnce
    · intro o ho
      obtain ⟨_, _, rfl⟩ := List.mem_map.mp ho
      exact hvalid
    · intro o ho
      obtain ⟨_, _, rfl⟩ := List.mem_map.mp ho
      exact hstate
  · rw [rows_deleteGroup_other hr, rows_updateTerminal_other hr]
    exact hinv

theorem commitTerminalResponse_keeps {callId : Digest} {nonce : Nonce} {now : SafeInt}
    (h : commitTerminalResponse H db callId nonce now = .ok db') (hinv : RunInv H (db.rows r)) :
    RunInv H (db'.rows r) := by
  simp only [commitTerminalResponse, bind_ok, require_ok, found_ok, pure, Except.pure,
    Except.ok.injEq] at h
  obtain ⟨-, -, p, -, -, -, run, -, current, -, t, ht, -, -, next, -, -, hvalid, -, -, rfl⟩ := h
  have hrun : (t.madeAvailable H next now).runId = run := (terminal?_some ht).2
  exact hrun ▸ release_keeps hinv hvalid (by simp [Terminal.madeAvailable])

theorem retireInactiveClaim_keeps {run : RunId} {expected : Digest} {absent attested : Bool}
    (h : retireInactiveClaim H db run expected absent attested = .ok db')
    (hinv : RunInv H (db.rows r)) : RunInv H (db'.rows r) := by
  simp only [retireInactiveClaim, bind_ok, require_ok, found_ok, pure, Except.pure,
    Except.ok.injEq] at h
  obtain ⟨-, -, -, -, -, -, a, -, -, -, -, hnone, -, -, -, -, -, -, -, -, rfl⟩ := h
  have hrows : ({ db.deleteGroup run with retired := db.retired ++ [run] } : RuntimeDb).rows r =
      (db.deleteGroup run).rows r := rfl
  rw [hrows]
  by_cases hr : run = r
  · subst hr
    rw [rows_deleteGroup_own, terminal?_none hnone]
    exact RunInv.empty
  · rw [rows_deleteGroup_other hr]
    exact hinv

theorem stageDisclosureCall_keeps {lease : Lease} {signed : SignedRequest} {now : SafeInt}
    (h : stageDisclosureCall H db lease signed now = .ok db') (hinv : RunInv H (db.rows r)) :
    RunInv H (db'.rows r) := by
  simp only [stageDisclosureCall, bind_ok, require_ok, found_ok] at h
  obtain ⟨-, -, -, -, t, ht, -, ⟨havail, -, -⟩, chain, hchain, -, -, hadd⟩ := h
  apply addCall_keeps hadd hinv
  intro hrun o ho
  have hin : t ∈ (db.rows r).terminals :=
    mem_terminals.mpr ⟨(terminal?_some ht).1, Option.some.inj hrun⟩
  have hsame : o = t := eq_of_length_le_one hinv.terminalOnce ho hin
  have hs := hinv.standing t hin
  unfold Standing at hs ⊢
  rw [hsame, havail]
  rw [havail] at hs
  refine ⟨hs.1, ?_⟩
  intro p hp
  rw [List.mem_singleton.mp hp]
  exact ⟨rfl, rfl, hchain⟩

theorem commitDisclosure_keeps {callId : Digest} {lease : Lease} {nonce : Nonce} {d : Disclosure}
    (h : commitDisclosure H db callId lease nonce d = .ok db') (hinv : RunInv H (db.rows r)) :
    RunInv H (db'.rows r) := by
  simp only [commitDisclosure, bind_ok, require_ok, found_ok, pure, Except.pure,
    Except.ok.injEq] at h
  obtain ⟨-, -, p, hcall, -, ⟨-, hprun⟩, t, ht, -, ⟨havail, -⟩, -, hvalid, rfl⟩ := h
  obtain ⟨hmem, hrun⟩ := terminal?_some ht
  obtain ⟨hpmem, hid⟩ := call?_some hcall
  rw [rows_deleteCall]
  by_cases hr : (t.madeConsumed H d).runId = r
  · subst hr
    have hin : t ∈ (db.rows t.runId).terminals := mem_terminals.mpr ⟨hmem, rfl⟩
    have hp : p ∈ (db.rows t.runId).pending :=
      mem_pending.mpr ⟨hpmem, hprun.trans (by rw [hrun])⟩
    have hchains : (db.rows t.runId).chains = [] := by
      have hs := hinv.standing t hin
      unfold Standing at hs
      rw [havail] at hs
      exact hs.1
    -- the answered upload was the only call of the run
    have hnil : (db.rows t.runId).pending.filter (fun o => o.callId ≠ callId) = [] := by
      apply List.filter_eq_nil_iff.mpr
      intro o ho
      rw [hinv.onlyCall hin (Or.inr havail) hp ho, hid]
      simp
    have hdel : RunInv H { db.rows t.runId with pending := [] } :=
      hinv.fewerCalls (List.nil_sublist _)
    have hrows : (db.updateTerminal (t.madeConsumed H d)).rows t.runId =
        { db.rows t.runId with
          terminals := (db.rows t.runId).terminals.map fun _ => t.madeConsumed H d } :=
      rows_updateTerminal_own (t.madeConsumed H d)
    rw [show (t.madeConsumed H d).runId = t.runId from rfl, hrows, hnil]
    apply hdel.setTerminal
    · rw [List.length_map]
      exact hinv.terminalOnce
    · intro o ho
      obtain ⟨_, _, rfl⟩ := List.mem_map.mp ho
      exact hvalid
    · intro o ho
      obtain ⟨_, _, rfl⟩ := List.mem_map.mp ho
      exact ⟨hchains, rfl⟩
  · rw [rows_updateTerminal_other hr]
    exact hinv.fewerCalls List.filter_sublist

/-! ### The calls that prune -/

theorem releaseRun_ok {t : Terminal} (h : releaseRun db t = .ok db') :
    t.state = .localTerminal ∧ db' = db.deleteGroup t.runId ∨ t.state ≠ .localTerminal ∧
      db' = { db with pending := db.pending.filter fun p => p.runId ≠ some t.runId } := by
  unfold releaseRun at h
  split at h
  next hlocal =>
    simp only [bind_ok, require_ok, pure, Except.pure, Except.ok.injEq] at h
    obtain ⟨-, -, rfl⟩ := h
    exact Or.inl ⟨hlocal, rfl⟩
  next hother =>
    cases h
    exact Or.inr ⟨hother, rfl⟩

theorem pruneRow_keeps {expected : Option Digest} {t : Terminal}
    (h : pruneRow H expected db t = .ok db') (hinv : RunInv H (db.rows r)) :
    RunInv H (db'.rows r) := by
  simp only [pruneRow, bind_ok, require_ok, pure, Except.pure, Except.ok.injEq] at h
  obtain ⟨-, -, -, -, -, -, -, -, -, hvalid, x, hx, rfl⟩ := h
  cases releaseRun_ok hx with
  | inl hlocal =>
    rw [hlocal.2]
    exact release_keeps hinv hvalid (by simp [Terminal.prunePending])
  | inr hother =>
    rw [hother.2]
    by_cases hr : (t.prunePending H).runId = r
    · rw [← hr, rows_updateTerminal_own]
      have hfew : RunInv H (({ db with
          pending := db.pending.filter fun p => p.runId ≠ some t.runId } : RuntimeDb).rows r) :=
        hinv.fewerCalls (List.filter_sublist.filter _)
      rw [← hr] at hfew
      apply hfew.setTerminal
      · rw [List.length_map]
        exact hfew.terminalOnce
      · intro o ho
        obtain ⟨_, _, rfl⟩ := List.mem_map.mp ho
        exact hvalid
      · intro o ho
        obtain ⟨_, _, rfl⟩ := List.mem_map.mp ho
        trivial
    · rw [rows_updateTerminal_other hr]
      exact hinv.fewerCalls (List.filter_sublist.filter _)

theorem claimDue_keeps {now : SafeInt} {limit : Nat} {only : Option RunId}
    {expected : Option Digest} {batch : PruneBatch}
    (h : claimDue H db now limit only expected = .ok (batch, db')) (hinv : RunInv H (db.rows r)) :
    RunInv H (db'.rows r) := by
  simp only [claimDue, bind_ok, require_ok, pure, Except.pure, Except.ok.injEq, Prod.mk.injEq] at h
  obtain ⟨-, -, -, -, x, hfold, -, rfl⟩ := h
  exact foldlM_invariant _ (fun _ y => RunInv H (y.rows r))
    (fun _ y t z hy hz => pruneRow_keeps hz hy) _ _ _ hinv hfold

theorem finishPrune_keeps {receipt : PrunedReceipt} {expected : Digest}
    (h : finishPrune H db receipt expected = .ok db') (hinv : RunInv H (db.rows r)) :
    RunInv H (db'.rows r) := by
  simp only [finishPrune, bind_ok, require_ok] at h
  obtain ⟨-, -, -, -, -, -, h⟩ := h
  split at h
  next =>
    simp only [bind_ok, require_ok, pure, Except.pure, Except.ok.injEq] at h
    obtain ⟨-, -, rfl⟩ := h
    exact hinv
  next =>
    simp only [bind_ok, require_ok, pure, Except.pure, Except.ok.injEq] at h
    obtain ⟨-, -, rfl⟩ := h
    have hsub : (({ db with
        terminals := db.terminals.filter fun o => o.runId ≠ receipt.runId } : RuntimeDb).rows
        r).terminals.Sublist
        (db.rows r).terminals := List.filter_sublist.filter _
    apply hinv.setTerminal
    · exact Nat.le_trans hsub.length_le hinv.terminalOnce
    · exact fun t ht => hinv.valid t (hsub.subset ht)
    · exact fun t ht => hinv.standing t (hsub.subset ht)

/-! ### Runs that keep their runs settled -/

/-- The condition on a call: a terminal is registered over a settled run; afterwards only results
are staged for the run, and its result chain is not resynchronised while a call is pending; and no
chain is installed for a run whose disclosure is available or consumed. -/
def settling (H : Hashes) (db : RuntimeDb) : Call → Prop
  | .installChain c => Installable db c.runId
  | .commitResyncChain c => c.operation = .result → ∀ t ∈ db.terminals,
      t.state = .localTerminal → c.runId = some t.runId → ∀ p ∈ db.pending, p.runId ≠ c.runId
  | .stageCall request runId _ _ _ => ∀ t ∈ db.terminals, t.state = .localTerminal →
      runId = some t.runId → request = .result
  | .commitCall _ _ _ installed _ _ => ∀ i ∈ installed, Installable db (some i.runId)
  | .registerLocalTerminal l => db.terminal? l.runId = none → Settled H db l.row
  | _ => True

theorem respond_keeps {call : Call} (h : respond H db call = .ok db') (hok : settling H db call)
    (hinv : RunInv H (db.rows r)) : RunInv H (db'.rows r) := by
  cases call with
  | installChain c => exact installChain_keeps h hinv hok
  | installRotationClaim => exact installRotationClaim_keeps h hinv
  | commitResyncChain c => exact commitResyncChain_keeps h hinv hok
  | assertRotationEligible => exact assertRotationEligible_keeps h hinv
  | finishRotation => exact finishRotation_keeps h hinv
  | abortRotation => exact abortRotation_keeps h hinv
  | stageCall => exact stageCall_keeps h hinv hok
  | commitResyncSupersession => exact commitResyncSupersession_keeps h hinv
  | commitCall => exact commitCall_keeps h hinv hok
  | registerLocalTerminal l => exact registerLocalTerminal_keeps h hinv hok
  | commitTerminalResponse => exact commitTerminalResponse_keeps h hinv
  | retireInactiveClaim => exact retireInactiveClaim_keeps h hinv
  | stageDisclosureCall => exact stageDisclosureCall_keeps h hinv
  | commitDisclosure => exact commitDisclosure_keeps h hinv
  | claimDuePrune =>
    obtain ⟨batch, hclaim⟩ := snd_ok h
    exact claimDue_keeps hclaim hinv
  | claimSpecificDuePrune =>
    obtain ⟨item, hclaim⟩ := snd_ok h
    simp only [claimSpecificDuePrune, bind_ok, found_ok, pure, Except.pure, Except.ok.injEq,
      Prod.mk.injEq] at hclaim
    obtain ⟨answer, hdue, _, -, -, rfl⟩ := hclaim
    exact claimDue_keeps hdue hinv
  | finishPrune => exact finishPrune_keeps h hinv

/-- In every state of such a run the rows of every run keep the invariant. -/
theorem runInv_reachable (h : ((runtime H).restrict (settling H)).Reachable db) (r : RunId) :
    RunInv H (db.rows r) := by
  apply Transition.invariant _ _ _ h
  · intro s hs
    cases hs
    exact RunInv.empty
  · intro s call t hs hstep
    exact respond_keeps hstep.1 hstep.2 hs

end Heel.Runtime
