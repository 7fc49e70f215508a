import Heel.Runner.StopRace
import Heel.Saas.Source

/-! What the main thread keeps of the projections it signs: each one is news to Cloud after those
before it, as long as the log is accepted. -/
namespace Heel.Executor
open Lib Lib.Checks Containment Cloud

variable {P : Platform} {B : Bundle P} {s t : State}

def Bundle.limits (B : Bundle P) : Limits := ⟨B.budgets, B.retryPolicy⟩

/-- Everything a run hands to Cloud, oldest first. -/
def State.delivered (s : State) : List OperationalRun := s.sent ++ s.finals.toList

/-- The counters Cloud's budget check lets through. -/
structure Spent (B : Bundle P) (c : Counters) : Prop where
  started : c.requestsStarted ≤ B.budgets.maximumRequests
  retries : c.retriesUsed ≤ B.retryPolicy.maximumRetries
  contained : c.actionsContained + c.retriesUsed = c.requestsStarted
  bytes : c.responseBytesRead ≤ c.requestsCompleted * B.budgets.maximumResponseBytes

def State.wallLeft (B : Bundle P) (s : State) : Int := max 0 (B.budgets.wallTimeoutMs - s.elapsedMs)

namespace MainPc

/-- Control points before the first action. -/
def early : MainPc → Bool
  | .idle | .verifying | .activating | .starting => true
  | _ => false

/-- Control points about to build a projection. -/
def settled : MainPc → Bool
  | .reporting _ | .projecting _ => true
  | _ => false

/-- Control points at which the terminal projection may be stored. -/
def ended : MainPc → Bool
  | .terminating _ | .done | .crashed => true
  | _ => false

/-- Control points with a terminal projection in hand. -/
def sealed : MainPc → Option OperationalRun
  | .sealing v | .saving v => some v
  | _ => none

end MainPc

/-- The last projection sent is behind the log, the live state and the clocks. -/
structure Behind (B : Bundle P) (s : State) (v : OperationalRun) : Prop where
  counters : Counters.Le v.counters.toCounters (headOf s.store).previousCounters
  requests : v.counters.remainingRequests = B.budgets.maximumRequests - v.counters.requestsStarted
  wall : s.wallLeft B ≤ v.counters.remainingWallMs
  time : v.timestamps.updatedAtMs ≤ s.clockMs
  redaction : v.redactionCount ≤ s.redactionCount
  sequence : v.eventSequence < s.store.length
  finalized : lastCode s.store = some .runFinalized ∨ s.main.settled = true →
    v.eventSequence + 1 < s.store.length

/-- What holds of a run whose log is accepted. -/
structure Live (B : Bundle P) (s : State) : Prop where
  budget : Spent B s.counters
  logged : Spent B (headOf s.store).previousCounters
  copy : ∀ c, s.worker.copy = some c → Spent B c
  last : ∀ v, s.sent.getLast? = some v → Behind B s v
  reporting : ∀ k, s.main = .reporting k →
    Counters.Le s.counters (headOf s.store).previousCounters ∧ lastCode s.store ≠ some .runFinalized
  early : s.main.early = true → s.sent = []
  running : s.finals = none ∨ s.main.ended = true
  sealed : ∀ v, s.main.sealed = some v →
    IsNews P B.limits B.limits (s.sent.foldl Source.after {}) v
  delivered : AllNews P B.limits B.limits {} s.delivered

/-- A step that leaves the log, the counters and the deliveries alone. -/
theorem Live.goto (h : Live B s) {m : MainPc} {r : Option LocalRun} {c : Bool} {started : Int}
    (hearly : m.early = true → s.main.early = true)
    (hsettled : m.settled = true → lastCode s.store = some .runFinalized)
    (hreport : ∀ k, m ≠ .reporting k) (hended : m.ended = true ∨ s.main.ended = false)
    (hsealed : m.sealed = none) :
    Live B { s with main := m, run := r, context := c, startedAtMs := started } where
  budget := h.budget
  logged := h.logged
  copy := h.copy
  last v hv :=
    { h.last v hv with
      finalized := fun hf => (h.last v hv).finalized (Or.inl (hf.elim id hsettled)) }
  reporting k hk := absurd hk (hreport k)
  early hm := h.early (hearly hm)
  running := by
    cases hended with
    | inl hm => exact Or.inr hm
    | inr hs => exact Or.inl (h.running.resolve_right (by simp [hs]))
  sealed v hv := by simp [hsealed] at hv
  delivered := h.delivered

theorem Live.withContext (h : Live B s) {c : Bool} : Live B { s with context := c } :=
  ⟨h.budget, h.logged, h.copy, fun v hv => { h.last v hv with }, h.reporting, h.early, h.running,
    h.sealed, h.delivered⟩

theorem Live.count (h : Live B s) {m : MainPc} {c : Counters} {r : Int} (hc : Spent B c)
    (hr : s.redactionCount ≤ r) (hearly : m.early = false) (hsettled : m.settled = false)
    (hended : s.main.ended = false) (hsealed : m.sealed = none) :
    Live B { s with main := m, counters := c, redactionCount := r } where
  budget := hc
  logged := h.logged
  copy := h.copy
  last v hv :=
    { h.last v hv with
      redaction := (h.last v hv).redaction.trans hr
      finalized := fun hf => (h.last v hv).finalized (hf.imp id (by simp [hsettled])) }
  reporting k hk := by simp [show m = .reporting k from hk, MainPc.settled] at hsettled
  early hm := by simp [hearly] at hm
  running := Or.inl (h.running.resolve_right (by simp [hended]))
  sealed v hv := by simp [hsealed] at hv
  delivered := h.delivered

theorem lastCode_concat (store : List Event) (e : Event) :
    lastCode (store ++ [e]) = some e.eventCode := by
  simp [lastCode]

theorem Live.append (h : Live B s) {e : Event} {m : MainPc} {w : WorkerPc}
    (hle : Counters.Le (headOf s.store).previousCounters e.counters) (hspent : Spent B e.counters)
    (hcopy : ∀ c, w.copy = some c → Spent B c)
    (hreport : ∀ k, m = .reporting k →
      Counters.Le s.counters e.counters ∧ e.eventCode ≠ .runFinalized)
    (hearly : m.early = true → s.main.early = true) (hended : m.ended = true ∨ s.main.ended = false)
    (hsealed : ∀ v, m.sealed = some v → s.main.sealed = some v) :
    Live B { s with store := s.store ++ [e], main := m, worker := w } where
  budget := h.budget
  logged := by
    rw [headOf_concat]
    exact hspent
  copy := hcopy
  last v hv :=
    { h.last v hv with
      counters := by
        rw [headOf_concat]
        exact (h.last v hv).counters.trans hle
      sequence := by
        have := (h.last v hv).sequence
        simp only [List.length_append, List.length_singleton, Nat.cast_add, Nat.cast_one]
        omega
      finalized := by
        intro _
        have := (h.last v hv).sequence
        simp only [List.length_append, List.length_singleton, Nat.cast_add, Nat.cast_one]
        omega }
  reporting k hk := by
    obtain ⟨hc, hcode⟩ := hreport k hk
    rw [headOf_concat, lastCode_concat]
    exact ⟨hc, by simpa using hcode⟩
  early hm := h.early (hearly hm)
  running := by
    cases hended with
    | inl hm => exact Or.inr hm
    | inr hs => exact Or.inl (h.running.resolve_right (by simp [hs]))
  sealed v hv := h.sealed v (hsealed v hv)
  delivered := h.delivered

theorem Live.logAppend (hP : Lawful P) (hsign : B.log.signer.Correct P) (hlog : LogInv B s)
    (h : Live B s) {call : AppendCall} (hc : GoodCall B s call) {next failed : MainPc}
    (hreport : ∀ k, next = .reporting k → call.counters = overrides s.counters ∧
      EventCode.ofName call.eventCode ≠ some .runFinalized)
    (hearly : next.early = true → s.main.early = true)
    (hended : s.main.ended = false) (hsealed : ∀ v, next.sealed = some v → s.main.sealed = some v)
    (hfearly : failed.early = false) (hfsettled : failed.settled = false)
    (hfsealed : failed.sealed = none) : Live B (s.logAppend B call next failed) := by
  unfold State.logAppend
  split
  · rename_i e stored happ
    have hl := hc.logged hP hsign hlog happ
    have hhead : Counters.Le (headOf s.store).previousCounters e.counters ∧ Spent B e.counters := by
      cases hl.counters with
      | inl he => rw [he]; exact ⟨hlog.counters, h.budget⟩
      | inr he => rw [he]; exact ⟨Counters.Le.refl _, h.logged⟩
    have hstored := hl.stored_eq
    subst hstored
    refine h.append hhead.1 hhead.2 h.copy ?_ hearly (Or.inr hended) hsealed
    intro k hk
    obtain ⟨ho, hcode⟩ := hreport k hk
    rw [hl.live ho]
    refine ⟨Counters.Le.refl _, fun he => hcode ?_⟩
    rw [hl.code, he]
  · exact h.goto (by simp [hfearly]) (by simp [hfsettled])
      (fun k hk => by simp [hk, MainPc.settled] at hfsettled) (Or.inr hended) hfsealed

theorem signProjection_ok {v w : OperationalRun} (h : signProjection B v = .ok w) :
    OperationalRun.validate P w = .ok () ∧
      w = { v with projectionDigest := w.projectionDigest, signature := w.signature } := by
  simp only [signProjection, bind_ok, require_ok, exists_const, pure, Except.pure,
    Except.ok.injEq] at h
  obtain ⟨bytes, _, _, _, hvalid, rfl⟩ := h
  exact ⟨hvalid, rfl⟩

theorem lastSequence (h : Accepted P B.log.binding s.store) (hne : s.store ≠ []) :
    (s.store.getLast?.map Event.sequence).getD 0 = (s.store.length : Int) - 1 := by
  cases hs : s.store using List.reverseRecOn with
  | nil => exact absurd hs hne
  | append_singleton xs e =>
    rw [hs, accepted_concat] at h
    have hseq := validateEvent_sequence (verifyEvent_valid h.2)
    simp [hseq, headOf_sequence]

theorem wallLeft_le (B : Bundle P) (s : State) : s.wallLeft B ≤ B.budgets.wallTimeoutMs := by
  have helapsed : 0 ≤ s.elapsedMs := by
    unfold State.elapsedMs
    exact Int.floor_nonneg.mpr (by positivity)
  have := B.wall_range.1
  unfold State.wallLeft
  omega

theorem Spent.within {v : OperationalRun} (h : Spent B v.counters.toCounters)
    (hr : v.counters.remainingRequests = B.budgets.maximumRequests - v.counters.requestsStarted)
    (hw : v.counters.remainingWallMs ≤ B.budgets.wallTimeoutMs) :
    operationalWithinBudget v B.limits B.limits = true := by
  simp only [operationalWithinBudget, Bundle.limits, decide_eq_true_eq, true_and]
  exact ⟨h.started, hr, h.retries, h.contained, h.bytes, hw⟩

theorem Behind.succeeds {w v : OperationalRun} (h : Behind B s w)
    (hfinal : lastCode s.store = some .runFinalized ∨ s.main.settled = true)
    (hseq : v.eventSequence = (s.store.length : Int) - 1)
    (hle : Counters.Le (headOf s.store).previousCounters v.counters.toCounters)
    (hr : v.counters.remainingRequests = B.budgets.maximumRequests - v.counters.requestsStarted)
    (hwall : v.counters.remainingWallMs ≤ s.wallLeft B) (hred : v.redactionCount = s.redactionCount)
    (htime : s.clockMs ≤ v.timestamps.updatedAtMs) : Succeeds w v where
  sequence := by
    have := h.finalized hfinal
    omega
  counters := h.counters.trans hle
  requests := by
    have hstarted := (Counters.le_iff.mp (h.counters.trans hle)).1
    rw [hr, h.requests]
    omega
  wall := hwall.trans h.wall
  redaction := by
    rw [hred]
    exact h.redaction
  time := h.time.trans htime

theorem Live.news (hlog : LogInv B s) (h : Live B s) (hne : s.store ≠ [])
    (hsettled : s.main.settled = true) {v : OperationalRun}
    (hvalid : OperationalRun.validate P v = .ok ()) (hcounters : v.counters.toCounters = s.counters)
    (hseq : v.eventSequence = (s.store.getLast?.map Event.sequence).getD 0)
    (hr : v.counters.remainingRequests =
      max 0 (B.budgets.maximumRequests - s.counters.requestsStarted))
    (hwall : v.counters.remainingWallMs ≤ s.wallLeft B) (hred : v.redactionCount = s.redactionCount)
    (htime : s.clockMs ≤ v.timestamps.updatedAtMs) :
    IsNews P B.limits B.limits (s.sent.foldl Source.after {}) v := by
  have hrem : v.counters.remainingRequests =
      B.budgets.maximumRequests - v.counters.requestsStarted := by
    have := h.budget.started
    rw [hr, hcounters]
    omega
  have hlast : v.eventSequence = (s.store.length : Int) - 1 := by
    rw [hseq, lastSequence hlog.accepted hne]
  have hlen : 1 ≤ s.store.length := List.length_pos_iff.mpr hne
  refine ⟨hvalid, Spent.within ?_ hrem (hwall.trans (wallLeft_le B s)),
    sourceState_new (by omega) ?_⟩
  · rw [hcounters]
    exact h.budget
  · intro w hw
    refine (h.last w hw).succeeds (Or.inr hsettled) hlast ?_ hrem hwall hred htime
    rw [hcounters]
    exact hlog.counters

theorem Live.running_news (hlog : LogInv B s) (h : Live B s) {k : Nat} (hpc : s.main = .reporting k)
    {v : OperationalRun} (hv : runningProjection B s s.store = .ok v) :
    IsNews P B.limits B.limits (s.sent.foldl Source.after {}) v := by
  obtain ⟨hvalid, heq⟩ := signProjection_ok hv
  have hne := hlog.nonempty (by rw [hpc]; rfl)
  rw [heq] at hvalid ⊢
  exact h.news hlog hne (by rw [hpc]; rfl) hvalid rfl rfl rfl le_rfl rfl le_rfl

theorem Live.terminal_news (hlog : LogInv B s) (h : Live B s) {e : Ending}
    (hpc : s.main = .projecting e) {r : LocalRun} {v : OperationalRun}
    (hv : terminalProjection B s r e s.store = .ok v) :
    IsNews P B.limits B.limits (s.sent.foldl Source.after {}) v := by
  obtain ⟨hvalid, heq⟩ := signProjection_ok hv
  have hne := hlog.nonempty (by rw [hpc]; rfl)
  rw [heq] at hvalid ⊢
  refine h.news hlog hne (by rw [hpc]; rfl) hvalid rfl rfl rfl (le_max_left _ _) rfl ?_
  simp only [finishedAt]
  omega

theorem Live.sent (hlog : LogInv B s) (h : Live B s) {k : Nat} (hpc : s.main = .reporting k)
    {v : OperationalRun} (hv : runningProjection B s s.store = .ok v) {m : MainPc}
    (hearly : m.early = false) (hsettled : m.settled = false) (hsealed : m.sealed = none) :
    Live B { s with sent := s.sent ++ [v], main := m } := by
  have hnews := h.running_news hlog hpc hv
  have hfinals : s.finals = none := h.running.resolve_right (by rw [hpc]; simp [MainPc.ended])
  obtain ⟨hcounters, hcode⟩ := h.reporting k hpc
  have hne := hlog.nonempty (by rw [hpc]; rfl)
  obtain ⟨_, heq⟩ := signProjection_ok hv
  have hseq : v.eventSequence = (s.store.length : Int) - 1 := by
    rw [heq]
    exact lastSequence hlog.accepted hne
  refine ⟨h.budget, h.logged, h.copy, ?_, ?_, by simp [hearly], Or.inl hfinals,
    by simp [hsealed], ?_⟩
  · intro w hw
    obtain rfl : v = w := by simpa using hw
    refine ⟨?_, ?_, ?_, ?_, ?_, by dsimp only; omega, ?_⟩
    · rw [heq]
      exact hcounters
    · rw [heq]
      have := h.budget.started
      simp only [unsignedProjection]
      omega
    · rw [heq]
      exact le_rfl
    · rw [heq]
      exact le_rfl
    · rw [heq]
      exact le_rfl
    · intro hf
      cases hf with
      | inl hf => exact absurd hf hcode
      | inr hf => simp [hsettled] at hf
  · intro j hj
    simp [show m = .reporting j from hj, MainPc.settled] at hsettled
  · have hd := h.delivered
    simp only [State.delivered, hfinals, Option.toList, List.append_nil] at hd ⊢
    exact allNews_concat.mpr ⟨hd, hnews⟩

theorem Goes.early {m m' : MainPc} (h : Goes m m') (hm' : m'.early = true) : m.early = true := by
  cases h <;> first | rfl | cases hm'

theorem Goes.unsettled {m m' : MainPc} (h : Goes m m') : m'.settled = false := by
  cases h <;> rfl

theorem Goes.ended {m m' : MainPc} (h : Goes m m') : m'.ended = true ∨ m.ended = false := by
  cases h with
  | raises hloop exc =>
    refine .inr ?_
    cases m <;> first | rfl | cases hloop
  | _ => first | exact .inl rfl | exact .inr rfl

theorem Goes.unsealed {m m' : MainPc} (h : Goes m m') : m'.sealed = none := by
  cases h <;> rfl

theorem Live.goes (h : Live B s) {m : MainPc} {r : Option LocalRun} {c : Bool}
    (hgoes : Goes s.main m) : Live B { s with main := m, run := r, context := c } :=
  h.goto hgoes.early (by simp [hgoes.unsettled])
    (fun k hk => absurd (hk ▸ hgoes.unsettled) (by simp [MainPc.settled])) hgoes.ended
    hgoes.unsealed

variable {call : AppendCall} {next failed : MainPc}

theorem Logs.reporting {k : Nat} (h : Logs B s call next failed) (hnext : next = .reporting k) :
    call.counters = overrides s.counters ∧
      EventCode.ofName call.eventCode ≠ some .runFinalized := by
  cases h with
  | completes hs ha =>
    refine ⟨rfl, ?_⟩
    rw [show (actionCall _ _ EventCode.actionCompleted "bounded_response" s.counters).eventCode =
      EventCode.actionCompleted.name from rfl, EventCode.ofName_name]
    decide
  | _ => cases hnext

theorem Logs.early (h : Logs B s call next failed) (hnext : next.early = true) :
    s.main.early = true := by
  cases h with
  | verifies hs =>
    rw [hs]
    rfl
  | _ => cases hnext

theorem Logs.unended (h : Logs B s call next failed) : s.main.ended = false := by
  cases h <;> simp_all [MainPc.ended]

theorem Logs.sealed {v : OperationalRun} (h : Logs B s call next failed)
    (hnext : next.sealed = some v) : s.main.sealed = some v := by
  cases h with
  | seals hs =>
    rw [hs]
    exact hnext
  | _ => cases hnext

theorem Logs.failed_plain (h : Logs B s call next failed) :
    failed.early = false ∧ failed.settled = false ∧ failed.sealed = none := by
  cases h <;> exact ⟨rfl, rfl, rfl⟩

theorem Live.logs (hP : Lawful P) (hsign : B.log.signer.Correct P) (hlog : LogInv B s)
    (h : Live B s) {c : Bool} (hlogs : Logs B s call next failed) :
    Live B { s.logAppend B call next failed with context := c } := by
  obtain ⟨hearly, hsettled, hsealed⟩ := hlogs.failed_plain
  exact (h.logAppend hP hsign hlog (hlogs.good hP hlog) (fun _ => hlogs.reporting) hlogs.early
    hlogs.unended (fun _ => hlogs.sealed) hearly hsettled hsealed).withContext

theorem Grants.spent {attempts : Nat} (h : Grants B s attempts) (hspent : Spent B s.counters)
    (k : Nat) : Spent B (Executor.granted s k attempts).counters := by
  have hcontained := hspent.contained
  have hretries := hspent.retries
  have hrequests := h.requests
  by_cases hfirst : attempts = 0
  · refine ⟨?_, ?_, ?_, hspent.bytes⟩ <;> simp only [granted, hfirst, if_true] <;> omega
  · have hused := h.retries hfirst
    refine ⟨?_, ?_, ?_, hspent.bytes⟩ <;> simp only [granted, hfirst, if_false] <;> omega

theorem Live.answered (h : Live B s) {k attempts : Nat} {r : Response}
    (hs : s.main = .requesting k attempts) :
    Live B { s with
      main := .received k attempts r
      counters := { s.counters with requestsCompleted := s.counters.requestsCompleted + 1 } } := by
  refine h.count ?_ le_rfl rfl rfl (by rw [hs]; rfl) rfl
  have hb := h.budget
  refine ⟨hb.started, hb.retries, hb.contained, ?_⟩
  have := hb.bytes
  have := B.bytes_range
  simp only [add_mul, one_mul]
  omega

theorem Live.settle (h : Live B s) {m : MainPc} (hearly : m.early = false)
    (hreport : ∀ k, m ≠ .reporting k) (hended : s.main.ended = false) (hsealed : m.sealed = none)
    (hlast : lastCode s.store = some .runFinalized) : Live B { s with main := m } :=
  h.goto (by simp [hearly]) (fun _ => hlast) hreport (.inr hended) hsealed

theorem Live.seal (hlog : LogInv B s) (h : Live B s) {e : Ending} (hs : s.main = .projecting e)
    {r : LocalRun} {v : OperationalRun} (hv : terminalProjection B s r e s.store = .ok v) :
    Live B { s with main := .sealing v } := by
  have hnews := h.terminal_news hlog hs hv
  have hfinals : s.finals = none := h.running.resolve_right (by rw [hs]; simp [MainPc.ended])
  refine ⟨h.budget, h.logged, h.copy, ?_, by simp, by simp [MainPc.early], .inl hfinals, ?_,
    h.delivered⟩
  · intro w hw
    exact { h.last w hw with
      finalized := fun _ => (h.last w hw).finalized (.inr (by rw [hs]; rfl)) }
  · intro w hw
    cases hw
    exact hnews

theorem Live.saved (h : Live B s) {v : OperationalRun} (hs : s.main = .saving v)
    (hfinals : s.finals = none) :
    Live B { s with finals := some v, main := .terminating v } := by
  have hnews := h.sealed v (by rw [hs]; rfl)
  have hd := h.delivered
  refine ⟨h.budget, h.logged, h.copy, ?_, by simp, by simp [MainPc.early], .inr rfl,
    by simp [MainPc.sealed], ?_⟩
  · intro w hw
    exact { h.last w hw with
      finalized := fun hf => (h.last w hw).finalized (hf.imp id (by simp [MainPc.settled])) }
  · simp only [State.delivered, hfinals, Option.toList, List.append_nil] at hd ⊢
    exact allNews_concat.mpr ⟨hd, hnews⟩

theorem Live.activated (h : Live B s) (hs : s.main = .activating) (r : LocalRun) :
    Live B { s with run := some r, startedAtMs := s.clockMs
                    startedMonotonic := s.monotonic, main := .starting } where
  budget := h.budget
  logged := h.logged
  copy := h.copy
  last := by simp [h.early (by rw [hs]; rfl)]
  reporting := by simp
  early _ := h.early (by rw [hs]; rfl)
  running := .inl (h.running.resolve_right (by rw [hs]; simp [MainPc.ended]))
  sealed := by simp [MainPc.sealed]
  delivered := h.delivered

theorem Live.recovers (h : Live B s) (hfinals : s.finals = none) :
    Live B { s with main := .recovering } := by
  refine ⟨h.budget, h.logged, h.copy, ?_, by simp, by simp [MainPc.early], .inl hfinals,
    by simp [MainPc.sealed], h.delivered⟩
  intro w hw
  exact { h.last w hw with
    finalized := fun hf => (h.last w hw).finalized (hf.imp id (by simp [MainPc.settled])) }

/-- What `recover` reads back is as live as what the log records, but for the redactions. -/
theorem Live.rebuilt (h : Live B s) (hs : s.main = .recovering) {first : Event} {rest : List Event}
    (hload : B.log.load P s.store = .ok (first :: rest)) {e : Ending}
    (hredactions : ∀ v, s.sent.getLast? = some v → v.redactionCount ≤ 0) :
    Live B { s with
      counters := (headOf (first :: rest)).previousCounters
      redactionCount := 0
      startedAtMs := first.occurredAtMs
      main := .finalizing e } := by
  obtain ⟨hstore, _⟩ := verifyContainmentChain_ok hload
  have hfinals : s.finals = none := h.running.resolve_right (by rw [hs]; simp [MainPc.ended])
  refine ⟨?_, h.logged, h.copy, ?_, by simp, by simp [MainPc.early], .inl hfinals,
    by simp [MainPc.sealed], h.delivered⟩
  · rw [hstore]
    exact h.logged
  · intro w hw
    exact { h.last w hw with
      redaction := hredactions w hw
      finalized := fun hf => (h.last w hw).finalized (hf.imp id (by simp [MainPc.settled])) }

theorem mainStep_live (hP : Lawful P) (hsign : B.log.signer.Correct P) (hlog : LogInv B s)
    (hanswered : Answered s) (h : Live B s) {choice : MainChoice}
    (hstep : mainStep B s choice = some t)
    (hbytes : choice = .proceed → ∀ k n r, s.main = .received k n r →
      s.counters.responseBytesRead + r.responseBytes ≤
        s.counters.requestsCompleted * B.budgets.maximumResponseBytes)
    (hredactions : choice = .proceed → s.main = .recovering →
      ∀ v, s.sent.getLast? = some v → v.redactionCount ≤ 0) : Live B t := by
  have hend : ∀ {m : MainPc}, s.main = m → m.ended = false → s.main.ended = false :=
    fun hs hm => by rw [hs, hm]
  cases mainStep_move hstep with
  | stays ht =>
    rw [ht]
    exact h
  | goes m r c hgoes hc ht =>
    rw [ht]
    exact h.goes hgoes
  | logs call next failed c hlogs hc ht =>
    rw [ht]
    exact h.logs hP hsign hlog hlogs
  | activates r hs ht =>
    rw [ht]
    exact h.activated hs r
  | grants k attempts hs hgrants ht =>
    rw [ht]
    exact h.count (hgrants.spent h.budget k) le_rfl rfl rfl (hend hs rfl) rfl
  | answers k attempts r hs hchoice hmade ht =>
    rw [ht]
    exact h.answered hs
  | measures k attempts r hs hchoice ht =>
    rw [ht]
    refine h.count ?_ le_rfl rfl rfl (hend hs rfl) rfl
    have hb := h.budget
    exact ⟨hb.started, hb.retries, hb.contained, hbytes hchoice k attempts r hs⟩
  | accepts k attempts r m hs hm ht =>
    rw [ht]
    have hr := Response.redactions_nonneg (hanswered r (by rw [hs]; rfl))
    obtain rfl | rfl := hm <;>
      exact h.count h.budget (by omega) rfl rfl (hend hs rfl) rfl
  | reports k events v m hs hload hv hm ht =>
    rw [ht]
    obtain ⟨rfl, _⟩ := verifyContainmentChain_ok hload
    obtain rfl | ⟨exc, rfl⟩ := hm <;> exact h.sent hlog hs hv rfl rfl rfl
  | projects e events hs hload hlast ht =>
    rw [ht]
    obtain ⟨rfl, _⟩ := verifyContainmentChain_ok hload
    exact h.settle rfl (by simp) (hend hs rfl) rfl hlast
  | seals e events r v hs hload hv ht =>
    rw [ht]
    obtain ⟨rfl, _⟩ := verifyContainmentChain_ok hload
    exact h.seal hlog hs hv
  | saves v events hs hload hfinals ht =>
    rw [ht]
    exact h.saved hs hfinals
  | resumes v hs hfinals ht =>
    rw [ht]
    exact h.goto (by simp [MainPc.early]) (by simp [MainPc.settled]) (by simp) (.inl rfl) rfl
  | recovers hs hfinals ht =>
    rw [ht]
    exact h.recovers hfinals
  | rebuilds first rest hs hchoice hload ht =>
    rw [ht]
    exact h.rebuilt hs hload (hredactions hchoice hs)

end Heel.Executor
