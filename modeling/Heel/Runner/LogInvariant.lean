import Heel.Runner.ChainRuns
import Heel.Runner.ExecutorMoves

/-! What the main thread of the executor keeps of its run log: the log is accepted and never
ahead of the live counters and the clock. -/
namespace Heel.Executor
open Lib Lib.Checks Containment

variable {P : Platform} {B : Bundle P} {s t : State}

/-- The counter values a worker carries from its copy to its append. -/
def WorkerPc.copy : WorkerPc → Option Counters
  | .copied _ copy | .moved _ copy | .appending _ copy => some copy
  | .idle | .entered _ => none

def WorkerPc.isIdle : WorkerPc → Bool
  | .idle => true
  | _ => false

/-- The log is accepted and its last event is not ahead of the live counters and the clock. -/
structure LogInv (B : Bundle P) (s : State) : Prop where
  accepted : Accepted P B.log.binding s.store
  time : s.store = [] ∨ (headOf s.store).previousTime ≤ s.clockMs
  counters : Counters.Le (headOf s.store).previousCounters s.counters
  started : s.main.fresh = true ∨ s.store ≠ []
  finals : s.finals = none ∨ s.store ≠ []
  context : s.context = false ∨ s.store ≠ []
  worker : s.worker.isIdle = true ∨ s.store ≠ []
  copy : ∀ c, s.worker.copy = some c → Counters.Le c s.counters
  recovery : s.main.recovery = true → s.worker = .idle ∧ s.context = false

theorem LogInv.nonempty (h : LogInv B s) (hf : s.main.fresh = false) : s.store ≠ [] := by
  cases h.started with
  | inl h1 => simp [hf] at h1
  | inr h1 => exact h1

/-- A step of the main thread that leaves the log and the counters alone. -/
theorem LogInv.control (h : LogInv B s) {m : MainPc} {r : Option LocalRun} {c : Bool}
    {started : Int} {monotonic : ℚ} {sent : List OperationalRun}
    (hmain : m.fresh = true ∨ s.store ≠ [])
      (hrec : m.recovery = true → s.worker = .idle ∧ c = false)
    (hc : c = false ∨ c = s.context) :
    LogInv B { s with main := m, run := r, context := c, startedAtMs := started
                      startedMonotonic := monotonic, sent := sent } where
  accepted := h.accepted
  time := h.time
  counters := h.counters
  started := hmain
  finals := h.finals
  context := by
    cases hc with
    | inl hc => exact Or.inl hc
    | inr hc => simpa [hc] using h.context
  worker := h.worker
  copy := h.copy
  recovery := hrec

theorem LogInv.goto (h : LogInv B s) (hne : s.store ≠ [])
    {m : MainPc} {r : Option LocalRun} {c : Bool}
    {started : Int} {monotonic : ℚ} {sent : List OperationalRun} {finals : Option OperationalRun}
    (hrec : m.recovery = false) :
    LogInv B { s with main := m, run := r, context := c, startedAtMs := started
                      startedMonotonic := monotonic, sent := sent, finals := finals } where
  accepted := h.accepted
  time := h.time
  counters := h.counters
  started := Or.inr hne
  finals := Or.inr hne
  context := Or.inr hne
  worker := Or.inr hne
  copy := h.copy
  recovery hm := by simp [hrec] at hm

theorem LogInv.count (h : LogInv B s) {m : MainPc} {c : Counters} {r : Int} (hne : s.store ≠ [])
    (hrec : m.recovery = false) (hle : Counters.Le s.counters c) :
    LogInv B { s with main := m, counters := c, redactionCount := r } where
  accepted := h.accepted
  time := h.time
  counters := h.counters.trans hle
  started := Or.inr hne
  finals := Or.inr hne
  context := Or.inr hne
  worker := Or.inr hne
  copy d hd := (h.copy d hd).trans hle
  recovery hm := by simp [hrec] at hm

/-- A call that logs the live counters with texts in form C, and not before the grant. -/
structure GoodCall (B : Bundle P) (s : State) (call : AppendCall) : Prop where
  counters : call.counters = overrides s.counters ∨ call.counters.items = []
  first : s.store = [] → call.eventCode = EventCode.grantVerified.name
  normal : NormalTexts P B.log call

theorem mem_overrides {c : Counters} {f : CounterField} {v : Int}
    (h : (f.name, v) ∈ (overrides c).items) : v = c.get f := by
  obtain ⟨g, _, hg⟩ := List.mem_map.mp h
  obtain ⟨hname, rfl⟩ := Prod.mk.inj hg
  have : g = f := by
    have h1 := CounterField.ofName_name g
    rw [hname, CounterField.ofName_name f] at h1
    exact (Option.some.inj h1).symm
  rw [this]

theorem overrideCounters_all {c d : Counters} {base : Counters}
    (h : overrideCounters base (overrides c).items = .ok d) : d = c := by
  have hget : ∀ f, d.get f = c.get f := by
    intro f
    refine (overrideCounters_get (overrides c).nodup h f).1 (c.get f) ?_
    exact List.mem_map.mpr ⟨f, f.mem_all, rfl⟩
  have h1 := hget .requestsStarted
  have h2 := hget .requestsCompleted
  have h3 := hget .responseBytesRead
  have h4 := hget .actionsContained
  have h5 := hget .retriesUsed
  simp only [Counters.get] at h1 h2 h3 h4 h5
  cases c
  cases d
  simp_all

/-- What an append by the main thread leaves behind. -/
structure Logged (B : Bundle P) (s : State) (call : AppendCall) (e : Event) (stored : List Event) :
    Prop where
  accepted : Accepted P B.log.binding stored
  stored_eq : stored = s.store ++ [e]
  time : e.occurredAtMs = s.clockMs
  code : EventCode.ofName call.eventCode = some e.eventCode
  counters : e.counters = s.counters ∨ e.counters = (headOf s.store).previousCounters
  live : call.counters = overrides s.counters → e.counters = s.counters

theorem Logged.counters_le (h : LogInv B s) {call : AppendCall} {e : Event} {stored : List Event}
    (hl : Logged B s call e stored) : Counters.Le e.counters s.counters := by
  cases hl.counters with
  | inl he => rw [he]; exact Counters.Le.refl _
  | inr he => rw [he]; exact h.counters

/-- The clock reading of an append is not behind the last event; a negative one raises. -/
theorem LogInv.reading (h : LogInv B s) {call : AppendCall} {e : Event} {stored : List Event}
    (ha : B.log.Appended P s.clockMs s.store call e stored) :
    (headOf s.store).previousTime ≤ s.clockMs := by
  cases h.time with
  | inl hnil =>
    rw [hnil, ← ha.time]
    exact validateEvent_time ha.valid
  | inr ht => exact ht

theorem GoodCall.logged (hP : Lawful P) (hsign : B.log.signer.Correct P) (h : LogInv B s)
    {call : AppendCall} (hc : GoodCall B s call) {e : Event} {stored : List Event}
    (happ : B.log.append P s.clockMs s.store call = .ok (e, stored)) :
    Logged B s call e stored := by
  have ha := ContainmentLog.append_ok happ
  have hkeeps : KeepsChain s.clockMs s.store call := by
    refine ⟨hc.first, h.reading ha, ?_⟩
    intro f v hmem
    cases hc.counters with
    | inl ho =>
      rw [ho] at hmem
      rw [mem_overrides hmem]
      exact h.counters.get f
    | inr hnil => simp [hnil] at hmem
  have hstored : stored = s.store ++ [e] := by rw [ha.stored_eq, ha.mapText_eq hP hc.normal]
  have hlive : call.counters = overrides s.counters → e.counters = s.counters := by
    intro ho
    have hcounters := ha.counters
    rw [ho] at hcounters
    exact overrideCounters_all hcounters
  refine ⟨?_, hstored, ha.time, ha.code, ?_, hlive⟩
  · rw [hstored]
    exact (ha.accepted_iff hsign).mpr hkeeps
  · cases hc.counters with
    | inl ho => exact Or.inl (hlive ho)
    | inr hnil =>
      have hcounters := ha.counters
      rw [hnil] at hcounters
      simp only [overrideCounters, Except.ok.injEq] at hcounters
      exact Or.inr hcounters.symm

/-- The invariant after an append of the main thread, whichever way it went. -/
theorem LogInv.logAppend (hP : Lawful P) (hsign : B.log.signer.Correct P) (h : LogInv B s)
    {call : AppendCall} (hc : GoodCall B s call) {next failed : MainPc}
    (hnext : next.recovery = true → s.main.recovery = true)
    (hfailed : failed.fresh = true ∨ s.store ≠ []) (hfrec : failed.recovery = false) :
    LogInv B (s.logAppend B call next failed) := by
  unfold State.logAppend
  split
  · rename_i e stored happ
    have hl := hc.logged hP hsign h happ
    have hne : stored ≠ [] := by simp [hl.stored_eq]
    exact
      { accepted := hl.accepted
        time := Or.inr (by rw [hl.stored_eq, headOf_concat]; exact le_of_eq hl.time)
        counters := by rw [hl.stored_eq, headOf_concat]; exact hl.counters_le h
        started := Or.inr hne, finals := Or.inr hne, context := Or.inr hne, worker := Or.inr hne
        copy := h.copy, recovery := fun hm => h.recovery (hnext hm) }
  · exact h.control hfailed (fun hm => by simp [hfrec] at hm) (Or.inr rfl)

theorem logAppend_eq {call : AppendCall} {e : Event} {stored : List Event}
    (h : B.log.append P s.clockMs s.store call = .ok (e, stored)) (next failed : MainPc) :
    s.logAppend B call next failed = { s with store := stored, main := next } := by
  simp only [State.logAppend, h]

theorem logAppend_store_ne (hne : s.store ≠ []) (call : AppendCall) (next failed : MainPc) :
    (s.logAppend B call next failed).store ≠ [] := by
  unfold State.logAppend
  split
  · rename_i happ
    simp [(ContainmentLog.append_ok happ).stored_eq]
  · exact hne

theorem LogInv.withContext (h : LogInv B s) {c : Bool} (hne : s.store ≠ [])
    (hrec : s.main.recovery = false) : LogInv B { s with context := c } :=
  h.goto hne hrec

theorem StopReason.name_ascii (r : StopReason) : isAscii r.name = true := by cases r <;> decide

theorem Disposition.name_ascii (d : Disposition) : isAscii d.name = true := by cases d <;> decide

theorem FailureCode.name_ascii (c : FailureCode) : isAscii c.name = true := by cases c <;> decide

theorem runCall_normal (hP : Lawful P) {code : EventCode} {detail : String} {c : Counters}
    (hd : isAscii detail = true) : NormalTexts P B.log (runCall code detail c) where
  runId := B.runId_nfc
  grantId := B.grantId_nfc
  detail := hP.nfc_ascii _ hd
  scenario _ hs := nomatch hs
  role _ hs := nomatch hs

theorem actionCall_normal (hP : Lawful P) {k : Nat} {a : Action} (ha : B.actions[k]? = some a)
    {n : Nat} {code : EventCode} {detail : String} {c : Counters} (hd : isAscii detail = true) :
    NormalTexts P B.log (actionCall a n code detail c) := by
  have hmem : a ∈ B.actions := List.mem_of_getElem? ha
  refine ⟨B.runId_nfc, B.grantId_nfc, hP.nfc_ascii _ hd, ?_, ?_⟩
  · intro x hx
    cases hx
    exact B.scenario_nfc a hmem
  · intro x hx
    cases hx
    exact B.role_nfc a hmem

theorem GoodCall.run (hP : Lawful P) {code : EventCode} {detail : String}
    (hne : s.store ≠ [] ∨ code = .grantVerified) (hd : isAscii detail = true) :
    GoodCall B s (runCall code detail s.counters) where
  counters := Or.inl rfl
  first h := by
    cases hne with
    | inl hne => exact absurd h hne
    | inr hc => rw [hc]; rfl
  normal := runCall_normal hP hd

theorem GoodCall.action (hP : Lawful P) {k : Nat} {a : Action} (ha : B.actions[k]? = some a)
    (hne : s.store ≠ []) {n : Nat} {code : EventCode} {detail : String}
    (hd : isAscii detail = true) :
    GoodCall B s (actionCall a n code detail s.counters) where
  counters := Or.inl rfl
  first h := absurd h hne
  normal := actionCall_normal hP ha hd

theorem GoodCall.grant (hP : Lawful P) {detail : String} (hd : isAscii detail = true) :
    GoodCall B s { eventCode := EventCode.grantVerified.name, detailCode := detail } where
  counters := Or.inr rfl
  first _ := rfl
  normal :=
    { runId := B.runId_nfc, grantId := B.grantId_nfc, detail := hP.nfc_ascii _ hd
      scenario := by simp, role := by simp }

theorem EventCode.ofName_name (c : EventCode) : EventCode.ofName c.name = some c := by
  cases c <;> decide

theorem overrideCounters_overrides (base c : Counters) :
    overrideCounters base (overrides c).items = .ok c := by
  simp [overrides, CounterField.all, overrideCounters, CounterField.ofName_name, Counters.set,
    Counters.get]

def Counters.InRange (c : Counters) : Prop :=
  (∀ f, 0 ≤ c.get f ∧ c.get f ≤ f.ceiling) ∧ c.requestsCompleted ≤ c.requestsStarted

theorem runCall_safe {clockMs : Int} {code : EventCode} {detail : String} {c : Counters}
    (ht : 0 ≤ clockMs ∧ clockMs ≤ Json.safeInt) (hd : SafeText P detail) (hc : Counters.InRange c) :
    SafeCall P clockMs (runCall code detail c) code c where
  code := EventCode.ofName_name code
  time := ht
  ordinal _ hn := nomatch hn
  scenario _ hs := nomatch hs
  role _ hs := nomatch hs
  attempt _ hn := nomatch hn
  binding := ⟨rfl, rfl, rfl⟩
  detail := hd
  counters := hc.1
  completed := hc.2

theorem actionCall_safe {clockMs : Int} {a : Action} {n : Nat} {code : EventCode} {detail : String}
    {c : Counters} (ha : 0 ≤ a.ordinal ∧ a.ordinal ≤ 19) (hscenario : SafeText P a.scenarioId)
    (hrole : SafeText P a.semanticAuthRole) (hn : 1 ≤ n ∧ n ≤ 2)
    (ht : 0 ≤ clockMs ∧ clockMs ≤ Json.safeInt) (hd : SafeText P detail) (hc : Counters.InRange c) :
    SafeCall P clockMs (actionCall a n code detail c) code c where
  code := EventCode.ofName_name code
  time := ht
  ordinal m hm := by cases hm; exact ha
  scenario x hx := by cases hx; exact hscenario
  role x hx := by cases hx; exact hrole
  attempt m hm := by cases hm; omega
  binding := ⟨rfl, rfl, rfl⟩
  detail := hd
  counters := hc.1
  completed := hc.2

theorem Goes.fresh {m m' : MainPc} (h : Goes m m') : m'.fresh = true ∨ m.fresh = false := by
  cases h with
  | raises hloop exc =>
    refine .inr ?_
    cases m <;> first | rfl | cases hloop
  | _ => first | exact .inl rfl | exact .inr rfl

theorem Goes.recovery {m m' : MainPc} (h : Goes m m') (hm' : m'.recovery = true) :
    m.recovery = true := by
  cases h <;> first | rfl | cases hm'

theorem LogInv.goes (h : LogInv B s) {m : MainPc} {r : Option LocalRun} {c : Bool}
    (hgoes : Goes s.main m) (hc : c = false ∨ c = s.context) :
    LogInv B { s with main := m, run := r, context := c } := by
  refine h.control (hgoes.fresh.imp_right h.nonempty) (fun hm => ?_) hc
  obtain ⟨hworker, hcontext⟩ := h.recovery (hgoes.recovery hm)
  rw [hcontext, or_self] at hc
  exact ⟨hworker, hc⟩

/-- The executor logs texts in form C, and nothing before the grant. -/
theorem Logs.good (hP : Lawful P) (h : LogInv B s) {call : AppendCall} {next failed : MainPc}
    (hlogs : Logs B s call next failed) : GoodCall B s call := by
  have hne : ∀ {m : MainPc}, s.main = m → m.fresh = false → s.store ≠ [] :=
    fun hs hf => h.nonempty (by rw [hs, hf])
  cases hlogs with
  | verifies hs => exact .grant hP (by decide)
  | recovers hs => exact .grant hP (by decide)
  | starts hs => exact .run hP (.inl (hne hs rfl)) (by decide)
  | regrants hs e => exact .run hP (.inr rfl) (by decide)
  | stops hs => exact .run hP (.inl (hne hs rfl)) (StopReason.name_ascii _)
  | closes hs => exact .run hP (.inl (hne hs rfl)) (Disposition.name_ascii _)
  | seals hs => exact .run hP (.inl (hne hs rfl)) (by decide)
  | admits hs ha => exact .action hP ha (hne hs rfl) (by decide)
  | records hs ha => exact .action hP ha (hne hs rfl) (by decide)
  | exhausts hs ha => exact .action hP ha (hne hs rfl) (by decide)
  | rejects hs ha => exact .action hP ha (hne hs rfl) (FailureCode.name_ascii _)
  | redacts hs ha => exact .action hP ha (hne hs rfl) (by decide)
  | completes hs ha => exact .action hP ha (hne hs rfl) (by decide)

theorem Logs.next_recovery {call : AppendCall} {next failed : MainPc}
    (h : Logs B s call next failed) (hnext : next.recovery = true) : s.main.recovery = true := by
  cases h with
  | recovers hs =>
    rw [hs]
    rfl
  | _ => cases hnext

theorem Logs.failed_recovery {call : AppendCall} {next failed : MainPc}
    (h : Logs B s call next failed) : failed.recovery = false := by
  cases h <;> rfl

theorem Logs.failed_fresh {call : AppendCall} {next failed : MainPc}
    (h : Logs B s call next failed) : failed.fresh = true ∨ s.main.fresh = false := by
  cases h with
  | verifies hs | recovers hs | starts hs | regrants hs e | closes hs | seals hs => exact .inl rfl
  | admits hs ha | records hs ha | exhausts hs ha | rejects hs ha | redacts hs ha
  | completes hs ha | stops hs =>
    rw [hs]
    exact .inr rfl

theorem LogInv.logs (hP : Lawful P) (hsign : B.log.signer.Correct P) (h : LogInv B s)
    {call : AppendCall} {next failed : MainPc} {c : Bool} (hlogs : Logs B s call next failed)
    (hc : s.main.fresh = true → c = (s.logAppend B call next failed).context) :
    LogInv B { s.logAppend B call next failed with context := c } := by
  have happend : LogInv B (s.logAppend B call next failed) :=
    h.logAppend hP hsign (hlogs.good hP h) hlogs.next_recovery
      (hlogs.failed_fresh.imp_right h.nonempty) hlogs.failed_recovery
  by_cases hfresh : s.main.fresh = true
  · rw [hc hfresh]
    exact happend
  · -- the log has its first event, and the context may be set or dropped
    rw [Bool.not_eq_true] at hfresh
    have hrecovery : s.main.recovery = false := by
      cases hs : s.main <;> first | rfl | (rw [hs] at hfresh; cases hfresh)
    refine happend.withContext (logAppend_store_ne (h.nonempty hfresh) _ _ _) ?_
    rcases logAppend_main (B := B) (s := s) call next failed with hm | hm
    · rw [hm, Bool.eq_false_iff]
      exact fun hnext => absurd (hlogs.next_recovery hnext) (by simp [hrecovery])
    · rw [hm]
      exact hlogs.failed_recovery

theorem LogInv.granted (h : LogInv B s) {k attempts : Nat} (hs : s.main = .requesting k attempts) :
    LogInv B (granted s k attempts) := by
  refine h.count (h.nonempty (by rw [hs]; rfl)) rfl (Counters.le_iff.mpr ?_)
  dsimp only
  refine ⟨by omega, le_rfl, le_rfl, ?_, ?_⟩ <;> split <;> omega

theorem LogInv.rebuilt (h : LogInv B s) (hs : s.main = .recovering) {first : Event}
    {rest : List Event} (hload : B.log.load P s.store = .ok (first :: rest)) {m : MainPc}
    (hm : m.recovery = false) :
    LogInv B { s with
      counters := (headOf (first :: rest)).previousCounters
      redactionCount := 0
      startedAtMs := first.occurredAtMs
      main := m } := by
  obtain ⟨hworker, hcontext⟩ := h.recovery (by rw [hs]; rfl)
  obtain ⟨hstore, _⟩ := verifyContainmentChain_ok hload
  have hne : s.store ≠ [] := by simp [← hstore]
  exact
    { accepted := h.accepted, time := h.time
      counters := by rw [hstore]; exact Counters.Le.refl _
      started := Or.inr hne, finals := Or.inr hne, context := Or.inr hne, worker := Or.inr hne
      copy := by simp [hworker, WorkerPc.copy]
      recovery := by simp [hm] }

theorem mainStep_logInv (hP : Lawful P) (hsign : B.log.signer.Correct P) (h : LogInv B s)
    (hanswered : Answered s) {choice : MainChoice} (hstep : mainStep B s choice = some t) :
    LogInv B t := by
  have hne : ∀ {m : MainPc}, s.main = m → m.fresh = false → s.store ≠ [] :=
    fun hs hf => h.nonempty (by rw [hs, hf])
  cases mainStep_move hstep with
  | stays ht =>
    rw [ht]
    exact h
  | goes m r c hgoes hc ht =>
    rw [ht]
    exact h.goes hgoes hc
  | logs call next failed c hlogs hc ht =>
    rw [ht]
    exact h.logs hP hsign hlogs hc
  | activates r hs ht =>
    rw [ht]
    exact h.goto (hne hs rfl) rfl
  | grants k attempts hs hgrants ht =>
    rw [ht]
    exact h.granted hs
  | answers k attempts r hs hchoice hmade ht =>
    rw [ht]
    refine h.count (hne hs rfl) rfl (Counters.le_iff.mpr ?_)
    simp
  | measures k attempts r hs hchoice ht =>
    rw [ht]
    refine h.count (hne hs rfl) rfl (Counters.le_iff.mpr ?_)
    have hr := Response.bytes_nonneg (hanswered r (by rw [hs]; rfl))
    simpa using hr
  | accepts k attempts r m hs hm ht =>
    rw [ht]
    refine h.count (hne hs rfl) ?_ (Counters.Le.refl _)
    obtain rfl | rfl := hm <;> rfl
  | reports k events v m hs hload hv hm ht =>
    rw [ht]
    refine h.goto (hne hs rfl) ?_
    obtain rfl | ⟨exc, rfl⟩ := hm <;> rfl
  | projects e events hs hload hlast ht =>
    rw [ht]
    exact h.goto (hne hs rfl) rfl
  | seals e events r v hs hload hv ht =>
    rw [ht]
    exact h.goto (hne hs rfl) rfl
  | saves v events hs hload hfinals ht =>
    rw [ht]
    exact h.goto (hne hs rfl) rfl
  | resumes v hs hfinals ht =>
    rw [ht]
    exact h.goto (h.finals.resolve_left (by simp [hfinals])) rfl
  | recovers hs hfinals ht =>
    rw [ht]
    exact h.control (.inl rfl) (fun _ => h.recovery (by rw [hs]; rfl)) (.inr rfl)
  | rebuilds first rest hs hchoice hload ht =>
    rw [ht]
    exact h.rebuilt hs hload rfl

end Heel.Executor
