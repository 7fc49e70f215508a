import Heel.Runner.LogInvariant

/-! The stop worker against the main thread: which interleavings keep the run log verifiable. -/
namespace Heel.Executor
open Lib Lib.Checks Containment

variable {P : Platform} {B : Bundle P} {s t : State}

theorem LogInv.work (h : LogInv B s) {w : WorkerPc} {r : Option LocalRun}
    (hmain : s.main.recovery = true → w = .idle) (hne : w.isIdle = true ∨ s.store ≠ [])
    (hcopy : ∀ c, w.copy = some c → Counters.Le c s.counters) :
    LogInv B { s with worker := w, run := r } where
  accepted := h.accepted
  time := h.time
  counters := h.counters
  started := h.started
  finals := h.finals
  context := h.context
  worker := hne
  copy := hcopy
  recovery hm := ⟨hmain hm, (h.recovery hm).2⟩

theorem LogInv.rest (h : LogInv B s) {r : Option LocalRun} :
    LogInv B { s with worker := .idle, run := r } :=
  h.work (fun _ => rfl) (Or.inl rfl) (by simp [WorkerPc.copy])

theorem LogInv.busy (h : LogInv B s) (hw : s.worker.isIdle = false) :
    s.store ≠ [] ∧ s.main.recovery = false := by
  constructor
  · cases h.worker with
    | inl hidle => simp [hw] at hidle
    | inr hne => exact hne
  · by_contra hrec
    have hidle := (h.recovery (by simpa using hrec)).1
    simp [hidle, WorkerPc.isIdle] at hw

/-- The worker keeps its copy from one control point to the next. -/
theorem LogInv.carry (h : LogInv B s) (hw : s.worker.isIdle = false) {w : WorkerPc}
    {r : Option LocalRun} (hcopy : ∀ c, w.copy = some c → Counters.Le c s.counters) :
    LogInv B { s with worker := w, run := r } := by
  obtain ⟨hne, hrec⟩ := h.busy hw
  exact h.work (by simp [hrec]) (Or.inr hne) hcopy

/-- The worker is about to log counters below those of the last event. -/
def Stale (s : State) : Prop :=
  ∃ reason copy, s.worker = .appending reason copy ∧
    ¬ Counters.Le (headOf s.store).previousCounters copy

/-- An append of the worker keeps the log accepted exactly when its copy is not stale. -/
theorem workerAppend_iff (hsign : B.log.signer.Correct P) (h : LogInv B s) {reason : StopReason}
    {copy : Counters} (hw : s.worker = .appending reason copy) {e : Event} {stored : List Event}
    (happ : B.log.append P s.clockMs s.store (runCall .stopObserved reason.name copy) =
      .ok (e, stored)) : Accepted P B.log.binding (s.store ++ [e]) ↔ ¬ Stale s := by
  have ha := ContainmentLog.append_ok happ
  have hne := (h.busy (by rw [hw]; rfl)).1
  rw [ha.accepted_iff hsign]
  constructor
  · intro hk hstale
    obtain ⟨reason', copy', hw', hnot⟩ := hstale
    rw [hw] at hw'
    cases hw'
    refine hnot fun f _ => hk.counters f (copy.get f) ?_
    exact List.mem_map.mpr ⟨f, f.mem_all, rfl⟩
  · intro hfresh
    refine ⟨fun hnil => absurd hnil hne, h.reading ha, ?_⟩
    intro f v hmem
    rw [mem_overrides hmem]
    by_contra hnot
    exact hfresh ⟨reason, copy, hw, fun hle => hnot (hle.get f)⟩

theorem workerStep_logInv (hP : Lawful P) (hsign : B.log.signer.Correct P) (h : LogInv B s)
    {choice : WorkerChoice} (hstep : workerStep B s choice = some t)
    (hfresh : ¬ Stale s ∨ t.store = s.store) : LogInv B t := by
  unfold workerStep at hstep
  split at hstep
  · rename_i reason hw
    split at hstep
    · cases hstep
    · split at hstep <;> cases hstep
      · rename_i hcontext
        have hne : s.store ≠ [] := by
          cases h.context with
          | inl hc => simp [hc] at hcontext
          | inr hne => exact hne
        refine h.work (fun hrec => ?_) (Or.inr hne) (by simp [WorkerPc.copy])
        simp [(h.recovery hrec).2] at hcontext
      · exact h
  · rename_i reason hw
    split at hstep <;> cases hstep
    refine h.carry (by rw [hw]; rfl) ?_
    intro c hc
    cases hc
    exact Counters.Le.refl _
  · rename_i reason copy hw
    have hcopy := h.copy copy (by rw [hw]; rfl)
    have hkeep : ∀ {r}, LogInv B { s with worker := .moved reason copy, run := r } := by
      intro r
      refine h.carry (by rw [hw]; rfl) ?_
      intro c hc
      cases hc
      exact hcopy
    split at hstep
    · cases hstep
      exact h.rest
    · split at hstep
      · split at hstep <;> cases hstep
        · exact h.rest
        · exact hkeep
      · cases hstep
        exact hkeep
      · cases hstep
        exact hkeep
      · cases hstep
        exact h.rest
      · cases hstep
        exact h.rest
  · rename_i reason copy hw
    split at hstep
    · cases hstep
      exact h.rest
    · split at hstep <;> cases hstep
      · exact h.rest
      · refine h.carry (by rw [hw]; rfl) ?_
        intro c hc
        cases hc
        exact h.copy copy (by rw [hw]; rfl)
  · rename_i reason copy hw
    split at hstep
    · rename_i e stored happ
      cases hstep
      have ha := ContainmentLog.append_ok happ
      have hstored : stored = s.store ++ [e] := by
        rw [ha.stored_eq, ha.mapText_eq hP (runCall_normal hP (StopReason.name_ascii _))]
      have hcounters : e.counters = copy := overrideCounters_all ha.counters
      have hrec := (h.busy (by rw [hw]; rfl)).2
      subst hstored
      replace hfresh : ¬ Stale s := hfresh.resolve_right (by simp)
      exact
        { accepted := (workerAppend_iff hsign h hw happ).mpr hfresh
          time := Or.inr (by rw [headOf_concat]; exact le_of_eq ha.time)
          counters := by
            rw [headOf_concat, ChainHead.after, hcounters]
            exact h.copy copy (by rw [hw]; rfl)
          started := Or.inr (by simp), finals := Or.inr (by simp), context := Or.inr (by simp)
          worker := Or.inl rfl, copy := by simp [WorkerPc.copy], recovery := by simp [hrec] }
    · cases hstep
      exact h.rest
  · cases hstep

/-- Every interleaving of the main thread and the stop worker, from an empty log. -/
def race (B : Bundle P) : Transition State Input where
  init s := ∃ clockMs monotonic, s = { clockMs := clockMs, monotonic := monotonic }
  step s i t := step B s i = some t

/-- The condition on one step: no worker logs a stale copy. -/
def InStep (s : State) (i : Input) : Prop :=
  ∀ choice, i.choice = .worker choice → ¬ Stale s

/-- The runs in which no worker logs a stale copy. -/
def orderly (B : Bundle P) : Transition State Input := (race B).restrict InStep

theorem LogInv.tick (h : LogInv B s) {clockMs : Int} {monotonic : ℚ} (hc : s.clockMs ≤ clockMs) :
    LogInv B { s with clockMs := clockMs, monotonic := monotonic } where
  accepted := h.accepted
  time := h.time.imp id fun ht => ht.trans hc
  counters := h.counters
  started := h.started
  finals := h.finals
  context := h.context
  worker := h.worker
  copy := h.copy
  recovery := h.recovery

theorem LogInv.crash (h : LogInv B s) :
    LogInv B { s with main := .crashed, worker := .idle, context := false } where
  accepted := h.accepted
  time := h.time
  counters := h.counters
  started := Or.inl rfl
  finals := h.finals
  context := Or.inl rfl
  worker := Or.inl rfl
  copy := by simp [WorkerPc.copy]
  recovery _ := ⟨rfl, rfl⟩

theorem step_logInv (hP : Lawful P) (hsign : B.log.signer.Correct P) (h : LogInv B s)
    (hanswered : Answered s) {i : Input} (hstep : step B s i = some t)
    (hi : InStep s i ∨ t.store = s.store) : LogInv B t := by
  unfold step at hstep
  split at hstep
  · rename_i hclock
    have hnow : LogInv B { s with clockMs := i.clockMs, monotonic := i.monotonic } :=
      h.tick hclock.1
    unfold act at hstep
    split at hstep
    · exact mainStep_logInv hP hsign hnow hanswered hstep
    · rename_i choice hchoice
      exact workerStep_logInv hP hsign hnow hstep (hi.imp (fun h => h choice hchoice) id)
    · cases hstep
      exact hnow.crash
  · cases hstep

theorem init_logInv (h : (race B).init s) : LogInv B s := by
  obtain ⟨clockMs, monotonic, rfl⟩ := h
  exact
    { accepted := accepted_nil _ _, time := Or.inl rfl, counters := Counters.Le.refl _
      started := Or.inl rfl, finals := Or.inl rfl, context := Or.inl rfl, worker := Or.inl rfl
      copy := by simp [WorkerPc.copy], recovery := by simp [MainPc.recovery] }

theorem init_answered (h : (race B).init s) : Answered s := by
  obtain ⟨clockMs, monotonic, rfl⟩ := h
  exact .of_none rfl

theorem race_answered (hs : (race B).Reachable s) : Answered s :=
  (race B).invariant (fun _ h => init_answered h) (fun _ _ _ h hstep => step_answered h hstep) hs

theorem orderly_logInv (hP : Lawful P) (hsign : B.log.signer.Correct P)
    (hs : (orderly B).Reachable s) : LogInv B s := by
  have hboth : LogInv B s ∧ Answered s := by
    refine (orderly B).invariant (P := fun s => LogInv B s ∧ Answered s) ?_ ?_ hs
    · intro s hinit
      exact ⟨init_logInv hinit, init_answered (B := B) hinit⟩
    · intro s i t h hstep
      exact ⟨step_logInv hP hsign h.1 h.2 hstep.1 (Or.inl hstep.2), step_answered h.2 hstep.1⟩
  exact hboth.1

/-- A step of the worker breaks the log exactly when it stores a stale copy. -/
theorem workerStep_accepted_iff (hP : Lawful P) (hsign : B.log.signer.Correct P) (h : LogInv B s)
    {choice : WorkerChoice} (hstep : workerStep B s choice = some t) :
    Accepted P B.log.binding t.store ↔ ¬ Stale s ∨ t.store = s.store := by
  constructor
  · intro hacc
    by_cases hstale : Stale s
    · right
      obtain ⟨reason, copy, hw, hnot⟩ := hstale
      unfold workerStep at hstep
      rw [hw] at hstep
      cases choice with
      | call r => cases hstep
      | proceed =>
        dsimp only at hstep
        split at hstep
        · rename_i e stored happ
          cases hstep
          have ha := ContainmentLog.append_ok happ
          rw [ha.stored_eq, ha.mapText_eq hP (runCall_normal hP (StopReason.name_ascii _))] at hacc
          exact absurd ⟨reason, copy, hw, hnot⟩ ((workerAppend_iff hsign h hw happ).mp hacc)
        · cases hstep
          rfl
    · exact Or.inl hstale
  · intro hfresh
    exact (workerStep_logInv hP hsign h hstep hfresh).accepted

theorem step_accepted_iff (hP : Lawful P) (hsign : B.log.signer.Correct P) (h : LogInv B s)
    (hanswered : Answered s) {i : Input} (hstep : step B s i = some t) :
    Accepted P B.log.binding t.store ↔ InStep s i ∨ t.store = s.store := by
  refine ⟨fun hacc => ?_, fun hi => (step_logInv hP hsign h hanswered hstep hi).accepted⟩
  by_cases hi : InStep s i
  · exact Or.inl hi
  · simp only [InStep, not_forall, not_not] at hi
    obtain ⟨choice, hchoice, hstale⟩ := hi
    unfold step at hstep
    split at hstep
    · rename_i hclock
      have hnow : LogInv B { s with clockMs := i.clockMs, monotonic := i.monotonic } :=
        h.tick hclock.1
      unfold act at hstep
      rw [hchoice] at hstep
      have hor := (workerStep_accepted_iff hP hsign hnow hstep).mp hacc
      exact Or.inr (hor.resolve_left (fun hn => hn hstale))
    · cases hstep

/-- Whatever the interleaving, the log stays verifiable as long as no stop worker logs a stale
copy of the counters; the first stale copy that is logged breaks it. -/
theorem stop_race_keeps_log (hP : Lawful P) (hsign : B.log.signer.Correct P) :
    (∀ s, (orderly B).Reachable s → Accepted P B.log.binding s.store) ∧
    ∀ s i t, (orderly B).Reachable s → (race B).step s i t →
      (Accepted P B.log.binding t.store ↔ InStep s i ∨ t.store = s.store) := by
  constructor
  · intro s hs
    exact (orderly_logInv hP hsign hs).accepted
  · intro s i t hs hstep
    exact step_accepted_iff hP hsign (orderly_logInv hP hsign hs)
      (race_answered (.of_restrict hs)) hstep

/-- One main step of a run under a guard, its clocks standing still. -/
theorem guarded_main {guard : State → Input → Prop} {c : MainChoice}
    (hs : ((race B).restrict guard).Reachable s)
    (hg : guard s ⟨s.clockMs, s.monotonic, .main c⟩) (h : mainStep B s c = some t)
    (htyped : Choice.typed (.main c) = true := by rfl) : ((race B).restrict guard).Reachable t := by
  refine .step (a := ⟨s.clockMs, s.monotonic, .main c⟩) hs ⟨?_, hg⟩
  simp [race, step, act, h, htyped]

theorem guarded_log {guard : State → Input → Prop} (hs : ((race B).restrict guard).Reachable s)
    (hg : guard s ⟨s.clockMs, s.monotonic, .main .log⟩) {call : AppendCall} {next failed : MainPc}
    (hmain : mainStep B s .log = some (s.logAppend B call next failed)) {e : Event}
    {stored : List Event} (h : B.log.append P s.clockMs s.store call = .ok (e, stored)) :
    ((race B).restrict guard).Reachable { s with store := stored, main := next } := by
  rw [logAppend_eq h] at hmain
  exact guarded_main hs hg hmain

theorem inStep_main (s : State) (clockMs : Int) (monotonic : ℚ) (c : MainChoice) :
    InStep s ⟨clockMs, monotonic, .main c⟩ := by
  intro choice hchoice
  cases hchoice

theorem orderly_worker {c : WorkerChoice} (hs : (orderly B).Reachable s) (hfresh : ¬ Stale s)
    (h : workerStep B s c = some t) : (orderly B).Reachable t := by
  refine .step (a := ⟨s.clockMs, s.monotonic, .worker c⟩) hs ⟨?_, fun _ _ => hfresh⟩
  simp [race, step, act, Choice.typed, h]

theorem fresh_of_worker (h : ∀ reason copy, s.worker ≠ .appending reason copy) : ¬ Stale s := by
  intro hstale
  obtain ⟨reason, copy, hw, _⟩ := hstale
  exact h reason copy hw

def sampleAction : Action := ⟨0, "scenario_1", "user"⟩

def sampleBundle : Bundle samplePlatform where
  log := sampleLog
  actions := [sampleAction]
  budgets := ⟨20, 60000, 262144⟩
  retryPolicy := ⟨0, []⟩
  receiptPolicy := ⟨65536, [.none, .runnerFault], [.none],
    [.actionCompleted, .actionRejected, .actionStarted, .admitted, .budgetExhausted, .dnsChanged,
      .redacted, .responseTruncated, .stopObserved]⟩
  workspaceId := "workspace_1"
  projectId := "project_1"
  grantDigest := zeroDigest
  approvalProjectionDigest := zeroDigest
  runnerVersion := "1"
  engineVersion := "1"
  adapterVersions := ["1"]
  issuedAtMs := 0
  requests_range := by decide
  wall_range := by decide
  bytes_range := by decide
  retries_range := by decide
  runId_nfc := rfl
  grantId_nfc := rfl
  scenario_nfc _ _ := rfl
  role_nfc _ _ := rfl

/-- A log at clock 1000 whose last event carries the counters `c`. -/
structure Sampled (store : List Event) (c : Counters) : Prop where
  accepted : Accepted samplePlatform sampleLog.binding store
  counters : (headOf store).previousCounters = c
  times : ∀ e ∈ store, e.occurredAtMs = 1000

theorem Sampled.time {store : List Event} {c : Counters} (h : Sampled store c) :
    (headOf store).previousTime ≤ 1000 := by
  unfold headOf
  cases hl : store.getLast? with
  | none => simp
  | some e => exact le_of_eq (h.times e (List.mem_of_getLast? hl))

variable {store : List Event} {c d : Counters}

theorem Sampled.append (h : Sampled store c) (hlen : store.length < 100000) {call : AppendCall}
    {code : EventCode} (hcounters : overrideCounters c call.counters.items = .ok d)
    (hcall : SafeCall samplePlatform 1000 call code d)
    (hfirst : store = [] → call.eventCode = EventCode.grantVerified.name) (hle : Counters.Le c d) :
    ∃ e, sampleBundle.log.append samplePlatform 1000 store call = .ok (e, store ++ [e]) ∧
      e.eventCode = code ∧ Sampled (store ++ [e]) d := by
  obtain ⟨e, happ, hc, htime, hcode, hiff⟩ := sampleLog.append_keeps samplePlatform_lawful
    sampleLog_safe sampleLog_correct h.accepted hlen (by rw [h.counters]; exact hcounters) hcall
  refine ⟨e, happ, hcode, hiff.mpr ⟨hfirst, h.time, ?_⟩, ?_, ?_⟩
  · rw [h.counters]
    exact (overrideCounters_le hcounters).mp hle
  · rw [headOf_concat]
    exact hc
  · intro x hx
    cases List.mem_append.mp hx with
    | inl hx => exact h.times x hx
    | inr hx =>
      obtain rfl := List.mem_singleton.mp hx
      exact htime

theorem sampleText {x : String} (h : x ≠ "" ∧ byteSize x.toList ≤ 128)
    (hprint : x.toList.all (fun c => !(c.toNat < 0x21 || c.toNat == 0x7f)) = true)
    (hcontrol : x.toList.all (fun c => !Json.isControl c) = true) : SafeText samplePlatform x :=
  ⟨h.1, h.2, hprint, hcontrol, rfl⟩

theorem Sampled.run (h : Sampled store c) (hne : store ≠ []) (hlen : store.length < 100000)
    (code : EventCode) {detail : String} (hd : SafeText samplePlatform detail)
    (hr : Counters.InRange d) (hle : Counters.Le c d) :
    ∃ e, sampleBundle.log.append samplePlatform 1000 store (runCall code detail d) =
        .ok (e, store ++ [e]) ∧ e.eventCode = code ∧ Sampled (store ++ [e]) d :=
  h.append hlen (overrideCounters_overrides _ _) (runCall_safe (by decide) hd hr)
    (fun hnil => absurd hnil hne) hle

theorem Sampled.action (h : Sampled store c) (hne : store ≠ []) (hlen : store.length < 100000)
    (code : EventCode) {detail : String} (hd : SafeText samplePlatform detail)
    (hr : Counters.InRange d) (hle : Counters.Le c d) :
    ∃ e, sampleBundle.log.append samplePlatform 1000 store
        (actionCall sampleAction 1 code detail d) =
        .ok (e, store ++ [e]) ∧ e.eventCode = code ∧ Sampled (store ++ [e]) d := by
  have hscenario : SafeText samplePlatform "scenario_1" :=
    sampleText (by decide) (by decide) (by decide)
  have hrole : SafeText samplePlatform "user" := sampleText (by decide) (by decide) (by decide)
  exact h.append hlen (overrideCounters_overrides _ _)
    (actionCall_safe (by decide) hscenario hrole (by decide) (by decide) hd hr)
    (fun hnil => absurd hnil hne) hle

def sampleState (store : List Event) (counters : Counters) (main : MainPc)
    (worker : WorkerPc := .idle) (run : LocalState := .running) : State where
  store := store
  run := some ⟨run, 1000⟩
  counters := counters
  startedAtMs := 1000
  clockMs := 1000
  context := true
  main := main
  worker := worker

def sampleResponse : Response := ⟨10, some 1, 0⟩

/-- A gate that is open up to the first second of the monotonic clock. -/
def openGate : GateReading := ⟨none, .ok 1, none⟩

def startedCounters : Counters := { requestsStarted := 1, actionsContained := 1 }

def completedCounters : Counters :=
  { requestsStarted := 1, requestsCompleted := 1, responseBytesRead := 10, actionsContained := 1 }

theorem startedCounters_inRange : Counters.InRange startedCounters :=
  ⟨fun f => by cases f <;> decide, by decide⟩

example : startedCounters.requestsCompleted = 0 ∧ completedCounters.requestsCompleted = 1 := by
  decide +kernel

theorem sample_attempt (store : List Event) :
    mainStep sampleBundle (sampleState store {} (.requesting 0 0)) (.attempt 1 none openGate) =
      some (sampleState store startedCounters (.permitted 0 1)) := by
  have helapsed : (sampleState store {} (.requesting 0 0)).elapsedMs = 0 := by
    simp [State.elapsedMs, sampleState]
  have hmain : mainStep sampleBundle (sampleState store {} (.requesting 0 0))
      (.attempt 1 none openGate) = some (beforeAttempt sampleBundle
        (sampleState store {} (.requesting 0 0)) 0 0 1 none openGate).1 := rfl
  rw [hmain]
  have hopen : ¬ (1 : ℚ) ≤ 0 := by norm_num
  simp only [beforeAttempt, openGate, helapsed]
  simp [sampleBundle, sampleState, startedCounters, hopen]

def MainPc.isReady : MainPc → Bool
  | .ready _ => true
  | _ => false

theorem starting_log {e : Event} {stored : List Event} (hmain : s.main = .starting)
    (h : B.log.append P s.clockMs s.store (runCall .runStarted "locally_activated" s.counters) =
      .ok (e, stored)) :
    mainStep B s .log = some { s with store := stored, main := .ready 0, context := true } := by
  have hstep : mainStep B s .log = some
      { s.logAppend B (runCall .runStarted "locally_activated" s.counters) (.ready 0) .done with
        context := (s.logAppend B (runCall .runStarted "locally_activated" s.counters)
          (.ready 0) .done).main.isReady } := by
    cases s
    cases hmain
    rfl
  rw [hstep, logAppend_eq h]
  rfl

example : StopReason.cloudStop.name = "cloud_stop" := by decide +kernel

theorem sample_opening : ∃ e1 e2 e3,
    sampleBundle.log.append samplePlatform 1000 []
      { eventCode := EventCode.grantVerified.name, detailCode := "grant_exact" } = .ok (e1, [e1]) ∧
    sampleBundle.log.append samplePlatform 1000 [e1]
      (runCall .runStarted "locally_activated" {}) = .ok (e2, [e1] ++ [e2]) ∧
    sampleBundle.log.append samplePlatform 1000 ([e1] ++ [e2])
      (actionCall sampleAction 1 .admitted "exact_action" {}) = .ok (e3, [e1] ++ [e2] ++ [e3]) ∧
    Sampled ([e1] ++ [e2] ++ [e3]) {} := by
  have h0 : Sampled [] {} := ⟨accepted_nil _ _, rfl, by simp⟩
  have hzero : Counters.InRange {} := ⟨fun f => by cases f <;> decide, by decide⟩
  obtain ⟨e1, a1, -, h1⟩ := h0.append (by decide) rfl (verifiedCall_safe (by decide)) (fun _ => rfl)
    (Counters.Le.refl _)
  obtain ⟨e2, a2, -, h2⟩ := h1.run (by simp) (by simp) .runStarted
    (sampleText (x := "locally_activated") (by decide) (by decide) (by decide)) hzero
    (Counters.Le.refl _)
  obtain ⟨e3, a3, -, h3⟩ := h2.action (by simp) (by simp) .admitted
    (sampleText (x := "exact_action") (by decide) (by decide) (by decide)) hzero
    (Counters.Le.refl _)
  exact ⟨e1, e2, e3, a1, a2, a3, h3⟩

/-- The run up to the first request, under any guard that lets its steps through. -/
theorem sample_started (guard : State → Input → Prop)
    (hguard : ∀ s c, (∀ k n r, s.main ≠ .received k n r) → s.main ≠ .recovering →
      guard s ⟨s.clockMs, s.monotonic, .main c⟩) :
    ∃ store, Sampled store startedCounters ∧ store.length = 4 ∧
      lastCode store = some .actionStarted ∧ ((race sampleBundle).restrict guard).Reachable
        (sampleState store startedCounters (.requesting 0 1)) := by
  have hg : ∀ {s c}, (∀ k n r, s.main ≠ .received k n r) ∧ s.main ≠ .recovering →
      guard s ⟨s.clockMs, s.monotonic, .main c⟩ := fun h => hguard _ _ h.1 h.2
  have r0 : ((race sampleBundle).restrict guard).Reachable { clockMs := 1000 } :=
    .init ⟨1000, 0, rfl⟩
  have r1 := guarded_main (c := .begin false true) r0 (hg (by simp)) rfl
  obtain ⟨e1, e2, e3, a1, a2, a3, h3⟩ := sample_opening
  have r2 := guarded_log r1 (hg (by simp)) rfl a1
  have r3 := guarded_main (c := .proceed) r2 (hg (by simp)) rfl
  have r4 : ((race sampleBundle).restrict guard).Reachable
      (sampleState ([e1] ++ [e2]) {} (.ready 0)) :=
    guarded_main (c := .log) r3 (hg (by simp)) (starting_log rfl a2)
  have r5 := guarded_log r4 (hg (by simp [sampleState])) rfl a3
  have r6 := guarded_main r5 (hg (by simp)) (sample_attempt ([e1] ++ [e2] ++ [e3]))
  obtain ⟨e4, a4, hcode, h4⟩ := h3.action (by simp) (by simp) .actionStarted
    (sampleText (x := "target_read") (by decide) (by decide) (by decide)) startedCounters_inRange
    (by decide)
  exact ⟨_, h4, by simp, by simp [lastCode, hcode],
    guarded_log r6 (hg (by simp [sampleState])) rfl a4⟩

theorem Sampled.load (h : Sampled store c) :
    sampleBundle.log.load samplePlatform store = .ok store := by
  obtain ⟨out, hout⟩ := (accepts_iff _).mp h.accepted
  obtain ⟨rfl, _⟩ := verifyContainmentChain_ok hout
  exact hout

theorem sample_decides (h : Sampled store c) {m : MainPc} {r : LocalState}
    {counters copy : Counters}
    {last : EventCode} (hlast : lastCode store = some last) (hnot : last ≠ .stopObserved)
    (hs : (orderly sampleBundle).Reachable
      (sampleState store counters m (.moved .cloudStop copy) r)) :
    (orderly sampleBundle).Reachable
      (sampleState store counters m (.appending .cloudStop copy) r) := by
  have hrecorded : stopRecorded store .cloudStop = false := by
    unfold lastCode at hlast
    unfold stopRecorded
    cases hl : store.getLast? with
    | none => rfl
    | some e =>
      rw [hl] at hlast
      cases hlast
      simp [hnot]
  refine orderly_worker (c := .proceed) hs (fresh_of_worker (by simp [sampleState])) ?_
  have hload := h.load
  simp only [workerStep, sampleState, hload, hrecorded]
  simp

theorem sampleStop_safe {c : Counters} (hc : Counters.InRange c) :
    SafeCall samplePlatform 1000
    (runCall .stopObserved StopReason.cloudStop.name c) .stopObserved c :=
  runCall_safe (by decide) (sampleText (by decide) (by decide) (by decide)) hc

/-- A stop that reaches the log before the main thread counts again. -/
theorem stop_race_keeps_log_sample :
    ∃ s, (orderly sampleBundle).Reachable s ∧ lastCode s.store = some .stopObserved ∧
      Accepted samplePlatform sampleBundle.log.binding s.store := by
  obtain ⟨store, h, hlen, hlast, r⟩ := sample_started InStep fun s c _ _ => inStep_main s _ _ c
  have hne : store ≠ [] := by
    intro hnil
    simp [hnil] at hlen
  have hidle : ∀ {m w r}, (∀ reason copy, w ≠ .appending reason copy) →
      ¬ Stale (sampleState store startedCounters m w r) := fun h => fresh_of_worker h
  have r1 := orderly_worker (c := .call .cloudStop) r (hidle (by simp)) rfl
  have r2 := orderly_worker (c := .proceed) r1 (hidle (by simp)) rfl
  have r3 := orderly_worker (c := .proceed) r2 (hidle (by simp)) rfl
  have r4 := sample_decides h (r := .stopRequested) hlast (by decide) r3
  obtain ⟨e, a, hcode, -⟩ := h.run hne (by omega) .stopObserved
    (sampleText (x := StopReason.cloudStop.name) (by decide) (by decide) (by decide))
    startedCounters_inRange
    (Counters.Le.refl _)
  have hfresh : ¬ Stale (sampleState store startedCounters (.requesting 0 1)
      (.appending .cloudStop startedCounters) .stopRequested) := by
    intro hstale
    obtain ⟨reason, copy, hw, hnot⟩ := hstale
    cases hw
    refine hnot ?_
    simp only [sampleState, h.counters]
    exact Counters.Le.refl _
  have r5 : (orderly sampleBundle).Reachable
      (sampleState (store ++ [e]) startedCounters (.requesting 0 1) .idle .stopRequested) := by
    refine orderly_worker (c := .proceed) r4 hfresh ?_
    simp only [workerStep, sampleState, a]
  refine ⟨_, r5, by simp [sampleState, lastCode, hcode], ?_⟩
  exact (stop_race_keeps_log samplePlatform_lawful sampleLog_correct).1 _ r5

/-- The main thread logs a completed action between the worker's copy and its append. -/
theorem stale_stop_breaks_log :
    ∃ s, (race sampleBundle).Reachable s ∧
      ¬ Accepted samplePlatform sampleBundle.log.binding s.store := by
  obtain ⟨store, h, hlen, hlast, r⟩ := sample_started InStep fun s c _ _ => inStep_main s _ _ c
  have hne : store ≠ [] := by
    intro hnil
    simp [hnil] at hlen
  have hidle : ∀ {store c m w r}, (∀ reason copy, w ≠ .appending reason copy) →
      ¬ Stale (sampleState store c m w r) := fun h => fresh_of_worker h
  have r1 := orderly_worker (c := .call .cloudStop) r (hidle (by simp)) rfl
  have r2 := orderly_worker (c := .proceed) r1 (hidle (by simp)) rfl
  have r3 := guarded_main (c := .respond sampleResponse) r2 (inStep_main _ _ _ _) rfl
  have r4 := guarded_main (c := .proceed) r3 (inStep_main _ _ _ _) rfl
  have r5 : (orderly sampleBundle).Reachable (sampleState store completedCounters (.completing 0 1)
      (.copied .cloudStop startedCounters)) :=
      guarded_main (c := .proceed) r4 (inStep_main _ _ _ _) rfl
  obtain ⟨e5, a5, hcode, h5⟩ := h.action hne (by omega) .actionCompleted (d := completedCounters)
    (sampleText (x := "bounded_response") (by decide) (by decide) (by decide))
    ⟨fun f => by cases f <;> decide, by decide⟩ (by decide)
  have r6 := guarded_log r5 (inStep_main _ _ _ _) rfl a5
  have r7 := orderly_worker (c := .proceed) r6 (fresh_of_worker (by simp [sampleState])) rfl
  have hlast5 : lastCode (store ++ [e5]) = some .actionCompleted := by simp [lastCode, hcode]
  have r8 := sample_decides h5 (r := .stopRequested) hlast5 (by decide) r7
  obtain ⟨e6, a6, -, -, -, hiff⟩ := sampleLog.append_keeps samplePlatform_lawful sampleLog_safe
    sampleLog_correct h5.accepted (by simp; omega) (overrideCounters_overrides _ startedCounters)
    (sampleStop_safe startedCounters_inRange)
  have hstep : workerStep sampleBundle (sampleState (store ++ [e5]) completedCounters (.reporting 0)
      (.appending .cloudStop startedCounters) .stopRequested) .proceed =
      some (sampleState (store ++ [e5] ++ [e6]) completedCounters
          (.reporting 0) .idle .stopRequested) := by
    have hlog : sampleBundle.log = sampleLog := rfl
    simp only [workerStep, sampleState, hlog, a6]
  refine ⟨sampleState (store ++ [e5] ++ [e6]) completedCounters (.reporting 0) .idle .stopRequested,
    .step (a := ⟨1000, 0, .worker .proceed⟩) (Transition.Reachable.of_restrict r8) ?_, ?_⟩
  · simpa [race, step, act, Choice.typed, sampleState] using hstep
  · intro hacc
    have hle := (hiff.mp hacc).counters .requestsCompleted 0
      (List.mem_map.mpr ⟨.requestsCompleted, CounterField.mem_all _, rfl⟩)
    rw [h5.counters] at hle
    exact absurd hle (by decide)

end Heel.Executor
