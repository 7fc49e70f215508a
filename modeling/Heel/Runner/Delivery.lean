import Heel.Runner.DeliveryInvariant
import Heel.Runner.ProjectionTotal

/-! What a run signs against what Cloud accepts of it: the progress projections of `execute` and
the terminal projection of `_finalize`, delivered in order, with crashes and `recover`. -/
namespace Heel.Executor
open Lib Lib.Checks Containment Cloud

variable {P : Platform} {B : Bundle P} {s t : State}

/-! ### The stop worker, the clocks and a crash -/

theorem Live.work (h : Live B s) {w : WorkerPc} {r : Option LocalRun}
    (hcopy : ∀ c, w.copy = some c → Spent B c) : Live B { s with worker := w, run := r } :=
  ⟨h.budget, h.logged, hcopy, fun v hv => { h.last v hv with }, h.reporting, h.early, h.running,
    h.sealed, h.delivered⟩

theorem workerStep_live (hP : Lawful P) (h : Live B s) {choice : WorkerChoice}
    (hstep : workerStep B s choice = some t) (hfresh : ¬ Stale s ∨ t.store = s.store) :
    Live B t := by
  have hrest : ∀ {r}, Live B { s with worker := .idle, run := r } :=
    h.work (by simp [WorkerPc.copy])
  unfold workerStep at hstep
  split at hstep
  · split at hstep
    · cases hstep
    · split at hstep <;> cases hstep
      · exact h.work (by simp [WorkerPc.copy])
      · exact h
  · split at hstep <;> cases hstep
    refine h.work ?_
    intro c hc
    cases hc
    exact h.budget
  · rename_i reason copy hw
    have hkeep : ∀ {r}, Live B { s with worker := .moved reason copy, run := r } := by
      intro r
      refine h.work ?_
      intro c hc
      cases hc
      exact h.copy copy (by rw [hw]; rfl)
    split at hstep
    · cases hstep
      exact hrest
    · split at hstep
      · split at hstep <;> cases hstep
        · exact hrest
        · exact hkeep
      · cases hstep
        exact hkeep
      · cases hstep
        exact hkeep
      · cases hstep
        exact hrest
      · cases hstep
        exact hrest
  · rename_i reason copy hw
    split at hstep
    · cases hstep
      exact hrest
    · split at hstep <;> cases hstep
      · exact hrest
      · refine h.work ?_
        intro c hc
        cases hc
        exact h.copy copy (by rw [hw]; rfl)
  · rename_i reason copy hw
    split at hstep
    · rename_i e stored happ
      cases hstep
      have ha := ContainmentLog.append_ok happ
      have hstored : stored = s.store ++ [e] := by
        rw [ha.stored_eq, ha.mapText_eq hP (runCall_normal hP (StopReason.name_ascii _))]
      subst hstored
      have hcounters : e.counters = copy := overrideCounters_all ha.counters
      have hle : Counters.Le (headOf s.store).previousCounters copy := by
        by_contra hnot
        exact hfresh.resolve_right (by simp) ⟨reason, copy, hw, hnot⟩
      have hcode : e.eventCode = .stopObserved :=
        Option.some.inj (ha.code.symm.trans (EventCode.ofName_name .stopObserved))
      refine h.append (m := s.main) (by rw [hcounters]; exact hle) ?_
        (by simp [WorkerPc.copy]) ?_ id
        ?_ (fun _ hv => hv)
      · rw [hcounters]
        exact h.copy copy (by rw [hw]; rfl)
      · intro k hk
        rw [hcounters, hcode]
        exact ⟨(h.reporting k hk).1.trans hle, by decide⟩
      · cases hm : s.main.ended with
        | true => exact Or.inl rfl
        | false => exact Or.inr rfl
    · cases hstep
      exact hrest
  · cases hstep

theorem elapsedMs_mono {monotonic : ℚ} (h : s.monotonic ≤ monotonic) (clockMs : Int) :
    s.elapsedMs ≤ State.elapsedMs { s with clockMs := clockMs, monotonic := monotonic } := by
  unfold State.elapsedMs
  dsimp only
  refine Int.floor_mono ?_
  gcongr

theorem Live.tick (h : Live B s) {clockMs : Int} {monotonic : ℚ} (hc : s.clockMs ≤ clockMs)
    (hm : s.monotonic ≤ monotonic) :
    Live B { s with clockMs := clockMs, monotonic := monotonic } where
  budget := h.budget
  logged := h.logged
  copy := h.copy
  last v hv :=
    { h.last v hv with
      time := (h.last v hv).time.trans hc
      wall := by
        have hwall := (h.last v hv).wall
        have helapsed := elapsedMs_mono hm clockMs
        unfold State.wallLeft at hwall ⊢
        omega }
  reporting := h.reporting
  early := h.early
  running := h.running
  sealed := h.sealed
  delivered := h.delivered

theorem Live.crash (h : Live B s) :
    Live B { s with main := .crashed, worker := .idle, context := false } := by
  have hidle : Live B { s with worker := .idle, run := s.run } := h.work (by simp [WorkerPc.copy])
  exact hidle.goto (by simp [MainPc.early]) (by simp [MainPc.settled]) (by simp) (Or.inl rfl) rfl

/-! ### A log that is no longer accepted -/

/-- Nothing is stored, sent or finalized from `s` to `t`. -/
def Frozen (s t : State) : Prop := t.store = s.store ∧ t.sent = s.sent ∧ t.finals = s.finals

theorem load_broken (h : ¬ Accepted P B.log.binding s.store) :
    ∃ r, B.log.load P s.store = .error r := by
  cases hl : B.log.load P s.store with
  | error r => exact ⟨r, rfl⟩
  | ok out => exact absurd (verifyContainmentChain_ok hl).2 h

theorem append_broken (h : ¬ Accepted P B.log.binding s.store) (clockMs : Int) (call : AppendCall) :
    ∃ r, B.log.append P clockMs s.store call = .error r := by
  cases ha : B.log.append P clockMs s.store call with
  | error r => exact ⟨r, rfl⟩
  | ok out =>
    obtain ⟨e, stored⟩ := out
    exact absurd (ContainmentLog.append_ok ha).accepted h

theorem logAppend_frozen (h : ¬ Accepted P B.log.binding s.store) (call : AppendCall)
    (next failed : MainPc) : Frozen s (s.logAppend B call next failed) := by
  obtain ⟨r, hr⟩ := append_broken h s.clockMs call
  simp [State.logAppend, hr, Frozen]

theorem mainStep_frozen (h : ¬ Accepted P B.log.binding s.store) {choice : MainChoice}
    (hstep : mainStep B s choice = some t) : Frozen s t := by
  have hunread : ∀ {events}, B.log.load P s.store ≠ .ok events := by
    intro events hload
    exact h (verifyContainmentChain_ok hload).2
  cases mainStep_move hstep with
  | logs call next failed c hlogs hc ht =>
    rw [ht]
    exact logAppend_frozen h call next failed
  | reports k events v m hs hload | projects e events hs hload | seals e events r v hs hload
  | saves v events hs hload => exact absurd hload hunread
  | rebuilds first rest hs hchoice hload => exact absurd hload hunread
  | stays | goes | activates | grants | answers | measures | accepts | resumes | recovers =>
    rename_i ht
    rw [ht]
    exact ⟨rfl, rfl, rfl⟩

theorem workerStep_quiet {choice : WorkerChoice} (hstep : workerStep B s choice = some t) :
    t.sent = s.sent ∧ t.finals = s.finals := by
  unfold workerStep at hstep
  split at hstep <;> (repeat' split at hstep) <;> cases hstep
  all_goals exact ⟨rfl, rfl⟩

theorem workerStep_frozen (h : ¬ Accepted P B.log.binding s.store) {choice : WorkerChoice}
    (hstep : workerStep B s choice = some t) : Frozen s t := by
  refine ⟨?_, workerStep_quiet hstep⟩
  obtain ⟨r, hload⟩ := load_broken h
  unfold workerStep at hstep
  split at hstep
  case h_5 reason copy hw =>
    obtain ⟨r, happ⟩ := append_broken h s.clockMs (runCall .stopObserved reason.name copy)
    simp only [happ] at hstep
    cases hstep
    rfl
  all_goals
    (repeat' split at hstep) <;> cases hstep <;> rfl

/-! ### Whole runs -/

/-- The condition on one step: taking a response in keeps the bytes read within what Cloud allows
the completed requests, and a run is only rebuilt from its log while no redaction was reported. -/
structure Accountable (B : Bundle P) (s : State) (i : Input) : Prop where
  bytes : i.choice = .main .proceed → ∀ k n r, s.main = .received k n r →
    s.counters.responseBytesRead + r.responseBytes ≤
      s.counters.requestsCompleted * B.budgets.maximumResponseBytes
  redactions : i.choice = .main .proceed → s.main = .recovering →
    ∀ v, s.sent.getLast? = some v → v.redactionCount ≤ 0

/-- What was delivered was news, and a log that is still accepted belongs to a live run. -/
structure DeliveryInv (B : Bundle P) (s : State) : Prop where
  delivered : AllNews P B.limits B.limits {} s.delivered
  live : Accepted P B.log.binding s.store → LogInv B s ∧ Live B s

theorem step_deliveryInv (hP : Lawful P) (hsign : B.log.signer.Correct P) (h : DeliveryInv B s)
    (hanswered : Answered s) {i : Input} (hi : Accountable B s i) (hstep : step B s i = some t) :
    DeliveryInv B t := by
  have hfrozen : ¬ Accepted P B.log.binding s.store → Frozen s t → DeliveryInv B t := by
    intro hbroken hf
    refine ⟨?_, fun hacc => absurd hacc (by rw [hf.1]; exact hbroken)⟩
    rw [State.delivered, hf.2.1, hf.2.2]
    exact h.delivered
  unfold step at hstep
  split at hstep
  · rename_i hclock
    unfold act at hstep
    by_cases hacc : Accepted P B.log.binding s.store
    · obtain ⟨hlog, hlive⟩ := h.live hacc
      have hlog : LogInv B { s with clockMs := i.clockMs, monotonic := i.monotonic } :=
        hlog.tick hclock.1
      have hlive : Live B { s with clockMs := i.clockMs, monotonic := i.monotonic } :=
        hlive.tick hclock.1 hclock.2.1
      split at hstep
      · rename_i choice hchoice
        have hmain : i.choice = .main .proceed ∨ choice ≠ .proceed := by
          by_cases hc : choice = .proceed
          · exact Or.inl (by rw [hchoice, hc])
          · exact Or.inr hc
        have ht : Live B t := by
          refine mainStep_live hP hsign hlog hanswered hlive hstep (fun hc => ?_) (fun hc => ?_)
          · exact hi.bytes (hmain.resolve_right (fun hn => hn hc))
          · exact hi.redactions (hmain.resolve_right (fun hn => hn hc))
        exact ⟨ht.delivered, fun _ => ⟨mainStep_logInv hP hsign hlog hanswered hstep, ht⟩⟩
      · have hquiet := workerStep_quiet hstep
        refine ⟨?_, fun hacc' => ?_⟩
        · rw [State.delivered, hquiet.1, hquiet.2]
          exact h.delivered
        · have hfresh := (workerStep_accepted_iff hP hsign hlog hstep).mp hacc'
          exact ⟨workerStep_logInv hP hsign hlog hstep hfresh,
            workerStep_live hP hlive hstep hfresh⟩
      · cases hstep
        exact ⟨h.delivered, fun _ => ⟨hlog.crash, hlive.crash⟩⟩
    · split at hstep
      · exact hfrozen hacc
          (mainStep_frozen (s := { s with clockMs := i.clockMs, monotonic := i.monotonic }) hacc
          hstep)
      · exact hfrozen hacc
          (workerStep_frozen (s := { s with clockMs := i.clockMs, monotonic := i.monotonic }) hacc
          hstep)
      · cases hstep
        exact hfrozen hacc ⟨rfl, rfl, rfl⟩
  · cases hstep

/-- Everything a run signs is accepted by Cloud in the order it was signed, whatever the stop
worker does and wherever the process dies, as long as every step is accountable. -/
theorem signed_projections_accepted (hP : Lawful P) (hsign : B.log.signer.Correct P) :
    ∀ s, ((race B).restrict (Accountable B)).Reachable s →
      AllNews P B.limits B.limits {} s.delivered := by
  intro s hs
  have hinv : DeliveryInv B s ∧ Answered s := by
    refine ((race B).restrict (Accountable B)).invariant
      (P := fun s => DeliveryInv B s ∧ Answered s) ?_ ?_ hs
    · intro s hinit
      refine ⟨?_, init_answered (B := B) hinit⟩
      have hlog : LogInv B s := init_logInv hinit
      obtain ⟨clockMs, monotonic, rfl⟩ := hinit
      have hmax := B.requests_range.1
      have hretries := B.retries_range.1
      have hspent : Spent B {} := ⟨by dsimp only; omega, hretries, by decide, by simp⟩
      refine ⟨trivial, fun _ => ⟨hlog, ?_⟩⟩
      exact
        { budget := hspent, logged := hspent, copy := by simp [WorkerPc.copy], last := by simp
          reporting := by simp, early := fun _ => rfl, running := Or.inl rfl
          sealed := by simp [MainPc.sealed], delivered := trivial }
    · intro s i t h hstep
      exact ⟨step_deliveryInv hP hsign h.1 h.2 hstep.2 hstep.1, step_answered h.2 hstep.1⟩
  exact hinv.1.delivered

/-! ### A run that reports, dies and is recovered -/

theorem operationalContainmentCodes_valid (events : List Event) :
    OperationalRun.validateContainmentCodes (operationalContainmentCodes events) = .ok () ∧
      (operationalContainmentCodes events).length ≤ 9 := by
  have hsub := List.filter_sublist (p := fun c => events.any fun e => e.eventCode = c)
    (l := [EventCode.actionCompleted, .actionRejected, .actionStarted, .admitted, .budgetExhausted,
      .dnsChanged, .redacted, .responseTruncated, .stopObserved])
  have hsorted : ([EventCode.actionCompleted, .actionRejected, .actionStarted, .admitted,
      .budgetExhausted, .dnsChanged, .redacted, .responseTruncated, .stopObserved].map
        EventCode.name).Pairwise (fun a b => a.toList < b.toList) := by decide
  have hall : ([EventCode.actionCompleted, .actionRejected, .actionStarted, .admitted,
      .budgetExhausted, .dnsChanged, .redacted, .responseTruncated, .stopObserved].all
        EventCode.operational) = true := by decide
  have hlen := hsub.length_le
  have hcodes : operationalContainmentCodes events = _ := rfl
  simp only [OperationalRun.validateContainmentCodes, contractSortedUnique, bind_ok, require_ok,
    exists_const, List.length_map]
  refine ⟨⟨⟨hlen.trans (by decide), hsorted.sublist (hsub.map _)⟩, ?_⟩, hlen⟩
  exact List.all_eq_true.mpr fun c hc => List.all_eq_true.mp hall c (hsub.subset hc)

theorem zeroDigest_isDigest : IsDigest zeroDigest := ⟨by decide, by decide⟩

/-- The projections of the sample bundle, whatever they report, are safe once it is in range. -/
theorem sampleProjection_safe (events : List Event) (p : Phase) (d : Option Disposition)
    (u : Timestamps) (c : RunCounters) (e : ErrorCategory) (r : StopReason)
    (hseq : 0 ≤ (events.getLast?.map Event.sequence).getD 0 ∧
      (events.getLast?.map Event.sequence).getD 0 ≤ Json.safeInt)
    (hd : (p = .terminal) ↔ d ≠ none)
    (hu : ∀ m ∈ u.updatedAtMs :: (u.events ++ [u.terminalAtMs]).reduceOption,
      0 ≤ m ∧ m ≤ Json.safeInt)
    (hut : validateTimestamps p u = .ok ())
    (hc : ∀ n ∈ c.values, 0 ≤ n ∧ n ≤ Json.safeInt) (hcc : validateRunCounters c = .ok ())
    (hr : 0 ≤ s.redactionCount ∧ s.redactionCount ≤ Json.safeInt) :
    OperationalRun.Safe samplePlatform
      { unsignedProjection sampleBundle s events with
        lifecyclePhase := p, executionDisposition := d, timestamps := u, counters := c
        errorCategory := e, stopReason := r } where
  ids x hx := by
    simp only [unsignedProjection, sampleBundle, sampleLog, List.mem_cons, List.not_mem_nil,
      or_false] at hx
    rcases hx with rfl | rfl | rfl | rfl | rfl | rfl | rfl
    all_goals exact sampleText (by decide) (by decide) (by decide)
  digests x hx := by
    simp only [unsignedProjection, sampleBundle, sampleLog, List.mem_cons, List.not_mem_nil,
      or_false, or_self] at hx
    rw [hx]
    exact zeroDigest_isDigest
  sequence := hseq
  disposition := hd
  times := hu
  timestamps := hut
  values := hc
  counters := hcc
  adapters x hx := by
    simp only [unsignedProjection, sampleBundle, List.mem_cons, List.not_mem_nil, or_false] at hx
    rw [hx]
    exact sampleText (by decide) (by decide) (by decide)
  adaptersSorted := by
    have hone : contractSortedUnique ["1"] = .ok () := by simp [contractSortedUnique]
    exact hone
  versions := by
    have hsize : byteSize (Json.dumps (.obj [("runner_version", .str "1"),
        ("engine_version", .str "1"), ("adapter_versions", .arr [.str "1"])])) ≤ 1300 := by
      decide +kernel
    exact hsize
  codes := (operationalContainmentCodes_valid events).1
  codesLength := (operationalContainmentCodes_valid events).2
  redaction := hr

def redactedResponse : Response := ⟨10, some 1, 1⟩

theorem completedCounters_inRange : Counters.InRange completedCounters :=
  ⟨fun f => by cases f <;> decide, by decide⟩

/-- The sample with its action completed and one redaction counted. -/
def redactedState (store : List Event) (main : MainPc) : State :=
  { sampleState store completedCounters main with redactionCount := 1 }

def reportedProjection (store : List Event) : OperationalRun :=
  { unsignedProjection sampleBundle (redactedState store (.reporting 0)) store with
    timestamps := ⟨some 1000, some 1000, 1000, none, none, none⟩
    counters := ⟨completedCounters, 19, 60000⟩ }

theorem Sampled.sequence {store : List Event} {c : Counters} (h : Sampled store c)
    (hne : store ≠ []) :
    (store.getLast?.map Event.sequence).getD 0 = (store.length : Int) - 1 :=
  lastSequence (B := sampleBundle) (s := sampleState store c .idle) h.accepted hne

theorem runningProjection_sample {store : List Event} (h : Sampled store completedCounters)
    (hne : store ≠ []) (hlen : store.length ≤ 100) :
    runningProjection sampleBundle (redactedState store (.reporting 0)) store =
      .ok (signed sampleBundle (reportedProjection store)) := by
  have hseq := h.sequence hne
  have hpos := List.length_pos_iff.mpr hne
  have helapsed : (redactedState store (.reporting 0)).elapsedMs = 0 := by
    simp [State.elapsedMs, redactedState, sampleState]
  have hsafe : (reportedProjection store).Safe samplePlatform :=
    sampleProjection_safe store .running none ⟨some 1000, some 1000, 1000, none, none, none⟩
      ⟨completedCounters, 19, 60000⟩ .none .none
      (by rw [hseq, Json.safeInt]; omega) (by simp) (by decide) (by decide) (by decide) (by decide)
      (by simp [redactedState, Json.safeInt])
  have heq : unsignedProjection sampleBundle (redactedState store (.reporting 0)) store =
      reportedProjection store := by
    simp only [reportedProjection, unsignedProjection, helapsed]
    rfl
  rw [runningProjection, heq]
  exact signProjection_succeeds samplePlatform_lawful sampleLog_safe hsafe

example : redactedResponse ≠ sampleResponse := by decide +kernel

theorem mainStep_report {k : Nat} {events : List Event} {v : OperationalRun}
    (hmain : s.main = .reporting k) (hload : B.log.load P s.store = .ok events)
    (hproj : runningProjection B s events = .ok v) :
    mainStep B s (.report none) =
        some { s with sent := s.sent ++ [v], main := .ready (k + 1) } := by
  simp only [mainStep, hmain, hload, hproj]

/-- A terminal projection within the policy goes on to be sealed. -/
theorem mainStep_project {ending : Ending} {r : LocalRun} {events : List Event} {v : OperationalRun}
    (hmain : s.main = .projecting ending) (hrun : s.run = some r)
    (hload : B.log.load P s.store = .ok events)
    (hterm : terminalProjection B s r ending events = .ok v) (hpolicy : withinPolicy B v = true) :
    mainStep B s .proceed = some { s with main := .sealing v } := by
  simp only [mainStep, hmain, hrun, hload, hterm, hpolicy, if_true]

theorem mainStep_save {v : OperationalRun} {events : List Event} (hmain : s.main = .saving v)
    (hfinals : s.finals = none) (hload : B.log.load P s.store = .ok events)
    (hmatch : summaryMatches events v = true) :
    mainStep B s .proceed = some { s with finals := some v, main := .terminating v } := by
  simp only [mainStep, hmain, hfinals, hload, hmatch, if_true]

/-- The sample run up to its first progress projection, which reports a redaction. -/
theorem sample_reported (guard : State → Input → Prop)
    (hguard : ∀ s c, (∀ k n r, s.main ≠ .received k n r) → s.main ≠ .recovering →
      guard s ⟨s.clockMs, s.monotonic, .main c⟩)
    (hreceived : ∀ s, s.main = .received 0 1 redactedResponse → s.counters.responseBytesRead = 0 →
      s.counters.requestsCompleted = 1 → guard s ⟨s.clockMs, s.monotonic, .main .proceed⟩) :
    ∃ store, Sampled store completedCounters ∧ store.length = 6 ∧
      lastCode store = some .actionCompleted ∧ ((race sampleBundle).restrict guard).Reachable
        { redactedState store (.ready 1) with
          sent := [signed sampleBundle (reportedProjection store)] } := by
  have hg : ∀ {s c}, (∀ k n r, s.main ≠ .received k n r) ∧ s.main ≠ .recovering →
      guard s ⟨s.clockMs, s.monotonic, .main c⟩ := fun h => hguard _ _ h.1 h.2
  obtain ⟨store, h, hlen, hlast, r⟩ := sample_started guard hguard
  have hne : store ≠ [] := by
    intro hnil
    simp [hnil] at hlen
  have r3 := guarded_main (c := .respond redactedResponse) r (hg (by simp [sampleState])) rfl
  have r4 := guarded_main (c := .proceed) r3 (hreceived _ rfl rfl rfl) rfl
  have r5 : ((race sampleBundle).restrict guard).Reachable (redactedState store (.redacting 0 1)) :=
    guarded_main (c := .proceed) r4 (hg (by simp)) rfl
  obtain ⟨e5, a5, -, h5⟩ := h.action hne (by omega) .redacted (d := completedCounters)
    (sampleText (x := "response_secret") (by decide) (by decide) (by decide))
    completedCounters_inRange (by decide)
  have r6 : ((race sampleBundle).restrict guard).Reachable
      (redactedState (store ++ [e5]) (.completing 0 1)) :=
    guarded_log r5 (hg (by simp [redactedState, sampleState])) rfl a5
  obtain ⟨e6, a6, hcode, h6⟩ := h5.action (by simp) (by simp; omega) .actionCompleted
    (d := completedCounters)
    (sampleText (x := "bounded_response") (by decide) (by decide) (by decide))
    completedCounters_inRange (Counters.Le.refl _)
  have r7 : ((race sampleBundle).restrict guard).Reachable
      (redactedState (store ++ [e5] ++ [e6]) (.reporting 0)) :=
    guarded_log r6 (hg (by simp [redactedState, sampleState])) rfl a6
  refine ⟨store ++ [e5] ++ [e6], h6, by simp [hlen], by simp [lastCode, hcode], ?_⟩
  have hproj := runningProjection_sample h6 (by simp) (by simp; omega)
  exact guarded_main (c := .report none) r7 (hg (by simp [redactedState, sampleState]))
    (mainStep_report rfl h6.load hproj)

/-- A run that reported a redaction and goes on. -/
theorem signed_projections_accepted_sample :
    ∃ s, ((race sampleBundle).restrict (Accountable sampleBundle)).Reachable s ∧
      s.delivered.length = 1 ∧
      AllNews samplePlatform sampleBundle.limits sampleBundle.limits {} s.delivered := by
  have hguard : ∀ s c, (∀ k n r, s.main ≠ .received k n r) → s.main ≠ .recovering →
      Accountable sampleBundle s ⟨s.clockMs, s.monotonic, .main c⟩ := by
    intro s c hreceived hrecovering
    exact ⟨fun _ k n r hm => absurd hm (hreceived k n r), fun _ hm => absurd hm hrecovering⟩
  have hbytes : ∀ s, s.main = .received 0 1 redactedResponse → s.counters.responseBytesRead = 0 →
      s.counters.requestsCompleted = 1 →
      Accountable sampleBundle s ⟨s.clockMs, s.monotonic, .main .proceed⟩ := by
    intro s hm hb hc
    refine ⟨fun _ k n r hm' => ?_, fun _ hm' => by simp [hm] at hm'⟩
    rw [hm] at hm'
    cases hm'
    rw [hb, hc]
    decide
  obtain ⟨store, -, -, -, r⟩ := sample_reported _ hguard hbytes
  refine ⟨_, r, rfl, ?_⟩
  exact signed_projections_accepted samplePlatform_lawful sampleLog_correct _ r

theorem accepted_sequence {b : ChainBinding} {store : List Event} (h : Accepted P b store) :
    ∀ (i : Nat) (e : Event), store[i]? = some e → e.sequence = i := by
  induction store using List.reverseRecOn with
  | nil => simp
  | append_singleton xs x ih =>
    rw [accepted_concat] at h
    intro i e hi
    by_cases hlt : i < xs.length
    · rw [List.getElem?_append_left hlt] at hi
      exact ih h.1 i e hi
    · have hbound := (List.getElem?_eq_some_iff.mp hi).1
      rw [List.length_append, List.length_singleton] at hbound
      obtain rfl : i = xs.length := by omega
      obtain rfl : x = e := by simpa using hi
      rw [validateEvent_sequence (verifyEvent_valid h.2), headOf_sequence]

theorem accepted_sequence_lt {b : ChainBinding} {store : List Event} (h : Accepted P b store)
    {e : Event}
    (he : e ∈ store) : e.sequence < store.length := by
  obtain ⟨i, hi⟩ := List.mem_iff_getElem?.mp he
  have := accepted_sequence h i e hi
  have := (List.getElem?_eq_some_iff.mp hi).1
  omega

/-- What `save_final_projections` finds when nothing but the closing event
follows `run_finalized`. -/
theorem summaryMatches_closing {b : ChainBinding} {store : List Event} {f g : Event}
    (h : Accepted P b (store ++ [f] ++ [g])) (hf : f.eventCode = .runFinalized)
    {v : OperationalRun} (hseq : v.eventSequence = store.length)
    (hdetail : some f.detailCode = v.executionDisposition.map Disposition.name)
    (hcounters : f.counters = v.counters.toCounters)
    (hcodes : v.containmentCodes = operationalContainmentCodes (store ++ [f])) :
    summaryMatches (store ++ [f] ++ [g]) v = true := by
  have hfront := ((accepted_concat P b _ _).mp h).1
  have hstore := ((accepted_concat P b _ _).mp hfront).1
  have hfs : f.sequence = store.length := by
    have := accepted_sequence hfront store.length f (by simp)
    simpa using this
  have hgs : g.sequence = store.length + 1 := by
    have := accepted_sequence h (store.length + 1) g (by simp)
    simpa using this
  have hnone : store.find? (fun e => decide (e.sequence = v.eventSequence)) = none := by
    rw [List.find?_eq_none]
    intro e he
    have := accepted_sequence_lt hstore he
    simp only [decide_eq_true_eq]
    omega
  have hfind : (store ++ [f] ++ [g]).find? (fun e => decide (e.sequence = v.eventSequence)) =
      some f := by
    rw [List.append_assoc, List.find?_append, hnone]
    simp [hfs, hseq]
  have hfilter : (store ++ [f] ++ [g]).filter (fun x => decide (x.sequence ≤ v.eventSequence)) =
      store ++ [f] := by
    rw [List.filter_append, List.filter_eq_self.mpr]
    · simp [hgs, hseq]
    · intro e he
      have := accepted_sequence_lt hfront he
      simp only [List.length_append, List.length_singleton, Nat.cast_add, Nat.cast_one] at this
      simp only [decide_eq_true_eq]
      omega
  simp only [summaryMatches, hfind, hfilter, hf, hdetail, hcounters, hcodes, true_and, decide_true]

/-- The sample while `recover` finalizes it, everything it knows read back from the log. -/
def recoveredState (store : List Event) (sent : List OperationalRun) (run : LocalState)
    (main : MainPc) : State where
  store := store
  run := some ⟨run, 1000⟩
  counters := completedCounters
  startedAtMs := 1000
  clockMs := 1000
  main := main
  sent := sent

def recoveredEnding : Ending := ⟨⟨.incomplete, .runnerFault, .none⟩, none, none⟩

def recoveredProjection (store : List Event) (sent : List OperationalRun) : OperationalRun :=
  { unsignedProjection sampleBundle
      (recoveredState store sent .finalizing (.projecting recoveredEnding)) store with
    lifecyclePhase := .terminal
    executionDisposition := some .incomplete
    timestamps := ⟨some 1000, some 1000, 1000, none, none, some 1000⟩
    counters := ⟨completedCounters, 19, 0⟩
    errorCategory := .runnerFault
    stopReason := .none }

theorem recoveredProjection_safe {store : List Event} {c : Counters} (h : Sampled store c)
    (hne : store ≠ [])
    (hlen : store.length ≤ 100) (sent : List OperationalRun) :
    (recoveredProjection store sent).Safe samplePlatform := by
  have hseq := h.sequence hne
  have hpos := List.length_pos_iff.mpr hne
  exact sampleProjection_safe store .terminal (some .incomplete)
    ⟨some 1000, some 1000, 1000, none, none, some 1000⟩
    ⟨completedCounters, 19, 0⟩ .runnerFault .none
    (by rw [hseq, Json.safeInt]; omega) (by simp) (by decide) (by decide) (by decide) (by decide)
    (by simp [recoveredState, Json.safeInt])

theorem terminalProjection_sample {store : List Event} {c : Counters} (h : Sampled store c)
    (hne : store ≠ [])
    (hlen : store.length ≤ 100) (sent : List OperationalRun) :
    terminalProjection sampleBundle
      (recoveredState store sent .finalizing (.projecting recoveredEnding))
      ⟨.finalizing, 1000⟩ recoveredEnding store =
      .ok (signed sampleBundle (recoveredProjection store sent)) := by
  have hsafe := recoveredProjection_safe h hne hlen sent
  exact signProjection_succeeds samplePlatform_lawful sampleLog_safe hsafe

/-- The process dies after the first progress projection; `recover` stores a terminal one. -/
theorem sample_recovered : ∃ (store : List Event) (s : State), (race sampleBundle).Reachable s ∧
    s.sent = [signed sampleBundle (reportedProjection store)] ∧
    ∃ closed sent, s.finals = some (signed sampleBundle (recoveredProjection closed sent)) := by
  obtain ⟨store, h, hlen, hlast, r0⟩ := sample_reported (fun _ _ => True)
    (fun _ _ _ _ => trivial) (fun _ _ _ _ => trivial)
  generalize hsent : [signed sampleBundle (reportedProjection store)] = sent at r0
  obtain ⟨first, rest, hcons⟩ : ∃ first rest, store = first :: rest := by
    cases hs : store with
    | nil => simp [hs] at hlen
    | cons first rest => exact ⟨first, rest, rfl⟩
  have hne : store ≠ [] := by simp [hcons]
  have hload := h.load
  have r1 : ((race sampleBundle).restrict fun _ _ => True).Reachable
      { redactedState store .crashed with sent := sent, context := false } := by
    refine .step (a := ⟨1000, 0, .crash⟩) r0 ⟨?_, trivial⟩
    simp [race, step, act, Choice.typed, redactedState, sampleState]
  have r2 := guarded_main (c := .recover) r1 trivial rfl
  have r3 : ((race sampleBundle).restrict fun _ _ => True).Reachable
      (recoveredState store sent .running (.finalizing recoveredEnding)) := by
    refine guarded_main (c := .proceed) r2 trivial ?_
    have hcounters := h.counters
    have htime := h.times first (by simp [hcons])
    simp only [mainStep, redactedState, sampleState, hload]
    rw [hcons] at hcounters ⊢
    simp only [hcounters, htime]
    rfl
  have r4 : ((race sampleBundle).restrict fun _ _ => True).Reachable
      (recoveredState store sent .finalizing (.closing recoveredEnding)) :=
    guarded_main (c := .proceed) r3 trivial rfl
  have r5 : ((race sampleBundle).restrict fun _ _ => True).Reachable
      (recoveredState store sent .finalizing (.closed recoveredEnding)) := by
    refine guarded_main (c := .proceed) r4 trivial ?_
    simp only [mainStep, recoveredState, hload, hlast]
    rfl
  obtain ⟨f, af, hf, hF⟩ := h.run hne (by omega) .runFinalized
    (sampleText (x := Disposition.incomplete.name) (by decide) (by decide) (by decide))
    completedCounters_inRange (Counters.Le.refl _)
  have r6 : ((race sampleBundle).restrict fun _ _ => True).Reachable
      (recoveredState (store ++ [f]) sent .finalizing (.projecting recoveredEnding)) := by
    refine guarded_main (c := .log) r5 trivial ?_
    simp only [mainStep, recoveredState]
    rw [logAppend_eq af]
  have hlen7 : (store ++ [f]).length = 7 := by simp [hlen]
  have hpolicy := withinPolicy_signed (B := sampleBundle) samplePlatform_lawful sampleLog_safe
    (recoveredProjection_safe hF (by simp) (by omega) sent) (by decide) rfl rfl
    (List.all_eq_true.mpr fun c hc => by simpa [sampleBundle] using (List.mem_filter.mp hc).1)
  have r7 : ((race sampleBundle).restrict fun _ _ => True).Reachable
      (recoveredState (store ++ [f]) sent .finalizing
        (.sealing (signed sampleBundle (recoveredProjection (store ++ [f]) sent)))) := by
    have hterm := terminalProjection_sample hF (by simp) (by omega) sent
    exact guarded_main (c := .proceed) r6 trivial (mainStep_project rfl rfl hF.load hterm hpolicy)
  obtain ⟨g, ag, -, hG⟩ := hF.run (by simp) (by omega) .localResultReady
    (sampleText (x := "safe_projection") (by decide) (by decide) (by decide))
    completedCounters_inRange (Counters.Le.refl _)
  have r8 : ((race sampleBundle).restrict fun _ _ => True).Reachable
      (recoveredState (store ++ [f] ++ [g]) sent .finalizing
        (.saving (signed sampleBundle (recoveredProjection (store ++ [f]) sent)))) := by
    refine guarded_main (c := .log) r7 trivial ?_
    simp only [mainStep, recoveredState]
    rw [logAppend_eq ag]
  have hmatch : summaryMatches (store ++ [f] ++ [g])
      (signed sampleBundle (recoveredProjection (store ++ [f]) sent)) = true := by
    have hloaded := ContainmentLog.append_ok af
    refine summaryMatches_closing hG.accepted hf ?_ ?_ ?_ rfl
    · have := hF.sequence (by simp)
      simp only [signed, recoveredProjection, unsignedProjection, this]
      omega
    · rw [hloaded.detail]
      rfl
    · exact overrideCounters_all hloaded.counters
  have r9 := guarded_main (c := .proceed) r8 trivial (mainStep_save rfl rfl hG.load hmatch)
  refine ⟨store, _, r9.of_restrict, hsent.symm, _, _, rfl⟩

/-- A redaction that was reported is gone from the terminal projection `recover` builds, which
Cloud then refuses as a regression. -/
theorem recovered_redaction_refused :
    ∃ s, (race sampleBundle).Reachable s ∧
      ¬ AllNews samplePlatform sampleBundle.limits sampleBundle.limits {} s.delivered := by
  obtain ⟨store, s, hs, hsent, closed, sent, hfinals⟩ := sample_recovered
  refine ⟨s, hs, ?_⟩
  intro hnews
  simp only [State.delivered, hsent, hfinals, Option.toList, List.cons_append, List.nil_append,
    AllNews] at hnews
  have hreg := counterRegression_iff.mp (noRegression_of_new hnews.2.1.new)
  have hredaction : (1 : Int) ≤ 0 := hreg.2.2.2
  exact absurd hredaction (by decide)

end Heel.Executor
