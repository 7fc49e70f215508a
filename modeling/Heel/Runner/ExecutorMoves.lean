import Heel.Runner.Executor

/-! What one step of the main thread of the executor does, said once: a move of control, an append
with the live counters, or one of the few steps that change something else. -/
namespace Heel.Executor
open Lib Lib.Checks Containment

variable {P : Platform} {B : Bundle P} {s t : State}

namespace MainPc

/-- Control points at which the run log may still be empty. -/
def fresh : MainPc → Bool
  | .idle | .verifying | .crashed | .recovering | .regranting | .done => true
  | _ => false

/-- Control points of a process that died, up to the point where it reads the log back. -/
def recovery : MainPc → Bool
  | .crashed | .recovering | .regranting => true
  | _ => false

/-- Control points of the loop over the actions that an exception leaves for the handler. -/
def inLoop : MainPc → Bool
  | .ready _ | .requesting .. | .received .. | .measured .. | .completing .. | .reporting _ => true
  | _ => false

def answer : MainPc → Option Response
  | .received _ _ r | .measured _ _ r => some r
  | _ => none

end MainPc

theorem Response.bytes_nonneg {r : Response} (h : r.isTargetResponse = true) :
    0 ≤ r.responseBytes :=
  (of_decide_eq_true h).1

theorem Response.redactions_nonneg {r : Response} (h : r.isTargetResponse = true) :
    0 ≤ r.redactionCount :=
  (of_decide_eq_true h).2.2.2.1

/-! ### Kinds of moves -/

inductive Goes : MainPc → MainPc → Prop
  | begins : Goes .idle .verifying
  | leaves (m : MainPc) : Goes m .done
  | finishes (k : Nat) (e : Ending) : Goes (.ready k) (.finalizing e)
  | exhausts (k attempts n : Nat) : Goes (.requesting k attempts) (.exhausted k attempts n)
  | rejects (k attempts : Nat) (code : FailureCode) (exc : Exc) :
    Goes (.requesting k attempts) (.rejecting k attempts code exc)
  | unlogged (k attempts : Nat) : Goes (.permitted k attempts) (.requesting k attempts)
  | unexhausted (k attempts n : Nat) : Goes (.exhausted k attempts n) (.requesting k attempts)
  | raises {m : MainPc} (h : m.inLoop = true) (exc : Exc) : Goes m (.handling exc)
  | advances (k : Nat) : Goes (.reporting k) (.ready (k + 1))
  | stops (exc : Exc) (e : Ending) : Goes (.handling exc) (.stopping e)
  | settles (exc : Exc) (e : Ending) : Goes (.handling exc) (.finalizing e)
  | stopped (e e' : Ending) : Goes (.stopping e) (.finalizing e')
  | closes (e : Ending) : Goes (.finalizing e) (.closing e)
  | unclosed (e : Ending) : Goes (.closing e) (.closed e)
  | resaves (v : OperationalRun) : Goes (.saving v) (.terminating v)
  | regrants : Goes .recovering .regranting

/-- The appends of the main thread: the call, and where control goes when it returns and when it
raises. -/
inductive Logs (B : Bundle P) (s : State) : AppendCall → MainPc → MainPc → Prop
  | verifies (hs : s.main = .verifying) : Logs B s
      { eventCode := EventCode.grantVerified.name, detailCode := "grant_exact" } .activating .done
  | starts (hs : s.main = .starting) :
    Logs B s (runCall .runStarted "locally_activated" s.counters) (.ready 0) .done
  | admits {k : Nat} {a : Action} (hs : s.main = .ready k) (ha : B.actions[k]? = some a) :
    Logs B s (actionCall a 1 .admitted "exact_action" s.counters) (.requesting k 0)
      (.handling .rejected)
  | records {k attempts : Nat} {a : Action} (hs : s.main = .permitted k attempts)
    (ha : B.actions[k]? = some a) :
    Logs B s (actionCall a attempts .actionStarted "target_read" s.counters)
      (.requesting k attempts) (.requesting k attempts)
  | exhausts {k attempts n : Nat} {a : Action} (hs : s.main = .exhausted k attempts n)
    (ha : B.actions[k]? = some a) :
    Logs B s (actionCall a n .budgetExhausted "budget_exhausted" s.counters)
      (.requesting k attempts) (.requesting k attempts)
  | rejects {k attempts : Nat} {code : FailureCode} {exc : Exc} {a : Action}
    (hs : s.main = .rejecting k attempts code exc) (ha : B.actions[k]? = some a) :
    Logs B s (actionCall a (max 1 attempts)
        (if code = .dnsChanged then .dnsChanged else .actionRejected) code.name s.counters)
      (.handling exc) (.handling .rejected)
  | redacts {k attempts : Nat} {a : Action} (hs : s.main = .redacting k attempts)
    (ha : B.actions[k]? = some a) :
    Logs B s (actionCall a attempts .redacted "response_secret" s.counters)
      (.completing k attempts) (.handling .rejected)
  | completes {k attempts : Nat} {a : Action} (hs : s.main = .completing k attempts)
    (ha : B.actions[k]? = some a) :
    Logs B s (actionCall a attempts .actionCompleted "bounded_response" s.counters)
      (.reporting k) (.handling .rejected)
  | regrants {exc : Exc} (hs : s.main = .handling exc) (e : Ending) :
    Logs B s (runCall .grantVerified "grant_exact" s.counters) (.finalizing e) .done
  | stops {e : Ending} (hs : s.main = .stopping e) :
    Logs B s (runCall .stopObserved e.outcome.stopReason.name s.counters) (.finalizing e)
      (.finalizing e.failed)
  | closes {e : Ending} (hs : s.main = .closed e) :
    Logs B s (runCall .runFinalized e.outcome.disposition.name s.counters) (.projecting e) .done
  | seals {v : OperationalRun} (hs : s.main = .sealing v) :
    Logs B s (runCall .localResultReady "safe_projection" s.counters) (.saving v) .done
  | recovers (hs : s.main = .regranting) : Logs B s
      { eventCode := EventCode.grantVerified.name, detailCode := "recovery_verified" }
      .recovering .done

/-- The state that grants an action its next attempt. -/
def granted (s : State) (k attempts : Nat) : State :=
  { s with
    main := .permitted k (attempts + 1)
    counters :=
      { s.counters with
        requestsStarted := s.counters.requestsStarted + 1
        actionsContained := s.counters.actionsContained + (if attempts = 0 then 1 else 0)
        retriesUsed := s.counters.retriesUsed + (if attempts = 0 then 0 else 1) } }

/-- What `before_attempt` grants: the first or the second attempt of an action, within
the budget. -/
structure Grants (B : Bundle P) (s : State) (attempts : Nat) : Prop where
  attempt : attempts + 1 ≤ 2
  requests : s.counters.requestsStarted < B.budgets.maximumRequests
  retries : attempts ≠ 0 → s.counters.retriesUsed < B.retryPolicy.maximumRetries

inductive MainMove (B : Bundle P) (s : State) (choice : MainChoice) (t : State) : Prop
  | stays (ht : t = s)
  | goes (m : MainPc) (r : Option LocalRun) (c : Bool) (h : Goes s.main m)
    (hc : c = false ∨ c = s.context) (ht : t = { s with main := m, run := r, context := c })
  | logs (call : AppendCall) (next failed : MainPc) (c : Bool) (h : Logs B s call next failed)
    (hc : s.main.fresh = true → c = (s.logAppend B call next failed).context)
    (ht : t = { s.logAppend B call next failed with context := c })
  | activates (r : LocalRun) (hs : s.main = .activating)
    (ht : t = { s with run := some r, startedAtMs := s.clockMs
                       startedMonotonic := s.monotonic, main := .starting })
  | grants (k attempts : Nat) (hs : s.main = .requesting k attempts) (h : Grants B s attempts)
    (ht : t = granted s k attempts)
  | answers (k attempts : Nat) (r : Response) (hs : s.main = .requesting k attempts)
    (hchoice : choice = .respond r) (hmade : r.requestsMade = some (attempts : Int))
    (ht : t = { s with
      main := .received k attempts r
      counters := { s.counters with requestsCompleted := s.counters.requestsCompleted + 1 } })
  | measures (k attempts : Nat) (r : Response) (hs : s.main = .received k attempts r)
    (hchoice : choice = .proceed)
    (ht : t = { s with
      main := .measured k attempts r
      counters := { s.counters with
        responseBytesRead := s.counters.responseBytesRead + r.responseBytes } })
  | accepts (k attempts : Nat) (r : Response) (m : MainPc) (hs : s.main = .measured k attempts r)
    (hm : m = .completing k attempts ∨ m = .redacting k attempts)
    (ht : t = { s with redactionCount := s.redactionCount + r.redactionCount, main := m })
  | reports (k : Nat) (events : List Event) (v : OperationalRun) (m : MainPc)
    (hs : s.main = .reporting k) (hload : B.log.load P s.store = .ok events)
    (hv : runningProjection B s events = .ok v)
    (hm : m = .ready (k + 1) ∨ ∃ exc, m = .handling exc)
    (ht : t = { s with sent := s.sent ++ [v], main := m })
  | projects (e : Ending) (events : List Event) (hs : s.main = .closing e)
    (hload : B.log.load P s.store = .ok events) (hlast : lastCode events = some .runFinalized)
    (ht : t = { s with main := .projecting e })
  | seals (e : Ending) (events : List Event) (r : LocalRun) (v : OperationalRun)
    (hs : s.main = .projecting e) (hload : B.log.load P s.store = .ok events)
    (hv : terminalProjection B s r e events = .ok v) (ht : t = { s with main := .sealing v })
  | saves (v : OperationalRun) (events : List Event) (hs : s.main = .saving v)
    (hload : B.log.load P s.store = .ok events) (hfinals : s.finals = none)
    (ht : t = { s with finals := some v, main := .terminating v })
  | resumes (v : OperationalRun) (hs : s.main = .crashed) (hfinals : s.finals = some v)
    (ht : t = { s with main := .terminating v })
  | recovers (hs : s.main = .crashed) (hfinals : s.finals = none)
    (ht : t = { s with main := .recovering })
  | rebuilds (first : Event) (rest : List Event) (hs : s.main = .recovering)
    (hchoice : choice = .proceed) (hload : B.log.load P s.store = .ok (first :: rest))
    (ht : t = { s with
      counters := (headOf (first :: rest)).previousCounters
      redactionCount := 0
      startedAtMs := first.occurredAtMs
      main := .finalizing ⟨⟨.incomplete, .runnerFault, .none⟩, none, none⟩ })

namespace MainMove

variable {choice : MainChoice}

theorem control {m : MainPc} {r : Option LocalRun} (h : Goes s.main m) :
    MainMove B s choice { s with main := m, run := r } :=
  .goes m r s.context h (.inr rfl) rfl

theorem leaves : MainMove B s choice s.leave :=
  .goes .done s.run false (.leaves _) (.inl rfl) rfl

theorem raises (h : s.main.inLoop = true) (exc : Exc) :
    MainMove B s choice { s with main := .handling exc } :=
  control (.raises h exc)

theorem append {call : AppendCall} {next failed : MainPc} (h : Logs B s call next failed) :
    MainMove B s choice (s.logAppend B call next failed) :=
  .logs call next failed _ h (fun _ => rfl) rfl

end MainMove

/-! ### One lemma for each control point -/

variable {choice : MainChoice}

theorem beforeAttempt_cases (k attempts : Nat) (n : Int) (previous : Option FailureCode)
    (gate : GateReading) :
    ((beforeAttempt B s k attempts n previous gate).1 = s ∧
      (beforeAttempt B s k attempts n previous gate).2 ≠ none) ∨
    beforeAttempt B s k attempts n previous gate =
      ({ s with main := .exhausted k attempts (attempts + 1) }, none) ∨
    Grants B s attempts ∧
      beforeAttempt B s k attempts n previous gate = (granted s k attempts, none) := by
  unfold beforeAttempt
  dsimp only
  split
  · exact .inl ⟨rfl, by simp⟩
  · exact .inl ⟨rfl, by simp⟩
  · exact .inl ⟨rfl, by simp⟩
  · rename_i deadline _ _ _
    by_cases hlate : deadline ≤ s.monotonic
    · rw [if_pos hlate]
      exact .inl ⟨rfl, by simp⟩
    · rw [if_neg hlate]
      by_cases hattempt : n ≠ attempts + 1 ∨ (n ≠ 1 ∧ n ≠ 2)
      · rw [if_pos hattempt]
        exact .inl ⟨rfl, by simp⟩
      · rw [if_neg hattempt]
        by_cases hfirst : n = 1 ∧ previous ≠ none
        · rw [if_pos hfirst]
          exact .inl ⟨rfl, by simp⟩
        · rw [if_neg hfirst]
          by_cases hretry : n ≠ 1 ∧ ¬ previous.any (B.retryPolicy.retryableFailureCodes.contains ·)
          · rw [if_pos hretry]
            exact .inl ⟨rfl, by simp⟩
          · rw [if_neg hretry]
            by_cases hbudget : B.budgets.wallTimeoutMs ≤ s.elapsedMs ∨
                B.budgets.maximumRequests ≤ s.counters.requestsStarted ∨
                (decide (n ≠ 1) = true ∧ B.retryPolicy.maximumRetries ≤ s.counters.retriesUsed)
            · rw [if_pos hbudget]
              exact .inr (.inl rfl)
            · rw [if_neg hbudget]
              have hzero : n = 1 ↔ attempts = 0 := by omega
              refine .inr (.inr ⟨⟨by omega, by omega, fun hne => ?_⟩, ?_⟩)
              · simp only [decide_eq_true_eq] at hbudget
                omega
              · by_cases hn : attempts = 0 <;> simp [granted, hzero, hn]

theorem idle_move (hs : s.main = .idle) (h : mainStep B s choice = some t) :
    MainMove B s choice t := by
  unfold mainStep at h
  rw [hs] at h
  cases choice
  case begin knownStop reserved =>
    dsimp only at h
    split at h
    · split at h <;> cases h
      · exact .leaves
      · exact .control (hs ▸ .begins)
    · cases h
  all_goals cases h

theorem verifying_move (hs : s.main = .verifying) (h : mainStep B s choice = some t) :
    MainMove B s choice t := by
  unfold mainStep at h
  rw [hs] at h
  cases choice
  case log =>
    cases h
    exact .append (.verifies hs)
  all_goals cases h

theorem activating_move (hs : s.main = .activating) (h : mainStep B s choice = some t) :
    MainMove B s choice t := by
  unfold mainStep at h
  rw [hs] at h
  cases choice
  case proceed =>
    dsimp only at h
    split at h
    · cases h
    · split at h <;> cases h
      · exact .leaves
      · exact .activates _ hs rfl
  all_goals cases h

theorem starting_move (hs : s.main = .starting) (h : mainStep B s choice = some t) :
    MainMove B s choice t := by
  unfold mainStep at h
  rw [hs] at h
  cases choice
  case log =>
    cases h
    exact .logs _ _ _ _ (.starts hs) (fun hfresh => by rw [hs] at hfresh; cases hfresh) rfl
  all_goals cases h

theorem ready_move {k : Nat} (hs : s.main = .ready k)
    (h : mainStep B s choice = some t) : MainMove B s choice t := by
  unfold mainStep at h
  rw [hs] at h
  cases choice
  case fail exc =>
    cases h
    exact .raises (by rw [hs]; rfl) exc
  case log =>
    dsimp only at h
    split at h <;> cases h
    rename_i ha
    exact .append (.admits hs ha)
  case proceed =>
    dsimp only at h
    split at h <;> cases h
    exact .control (hs ▸ .finishes k _)
  all_goals cases h

theorem requesting_move {k attempts : Nat} (hs : s.main = .requesting k attempts)
    (h : mainStep B s choice = some t) : MainMove B s choice t := by
  unfold mainStep at h
  rw [hs] at h
  cases choice
  case attempt n previous gate =>
    cases h
    rcases beforeAttempt_cases (B := B) (s := s) k attempts n previous gate with
      ⟨hsame, -⟩ | hout | ⟨hgrants, hout⟩
    · exact .stays hsame
    · rw [hout]
      exact .control (hs ▸ .exhausts k attempts _)
    · rw [hout]
      exact .grants k attempts hs hgrants rfl
  case fail exc =>
    dsimp only at h
    split at h <;> cases h
    · exact .control (hs ▸ .rejects k attempts _ _)
    · exact .raises (by rw [hs]; rfl) exc
  case respond r =>
    dsimp only at h
    split at h <;> cases h
    · exact .raises (by rw [hs]; rfl) _
    · rename_i hmade
      exact .answers k attempts r hs rfl (not_not.mp hmade) rfl
  case unreadable exc =>
    cases h
    exact .raises (by rw [hs]; rfl) exc
  all_goals cases h

theorem permitted_move {k attempts : Nat} (hs : s.main = .permitted k attempts)
    (h : mainStep B s choice = some t) : MainMove B s choice t := by
  unfold mainStep at h
  rw [hs] at h
  cases choice
  case log =>
    dsimp only at h
    split at h <;> cases h
    rename_i ha
    exact .append (.records hs ha)
  case fail exc =>
    cases h
    exact .control (hs ▸ .unlogged k attempts)
  all_goals cases h

theorem exhausted_move {k attempts n : Nat} (hs : s.main = .exhausted k attempts n)
    (h : mainStep B s choice = some t) : MainMove B s choice t := by
  unfold mainStep at h
  rw [hs] at h
  cases choice
  case log =>
    dsimp only at h
    split at h <;> cases h
    rename_i ha
    exact .append (.exhausts hs ha)
  case fail exc =>
    cases h
    exact .control (hs ▸ .unexhausted k attempts n)
  all_goals cases h

theorem rejecting_move {k attempts : Nat} {code : FailureCode} {exc : Exc}
    (hs : s.main = .rejecting k attempts code exc) (h : mainStep B s choice = some t) :
    MainMove B s choice t := by
  unfold mainStep at h
  rw [hs] at h
  cases choice
  case log =>
    dsimp only at h
    split at h <;> cases h
    rename_i ha
    exact .append (.rejects hs ha)
  all_goals cases h

theorem received_move {k attempts : Nat} {r : Response} (hs : s.main = .received k attempts r)
    (h : mainStep B s choice = some t) : MainMove B s choice t := by
  unfold mainStep at h
  rw [hs] at h
  cases choice
  case proceed =>
    cases h
    exact .measures k attempts r hs rfl rfl
  case unreadable exc =>
    cases h
    exact .raises (by rw [hs]; rfl) exc
  all_goals cases h

theorem measured_move {k attempts : Nat} {r : Response} (hs : s.main = .measured k attempts r)
    (h : mainStep B s choice = some t) : MainMove B s choice t := by
  unfold mainStep at h
  rw [hs] at h
  cases choice
  case proceed =>
    dsimp only at h
    split at h <;> cases h
    · refine .accepts k attempts r _ hs ?_ rfl
      split
      · exact .inl rfl
      · exact .inr rfl
    · exact .raises (by rw [hs]; rfl) _
  case unreadable exc =>
    cases h
    exact .raises (by rw [hs]; rfl) exc
  all_goals cases h

theorem redacting_move {k attempts : Nat} (hs : s.main = .redacting k attempts)
    (h : mainStep B s choice = some t) : MainMove B s choice t := by
  unfold mainStep at h
  rw [hs] at h
  cases choice
  case log =>
    dsimp only at h
    split at h <;> cases h
    rename_i ha
    exact .append (.redacts hs ha)
  all_goals cases h

theorem completing_move {k attempts : Nat} (hs : s.main = .completing k attempts)
    (h : mainStep B s choice = some t) : MainMove B s choice t := by
  unfold mainStep at h
  rw [hs] at h
  cases choice
  case log =>
    dsimp only at h
    split at h <;> cases h
    rename_i ha
    exact .append (.completes hs ha)
  case unreadable exc =>
    cases h
    exact .raises (by rw [hs]; rfl) exc
  all_goals cases h

theorem reporting_move {k : Nat} (hs : s.main = .reporting k)
    (h : mainStep B s choice = some t) : MainMove B s choice t := by
  unfold mainStep at h
  rw [hs] at h
  cases choice
  case proceed =>
    cases h
    exact .control (hs ▸ .advances k)
  case report raised =>
    dsimp only at h
    split at h
    · cases h
      exact .raises (by rw [hs]; rfl) _
    · rename_i events hload
      split at h
      · cases h
        exact .raises (by rw [hs]; rfl) _
      · rename_i v hv
        split at h <;> cases h
        · exact .reports k events v _ hs hload hv (.inl rfl) rfl
        · exact .reports k events v _ hs hload hv (.inr ⟨_, rfl⟩) rfl
  all_goals cases h

theorem handled_move {exc : Exc} (hs : s.main = .handling exc) (e : Ending) :
    MainMove B s choice (handled B s e) := by
  unfold handled
  split
  · split
    · exact .control (.leaves _)
    · exact .append (.regrants hs e)
    · exact .control (hs ▸ .settles exc e)
  · exact .control (hs ▸ .settles exc e)

theorem handling_move {exc : Exc} (hs : s.main = .handling exc)
    (h : mainStep B s choice = some t) : MainMove B s choice t := by
  unfold mainStep at h
  rw [hs] at h
  cases choice
  case handle requested acknowledged =>
    dsimp only at h
    split at h
    · split at h
      · split at h
        · split at h <;> cases h
          · exact .control (hs ▸ .stops exc _)
          · exact .control (hs ▸ .settles exc _)
        · cases h
          exact .control (hs ▸ .stops exc _)
      · cases h
    · cases h
      exact handled_move hs _
  all_goals cases h

theorem stopping_move {e : Ending} (hs : s.main = .stopping e)
    (h : mainStep B s choice = some t) : MainMove B s choice t := by
  unfold mainStep at h
  rw [hs] at h
  cases choice
  case log =>
    dsimp only at h
    split at h
    · cases h
      exact .control (hs ▸ .stopped e _)
    · split at h <;> cases h
      · exact .control (hs ▸ .stopped e _)
      · exact .append (.stops hs)
  all_goals cases h

theorem finalizing_move {e : Ending} (hs : s.main = .finalizing e)
    (h : mainStep B s choice = some t) : MainMove B s choice t := by
  unfold mainStep at h
  rw [hs] at h
  cases choice
  case proceed =>
    dsimp only at h
    split at h
    · cases h
      exact .leaves
    · split at h
      · cases h
        exact .control (hs ▸ .closes e)
      · split at h <;> cases h
        · exact .leaves
        · exact .control (hs ▸ .closes e)
  all_goals cases h

theorem closing_move {e : Ending} (hs : s.main = .closing e)
    (h : mainStep B s choice = some t) : MainMove B s choice t := by
  unfold mainStep at h
  rw [hs] at h
  cases choice
  case proceed =>
    dsimp only at h
    split at h
    · cases h
      exact .leaves
    · rename_i events hload
      split at h <;> cases h
      · rename_i hlast
        exact .projects e events hs hload hlast rfl
      · exact .control (hs ▸ .unclosed e)
  all_goals cases h

theorem closed_move {e : Ending} (hs : s.main = .closed e)
    (h : mainStep B s choice = some t) : MainMove B s choice t := by
  unfold mainStep at h
  rw [hs] at h
  cases choice
  case log =>
    cases h
    exact .logs _ _ _ _ (.closes hs) (fun hfresh => by rw [hs] at hfresh; cases hfresh) rfl
  all_goals cases h

theorem projecting_move {e : Ending} (hs : s.main = .projecting e)
    (h : mainStep B s choice = some t) : MainMove B s choice t := by
  unfold mainStep at h
  rw [hs] at h
  cases choice
  case fail exc =>
    cases h
    exact .leaves
  case proceed =>
    dsimp only at h
    split at h
    · rename_i events r hload _
      split at h
      · cases h
        exact .leaves
      · rename_i v hv
        split at h <;> cases h
        · exact .seals e events r v hs hload hv rfl
        · exact .leaves
    · cases h
      exact .leaves
  all_goals cases h

theorem sealing_move {v : OperationalRun} (hs : s.main = .sealing v)
    (h : mainStep B s choice = some t) : MainMove B s choice t := by
  unfold mainStep at h
  rw [hs] at h
  cases choice
  case log =>
    cases h
    exact .logs _ _ _ _ (.seals hs) (fun hfresh => by rw [hs] at hfresh; cases hfresh) rfl
  all_goals cases h

theorem saving_move {v : OperationalRun} (hs : s.main = .saving v)
    (h : mainStep B s choice = some t) : MainMove B s choice t := by
  unfold mainStep at h
  rw [hs] at h
  cases choice
  case proceed =>
    dsimp only at h
    split at h
    · rename_i events hload hfinals
      split at h <;> cases h
      · exact .saves v events hs hload hfinals rfl
      · exact .leaves
    · split at h <;> cases h
      · exact .control (hs ▸ .resaves v)
      · exact .leaves
    · cases h
      exact .leaves
  all_goals cases h

theorem terminating_move {v : OperationalRun} (hs : s.main = .terminating v)
    (h : mainStep B s choice = some t) : MainMove B s choice t := by
  unfold mainStep at h
  rw [hs] at h
  cases choice
  case proceed =>
    dsimp only at h
    split at h
    · split at h <;> cases h
      · exact .leaves
      · exact .goes .done _ false (.leaves _) (.inl rfl) rfl
    · cases h
      exact .leaves
  all_goals cases h

theorem crashed_move (hs : s.main = .crashed) (h : mainStep B s choice = some t) :
    MainMove B s choice t := by
  unfold mainStep at h
  rw [hs] at h
  cases choice
  case recover =>
    dsimp only at h
    split at h
    · cases h
    · rename_i v _ hfinals
      cases h
      exact .resumes v hs hfinals rfl
    · rename_i hfinals
      cases h
      exact .recovers hs hfinals rfl
  all_goals cases h

theorem recovering_move (hs : s.main = .recovering) (h : mainStep B s choice = some t) :
    MainMove B s choice t := by
  unfold mainStep at h
  rw [hs] at h
  cases choice
  case proceed =>
    dsimp only at h
    split at h
    · cases h
      exact .leaves
    · cases h
      exact .control (hs ▸ .regrants)
    · rename_i first rest hload
      cases h
      exact .rebuilds first rest hs rfl hload rfl
  all_goals cases h

theorem regranting_move (hs : s.main = .regranting) (h : mainStep B s choice = some t) :
    MainMove B s choice t := by
  unfold mainStep at h
  rw [hs] at h
  cases choice
  case log =>
    cases h
    exact .append (.recovers hs)
  all_goals cases h

theorem done_move (hs : s.main = .done) (h : mainStep B s choice = some t) :
    MainMove B s choice t := by
  unfold mainStep at h
  rw [hs] at h
  cases choice <;> cases h

theorem mainStep_move (h : mainStep B s choice = some t) : MainMove B s choice t := by
  cases hs : s.main with
  | idle => exact idle_move hs h
  | verifying => exact verifying_move hs h
  | activating => exact activating_move hs h
  | starting => exact starting_move hs h
  | ready k => exact ready_move hs h
  | requesting k attempts => exact requesting_move hs h
  | permitted k attempts => exact permitted_move hs h
  | exhausted k attempts n => exact exhausted_move hs h
  | rejecting k attempts code exc => exact rejecting_move hs h
  | received k attempts r => exact received_move hs h
  | measured k attempts r => exact measured_move hs h
  | redacting k attempts => exact redacting_move hs h
  | completing k attempts => exact completing_move hs h
  | reporting k => exact reporting_move hs h
  | handling exc => exact handling_move hs h
  | stopping e => exact stopping_move hs h
  | finalizing e => exact finalizing_move hs h
  | closing e => exact closing_move hs h
  | closed e => exact closed_move hs h
  | projecting e => exact projecting_move hs h
  | sealing v => exact sealing_move hs h
  | saving v => exact saving_move hs h
  | terminating v => exact terminating_move hs h
  | crashed => exact crashed_move hs h
  | recovering => exact recovering_move hs h
  | regranting => exact regranting_move hs h
  | done => exact done_move hs h

/-! ### The answer in hand -/

/-- The answer in hand is a `TargetResponse`. -/
def Answered (s : State) : Prop := ∀ r, s.main.answer = some r → r.isTargetResponse = true

theorem Answered.of_none (h : s.main.answer = none) : Answered s := by
  intro r hr
  rw [h] at hr
  cases hr

theorem Goes.answer {m m' : MainPc} (h : Goes m m') : m'.answer = none := by
  cases h <;> rfl

theorem Logs.answer {call : AppendCall} {next failed : MainPc} (h : Logs B s call next failed) :
    next.answer = none ∧ failed.answer = none := by
  cases h <;> exact ⟨rfl, rfl⟩

theorem logAppend_main (call : AppendCall) (next failed : MainPc) :
    (s.logAppend B call next failed).main = next ∨
      (s.logAppend B call next failed).main = failed := by
  unfold State.logAppend
  split
  · exact Or.inl rfl
  · exact Or.inr rfl

theorem mainStep_answered (h : Answered s) (htyped : Choice.typed (.main choice) = true)
    (hstep : mainStep B s choice = some t) : Answered t := by
  cases mainStep_move hstep with
  | stays ht =>
    rw [ht]
    exact h
  | goes m r c hgoes hc ht =>
    rw [ht]
    exact .of_none hgoes.answer
  | logs call next failed c hlogs hc ht =>
    rw [ht]
    refine .of_none ?_
    rcases logAppend_main (B := B) (s := s) call next failed with hm | hm
    · dsimp only
      rw [hm]
      exact hlogs.answer.1
    · dsimp only
      rw [hm]
      exact hlogs.answer.2
  | answers k attempts r hs hchoice hmade ht =>
    intro r' hr'
    rw [ht] at hr'
    cases hr'
    rw [hchoice] at htyped
    exact htyped
  | measures k attempts r hs hchoice ht =>
    intro r' hr'
    rw [ht] at hr'
    cases hr'
    exact h r (by rw [hs]; rfl)
  | accepts k attempts r m hs hm ht =>
    rw [ht]
    obtain rfl | rfl := hm <;> exact .of_none rfl
  | reports k events v m hs hload hv hm ht =>
    rw [ht]
    obtain rfl | ⟨exc, rfl⟩ := hm <;> exact .of_none rfl
  | activates | grants | projects | seals | saves | resumes | recovers | rebuilds =>
    rename_i ht
    rw [ht]
    exact .of_none rfl

theorem workerStep_main {choice : WorkerChoice} (h : workerStep B s choice = some t) :
    t.main = s.main := by
  unfold workerStep at h
  split at h <;> (repeat' split at h) <;> cases h <;> rfl

/-- The answer in hand stays a `TargetResponse` in every step that the transport answers so. -/
theorem step_answered (h : Answered s) {i : Input} (hstep : step B s i = some t) : Answered t := by
  unfold step at hstep
  split at hstep
  · rename_i hclock
    have hnow : Answered { s with clockMs := i.clockMs, monotonic := i.monotonic } := h
    unfold act at hstep
    split at hstep
    · rename_i choice hchoice
      exact mainStep_answered hnow (hchoice ▸ hclock.2.2) hstep
    · intro r hr
      rw [workerStep_main hstep] at hr
      exact hnow r hr
    · cases hstep
      exact .of_none rfl
  · cases hstep

end Heel.Executor
