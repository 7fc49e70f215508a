import Heel.Runner.StopRace

/-! The budget of a run: what `before_attempt` grants to a transport that calls it as it likes and
answers what it likes. -/
namespace Heel.Executor
open Lib Lib.Checks Containment
variable {P : Platform} {B : Bundle P} {s t : State}

/-! ### Runs with their account -/

/-- A call of `before_attempt` that raised: the counters it found, those it left, and whether its
attempt had been granted when its log call raised. -/
structure RaisedCall where
  found : Counters
  left : Counters
  granted : Bool
  deriving DecidableEq, Repr

/-- A run of `execute`, the attempts it granted (by action), the permits it handed out and the calls
that raised. -/
structure Spending where
  run : State
  grants : List (Nat × Nat) := []
  permits : Nat := 0
  /-- what the call in the budget section found -/
  found : Counters := {}
  raised : List RaisedCall := []

/-- The account of a step of the main thread. -/
def Spending.advance (x : Spending) (t : State) : Spending :=
  match x.run.main, t.main with
  | .requesting _ _, .permitted k n =>
    { x with run := t, grants := x.grants ++ [(k, n)], found := x.run.counters }
  | .requesting _ _, .exhausted _ _ _ => { x with run := t, found := x.run.counters }
  -- the gate refuses
  | .requesting _ _, .requesting _ _ =>
    { x with run := t, raised := x.raised ++ [⟨x.run.counters, t.counters, false⟩] }
  -- the budget refuses, whether or not that is logged
  | .exhausted _ _ _, .requesting _ _ =>
    { x with run := t, raised := x.raised ++ [⟨x.found, t.counters, false⟩] }
  -- a permit is handed out when its start is on the log
  | .permitted _ _, .requesting _ _ =>
    if x.run.store.length < t.store.length then { x with run := t, permits := x.permits + 1 }
    else { x with run := t, raised := x.raised ++ [⟨x.found, t.counters, true⟩] }
  | _, _ => { x with run := t }

/-- Every run of `execute` up to the end of the process, whatever the transport, the gate, the stop
worker and the clocks do. -/
def spending (B : Bundle P) : Transition Spending Input where
  init x := ∃ clockMs monotonic, x = { run := { clockMs := clockMs, monotonic := monotonic } }
  step x i y := ∃ t, act B x.run i = some t ∧
    match i.choice with
    | .main _ => y = x.advance t
    | .worker _ => y = { x with run := t }
    | .crash => False

/-- The attempts that an action was granted. -/
def Spending.granted (x : Spending) (k : Nat) : List Nat :=
  (x.grants.filter (·.1 = k)).map (·.2)

/-- No answer counts no request for an action that was granted no attempt. -/
def Counted (s : State) (i : Input) : Prop :=
  ∀ k r, s.main = .requesting k 0 → i.choice = .main (.respond r) → r.requestsMade ≠ some 0

/-- The log call of a granted attempt is made and returns. -/
def Recorded (B : Bundle P) (s : State) (i : Input) : Prop :=
  ∀ k n choice, s.main = .permitted k n → i.choice = .main choice →
    choice = .log ∧ ∀ a, B.actions[k]? = some a →
      (B.log.append P i.clockMs s.store
        (actionCall a n .actionStarted "target_read" s.counters)).isOk = true

/-! ### What a step spends -/

/-- The `action_started` events of a log. -/
def startedEvents (store : List Event) : Nat :=
  (store.filter fun e => e.eventCode = .actionStarted).length

theorem startedEvents_append {store : List Event} {e : Event} : startedEvents (store ++ [e]) =
    startedEvents store + if e.eventCode = .actionStarted then 1 else 0 := by
  unfold startedEvents
  by_cases h : e.eventCode = .actionStarted <;> simp [h]

theorem append_code (code : EventCode) {clockMs : Int} {store : List Event} {call : AppendCall}
    {e : Event} {stored : List Event} (hcode : call.eventCode = code.name)
    (h : B.log.append P clockMs store call = .ok (e, stored)) :
    ∃ e', stored = store ++ [e'] ∧ e'.eventCode = code := by
  have ha := ContainmentLog.append_ok h
  refine ⟨_, ha.stored_eq, ?_⟩
  have := ha.code
  rw [hcode, EventCode.ofName_name] at this
  exact (Option.some.inj this).symm

namespace MainPc

/-- The action in the transport's hands, with its `action_attempts[0]`. -/
def inHand : MainPc → Option (Nat × Nat)
  | .requesting k attempts | .permitted k attempts | .exhausted k attempts _ => some (k, attempts)
  | _ => none

/-- No action from here on was in the transport's hands; `none` once the loop is left. -/
def ahead : MainPc → Option Nat
  | .idle | .verifying | .activating | .starting => some 0
  | .ready k => some k
  | .requesting k _ | .permitted k _ | .exhausted k _ _ | .rejecting k _ _ _ | .received k _ _
  | .measured k _ _ | .redacting k _ | .completing k _ | .reporting k => some (k + 1)
  | _ => none

end MainPc

structure Onward (m m' : MainPc) : Prop where
  inHand : ∀ h, m'.inHand = some h → m.inHand = some h
  ahead : ∀ b, m'.ahead = some b → ∃ b', m.ahead = some b' ∧ b' ≤ b
  recovery : m'.recovery = false

theorem Onward.refl {m : MainPc} (h : m.recovery = false) : Onward m m where
  inHand _ h := h
  ahead b h := ⟨b, h, le_rfl⟩
  recovery := h

theorem Onward.out {m m' : MainPc} (hhand : m'.inHand = none) (hahead : m'.ahead = none)
    (hrec : m'.recovery = false) : Onward m m' where
  inHand h hh := by rw [hhand] at hh; cases hh
  ahead b hb := by rw [hahead] at hb; cases hb
  recovery := hrec

theorem Onward.on {m m' : MainPc} {b b' : Nat} (hm : m.ahead = some b) (hm' : m'.ahead = some b')
    (hle : b ≤ b') (hhand : m'.inHand = none ∨ m'.inHand = m.inHand) (hrec : m'.recovery = false) :
    Onward m m' where
  inHand h hh := by
    rcases hhand with hnone | hsame
    · rw [hnone] at hh
      cases hh
    · exact hsame ▸ hh
  ahead c hc := ⟨b, hm, by rw [hm'] at hc; cases hc; exact hle⟩
  recovery := hrec

theorem Goes.onward {m m' : MainPc} (h : Goes m m') (hrec : m.recovery = false) : Onward m m' := by
  cases h with
  | regrants => cases hrec
  | begins | advances => exact .on rfl rfl le_rfl (.inl rfl) rfl
  | exhausts | unlogged | unexhausted => exact .on rfl rfl le_rfl (.inr rfl) rfl
  | rejects => exact .on rfl rfl le_rfl (.inl rfl) rfl
  | leaves | finishes | raises | stops | settles | stopped | closes | unclosed | resaves =>
    exact .out rfl rfl rfl

theorem Logs.onward {call : AppendCall} {next failed : MainPc} (h : Logs B s call next failed)
    (hrec : s.main.recovery = false) :
    Onward s.main next ∨ ∃ k, s.main = .ready k ∧ next = .requesting k 0 := by
  cases h with
  | admits hs ha => exact .inr ⟨_, hs, rfl⟩
  | recovers hs =>
    rw [hs] at hrec
    cases hrec
  | verifies hs | starts hs | redacts hs | completes hs =>
    rw [hs]
    exact .inl (.on rfl rfl le_rfl (.inl rfl) rfl)
  | records hs | exhausts hs =>
    rw [hs]
    exact .inl (.on rfl rfl le_rfl (.inr rfl) rfl)
  | rejects | regrants | stops | closes | seals => exact .inl (.out rfl rfl rfl)

theorem Logs.failed_onward {call : AppendCall} {next failed : MainPc}
    (h : Logs B s call next failed) : Onward s.main failed := by
  cases h with
  | records hs | exhausts hs =>
    rw [hs]
    exact .on rfl rfl le_rfl (.inr rfl) rfl
  | _ => exact .out rfl rfl rfl

/-- The counters that `before_attempt` keeps. -/
structure SameSpent (c d : Counters) : Prop where
  started : d.requestsStarted = c.requestsStarted
  contained : d.actionsContained = c.actionsContained
  retries : d.retriesUsed = c.retriesUsed

theorem SameSpent.refl (c : Counters) : SameSpent c c := ⟨rfl, rfl, rfl⟩

theorem logAppend_counters (call : AppendCall) (next failed : MainPc) :
    (s.logAppend B call next failed).counters = s.counters := by
  unfold State.logAppend
  split <;> rfl

/-- An append of another event than a start, whichever way it went. -/
theorem logAppend_started (call : AppendCall) (code : EventCode)
    (hcode : call.eventCode = code.name) (hne : code ≠ .actionStarted) (next failed : MainPc) :
    startedEvents (s.logAppend B call next failed).store = startedEvents s.store := by
  unfold State.logAppend
  split
  · rename_i e stored happ
    obtain ⟨e', rfl, rfl⟩ := append_code code hcode happ
    rw [startedEvents_append, if_neg hne, Nat.add_zero]
  · rfl

/-! ### The account of a run -/

variable {x y : Spending}

/-- What the account of a run keeps, whatever the transport does. -/
structure SpendInv (B : Bundle P) (x : Spending) : Prop where
  recovery : x.run.main.recovery = false
  split : x.run.counters.requestsStarted =
    x.run.counters.actionsContained + x.run.counters.retriesUsed
  requests : x.run.counters.requestsStarted ≤ B.budgets.maximumRequests
  retries : x.run.counters.retriesUsed ≤ B.retryPolicy.maximumRetries
  retries_nonneg : 0 ≤ x.run.counters.retriesUsed
  granted : ∀ k, x.granted k <+: [1, 2]
  inHand : ∀ k attempts, x.run.main.inHand = some (k, attempts) →
    (x.granted k).length = attempts
  ahead : ∀ b, x.run.main.ahead = some b → ∀ g ∈ x.grants, g.1 < b
  permits : x.permits = startedEvents x.run.store
  found : ∀ k attempts n, x.run.main = .exhausted k attempts n → x.found = x.run.counters
  raised : ∀ c ∈ x.raised, c.granted = false → c.left = c.found

theorem SpendInv.keep (h : SpendInv B x) (hgrants : y.grants = x.grants)
    (hspent : SameSpent x.run.counters y.run.counters) (honward : Onward x.run.main y.run.main)
    (hpermits : y.permits = startedEvents y.run.store)
    (hfound : ∀ k attempts n, y.run.main = .exhausted k attempts n → y.found = y.run.counters)
    (hraised : ∀ c ∈ y.raised, c.granted = false → c.left = c.found) : SpendInv B y := by
  have hsame : ∀ k, y.granted k = x.granted k := fun k => by rw [Spending.granted, hgrants]; rfl
  refine ⟨honward.recovery, ?_, ?_, ?_, ?_, ?_, ?_, ?_, hpermits, hfound, hraised⟩
  · rw [hspent.started, hspent.contained, hspent.retries]
    exact h.split
  · rw [hspent.started]
    exact h.requests
  · rw [hspent.retries]
    exact h.retries
  · rw [hspent.retries]
    exact h.retries_nonneg
  · exact fun k => hsame k ▸ h.granted k
  · exact fun k attempts hk => hsame k ▸ h.inHand k attempts (honward.inHand _ hk)
  · intro b hb g hg
    obtain ⟨b', hb', hle⟩ := honward.ahead b hb
    exact (h.ahead b' hb' g (hgrants ▸ hg)).trans_le hle

/-- Nothing is recorded of a step that finds or leaves no action in the transport's hands. -/
theorem advance_plain (h : x.run.main.inHand = none ∨ t.main.inHand = none) :
    x.advance t = { x with run := t } := by
  unfold Spending.advance
  split
  case h_6 => rfl
  all_goals
    rename_i hs ht
    rw [hs, ht] at h
    rcases h with h | h <;> cases h

theorem advance_run (x : Spending) (t : State) : (x.advance t).run = t := by
  unfold Spending.advance
  repeat' split
  all_goals rfl

theorem SpendInv.out (h : SpendInv B x) (hout : t.main.inHand = none)
    (hspent : SameSpent x.run.counters t.counters) (honward : Onward x.run.main t.main)
    (hstarted : startedEvents t.store = startedEvents x.run.store) : SpendInv B (x.advance t) := by
  rw [advance_plain (.inr hout)]
  refine h.keep rfl hspent honward (h.permits.trans hstarted.symm) (fun k attempts n hm => ?_)
    h.raised
  rw [show t.main = _ from hm] at hout
  cases hout

theorem raised_append {l : List RaisedCall} {c : RaisedCall}
    (hl : ∀ c ∈ l, c.granted = false → c.left = c.found)
    (hc : c.granted = false → c.left = c.found) :
    ∀ d ∈ l ++ [c], d.granted = false → d.left = d.found := by
  intro d hd
  rcases List.mem_append.mp hd with hd | hd
  · exact hl d hd
  · rw [List.mem_singleton.mp hd]
    exact hc

/-! ### One step -/

theorem SpendInv.stays (h : SpendInv B x) : SpendInv B (x.advance x.run) := by
  cases hs : x.run.main.inHand with
  | none =>
    rw [advance_plain (.inl hs)]
    exact h
  | some p =>
    unfold Spending.advance
    split
    case h_3 k attempts k' attempts' hm hm' =>
      exact h.keep rfl (.refl _) (.refl h.recovery) h.permits (fun _ _ _ he => by simp [hm] at he)
        (raised_append h.raised fun _ => rfl)
    case h_6 => exact h
    all_goals simp_all

theorem SpendInv.exhausts (h : SpendInv B x) {k attempts : Nat}
    {n : Nat} (hs : x.run.main = .requesting k attempts) (ht : t.main = .exhausted k attempts n)
    (hcounters : t.counters = x.run.counters) (hstore : t.store = x.run.store) :
    SpendInv B (x.advance t) := by
  have hadvance : x.advance t = { x with run := t, found := x.run.counters } := by
    simp only [Spending.advance, hs, ht]
  rw [hadvance]
  refine h.keep rfl (hcounters ▸ .refl _) ?_ ?_ (fun _ _ _ _ => hcounters.symm) h.raised
  · rw [hs, ht]
    exact .on rfl rfl le_rfl (.inr rfl) rfl
  · dsimp only
    rw [hstore]
    exact h.permits

theorem SpendInv.unexhausts (h : SpendInv B x) {k attempts n : Nat}
    (hs : x.run.main = .exhausted k attempts n) (ht : t.main = .requesting k attempts)
    (hcounters : t.counters = x.run.counters)
    (hstarted : startedEvents t.store = startedEvents x.run.store) : SpendInv B (x.advance t) := by
  have hadvance : x.advance t =
      { x with run := t, raised := x.raised ++ [⟨x.found, t.counters, false⟩] } := by
    simp only [Spending.advance, hs, ht]
  rw [hadvance]
  refine h.keep rfl (hcounters ▸ .refl _) ?_ (h.permits.trans hstarted.symm)
    (fun _ _ _ he => by simp [ht] at he) (raised_append h.raised fun _ => ?_)
  · rw [hs, ht]
    exact .on rfl rfl le_rfl (.inr rfl) rfl
  · exact hcounters.trans (h.found k attempts n hs).symm

theorem SpendInv.unlogged (h : SpendInv B x) {k attempts : Nat}
    (hs : x.run.main = .permitted k attempts) (ht : t.main = .requesting k attempts)
    (hcounters : t.counters = x.run.counters) (hstore : t.store = x.run.store) :
    SpendInv B (x.advance t) := by
  have hadvance : x.advance t =
      { x with run := t, raised := x.raised ++ [⟨x.found, t.counters, true⟩] } := by
    simp only [Spending.advance, hs, ht, hstore, lt_irrefl, if_false]
  rw [hadvance]
  refine h.keep rfl (hcounters ▸ .refl _) ?_ ?_ (fun _ _ _ he => by simp [ht] at he)
    (raised_append h.raised fun hgranted => by cases hgranted)
  · rw [hs, ht]
    exact .on rfl rfl le_rfl (.inr rfl) rfl
  · dsimp only
    rw [hstore]
    exact h.permits

/-- The log call of a granted attempt stores its start, and a permit is handed out. -/
theorem SpendInv.records (h : SpendInv B x) {k attempts : Nat} {e : Event}
    (hs : x.run.main = .permitted k attempts) (ht : t.main = .requesting k attempts)
    (hcounters : t.counters = x.run.counters) (hstore : t.store = x.run.store ++ [e])
    (hcode : e.eventCode = .actionStarted) : SpendInv B (x.advance t) := by
  have hadvance : x.advance t = { x with run := t, permits := x.permits + 1 } := by
    simp [Spending.advance, hs, ht, hstore]
  rw [hadvance]
  refine h.keep rfl (hcounters ▸ .refl _) ?_ ?_ (fun _ _ _ he => by simp [ht] at he) h.raised
  · rw [hs, ht]
    exact .on rfl rfl le_rfl (.inr rfl) rfl
  · dsimp only
    rw [hstore, startedEvents_append, if_pos hcode, h.permits]

theorem SpendInv.goes (h : SpendInv B x) {m : MainPc} {r : Option LocalRun} {c : Bool}
    (hgoes : Goes x.run.main m) :
    SpendInv B (x.advance { x.run with main := m, run := r, context := c }) := by
  have honward := hgoes.onward h.recovery
  cases hhand : m.inHand with
  | none => exact h.out hhand (.refl _) honward rfl
  | some p =>
    generalize hs : x.run.main = m₀ at hgoes
    cases hgoes with
    | exhausts k attempts n => exact h.exhausts hs rfl rfl rfl
    | unlogged k attempts => exact h.unlogged hs rfl rfl rfl
    | unexhausted k attempts n => exact h.unexhausts hs rfl rfl rfl
    | _ => cases hhand

theorem granted_of_ahead {k : Nat} (h : ∀ g ∈ x.grants, g.1 < k) : x.granted k = [] := by
  rw [Spending.granted, List.map_eq_nil_iff, List.filter_eq_nil_iff]
  intro g hg
  simpa using (h g hg).ne

theorem SpendInv.admits (h : SpendInv B x) {k : Nat} (hs : x.run.main = .ready k)
    (ht : t.main = .requesting k 0) (hspent : SameSpent x.run.counters t.counters)
    (hstarted : startedEvents t.store = startedEvents x.run.store) : SpendInv B (x.advance t) := by
  rw [advance_plain (.inl (by rw [hs]; rfl))]
  have hahead : ∀ g ∈ x.grants, g.1 < k := h.ahead k (by rw [hs]; rfl)
  refine ⟨by rw [ht]; rfl, ?_, ?_, ?_, ?_, h.granted, ?_, ?_, h.permits.trans hstarted.symm, ?_,
    h.raised⟩
  · rw [hspent.started, hspent.contained, hspent.retries]
    exact h.split
  · rw [hspent.started]
    exact h.requests
  · rw [hspent.retries]
    exact h.retries
  · rw [hspent.retries]
    exact h.retries_nonneg
  · intro k' attempts hk
    rw [ht] at hk
    cases hk
    exact congrArg List.length (granted_of_ahead hahead)
  · intro b hb g hg
    rw [ht] at hb
    cases hb
    exact Nat.lt_succ_of_lt (hahead g hg)
  · intro k' attempts n hm
    rw [ht] at hm
    cases hm

theorem granted_append (k n k' : Nat) {found : Counters} :
    Spending.granted { x with run := t, grants := x.grants ++ [(k, n)], found := found } k' =
      x.granted k' ++ if k = k' then [n] else [] := by
  unfold Spending.granted
  by_cases h : k = k' <;> simp [h]

theorem prefix_grow {attempts : Nat} {l : List Nat} (h : l <+: [1, 2]) (hlen : l.length = attempts)
    (hle : attempts + 1 ≤ 2) : l ++ [attempts + 1] <+: [1, 2] := by
  rw [List.prefix_iff_eq_take, hlen] at h
  rw [h]
  match attempts, hle with
  | 0, _ => exact ⟨[2], rfl⟩
  | 1, _ => exact ⟨[], rfl⟩

theorem SpendInv.grants (h : SpendInv B x) {k attempts : Nat}
    (hs : x.run.main = .requesting k attempts) (hgrants : Grants B x.run attempts) :
    SpendInv B (x.advance (Executor.granted x.run k attempts)) := by
  have hadvance : x.advance (Executor.granted x.run k attempts) = { x with
      run := Executor.granted x.run k attempts, grants := x.grants ++ [(k, attempts + 1)]
      found := x.run.counters } := by
    simp only [Spending.advance, hs, Executor.granted]
  have hlen := h.inHand k attempts (by rw [hs]; rfl)
  have hsplit := h.split
  have hnonneg := h.retries_nonneg
  have hle := h.retries
  have hrequests := hgrants.requests
  have hretries := hgrants.retries
  rw [hadvance]
  refine ⟨rfl, ?_, ?_, ?_, ?_, ?_, ?_, ?_, h.permits, (fun _ _ _ hm => by cases hm), h.raised⟩
  · dsimp only [Executor.granted]
    split <;> omega
  · dsimp only [Executor.granted]
    omega
  · dsimp only [Executor.granted]
    split <;> omega
  · dsimp only [Executor.granted]
    split <;> omega
  · intro k'
    rw [granted_append]
    by_cases hk : k = k'
    · subst hk
      rw [if_pos rfl]
      exact prefix_grow (h.granted k) hlen hgrants.attempt
    · rw [if_neg hk, List.append_nil]
      exact h.granted k'
  · intro k' attempts' hk
    cases hk
    rw [granted_append, if_pos rfl, List.length_append, hlen]
    rfl
  · intro b hb g hg
    cases hb
    rcases List.mem_append.mp hg with hg | hg
    · exact h.ahead (k + 1) (by rw [hs]; rfl) g hg
    · rw [List.mem_singleton.mp hg]
      exact Nat.lt_succ_self k

theorem SpendInv.appends (h : SpendInv B x) {call : AppendCall} {next failed : MainPc} {c : Bool}
    (hlogs : Logs B x.run call next failed) (code : EventCode) (hcode : call.eventCode = code.name)
    (hne : code ≠ .actionStarted) (hnext : next.inHand = none) (hfailed : failed.inHand = none) :
    SpendInv B (x.advance { x.run.logAppend B call next failed with context := c }) := by
  have hspent : SameSpent x.run.counters (x.run.logAppend B call next failed).counters :=
    (logAppend_counters call next failed).symm ▸ .refl _
  have hstarted := logAppend_started (B := B) (s := x.run) call code hcode hne next failed
  rcases logAppend_main (B := B) (s := x.run) call next failed with hm | hm
  · rcases hlogs.onward h.recovery with honward | ⟨k, -, hk⟩
    · exact h.out (hm.symm ▸ hnext) hspent (hm.symm ▸ honward) hstarted
    · rw [hk] at hnext
      cases hnext
  · exact h.out (hm.symm ▸ hfailed) hspent (hm.symm ▸ hlogs.failed_onward) hstarted

theorem SpendInv.logs (h : SpendInv B x) {call : AppendCall} {next failed : MainPc} {c : Bool}
    (hlogs : Logs B x.run call next failed) :
    SpendInv B (x.advance { x.run.logAppend B call next failed with context := c }) := by
  have hspent : SameSpent x.run.counters (x.run.logAppend B call next failed).counters :=
    (logAppend_counters call next failed).symm ▸ .refl _
  have happends : ∀ (code : EventCode), call.eventCode = code.name → code ≠ .actionStarted →
      next.inHand = none → failed.inHand = none →
      SpendInv B (x.advance { x.run.logAppend B call next failed with context := c }) :=
    h.appends hlogs
  cases hlogs with
  | @admits k a hs ha =>
    have hstarted := logAppend_started (B := B) (s := x.run)
      (actionCall a 1 .admitted "exact_action" x.run.counters) .admitted rfl (by decide)
      (.requesting k 0) (.handling .rejected)
    rcases logAppend_main (B := B) (s := x.run)
      (actionCall a 1 .admitted "exact_action" x.run.counters) (.requesting k 0)
      (.handling .rejected) with hm | hm
    · exact h.admits hs hm hspent hstarted
    · exact h.out (by dsimp only; rw [hm]; rfl) hspent
        (by dsimp only; rw [hm]; exact .out rfl rfl rfl) hstarted
  | @records k attempts a hs ha =>
    unfold State.logAppend
    split
    · rename_i e stored happ
      obtain ⟨e', rfl, hcode⟩ := append_code .actionStarted rfl happ
      exact h.records hs rfl rfl rfl hcode
    · exact h.unlogged hs rfl rfl rfl
  | @exhausts k attempts n a hs ha =>
    have hstarted := logAppend_started (B := B) (s := x.run)
      (actionCall a n .budgetExhausted "budget_exhausted" x.run.counters) .budgetExhausted
      rfl (by decide) (.requesting k attempts) (.requesting k attempts)
    have hmain := (logAppend_main (B := B) (s := x.run)
      (actionCall a n .budgetExhausted "budget_exhausted" x.run.counters) (.requesting k attempts)
      (.requesting k attempts)).elim id id
    exact h.unexhausts hs hmain (logAppend_counters _ _ _) hstarted
  | @rejects k attempts code exc a hs ha =>
    refine happends (if code = .dnsChanged then .dnsChanged else .actionRejected) rfl ?_ rfl rfl
    split <;> decide
  | verifies => exact happends .grantVerified rfl (by decide) rfl rfl
  | starts => exact happends .runStarted rfl (by decide) rfl rfl
  | redacts => exact happends .redacted rfl (by decide) rfl rfl
  | completes => exact happends .actionCompleted rfl (by decide) rfl rfl
  | regrants => exact happends .grantVerified rfl (by decide) rfl rfl
  | stops => exact happends .stopObserved rfl (by decide) rfl rfl
  | closes => exact happends .runFinalized rfl (by decide) rfl rfl
  | seals => exact happends .localResultReady rfl (by decide) rfl rfl
  | recovers => exact happends .grantVerified rfl (by decide) rfl rfl

/-- A step that takes nothing in hand and moves on within the action. -/
theorem SpendInv.onwards (h : SpendInv B x) {b b' : Nat} (hs : x.run.main.ahead = some b)
    (ht : t.main.ahead = some b') (hle : b ≤ b') (hhand : t.main.inHand = none)
    (hrec : t.main.recovery = false) (hspent : SameSpent x.run.counters t.counters)
    (hstore : t.store = x.run.store) : SpendInv B (x.advance t) :=
  h.out hhand hspent (.on hs ht hle (.inl hhand) hrec) (by rw [hstore])

theorem SpendInv.main (h : SpendInv B x) {choice : MainChoice}
    (hstep : mainStep B x.run choice = some t) : SpendInv B (x.advance t) := by
  have hcrashed : ∀ {m : MainPc}, x.run.main = m → m.recovery = true →
      SpendInv B (x.advance t) := by
    intro m hs hm
    have hrec := h.recovery
    rw [hs, hm] at hrec
    cases hrec
  cases mainStep_move hstep with
  | stays ht =>
    rw [ht]
    exact h.stays
  | goes m r c hgoes hc ht =>
    rw [ht]
    exact h.goes hgoes
  | logs call next failed c hlogs hc ht =>
    rw [ht]
    exact h.logs hlogs
  | activates r hs ht =>
    rw [ht]
    exact h.onwards (by rw [hs]; rfl) rfl le_rfl rfl rfl (.refl _) rfl
  | grants k attempts hs hgrants ht =>
    rw [ht]
    exact h.grants hs hgrants
  | answers k attempts r hs hchoice hmade ht =>
    rw [ht]
    exact h.onwards (by rw [hs]; rfl) rfl le_rfl rfl rfl ⟨rfl, rfl, rfl⟩ rfl
  | measures k attempts r hs hchoice ht =>
    rw [ht]
    exact h.onwards (by rw [hs]; rfl) rfl le_rfl rfl rfl ⟨rfl, rfl, rfl⟩ rfl
  | accepts k attempts r m hs hm ht =>
    rw [ht]
    obtain rfl | rfl := hm <;>
      exact h.onwards (by rw [hs]; rfl) rfl le_rfl rfl rfl (.refl _) rfl
  | reports k events v m hs hload hv hm ht =>
    rw [ht]
    obtain rfl | ⟨exc, rfl⟩ := hm
    · exact h.onwards (by rw [hs]; rfl) rfl le_rfl rfl rfl (.refl _) rfl
    · exact h.out rfl (.refl _) (.out rfl rfl rfl) rfl
  | projects e events hs hload hlast ht =>
    rw [ht]
    exact h.out rfl (.refl _) (.out rfl rfl rfl) rfl
  | seals e events r v hs hload hv ht =>
    rw [ht]
    exact h.out rfl (.refl _) (.out rfl rfl rfl) rfl
  | saves v events hs hload hfinals ht =>
    rw [ht]
    exact h.out rfl (.refl _) (.out rfl rfl rfl) rfl
  | resumes v hs hfinals ht => exact hcrashed hs rfl
  | recovers hs hfinals ht => exact hcrashed hs rfl
  | rebuilds first rest hs hchoice hload ht => exact hcrashed hs rfl

theorem workerStep_spent {choice : WorkerChoice} (hstep : workerStep B s choice = some t) :
    t.main = s.main ∧ t.counters = s.counters ∧ startedEvents t.store = startedEvents s.store := by
  unfold workerStep at hstep
  split at hstep
  case h_5 reason copy hw =>
    split at hstep
    · rename_i e stored happ
      cases hstep
      obtain ⟨e', rfl, hcode⟩ := append_code .stopObserved rfl happ
      exact ⟨rfl, rfl, by rw [startedEvents_append, hcode]; rfl⟩
    · cases hstep
      exact ⟨rfl, rfl, rfl⟩
  all_goals
    (repeat' split at hstep) <;> cases hstep <;> exact ⟨rfl, rfl, rfl⟩

theorem SpendInv.worker (h : SpendInv B x) {choice : WorkerChoice}
    (hstep : workerStep B x.run choice = some t) : SpendInv B { x with run := t } := by
  obtain ⟨hmain, hcounters, hstarted⟩ := workerStep_spent hstep
  refine h.keep rfl (hcounters ▸ .refl _) ?_ (h.permits.trans hstarted.symm)
    (fun k attempts n hm => ?_) h.raised
  · rw [hmain]
    exact .refl h.recovery
  · exact (h.found k attempts n (hmain ▸ hm)).trans hcounters.symm

theorem SpendInv.tick (h : SpendInv B x) (clockMs : Int) (monotonic : ℚ) :
    SpendInv B { x with run := { x.run with clockMs := clockMs, monotonic := monotonic } } :=
  { h with }

theorem SpendInv.step (h : SpendInv B x) {i : Input} (hstep : (spending B).step x i y) :
    SpendInv B y := by
  obtain ⟨t, hact, hy⟩ := hstep
  have hnow := h.tick i.clockMs i.monotonic
  unfold act at hact
  cases hchoice : i.choice with
  | main choice =>
    rw [hchoice] at hact hy
    rw [hy]
    exact hnow.main hact
  | worker choice =>
    rw [hchoice] at hact hy
    rw [hy]
    exact hnow.worker hact
  | crash =>
    rw [hchoice] at hy
    exact hy.elim

theorem init_spendInv (h : (spending B).init x) : SpendInv B x := by
  obtain ⟨clockMs, monotonic, rfl⟩ := h
  have hpositive := B.requests_range.1
  refine ⟨rfl, rfl, ?_, B.retries_range.1, le_rfl, fun k => ⟨[1, 2], rfl⟩, ?_, ?_, rfl, ?_, ?_⟩
  · dsimp only
    omega
  · intro k attempts hk
    cases hk
  · intro b _ g hg
    cases hg
  · intro k attempts n hm
    cases hm
  · intro c hc
    cases hc

theorem spending_inv (hx : (spending B).Reachable x) : SpendInv B x :=
  (spending B).invariant (fun _ h => init_spendInv h) (fun _ _ _ h hstep => h.step hstep) hx

/-! ### Requests completed -/

/-- What the answers of a transport count, as long as they count no more than was granted. -/
structure Completes (s : State) : Prop where
  recovery : s.main.recovery = false
  completed : s.counters.requestsCompleted ≤ s.counters.actionsContained
  /-- an action that was granted its first attempt and is not completed -/
  pending : ∀ k attempts, s.main.inHand = some (k, attempts) → 1 ≤ attempts →
    s.counters.requestsCompleted + 1 ≤ s.counters.actionsContained

theorem Completes.keep (h : Completes s) (honward : Onward s.main t.main)
    (hcompleted : t.counters.requestsCompleted = s.counters.requestsCompleted)
    (hcontained : t.counters.actionsContained = s.counters.actionsContained) : Completes t where
  recovery := honward.recovery
  completed := by
    rw [hcompleted, hcontained]
    exact h.completed
  pending k attempts hk hpos := by
    rw [hcompleted, hcontained]
    exact h.pending k attempts (honward.inHand _ hk) hpos

theorem Completes.admits (h : Completes s) {k : Nat} (ht : t.main = .requesting k 0)
    (hcounters : t.counters = s.counters) : Completes t where
  recovery := by rw [ht]; rfl
  completed := by
    rw [hcounters]
    exact h.completed
  pending k' attempts hk hpos := by
    rw [ht] at hk
    cases hk
    cases hpos

theorem Completes.logs (h : Completes s) {call : AppendCall} {next failed : MainPc} {c : Bool}
    (hlogs : Logs B s call next failed) :
    Completes { s.logAppend B call next failed with context := c } := by
  have hcounters := logAppend_counters (B := B) (s := s) call next failed
  have hkeep : ∀ {m : MainPc}, (s.logAppend B call next failed).main = m → Onward s.main m →
      Completes { s.logAppend B call next failed with context := c } := by
    intro m hm honward
    refine h.keep ?_ (by dsimp only; rw [hcounters]) (by dsimp only; rw [hcounters])
    dsimp only
    rw [hm]
    exact honward
  rcases logAppend_main (B := B) (s := s) call next failed with hm | hm
  · rcases hlogs.onward h.recovery with honward | ⟨k, -, hk⟩
    · exact hkeep hm honward
    · exact h.admits (hm.trans hk) hcounters
  · exact hkeep hm hlogs.failed_onward

theorem Completes.grants (h : Completes s) {k attempts : Nat}
    (hs : s.main = .requesting k attempts) : Completes (Executor.granted s k attempts) := by
  have hcompleted := h.completed
  refine ⟨rfl, ?_, fun k' attempts' hk hpos => ?_⟩
  · dsimp only [Executor.granted]
    split <;> omega
  · dsimp only [Executor.granted]
    by_cases hfirst : attempts = 0
    · rw [if_pos hfirst]
      omega
    · have hpending := h.pending k attempts (by rw [hs]; rfl) (by omega)
      rw [if_neg hfirst]
      omega

theorem Completes.main (h : Completes s) {choice : MainChoice}
    (hcounted : ∀ k r, s.main = .requesting k 0 → choice = .respond r → r.requestsMade ≠ some 0)
    (hstep : mainStep B s choice = some t) : Completes t := by
  have hcrashed : ∀ {m : MainPc}, s.main = m → m.recovery = true → Completes t := by
    intro m hs hm
    have hrec := h.recovery
    rw [hs, hm] at hrec
    cases hrec
  cases mainStep_move hstep with
  | stays ht =>
    rw [ht]
    exact h
  | goes m r c hgoes hc ht =>
    rw [ht]
    exact h.keep (hgoes.onward h.recovery) rfl rfl
  | logs call next failed c hlogs hc ht =>
    rw [ht]
    exact h.logs hlogs
  | grants k attempts hs hgrants ht =>
    rw [ht]
    exact h.grants hs
  | answers k attempts r hs hchoice hmade ht =>
    rw [ht]
    have hpos : 1 ≤ attempts := by
      by_contra hzero
      obtain rfl : attempts = 0 := by omega
      exact hcounted k r hs hchoice hmade
    exact ⟨rfl, h.pending k attempts (by rw [hs]; rfl) hpos, fun _ _ hk => by cases hk⟩
  | activates r hs ht =>
    rw [ht]
    exact h.keep (by rw [hs]; exact .on rfl rfl le_rfl (.inl rfl) rfl) rfl rfl
  | measures k attempts r hs hchoice ht =>
    rw [ht]
    exact h.keep (by rw [hs]; exact .on rfl rfl le_rfl (.inl rfl) rfl) rfl rfl
  | accepts k attempts r m hs hm ht =>
    rw [ht]
    obtain rfl | rfl := hm <;>
      exact h.keep (by rw [hs]; exact .on rfl rfl le_rfl (.inl rfl) rfl) rfl rfl
  | reports k events v m hs hload hv hm ht =>
    rw [ht]
    obtain rfl | ⟨exc, rfl⟩ := hm
    · exact h.keep (by rw [hs]; exact .on rfl rfl le_rfl (.inl rfl) rfl) rfl rfl
    · exact h.keep (.out rfl rfl rfl) rfl rfl
  | projects | seals | saves =>
    rename_i ht
    rw [ht]
    exact h.keep (.out rfl rfl rfl) rfl rfl
  | resumes v hs hfinals ht => exact hcrashed hs rfl
  | recovers hs hfinals ht => exact hcrashed hs rfl
  | rebuilds first rest hs hchoice hload ht => exact hcrashed hs rfl

theorem Completes.tick (h : Completes s) (clockMs : Int) (monotonic : ℚ) :
    Completes { s with clockMs := clockMs, monotonic := monotonic } :=
  { h with }

theorem Completes.step (h : Completes x.run) {i : Input} (hcounted : Counted x.run i)
    (hstep : (spending B).step x i y) : Completes y.run := by
  obtain ⟨t, hact, hy⟩ := hstep
  have hnow := h.tick i.clockMs i.monotonic
  unfold act at hact
  cases hchoice : i.choice with
  | main choice =>
    rw [hchoice] at hact hy
    rw [hy, advance_run]
    exact hnow.main (fun k r hs hr => hcounted k r hs (hr ▸ hchoice)) hact
  | worker choice =>
    rw [hchoice] at hact hy
    rw [hy]
    obtain ⟨hmain, hcounters, -⟩ := workerStep_spent hact
    exact hnow.keep (by rw [hmain]; exact .refl h.recovery) (by rw [hcounters]) (by rw [hcounters])
  | crash =>
    rw [hchoice] at hy
    exact hy.elim

theorem counted_completes (hx : ((spending B).restrict fun x => Counted x.run).Reachable x) :
    Completes x.run := by
  refine ((spending B).restrict fun x => Counted x.run).invariant
    (P := fun x => Completes x.run) ?_ ?_ hx
  · rintro x ⟨clockMs, monotonic, rfl⟩
    exact ⟨rfl, le_rfl, fun k attempts hk => by cases hk⟩
  · exact fun x i y h hstep => h.step hstep.2 hstep.1

/-! ### Calls that raise -/

/-- A call counts as granted only where its log call made no event. -/
theorem advance_raised (x : Spending) (t : State) : (x.advance t).raised = x.raised ∨
    ∃ c, (x.advance t).raised = x.raised ++ [c] ∧ (c.granted = true → ∃ k n,
      x.run.main = .permitted k n ∧ ¬ x.run.store.length < t.store.length) := by
  unfold Spending.advance
  split
  case h_3 => exact .inr ⟨_, rfl, fun h => by cases h⟩
  case h_4 => exact .inr ⟨_, rfl, fun h => by cases h⟩
  case h_5 k n k' n' hs ht =>
    split
    · exact .inl rfl
    · rename_i hgrown
      exact .inr ⟨_, rfl, fun _ => ⟨k, n, hs, hgrown⟩⟩
  all_goals exact .inl rfl

theorem recorded_grows {k n : Nat} (hs : s.main = .permitted k n)
    (hlogged : ∀ a, B.actions[k]? = some a → (B.log.append P s.clockMs s.store
      (actionCall a n .actionStarted "target_read" s.counters)).isOk = true)
    (hstep : mainStep B s .log = some t) : s.store.length < t.store.length := by
  unfold mainStep at hstep
  rw [hs] at hstep
  dsimp only at hstep
  split at hstep <;> cases hstep
  rename_i a ha
  have hok := hlogged a ha
  unfold State.logAppend
  split
  · rename_i e stored happ
    obtain ⟨e', rfl, -⟩ := append_code .actionStarted rfl happ
    simp
  · rename_i happ
    rw [happ] at hok
    cases hok

theorem recorded_step {i : Input} (h : ∀ c ∈ x.raised, c.granted = false) (hi : Recorded B x.run i)
    (hstep : (spending B).step x i y) : ∀ c ∈ y.raised, c.granted = false := by
  obtain ⟨t, hact, hy⟩ := hstep
  unfold act at hact
  cases hchoice : i.choice with
  | main choice =>
    rw [hchoice] at hact hy
    rw [hy]
    rcases advance_raised x t with hsame | ⟨c, hadded, hgranted⟩
    · rw [hsame]
      exact h
    · rw [hadded]
      intro d hd
      rcases List.mem_append.mp hd with hd | hd
      · exact h d hd
      · rw [List.mem_singleton.mp hd, Bool.eq_false_iff]
        intro hc
        obtain ⟨k, n, hs, hgrown⟩ := hgranted hc
        obtain ⟨rfl, hlogged⟩ := hi k n choice hs hchoice
        exact hgrown (recorded_grows
          (s := { x.run with clockMs := i.clockMs, monotonic := i.monotonic }) hs hlogged hact)
  | worker choice =>
    rw [hchoice] at hy
    rw [hy]
    exact h
  | crash =>
    rw [hchoice] at hy
    exact hy.elim

theorem recorded_raised (hx : ((spending B).restrict fun x => Recorded B x.run).Reachable x) :
    ∀ c ∈ x.raised, c.granted = false := by
  refine ((spending B).restrict fun x => Recorded B x.run).invariant
    (P := fun x => ∀ c ∈ x.raised, c.granted = false) ?_ ?_ hx
  · rintro x ⟨clockMs, monotonic, rfl⟩ c hc
    cases hc
  · exact fun x i y h hstep => recorded_step h hstep.2 hstep.1

/-! ### The budget -/

/-- What a transport gets out of a run, whenever and with whatever it calls `before_attempt`. -/
structure InBudget (B : Bundle P) (x : Spending) : Prop where
  split : x.run.counters.requestsStarted =
    x.run.counters.actionsContained + x.run.counters.retriesUsed
  requests : x.run.counters.requestsStarted ≤ B.budgets.maximumRequests
  retries : x.run.counters.retriesUsed ≤ B.retryPolicy.maximumRetries
  granted : ∀ k, x.granted k <+: [1, 2]
  permits : x.permits = startedEvents x.run.store
  /-- a call that the gate, the numbering, the failure code or the budget refuses -/
  refused : ∀ c ∈ x.raised, c.granted = false → c.left = c.found

theorem spending_main {guard : Spending → Input → Prop} {c : MainChoice}
    (hx : ((spending B).restrict guard).Reachable x)
    (hg : guard x ⟨x.run.clockMs, x.run.monotonic, .main c⟩) (h : mainStep B x.run c = some t) :
    ((spending B).restrict guard).Reachable (x.advance t) :=
  .step (a := ⟨x.run.clockMs, x.run.monotonic, .main c⟩) hx ⟨⟨t, h, rfl⟩, hg⟩

theorem spending_log {guard : Spending → Input → Prop}
    (hx : ((spending B).restrict guard).Reachable x)
    (hg : guard x ⟨x.run.clockMs, x.run.monotonic, .main .log⟩) {call : AppendCall}
    {next failed : MainPc}
    (hmain : mainStep B x.run .log = some (x.run.logAppend B call next failed)) {e : Event}
    {stored : List Event} (h : B.log.append P x.run.clockMs x.run.store call = .ok (e, stored)) :
    ((spending B).restrict guard).Reachable
      (x.advance { x.run with store := stored, main := next }) := by
  rw [logAppend_eq h] at hmain
  exact spending_main hx hg hmain

/-- Control points up to where the first action is handed to the transport. -/
def MainPc.opening : MainPc → Bool
  | .idle | .verifying | .activating | .starting | .ready _ => true
  | _ => false

/-- The sample up to where its first action is handed to the transport. -/
theorem sample_handed (guard : Spending → Input → Prop)
    (hguard : ∀ x i, x.run.main.opening = true → guard x i) :
    ∃ store, Sampled store {} ∧ store.length = 3 ∧ startedEvents store = 0 ∧
      ((spending sampleBundle).restrict guard).Reachable
        { run := sampleState store {} (.requesting 0 0) } := by
  obtain ⟨e1, e2, e3, a1, a2, a3, h⟩ := sample_opening
  have r0 : ((spending sampleBundle).restrict guard).Reachable { run := { clockMs := 1000 } } :=
    .init ⟨1000, 0, rfl⟩
  have r1 := spending_main (c := .begin false true) r0 (hguard _ _ rfl) rfl
  have r2 := spending_log r1 (hguard _ _ rfl) rfl a1
  have r3 := spending_main (c := .proceed) r2 (hguard _ _ rfl) rfl
  have r4 : ((spending sampleBundle).restrict guard).Reachable
      { run := sampleState ([e1] ++ [e2]) {} (.ready 0) } :=
    spending_main (c := .log) r3 (hguard _ _ rfl) (starting_log rfl a2)
  have r5 : ((spending sampleBundle).restrict guard).Reachable
      { run := sampleState ([e1] ++ [e2] ++ [e3]) {} (.requesting 0 0) } :=
    spending_log r4 (hguard _ _ rfl) rfl a3
  refine ⟨_, h, rfl, ?_, r5⟩
  exact (spending_inv r5.of_restrict).permits.symm

theorem sample_refused (store : List Event) :
    mainStep sampleBundle (sampleState store {} (.requesting 0 0)) (.attempt 2 none openGate) =
      some (sampleState store {} (.requesting 0 0)) := by
  have hmain : mainStep sampleBundle (sampleState store {} (.requesting 0 0))
      (.attempt 2 none openGate) = some (beforeAttempt sampleBundle
        (sampleState store {} (.requesting 0 0)) 0 0 2 none openGate).1 := rfl
  rw [hmain]
  simp only [beforeAttempt, openGate]
  split <;> rfl

/-- Both conditions on a step of the sample. -/
def Careful (x : Spending) (i : Input) : Prop :=
  Counted x.run i ∧ Recorded sampleBundle x.run i

theorem careful_opening (x : Spending) (i : Input) (h : x.run.main.opening = true) :
    Careful x i := by
  refine ⟨fun k r hs => ?_, fun k n choice hs => ?_⟩ <;>
  · rw [hs] at h
    cases h

theorem careful_attempt {k attempts : Nat} (h : x.run.main = .requesting k attempts)
    (clockMs : Int) (monotonic : ℚ) (n : Int) :
    Careful x ⟨clockMs, monotonic, .main (.attempt n none openGate)⟩ := by
  refine ⟨fun _ _ _ hi => (by cases hi), fun k n choice hs => ?_⟩
  rw [h] at hs
  cases hs

end Heel.Executor
