import Heel.Lib.History
import Heel.Runner.Executor

/-! `_LiveAuthority` of `heel/runner/execution.py`: the deadlines that the samples of the gate leave
to a run. A time on the local clock is a number of seconds, a time of the server one of
milliseconds. -/
namespace Heel.LiveAuthority
open Lib Executor

inductive RunnerState where
  | active | revoked | replaced
  deriving DecidableEq, Repr

inductive ProofState where
  | valid | expired | revoked
  deriving DecidableEq, Repr

structure ExecutionGate where
  active : Bool
  runnerState : RunnerState
  proofState : ProofState
  proofExpiresAtMs : ℕ
  killSwitchGeneration : ℕ
  stopReason : StopReason
  serverTimeMs : ℕ
  deriving DecidableEq, Repr

/-- `_gate_failure`: the error category and the stop reason. -/
def gateFailure (gate : ExecutionGate) (generation : ℤ) : Option (ErrorCategory × StopReason) :=
  if gate.runnerState = .revoked ∨ gate.runnerState = .replaced then some
    (.runnerFault, .runnerRevoked)
  else if gate.proofState = .revoked then some (.proofExpired, .targetRevoked)
  else if gate.proofState ≠ .valid ∨ gate.proofExpiresAtMs ≤ gate.serverTimeMs then
    some (.proofExpired, .none)
  else if (gate.killSwitchGeneration : ℤ) ≠ generation then some (.platformFault, .killSwitch)
  else if gate.active = false then some (.platformFault, .killSwitch)
  else if gate.stopReason ≠ .none then some (.none, gate.stopReason)
  else none

/-- What `source` does. -/
inductive Sample where
  | raised
  | notGate
  | gate (g : ExecutionGate)
  deriving DecidableEq, Repr

structure Authority where
  /-- `expires_at_ms` of the grant -/
  grantExpiresAtMs : ℤ
  lastServerTimeMs : ℕ
  lastAdvance : ℚ
  grantDeadline : ℚ
  proofDeadline : ℚ
  deriving DecidableEq, Repr

/-- The seconds that a time of expiry is after the time of the server. -/
def secondsLeft (expiresAtMs : ℤ) (serverTimeMs : ℕ) : ℚ :=
  ((expiresAtMs - serverTimeMs : ℤ) : ℚ) / 1000

def Authority.start (grantExpiresAtMs : ℤ) (initialGate : ExecutionGate) (now : ℚ) : Authority where
  grantExpiresAtMs := grantExpiresAtMs
  lastServerTimeMs := initialGate.serverTimeMs
  lastAdvance := now
  grantDeadline := now + secondsLeft grantExpiresAtMs initialGate.serverTimeMs
  proofDeadline := now + secondsLeft initialGate.proofExpiresAtMs initialGate.serverTimeMs

def Authority.deadline (a : Authority) : ℚ := min a.grantDeadline a.proofDeadline

def rejected (error : ErrorCategory) (stop : StopReason) : Exc :=
  .transport (if stop ≠ .none then .cancelled else .gateRejected) (some error) stop

def maxGateStaleSeconds : ℚ := 1 / 2

structure Call where
  sample : Sample
  generation : ℤ
  now : ℚ
  deriving DecidableEq, Repr

/-- What a gate that is neither early nor stale leaves. -/
def Authority.sampled (a : Authority) (g : ExecutionGate) (now : ℚ) : Authority where
  grantExpiresAtMs := a.grantExpiresAtMs
  lastServerTimeMs := g.serverTimeMs
  lastAdvance := if g.serverTimeMs = a.lastServerTimeMs then a.lastAdvance else now
  grantDeadline := min a.grantDeadline (now + secondsLeft a.grantExpiresAtMs g.serverTimeMs)
  proofDeadline := min a.proofDeadline (now + secondsLeft g.proofExpiresAtMs g.serverTimeMs)

def Authority.check (a : Authority) (c : Call) : Authority × Except Exc ℚ :=
  match c.sample with
  | .raised => (a, .error (rejected .cloudDisconnected .none))
  | .notGate => (a, .error (rejected .cloudDisconnected .none))
  | .gate g =>
    match gateFailure g c.generation with
    | some (error, stop) => (a, .error (rejected error stop))
    | none =>
      if g.serverTimeMs < a.lastServerTimeMs then (a, .error (rejected .cloudDisconnected .none))
      else if g.serverTimeMs = a.lastServerTimeMs ∧ maxGateStaleSeconds < c.now - a.lastAdvance then
        (a, .error (rejected .cloudDisconnected .none))
      else if (a.sampled g c.now).deadline ≤ c.now then
        (a.sampled g c.now, .error (rejected .proofExpired .none))
      else (a.sampled g c.now, .ok (a.sampled g c.now).deadline)

/-- A gate that a check takes up: it passes, is not early, and is not stale. -/
structure Fresh (a : Authority) (c : Call) (g : ExecutionGate) : Prop where
  sample : c.sample = .gate g
  passes : gateFailure g c.generation = none
  notEarly : a.lastServerTimeMs ≤ g.serverTimeMs
  notStale : g.serverTimeMs = a.lastServerTimeMs → c.now - a.lastAdvance ≤ maxGateStaleSeconds

/-- A check refuses and changes nothing, or takes up a gate and answers the new deadline
before it. -/
theorem check_cases (a : Authority) (c : Call) :
    ((a.check c).1 = a ∧ ∃ e, (a.check c).2 = .error e) ∨
    ∃ g, Fresh a c g ∧ (a.check c).1 = a.sampled g c.now ∧
      ((∃ e, (a.check c).2 = .error e) ∨
        c.now < (a.sampled g c.now).deadline ∧
        (a.check c).2 = .ok (a.sampled g c.now).deadline) := by
  unfold Authority.check
  split
  · exact .inl ⟨rfl, _, rfl⟩
  · exact .inl ⟨rfl, _, rfl⟩
  · next g hsample =>
    split
    · exact .inl ⟨rfl, _, rfl⟩
    · next hpasses =>
      by_cases hearly : g.serverTimeMs < a.lastServerTimeMs
      · rw [if_pos hearly]
        exact .inl ⟨rfl, _, rfl⟩
      · rw [if_neg hearly]
        by_cases hstale : g.serverTimeMs = a.lastServerTimeMs ∧
            maxGateStaleSeconds < c.now - a.lastAdvance
        · rw [if_pos hstale]
          exact .inl ⟨rfl, _, rfl⟩
        · rw [if_neg hstale]
          have hfresh : Fresh a c g :=
            ⟨hsample, hpasses, not_lt.mp hearly, fun h => not_lt.mp fun hlt => hstale ⟨h, hlt⟩⟩
          by_cases hover : (a.sampled g c.now).deadline ≤ c.now
          · rw [if_pos hover]
            exact .inr ⟨g, hfresh, rfl, .inl ⟨_, rfl⟩⟩
          · rw [if_neg hover]
            exact .inr ⟨g, hfresh, rfl, .inr ⟨not_le.mp hover, rfl⟩⟩

theorem sampled_deadline (a : Authority) (g : ExecutionGate) (now : ℚ) :
    (a.sampled g now).grantDeadline ≤ a.grantDeadline ∧
      (a.sampled g now).proofDeadline ≤ a.proofDeadline :=
  ⟨min_le_left _ _, min_le_left _ _⟩

theorem check_deadline (a : Authority) (c : Call) :
    (a.check c).1.grantDeadline ≤ a.grantDeadline ∧ (a.check c).1.proofDeadline ≤
    a.proofDeadline := by
  obtain ⟨h, -⟩ | ⟨g, -, h, -⟩ := check_cases a c
  · rw [h]
    exact ⟨le_refl _, le_refl _⟩
  · rw [h]
    exact sampled_deadline a g c.now

/-- What an answer tells: the gate was taken up, and the deadline is the new one and still ahead. -/
theorem check_answer {a : Authority} {c : Call} {d : ℚ} (h : (a.check c).2 = .ok d) :
    c.now < d ∧ d = (a.check c).1.deadline ∧
      ∃ g, Fresh a c g ∧ (a.check c).1 = a.sampled g c.now := by
  obtain ⟨-, e, he⟩ | ⟨g, hfresh, hstate, ⟨e, he⟩ | ⟨hlt, hok⟩⟩ := check_cases a c
  · rw [he] at h
    cases h
  · rw [he] at h
    cases h
  · rw [hok] at h
    cases h
    exact ⟨hlt, congrArg _ hstate.symm, g, hfresh, hstate⟩

/-- The time of the server goes forward, and `lastAdvance` is when it last did. -/
theorem check_advance (a : Authority) (c : Call) :
    a.lastServerTimeMs ≤ (a.check c).1.lastServerTimeMs ∧
      (a.check c).1.lastAdvance =
        if a.lastServerTimeMs < (a.check c).1.lastServerTimeMs then c.now else a.lastAdvance := by
  obtain ⟨h, -⟩ | ⟨g, hfresh, h, -⟩ := check_cases a c
  · rw [h, if_neg (lt_irrefl _)]
    exact ⟨le_refl _, rfl⟩
  · rw [h]
    refine ⟨hfresh.notEarly, ?_⟩
    by_cases hsame : g.serverTimeMs = a.lastServerTimeMs
    · simp [Authority.sampled, hsame]
    · have hlt : a.lastServerTimeMs < g.serverTimeMs :=
        lt_of_le_of_ne hfresh.notEarly (Ne.symm hsame)
      simp [Authority.sampled, hsame, hlt]

theorem check_early {a : Authority} {c : Call} {g : ExecutionGate} (hsample : c.sample = .gate g)
    (hearly : g.serverTimeMs < a.lastServerTimeMs) :
    (a.check c).1 = a ∧ ∃ e, (a.check c).2 = .error e := by
  obtain h | ⟨g', hfresh, -⟩ := check_cases a c
  · exact h
  · have hsame := hfresh.sample
    rw [hsample, Sample.gate.injEq] at hsame
    have hle := hfresh.notEarly
    rw [← hsame] at hle
    omega

/-- A call with the authority before and after it, and what it answers. -/
structure Turn where
  before : Authority
  call : Call
  after : Authority
  answer : Except Exc ℚ

def turns : Authority → List Call → List Turn
  | _, [] => []
  | a, c :: rest => ⟨a, c, (a.check c).1, (a.check c).2⟩ :: turns (a.check c).1 rest

def Turn.returned? (t : Turn) : Option ℚ := t.answer.toOption

/-- The time of the server that an accepted sample reports. -/
def Turn.accepted? (t : Turn) : Option ℕ :=
  match t.answer, t.call.sample with
  | .ok _, .gate g => some g.serverTimeMs
  | _, _ => none

/-- When the time of the server goes forward. -/
def Turn.advance? (t : Turn) : Option ℚ :=
  if t.before.lastServerTimeMs < t.after.lastServerTimeMs then some t.call.now else none

theorem turn_check {a : Authority} {calls : List Call} {t : Turn} (h : t ∈ turns a calls) :
    t.after = (t.before.check t.call).1 ∧ t.answer = (t.before.check t.call).2 := by
  induction calls generalizing a with
  | nil => cases h
  | cons c rest ih =>
    obtain rfl | h := List.mem_cons.mp h
    · exact ⟨rfl, rfl⟩
    · exact ih h

theorem turns_deadline {a : Authority} {calls : List Call} {t : Turn} (h : t ∈ turns a calls) :
    t.after.deadline ≤ a.deadline := by
  induction calls generalizing a with
  | nil => cases h
  | cons c rest ih =>
    have hstep : (a.check c).1.deadline ≤ a.deadline :=
      min_le_min (check_deadline a c).1 (check_deadline a c).2
    obtain rfl | h := List.mem_cons.mp h
    · exact hstep
    · exact (ih h).trans hstep

theorem turns_server {a : Authority} {calls : List Call} {t : Turn} (h : t ∈ turns a calls) :
    a.lastServerTimeMs ≤ t.before.lastServerTimeMs := by
  induction calls generalizing a with
  | nil => cases h
  | cons c rest ih =>
    obtain rfl | h := List.mem_cons.mp h
    · exact le_refl _
    · exact (check_advance a c).1.trans (ih h)

theorem Turn.returned?_eq {t : Turn} {d : ℚ} : t.returned? = some d ↔ t.answer = .ok d := by
  unfold Turn.returned?
  cases t.answer <;> simp [Except.toOption]

theorem accepted_server {a : Authority} {calls : List Call} {t : Turn} {s : ℕ}
    (h : t ∈ turns a calls) (hs : t.accepted? = some s) :
    t.after.lastServerTimeMs = s ∧ t.before.lastServerTimeMs ≤ s := by
  obtain ⟨hafter, hanswer⟩ := turn_check h
  unfold Turn.accepted? at hs
  split at hs
  · next d g hok hsample =>
    cases hs
    obtain ⟨-, -, g', hfresh, hstate⟩ := check_answer (hanswer.symm.trans hok)
    have hsame := hfresh.sample
    rw [hsample, Sample.gate.injEq] at hsame
    cases hsame
    rw [hafter, hstate]
    exact ⟨rfl, hfresh.notEarly⟩
  · cases hs

theorem returned_pairwise (a : Authority) (calls : List Call) :
    ((turns a calls).filterMap Turn.returned?).Pairwise (· ≥ ·) := by
  induction calls generalizing a with
  | nil => exact .nil
  | cons c rest ih =>
    rw [turns, List.filterMap_cons]
    split
    · exact ih _
    · next d hd =>
      refine List.pairwise_cons.mpr ⟨fun d' hd' => ?_, ih _⟩
      obtain ⟨t, ht, hreturned⟩ := List.mem_filterMap.mp hd'
      rw [Turn.returned?_eq] at hd hreturned
      obtain ⟨-, hdeadline, -⟩ := check_answer hd
      obtain ⟨hafter, hanswer⟩ := turn_check ht
      obtain ⟨-, hdeadline', -⟩ := check_answer (hanswer.symm.trans hreturned)
      rw [hdeadline, hdeadline', ← hafter]
      exact turns_deadline ht

theorem accepted_pairwise (a : Authority) (calls : List Call) :
    ((turns a calls).filterMap Turn.accepted?).Pairwise (· ≤ ·) := by
  induction calls generalizing a with
  | nil => exact .nil
  | cons c rest ih =>
    rw [turns, List.filterMap_cons]
    split
    · exact ih _
    · next s hs =>
      refine List.pairwise_cons.mpr ⟨fun s' hs' => ?_, ih _⟩
      obtain ⟨t, ht, haccepted⟩ := List.mem_filterMap.mp hs'
      have hfirst : Turn.mk a c (a.check c).1 (a.check c).2 ∈ turns a (c :: rest) := .head _
      have hnow : (a.check c).1.lastServerTimeMs = s := (accepted_server hfirst hs).1
      exact hnow ▸ (turns_server ht).trans (accepted_server ht haccepted).2

theorem turns_advance {a : Authority} {calls : List Call} {earlier later : List Turn} {t : Turn}
    (h : turns a calls = earlier ++ t :: later) :
    t.before.lastAdvance = (History.newest Turn.advance? earlier).getD a.lastAdvance := by
  induction calls generalizing a earlier with
  | nil => simp [turns] at h
  | cons c rest ih =>
    cases earlier with
    | nil =>
      rw [turns, List.nil_append, List.cons.injEq] at h
      rw [← h.1]
      rfl
    | cons first earlier =>
      rw [turns, List.cons_append, List.cons.injEq] at h
      obtain ⟨rfl, h⟩ := h
      rw [ih h, (check_advance a c).2]
      unfold History.newest
      rw [List.reverse_cons, List.findSome?_append]
      cases List.findSome? Turn.advance? earlier.reverse with
      | some now => rfl
      | none =>
        simp only [Turn.advance?, List.findSome?_cons, List.findSome?_nil, Option.none_or,
          Option.getD_none]
        split <;> rfl

/-- Authority only shrinks over the turns of a run that starts at `now` with `initial`. -/
structure Shrinks (grantExpiresAtMs : ℤ) (initial : ExecutionGate) (now : ℚ) (ts : List Turn) :
    Prop where
  deadlines : (ts.filterMap Turn.returned?).Pairwise (· ≥ ·)
  bounded : ∀ t ∈ ts, ∀ d, t.answer = .ok d →
    d ≤ now + secondsLeft (min grantExpiresAtMs initial.proofExpiresAtMs) initial.serverTimeMs
  ahead : ∀ t ∈ ts, ∀ d, t.answer = .ok d → t.call.now < d
  accepted : (initial.serverTimeMs :: ts.filterMap Turn.accepted?).Pairwise (· ≤ ·)
  /-- a sample before the time of the server then kept, so before any that was accepted -/
  early : ∀ t ∈ ts, ∀ g, t.call.sample = .gate g → g.serverTimeMs < t.before.lastServerTimeMs →
    t.after = t.before ∧ ∃ e, t.answer = .error e
  unchanged : ∀ earlier t later, ts = earlier ++ t :: later →
    t.accepted? = some t.before.lastServerTimeMs →
      t.call.now - (History.newest Turn.advance? earlier).getD now ≤ maxGateStaleSeconds
  /-- whatever expiry a later gate reports -/
  stored : ∀ t ∈ ts, t.after.grantDeadline ≤ t.before.grantDeadline ∧
    t.after.proofDeadline ≤ t.before.proofDeadline

theorem start_deadline (grantExpiresAtMs : ℤ) (initial : ExecutionGate) (now : ℚ) :
    (Authority.start grantExpiresAtMs initial now).deadline =
      now + secondsLeft (min grantExpiresAtMs initial.proofExpiresAtMs) initial.serverTimeMs := by
  have hmono : Monotone fun e : ℤ => now + secondsLeft e initial.serverTimeMs := by
    intro e e' h
    simp only [secondsLeft]
    gcongr
  exact (hmono.map_min).symm

theorem authority_shrinks (grantExpiresAtMs : ℤ) (initial : ExecutionGate) (now : ℚ)
    (calls : List Call) :
    Shrinks grantExpiresAtMs initial now
      (turns (.start grantExpiresAtMs initial now) calls) where
  deadlines := returned_pairwise _ _
  bounded := by
    intro t ht d hd
    obtain ⟨hafter, hanswer⟩ := turn_check ht
    obtain ⟨-, hdeadline, -⟩ := check_answer (hanswer.symm.trans hd)
    rw [← start_deadline, hdeadline, ← hafter]
    exact turns_deadline ht
  ahead := by
    intro t ht d hd
    exact (check_answer ((turn_check ht).2.symm.trans hd)).1
  accepted := by
    refine List.pairwise_cons.mpr ⟨fun s hs => ?_, accepted_pairwise _ _⟩
    obtain ⟨t, ht, haccepted⟩ := List.mem_filterMap.mp hs
    exact (turns_server ht).trans (accepted_server ht haccepted).2
  early := by
    intro t ht g hsample hearly
    obtain ⟨hafter, hanswer⟩ := turn_check ht
    rw [hafter, hanswer]
    exact check_early hsample hearly
  unchanged := by
    intro earlier t later hsplit haccepted
    have ht : t ∈ turns (.start grantExpiresAtMs initial now) calls := by
      rw [hsplit]
      exact List.mem_append_right _ (.head _)
    have hadvance := turns_advance hsplit
    obtain ⟨hafter, hanswer⟩ := turn_check ht
    unfold Turn.accepted? at haccepted
    split at haccepted
    · next d g hok hsample =>
      obtain ⟨-, -, g', hfresh, -⟩ := check_answer (hanswer.symm.trans hok)
      have hsame := hfresh.sample
      rw [hsample, Sample.gate.injEq] at hsame
      cases hsame
      have hstale := hfresh.notStale (Option.some.inj haccepted)
      rw [hadvance] at hstale
      exact hstale
    · cases haccepted
  stored := by
    intro t ht
    rw [(turn_check ht).1]
    exact check_deadline _ _

end Heel.LiveAuthority
