import Heel.Contracts.Json
import Heel.Host.PolicyInstall
import Heel.Host.ReadbackExact
import Heel.Lib.JsonKeyed
import Heel.Lib.Literal

/-! What the outcomes of the policy installer tell of the namespace, in every interleaving of the
calls of one input. -/
namespace Heel.HostPolicy
open Lib Lib.JsonText Lib.Checks

variable {policy : H2PolicyInput} {platform : Bool} {depth : ℕ} {s t : State}

/-- The namespace holds the rendered table: what lists it is a listing of that table. -/
def Holds (policy : H2PolicyInput) (depth : ℕ) (table : Option Bytes) : Prop :=
  ∃ (bytes : Bytes) (e : Encoding), table = some bytes ∧ e.Fits policy ∧
    arranged (parse depth bytes) = arranged (e.document policy)

/-- Every look at the identity of the namespace has found that of the input. -/
def Matched (policy : H2PolicyInput) (seen : List (Option Identity)) : Prop :=
  ∀ identity ∈ seen, identity = some policy.namespaceIdentity

/-- An outcome that says of itself that no install batch was launched. -/
def Unlaunched (state : OutcomeState) : Prop :=
  state ≠ .receiptReady ∧ state ≠ .cleaned ∧ state ≠ .quarantined

instance : DecidablePred Unlaunched := fun state =>
  inferInstanceAs (Decidable (state ≠ .receiptReady ∧ state ≠ .cleaned ∧ state ≠ .quarantined))

/-- A refusal of the call and not of the input: the input is not fresh, or is busy, or there is no
descriptor. -/
def Outcome.Rebuffed (o : Outcome) : Prop :=
  o.state = .refusedReusedInput ∨
    (o.state = .refusedInput ∧ ("cleanup", "not_installed") ∉ o.tokens)

/-- What a returned outcome owes to the namespace. -/
structure EntryOk (policy : H2PolicyInput) (depth : ℕ) (e : Entry) : Prop where
  ready : e.outcome.state = .receiptReady →
    e.call = .install ∧ Holds policy depth e.table ∧ Matched policy e.seen
  cleaned : e.outcome.state = .cleaned → e.table = none
  own : Unlaunched e.outcome.state → e.own = false
  other : Unlaunched e.outcome.state → ¬ e.outcome.Rebuffed → e.launched = false

def Entry.isReady (e : Entry) : Bool := e.outcome.state = .receiptReady

def Entry.isClosed (e : Entry) : Bool :=
  e.outcome.state = .cleaned || e.outcome.state = .quarantined

/-! ### The invariant -/

/-- What holds while a call stands at a frame. -/
def FrameOk (policy : H2PolicyInput) (depth : ℕ) (s : State) (a : Active) : Prop :=
  match a.frame with
  | .entry => s.launched = false ∧ s.loose = false ∧ a.call = .install ∧ Matched policy a.seen
  | .stepping _ attempted =>
    s.launched = attempted ∧ s.loose = false ∧ a.call = .install ∧ Matched policy a.seen
  | .final => Holds policy depth s.table ∧ s.loose = false ∧ a.call = .install ∧
    Matched policy a.seen
  | .removing _ => s.loose = false
  | .deleting _ => s.loose = false
  | .recording o =>
    (o.state = .receiptReady → a.call = .install ∧ Holds policy depth s.table ∧
      Matched policy a.seen ∧ s.loose = false) ∧
    (o.state = .cleaned → s.table = none ∧ s.loose = false) ∧
    (Unlaunched o.state → s.launched = false ∧ s.loose = false) ∧
    o.state ≠ .new ∧ o.state ≠ .refusedReusedInput

/-- What holds while no call is under way, by the entry of the input. -/
def Settled (s : State) : Prop :=
  match s.registry with
  | none => s.launched = false ∧ s.loose = false
  | some .new => False
  | some .receiptReady => s.loose = false
  | some .cleaned => s.table = none ∧ s.loose = false
  | some .quarantined => True
  | some _ => s.launched = false ∧ s.loose = false

structure Inv (policy : H2PolicyInput) (platform : Bool) (depth : ℕ) (s : State) : Prop where
  active : (s.active = [] ∧ Settled s) ∨
    ∃ a, s.active = [a] ∧ s.registry = some .new ∧ FrameOk policy depth s a ∧
      (a.own = true → s.launched = true) ∧ (a.call = .install → s.log.countP Entry.isReady = 0)
  entries : ∀ e ∈ s.log, EntryOk policy depth e
  receipts : s.log.countP Entry.isReady ≤ 1
  unclaimed : s.registry = none → s.log.countP Entry.isReady = 0
  refused : (ipv4EgressTargets policy = [] ∧ policy.controlOnly = false) ∨ platform = false →
    s.registry = none
  closed : ∀ e ∈ s.log, e.isClosed = true →
    s.registry = some .cleaned ∨ s.registry = some .quarantined

/-! ### What follows a frame -/

section Frames
variable {a : Active} {call : Call} {own mine : Bool} {seen more : List (Option Identity)}

theorem frameOk_quarantined {o : Outcome} (h : o.state = .quarantined) :
    FrameOk policy depth s ⟨call, .recording o, own, seen⟩ := by
  simp [FrameOk, Unlaunched, h]

theorem frameOk_unlaunched {o : Outcome} {state : OutcomeState} (ho : o.state = state)
    (h : Unlaunched state ∧ state ≠ .new ∧ state ≠ .refusedReusedInput)
    (hlaunched : s.launched = false) (hloose : s.loose = false) :
    FrameOk policy depth s ⟨call, .recording o, own, seen⟩ := by
  subst ho
  exact ⟨fun hready => absurd hready h.1.1, fun hcleaned => absurd hcleaned h.1.2.1,
    fun _ => ⟨hlaunched, hloose⟩, h.2⟩

theorem removal_state (removal : Removal) (result : String) :
    (removal.outcome result).state = if result = "cleaned" then .cleaned else .quarantined := by
  unfold Removal.outcome
  dsimp only
  split <;> rfl

theorem frameOk_removed {removal : Removal} {result : String}
    (h : result = "cleaned" → s.table = none ∧ s.loose = false) :
    FrameOk policy depth s ⟨call, .recording (removal.outcome result), own, seen⟩ := by
  by_cases hcleaned : result = "cleaned"
  · have hstate : (removal.outcome result).state = .cleaned := by
      rw [removal_state, if_pos hcleaned]
    simpa [FrameOk, Unlaunched, hstate] using h hcleaned
  · apply frameOk_quarantined
    rw [removal_state, if_neg hcleaned]

theorem matched_append {identity : Option Identity} (h : Matched policy seen)
    (hidentity : identity = some policy.namespaceIdentity) :
    Matched policy (seen ++ [identity]) := by
  intro other hother
  rw [List.mem_append, List.mem_singleton] at hother
  rcases hother with hother | rfl
  · exact h other hother
  · exact hidentity

theorem frameOk_look {identity : Option Identity} (h : FrameOk policy depth s a)
    (hframe : a.frame = .entry ∨ a.frame = .final ∨ ∃ removal, a.frame = .removing removal) :
    FrameOk policy depth s
        ⟨a.call, afterLook policy identity a.frame, own, a.seen ++ [identity]⟩ := by
  obtain ⟨call, frame, mine, seen⟩ := a
  dsimp only at hframe ⊢
  rcases hframe with rfl | rfl | ⟨removal, rfl⟩
  · obtain ⟨hlaunched, hloose, hcall, hseen⟩ := h
    simp only [afterLook]
    split
    · have hstate : (outcome .identityMismatch [("phase", "entry"), ("cleanup", "not_run")]).state =
          .identityMismatch := rfl
      exact frameOk_unlaunched hstate (by decide) hlaunched hloose
    · next hsame =>
      split
      · exact ⟨hlaunched, hloose, hcall, matched_append hseen (not_not.mp hsame)⟩
      · exact frameOk_quarantined rfl
  · obtain ⟨hholds, hloose, hcall, hseen⟩ := h
    simp only [afterLook]
    split
    · exact hloose
    · next hsame =>
      have hmatched := matched_append hseen (not_not.mp hsame)
      refine ⟨fun _ => ⟨hcall, hholds, hmatched, hloose⟩, fun hstate => ?_, fun hother => ?_, ?_⟩
      · cases hstate
      · exact absurd rfl hother.1
      · simp
  · simp only [afterLook]
    split
    · exact frameOk_removed (by simp)
    · exact h

theorem applied_of_classify {batch : Batch} {attempt : Attempt} {run : Run} {refused : OutcomeState}
    {before after : Option Bytes} (heffect : batch.Effect attempt before after)
    (hrun : helper attempt = some run) (h : classify run refused = none) :
    batch.Applied before after ∧ (batch = .readback → before = some run.output) ∧
      attempt.launches = true ∧ attempt.loose = false ∧ run.reaped = true ∧
      run.launched = true := by
  cases attempt with
  | outOfBudget => cases hrun; cases h
  | mismatched identity => cases hrun; cases h
  | execFailed => cases hrun; cases h
  | drove drive =>
    cases drive with
    | timeout reaped => cases hrun; cases h
    | overflow reaped => cases hrun; cases h
    | raised reaped => cases hrun
    | exited status output =>
      cases hrun
      have hstatus : status = 0 := by
        by_contra hne
        simp [classify, hne] at h
      rw [Batch.Effect, if_pos hstatus] at heffect
      exact ⟨heffect.1, heffect.2, rfl, rfl, rfl, rfl⟩

/-- A helper that was reaped has left no child that may still write. -/
theorem loose_of_reaped {attempt : Attempt} {run : Run} (hrun : helper attempt = some run) :
    attempt.loose = !run.reaped := by
  cases attempt with
  | drove drive => cases drive <;> cases hrun <;> rfl
  | _ => cases hrun; rfl

theorem launches_of_run {attempt : Attempt} {run : Run} (hrun : helper attempt = some run) :
    attempt.launches = run.launched := by
  cases attempt with
  | drove drive => cases drive <;> cases hrun <;> rfl
  | _ => cases hrun; rfl

theorem classify_unlaunched {run : Run} {refused state : OutcomeState}
    (h : classify run refused = some state)
    (hrefused : Unlaunched refused ∧ refused ≠ .new ∧ refused ≠ .refusedReusedInput) :
    Unlaunched state ∧ state ≠ .new ∧ state ≠ .refusedReusedInput := by
  unfold classify at h
  cases htoken : run.token <;> simp only [htoken] at h
  case exited =>
    split at h
    · cases h
    · cases h
      cases hcode : run.status.bind helperExitCode with
      | none => exact hrefused
      | some code =>
        obtain ⟨status, -, hcode⟩ := Option.bind_eq_some_iff.mp hcode
        unfold helperExitCode at hcode
        simp only [Option.getD_some]
        split at hcode
        · cases hcode; decide
        · split at hcode
          · cases hcode; decide
          · split at hcode
            · cases hcode; decide
            · cases hcode
  case overflow => cases h; exact hrefused
  all_goals cases h; decide

theorem Phase.refused_unlaunched (phase : Phase) :
    Unlaunched phase.refused ∧ phase.refused ≠ .new ∧ phase.refused ≠ .refusedReusedInput := by
  cases phase <;> decide

theorem stepState_unlaunched {phase : Phase} {run : Run} {state : OutcomeState} {part : String}
    (h : stepState policy depth phase run = (some state, part)) :
    Unlaunched state ∧ state ≠ .new ∧ state ≠ .refusedReusedInput := by
  unfold stepState at h
  split at h
  · next hclass =>
    cases h
    exact classify_unlaunched hclass phase.refused_unlaunched
  · split at h
    · split at h
      · cases h
      · cases h; decide
    · cases h

theorem failure_state {state : OutcomeState} {tokens : List (String × String)}
    (h : state ≠ .receiptReady) : (failure state tokens).state = state := by
  rw [failure, dif_neg h]
  rfl

theorem parse_keyed (depth : ℕ) (output : Bytes) : Keyed (parse depth output) := by
  unfold parse
  split
  · dsimp only
    split
    · next v hv =>
      refine loads_keyed ⟨fun hconstant => ?_, distinct_uniquePairs⟩ hv
      cases hconstant
    · trivial
  · trivial

/-- The readback is the last step: one that does not fail has listed the rendered table. -/
theorem holds_of_readback {attempt : Attempt} {run : Run} {part : String}
    {before after : Option Bytes}
    (heffect : Batch.readback.Effect attempt before after) (hrun : helper attempt = some run)
    (h : stepState policy depth .readback run = (none, part)) : Holds policy depth after := by
  unfold stepState at h
  split at h
  · cases h
  · next hclass =>
    obtain ⟨hafter, hbefore, -⟩ := applied_of_classify heffect hrun hclass
    have hsame : after = before := hafter
    rw [if_pos rfl] at h
    have haccepts : readbackMatches policy (parse depth run.output) = true := by
      cases hreadback : readback policy (parse depth run.output) with
      | error part => rw [hreadback] at h; cases h
      | ok u => rw [readbackMatches, hreadback]; rfl
    obtain ⟨e, hfits, hlisting⟩ := readback_listing policy (parse_keyed depth run.output) haccepts
    exact ⟨run.output, e, hsame.trans (hbefore rfl), hfits, hlisting⟩

theorem classify_of_stepState {phase : Phase} {run : Run} {part : String}
    (h : stepState policy depth phase run = (none, part)) : classify run phase.refused = none := by
  unfold stepState at h
  split at h
  · cases h
  · assumption

theorem matched_saw {attempt : Attempt} (h : Matched policy seen)
    (hlaunches : attempt.launches = true) :
    Matched policy (seen ++ attempt.saw policy.namespaceIdentity) := by
  cases attempt with
  | drove drive => exact matched_append h rfl
  | _ => cases hlaunches

theorem frameOk_step {phase : Phase} {attempted : Bool} {attempt : Attempt}
    (h : FrameOk policy depth s ⟨call, .stepping phase attempted, mine, seen⟩)
    (heffect : phase.batch.Effect attempt s.table t.table)
    (hlaunched : t.launched = (s.launched || (decide (phase.batch = .install) && attempt.launches)))
    (hloose : t.loose = (s.loose || (phase.batch.writes && attempt.loose))) :
    FrameOk policy depth t ⟨call, afterStep policy depth phase attempted attempt, own,
      seen ++ attempt.saw policy.namespaceIdentity⟩ := by
  obtain ⟨hattempted, hfast, hcall, hseen⟩ := h
  rw [hattempted] at hlaunched
  rw [hfast, Bool.false_or] at hloose
  unfold afterStep
  cases hrun : helper attempt with
  | none => exact frameOk_quarantined rfl
  | some run =>
    have hsame : t.launched = (attempted || (decide (phase = .install) && run.launched)) := by
      rw [hlaunched, launches_of_run hrun]
      cases phase <;> rfl
    have hreaped : run.reaped = true → t.loose = false := by
      intro hreaped
      rw [hloose, loose_of_reaped hrun, hreaped, Bool.not_true, Bool.and_false]
    rw [loose_of_reaped hrun] at hloose
    dsimp only
    cases hstep : stepState policy depth phase run with
    | mk state part =>
      cases state with
      | none =>
        have hclass := classify_of_stepState hstep
        obtain ⟨-, -, hlaunches, -, hwas, -⟩ := applied_of_classify heffect hrun hclass
        have hmatched := matched_saw hseen hlaunches
        cases phase with
        | check => exact ⟨hsame, hreaped hwas, hcall, hmatched⟩
        | install => exact ⟨hsame, hreaped hwas, hcall, hmatched⟩
        | readback =>
          exact ⟨holds_of_readback heffect hrun hstep, hreaped hwas, hcall, hmatched⟩
      | some state =>
        have hstate := stepState_unlaunched hstep
        dsimp only
        split
        · exact frameOk_quarantined rfl
        · next hwas =>
          have hfast : t.loose = false := hreaped (by simpa using hwas)
          split
          · next hnone =>
            rw [← hsame] at hnone
            exact frameOk_unlaunched (failure_state hstate.1.1) hstate (by simpa using hnone) hfast
          · exact hfast

theorem frameOk_delete {removal : Removal} {attempt : Attempt}
    (h : FrameOk policy depth s ⟨call, .deleting removal, mine, seen⟩)
    (heffect : Batch.delete.Effect attempt s.table t.table)
    (hloose : t.loose = (s.loose || attempt.loose)) :
    FrameOk policy depth t ⟨call, afterDelete removal attempt, own, seen ++ more⟩ := by
  have hfast : s.loose = false := h
  unfold afterDelete
  split
  · split
    · exact frameOk_quarantined rfl
    · exact frameOk_removed (by simp)
  · next run hrun =>
    refine frameOk_removed fun hresult => ?_
    have hclass : classify run .installRefused = none := by
      unfold removalResult at hresult
      split at hresult
      · assumption
      · split at hresult <;> simp at hresult
    obtain ⟨happlied, -, -, hchild, -⟩ := applied_of_classify heffect hrun hclass
    exact ⟨happlied, by rw [hloose, hfast, hchild]; rfl⟩

theorem frameOk_raised (h : FrameOk policy depth s a) :
    FrameOk policy depth s ⟨a.call, a.frame.raised, own, a.seen⟩ := by
  obtain ⟨call, frame, mine, seen⟩ := a
  cases frame with
  | entry => exact frameOk_quarantined rfl
  | stepping phase attempted => exact frameOk_quarantined rfl
  | final => exact frameOk_quarantined rfl
  | removing removal =>
    cases removal with
    | afterFailure phase cause part => exact frameOk_quarantined rfl
    | cleanup => exact frameOk_removed (by simp)
  | deleting removal =>
    cases removal with
    | afterFailure phase cause part => exact frameOk_quarantined rfl
    | cleanup => exact frameOk_removed (by simp)
  | recording o => exact h

end Frames

/-! ### The steps -/

theorem Inv.fresh (h : Inv policy platform depth s) (hregistry : s.registry = none) :
    s.active = [] ∧ s.launched = false ∧ s.loose = false := by
  rcases h.active with ⟨hactive, hsettled⟩ | ⟨a, hactive, hbusy, -⟩
  · rw [Settled, hregistry] at hsettled
    exact ⟨hactive, hsettled⟩
  · rw [hregistry] at hbusy
    cases hbusy

theorem Inv.settled {state : OutcomeState} (h : Inv policy platform depth s)
    (hregistry : s.registry = some state) (hnew : state ≠ .new) : s.active = [] ∧ Settled s := by
  rcases h.active with hidle | ⟨a, hactive, hbusy, -⟩
  · exact hidle
  · rw [hregistry, Option.some.injEq] at hbusy
    exact absurd hbusy hnew

theorem Inv.answer {call : Call} {o : Outcome} (h : Inv policy platform depth s)
    (hready : o.state ≠ .receiptReady) (hcleaned : o.state = .cleaned → s.table = none)
    (hother : Unlaunched o.state → ¬ o.Rebuffed → s.launched = false)
    (hclosed : o.state = .cleaned ∨ o.state = .quarantined →
      s.registry = some .cleaned ∨ s.registry = some .quarantined) :
    Inv policy platform depth (s.answer call o) := by
  have hcount : (s.answer call o).log.countP Entry.isReady = s.log.countP Entry.isReady := by
    simp [State.answer, Entry.isReady, hready]
  refine ⟨?_, ?_, ?_, ?_, h.refused, ?_⟩
  · rcases h.active with hidle | ⟨a, hactive, hbusy, hframe, hown, hnone⟩
    · exact .inl hidle
    · rw [← hcount] at hnone
      exact .inr ⟨a, hactive, hbusy, hframe, hown, hnone⟩
  · intro e he
    rw [State.answer, List.mem_append, List.mem_singleton] at he
    rcases he with he | rfl
    · exact h.entries e he
    · exact ⟨fun hstate => absurd hstate hready, hcleaned, fun _ => rfl, hother⟩
  · rw [hcount]
    exact h.receipts
  · rw [hcount]
    exact h.unclaimed
  · intro e he hstate
    rw [State.answer, List.mem_append, List.mem_singleton] at he
    rcases he with he | rfl
    · exact h.closed e he hstate
    · exact hclosed (by simpa [Entry.isClosed] using hstate)

theorem Inv.takeUp {a : Active} (h : Inv policy platform depth s) (hactive : s.active = [])
    (hopen : s.registry ≠ some .cleaned ∧ s.registry ≠ some .quarantined)
    (hframe : FrameOk policy depth s a) (hown : a.own = false)
    (hnone : a.call = .install → s.log.countP Entry.isReady = 0)
    (hadmitted : ¬ ((ipv4EgressTargets policy = [] ∧ policy.controlOnly = false) ∨
      platform = false)) :
    Inv policy platform depth { s with registry := some .new, active := s.active ++ [a] } := by
  have hsingle : s.active ++ [a] = [a] := by rw [hactive, List.nil_append]
  have hlaunched : a.own = true → s.launched = true := by simp [hown]
  refine ⟨.inr ⟨a, hsingle, rfl, hframe, hlaunched, hnone⟩, h.entries, h.receipts, ?_, ?_, ?_⟩
  · intro hregistry
    cases hregistry
  · intro hrefused
    exact absurd hrefused hadmitted
  · intro e he hstate
    rcases h.closed e he hstate with hclosed | hclosed
    · exact absurd hclosed hopen.1
    · exact absurd hclosed hopen.2

theorem Inv.begin (h : Inv policy platform depth s) (call : Call) (descriptor : Bool) :
    Inv policy platform depth (s.begin policy platform descriptor call) := by
  -- a call that is refused for what it is, and says nothing of the input
  have hrebuffed : ∀ {call o}, o.Rebuffed → o.state = .refusedReusedInput ∨
      o.state = .refusedInput → Inv policy platform depth (s.answer call o) := by
    intro call o hrebuffed hstate
    have hne : o.state ≠ .receiptReady ∧ o.state ≠ .cleaned ∧ o.state ≠ .quarantined := by
      rcases hstate with hstate | hstate <;> simp [hstate]
    exact h.answer hne.1 (fun hcleaned => absurd hcleaned hne.2.1)
      (fun _ hnot => absurd hrebuffed hnot) (fun hclosed => absurd hclosed (by simp [hne.2]))
  -- a call that is refused while no install was ever begun
  have hfresh : ∀ {call o}, s.registry = none → Unlaunched o.state →
      Inv policy platform depth (s.answer call o) := by
    intro call o hregistry ho
    exact h.answer ho.1 (fun hcleaned => absurd hcleaned ho.2.1)
      (fun _ _ => (h.fresh hregistry).2.1)
      (fun hclosed => absurd hclosed (by simp [ho.2]))
  cases call with
  | install =>
    simp only [State.begin]
    split
    · exact hrebuffed (.inr ⟨rfl, by decide⟩) (.inr rfl)
    split
    · next htargets => exact hfresh (h.refused (.inl htargets)) (by decide)
    split
    · next hplatform => exact hfresh (h.refused (.inr (by simpa using hplatform))) (by decide)
    split
    · exact hrebuffed (.inl rfl) (.inl rfl)
    · next htargets hplatform _ hregistry =>
      obtain ⟨hactive, hlaunched, hloose⟩ := h.fresh hregistry
      have hframe : FrameOk policy depth s ⟨.install, .entry, false, []⟩ :=
        ⟨hlaunched, hloose, rfl, by simp [Matched]⟩
      apply h.takeUp hactive (by simp [hregistry]) hframe rfl (fun _ => h.unclaimed hregistry)
      rintro (hnone | hother)
      · exact htargets hnone
      · simp [hother] at hplatform
  | cleanup =>
    simp only [State.begin]
    split
    · exact hrebuffed (.inr ⟨rfl, by decide⟩) (.inr rfl)
    split
    · next hplatform => exact hfresh (h.refused (.inr (by simpa using hplatform))) (by decide)
    split
    · next hregistry => exact hfresh hregistry (by decide)
    · exact hrebuffed (.inl rfl) (.inl rfl)
    · next hplatform hregistry =>
      obtain ⟨hactive, hsettled⟩ := h.settled hregistry (by decide)
      rw [Settled, hregistry] at hsettled
      apply h.takeUp hactive (by simp [hregistry]) (a := ⟨.cleanup, .removing .cleanup, false, []⟩)
        hsettled rfl
      · intro hcall
        cases hcall
      · intro hrefused
        have hnone := h.refused hrefused
        rw [hregistry] at hnone
        cases hnone
    · next state hnew hready hregistry =>
      obtain ⟨-, hsettled⟩ := h.settled hregistry hnew
      rw [Settled, hregistry] at hsettled
      have hstate : (failure state [("phase", "cleanup"), ("cleanup", "noop")]).state = state :=
        failure_state hready
      apply h.answer
      · rwa [hstate]
      · intro hcleaned
        rw [hstate] at hcleaned
        subst hcleaned
        exact hsettled.1
      · intro hunlaunched _
        rw [hstate] at hunlaunched
        obtain ⟨-, hcleaned, hquarantined⟩ := hunlaunched
        cases state <;> first | exact hsettled.1 | contradiction
      · intro hclosed
        rw [hstate] at hclosed
        rwa [hregistry, Option.some.injEq, Option.some.injEq]

theorem Inv.goes {i : ℕ} {a b : Active} (h : Inv policy platform depth s)
    (ha : s.active[i]? = some a) (hactive : t.active = s.active.set i b)
    (hregistry : t.registry = s.registry) (hlog : t.log = s.log) (hcall : b.call = a.call)
    (hframe : FrameOk policy depth s a → FrameOk policy depth t b)
    (hown : (a.own = true → s.launched = true) → b.own = true → t.launched = true) :
    Inv policy platform depth t := by
  rcases h.active with ⟨hidle, -⟩ | ⟨a', hsingle, hbusy, hframe', hown', hnone⟩
  · simp [hidle] at ha
  · have hi : i = 0 ∧ a' = a := by
      rw [hsingle, List.getElem?_singleton] at ha
      split at ha
      · next hi => exact ⟨hi, Option.some.inj ha⟩
      · cases ha
    obtain ⟨rfl, rfl⟩ := hi
    refine ⟨.inr ⟨b, ?_, ?_, hframe hframe', hown hown', ?_⟩, ?_, ?_, ?_, ?_, ?_⟩
    · rw [hactive, hsingle]
      rfl
    · rw [hregistry, hbusy]
    · rw [hcall, hlog]
      exact hnone
    · rw [hlog]
      exact h.entries
    · rw [hlog]
      exact h.receipts
    · rw [hregistry, hlog]
      exact h.unclaimed
    · rw [hregistry]
      exact h.refused
    · rw [hregistry, hlog]
      exact h.closed

theorem Inv.record {i : ℕ} {a : Active} {o : Outcome} (h : Inv policy platform depth s)
    (ha : s.active[i]? = some a) (hrecording : a.frame = .recording o) :
    Inv policy platform depth
      { s with
        registry := some o.state
        active := s.active.eraseIdx i
        log := s.log ++ [⟨a.call, o, s.table, s.launched, a.own, a.seen⟩] } := by
  rcases h.active with ⟨hidle, -⟩ | ⟨a', hsingle, hbusy, hframe, hown, hnone⟩
  · simp [hidle] at ha
  · have hi : i = 0 ∧ a' = a := by
      rw [hsingle, List.getElem?_singleton] at ha
      split at ha
      · next hi => exact ⟨hi, Option.some.inj ha⟩
      · cases ha
    obtain ⟨rfl, rfl⟩ := hi
    rw [FrameOk, hrecording] at hframe
    obtain ⟨hready, hcleaned, hother, hstate, hreused⟩ := hframe
    have hopen : ∀ e ∈ s.log, e.isClosed = false := by
      intro e he
      by_contra hclosed
      have hregistry := h.closed e he (by simpa using hclosed)
      rw [hbusy] at hregistry
      rcases hregistry with hregistry | hregistry <;> cases hregistry
    refine ⟨.inl ⟨?_, ?_⟩, ?_, ?_, ?_, ?_, ?_⟩
    · rw [hsingle]
      rfl
    · cases hkind : o.state with
      | new => exact absurd hkind hstate
      | receiptReady => exact (hready hkind).2.2.2
      | cleaned => exact hcleaned hkind
      | quarantined => trivial
      | _ => exact hother (hkind ▸ by decide)
    · intro e he
      rw [List.mem_append, List.mem_singleton] at he
      rcases he with he | rfl
      · exact h.entries e he
      · refine ⟨fun hstate => ?_, fun hstate => (hcleaned hstate).1, fun hstate => ?_,
          fun hstate _ => (hother hstate).1⟩
        · obtain ⟨hcall, hholds, hmatched, -⟩ := hready hstate
          exact ⟨hcall, hholds, hmatched⟩
        · have hlaunched := (hother hstate).1
          dsimp only
          by_contra hmine
          rw [hown (by simpa using hmine)] at hlaunched
          cases hlaunched
    · rw [List.countP_append, List.countP_singleton]
      by_cases hstate : o.state = .receiptReady
      · rw [hnone (hready hstate).1]
        split <;> omega
      · have hcount : Entry.isReady ⟨a'.call, o, s.table, s.launched, a'.own, a'.seen⟩ = false := by
          simp [Entry.isReady, hstate]
        rw [hcount]
        exact h.receipts
    · intro hregistry
      cases hregistry
    · intro hrefused
      have hfree := h.refused hrefused
      rw [hbusy] at hfree
      cases hfree
    · intro e he hclosed
      rw [List.mem_append, List.mem_singleton] at he
      rcases he with he | rfl
      · rw [hopen e he] at hclosed
        cases hclosed
      · simpa [Entry.isClosed] using hclosed

theorem Settled.late {table : Option Bytes} (h : Settled s) (hloose : s.loose = true) :
    Settled { s with table := table } := by
  unfold Settled at h ⊢
  dsimp only
  split at h
  case h_5 hregistry => trivial
  all_goals simp [hloose] at h

theorem FrameOk.late {a : Active} {table : Option Bytes} (h : FrameOk policy depth s a)
    (hloose : s.loose = true) : FrameOk policy depth { s with table := table } a := by
  obtain ⟨call, frame, own, seen⟩ := a
  cases frame with
  | entry =>
    obtain ⟨-, hfast, -⟩ := h
    simp [hloose] at hfast
  | stepping phase attempted =>
    obtain ⟨-, hfast, -⟩ := h
    simp [hloose] at hfast
  | final =>
    obtain ⟨-, hfast, -⟩ := h
    simp [hloose] at hfast
  | removing removal => exact h
  | deleting removal => exact h
  | recording o =>
    obtain ⟨hready, hcleaned, hother, hstate⟩ := h
    refine ⟨fun hkind => ?_, fun hkind => ?_, hother, hstate⟩
    · have hfast := (hready hkind).2.2.2
      simp [hloose] at hfast
    · have hfast := (hcleaned hkind).2
      simp [hloose] at hfast

theorem Inv.late {table : Option Bytes} (h : Inv policy platform depth s)
    (hloose : s.loose = true) :
    Inv policy platform depth { s with table := table } := by
  refine ⟨?_, h.entries, h.receipts, h.unclaimed, h.refused, h.closed⟩
  rcases h.active with ⟨hidle, hsettled⟩ | ⟨a, hsingle, hbusy, hframe, hrest⟩
  · exact .inl ⟨hidle, hsettled.late hloose⟩
  · exact .inr ⟨a, hsingle, hbusy, hframe.late hloose, hrest⟩

theorem inv_step {a : Action} (h : Inv policy platform depth s)
    (hstep : Step policy platform depth s a t) :
    Inv policy platform depth t := by
  cases hstep with
  | begin call descriptor => exact h.begin call descriptor
  | look ha hframe =>
    exact h.goes ha rfl rfl rfl rfl (fun hok => frameOk_look hok hframe) (fun hown => hown)
  | @run i a batch attempt table ha hbatch hpossible heffect =>
    refine h.goes ha rfl rfl rfl rfl (fun hok => ?_) (fun hown hmine => ?_)
    · obtain ⟨call, frame, own, seen⟩ := a
      cases frame with
      | stepping phase attempted =>
        cases hbatch
        exact frameOk_step hok heffect rfl rfl
      | deleting removal =>
        cases hbatch
        exact frameOk_delete hok heffect rfl
      | _ => cases hbatch
    · rw [Bool.or_eq_true] at hmine ⊢
      exact hmine.imp_left hown
  | expire ha hframe =>
    exact h.goes ha rfl rfl rfl rfl (fun _ => frameOk_removed (by simp)) (fun hown => hown)
  | raise ha => exact h.goes ha rfl rfl rfl rfl frameOk_raised (fun hown => hown)
  | record ha hframe => exact h.record ha hframe
  | late hloose => exact h.late hloose

theorem inv_init (hs : (installer policy platform depth).init s) : Inv policy platform depth s := by
  have hs : s = { table := s.table } := hs
  rw [hs]
  refine ⟨.inl ⟨rfl, rfl, rfl⟩, by simp, by simp, by simp, by simp, by simp⟩

theorem inv (hs : (installer policy platform depth).Reachable s) : Inv policy platform depth s :=
  (installer policy platform depth).invariant (fun _ => inv_init) (fun _ _ _ => inv_step) hs

/-- The input is done with: no call of it is under way, and none is taken up. -/
def Closed (s : State) : Prop :=
  s.active = [] ∧ (s.registry = some .cleaned ∨ s.registry = some .quarantined)

theorem closed_begin (h : Closed s) (call : Call) (descriptor : Bool) :
    Closed (s.begin policy platform descriptor call) ∧
      (s.begin policy platform descriptor call).writes = s.writes := by
  have hanswer : ∀ {o}, Closed (s.answer call o) ∧ (s.answer call o).writes = s.writes := ⟨h, rfl⟩
  rcases h.2 with hregistry | hregistry <;> cases call <;> simp only [State.begin, hregistry] <;>
    repeat' first | exact hanswer | split

theorem closed_step {a : Action} (h : Closed s) (hstep : Step policy platform depth s a t) :
    Closed t ∧ t.writes = s.writes := by
  have hidle : ∀ {i : ℕ} {a : Active}, s.active[i]? ≠ some a := by simp [h.1]
  cases hstep with
  | begin call descriptor => exact closed_begin h call descriptor
  | look ha _ => exact absurd ha hidle
  | run ha _ _ _ => exact absurd ha hidle
  | expire ha _ => exact absurd ha hidle
  | raise ha => exact absurd ha hidle
  | record ha _ => exact absurd ha hidle
  | late _ => exact ⟨h, rfl⟩

theorem closed_later (hs : (installer policy platform depth).Reachable s)
    (h : (installer policy platform depth).Later s t) (hclosed : Closed s) :
    t.writes = s.writes := by
  have hkept : Closed s → Closed t ∧ t.writes = s.writes := by
    refine (installer policy platform depth).later_rel
      (R := fun s t => Closed s → Closed t ∧ t.writes = s.writes)
      (fun _ hs => ⟨hs, rfl⟩) (fun s t u hst htu hs => ?_)
        (fun s a t _ hstep hs => closed_step hs hstep) hs h
    obtain ⟨ht, hwrites⟩ := hst hs
    obtain ⟨hu, hwrites'⟩ := htu ht
    exact ⟨hu, hwrites'.trans hwrites⟩
  exact (hkept hclosed).2

theorem Inv.closed_of_entry (h : Inv policy platform depth s) {e : Entry} (he : e ∈ s.log)
    (hclosed : e.isClosed = true) : Closed s := by
  have hregistry := h.closed e he hclosed
  rcases h.active with hidle | ⟨a, -, hbusy, -⟩
  · exact ⟨hidle.1, hregistry⟩
  · rw [hbusy] at hregistry
    rcases hregistry with hregistry | hregistry <;> cases hregistry

/-- At most one call returns a receipt, and then the namespace held the rendered table and each look
had matched; a cleaned input has no table; any other outcome but a quarantine tells that the call
launched no install batch and, unless it is the call that was refused, that none did; and after a
cleaned or quarantined one no call writes. -/
theorem install_outcomes (hs : (installer policy platform depth).Reachable s) :
    s.log.countP Entry.isReady ≤ 1 ∧ (∀ e ∈ s.log, EntryOk policy depth e) ∧
      ∀ e ∈ s.log, e.isClosed = true → ∀ t, (installer policy platform depth).Later s t →
        t.writes = s.writes := by
  have hinv := inv hs
  exact ⟨hinv.receipts, hinv.entries,
    fun e he hclosed t ht => closed_later hs ht (hinv.closed_of_entry he hclosed)⟩

/-! ### A refused call tells nothing of the others -/

namespace Sample

/-- An install under way that has seen the namespace of the input. -/
def underWay (frame : Frame) (table : Option Bytes) (launched : Bool) (writes : ℕ)
    (seen : List (Option Identity)) : State where
  registry := some .new
  table := table
  active := [⟨.install, frame, launched, seen⟩]
  launched := launched
  writes := writes

example : (underWay .entry none false 0 []).active.length = 1 := by decide +kernel

theorem control_renders : accepts (renderTable controlPolicy) = true := by
  simp only [renderTable, tableName, preparedSet, activatedMap, gateChain, Literal.points_codes]
  decide +kernel

theorem control_entry : afterLook controlPolicy (some (1, 2)) .entry = .stepping .check false := by
  have hsame : ¬ (some (1, 2) : Option Identity) ≠ some controlPolicy.namespaceIdentity := by decide
  rw [afterLook, if_neg hsame]
  have hrenders := control_renders
  cases hrender : renderTable controlPolicy with
  | ok batch => rfl
  | error e =>
    rw [hrender] at hrenders
    cases hrenders

def applied : Attempt := .drove (.exited 0 [])

theorem reused_unready : OutcomeState.refusedReusedInput ≠ .receiptReady := by decide

/-- A second install while the table of the first is not yet read back. -/
def reused : State :=
  (underWay (.stepping .readback true) (some []) true 1
    [some (1, 2), some (1, 2), some (1, 2)]).answer .install
      (outcome .refusedReusedInput [("phase", "entry")] reused_unready)

/-- An install whose batch has left a table that is not yet read back. -/
def reading (table : Bytes) : State :=
  underWay (.stepping .readback true) (some table) true 1 [some (1, 2), some (1, 2), some (1, 2)]

theorem reading_reachable (depth : ℕ) (table : Bytes) :
    (installer controlPolicy true depth).Reachable (reading table) := by
  let entered := underWay .entry none false 0 []
  let checking := underWay (.stepping .check false) none false 0 [some (1, 2)]
  let installing := underWay (.stepping .install false) none false 0 [some (1, 2), some (1, 2)]
  have hinit : (installer controlPolicy true depth).Reachable { table := none } := .init rfl
  have hentered : (installer controlPolicy true depth).Reachable entered :=
    hinit.step (Step.begin .install true)
  have hlook : Step controlPolicy true depth entered (.look 0 (some (1, 2))) checking := by
    have hstep := @Step.look controlPolicy true depth entered 0 _ (some (1, 2)) rfl (.inl rfl)
    rwa [show afterLook controlPolicy (some (1, 2)) _ = _ from control_entry] at hstep
  have hcheck : Step controlPolicy true depth checking (.run 0 applied none) installing :=
    @Step.run controlPolicy true depth checking 0 _ .check applied none rfl rfl trivial
      ⟨rfl, fun h => by cases h⟩
  have hinstall : Step controlPolicy true depth installing (.run 0 applied (some table))
      (reading table) :=
    @Step.run controlPolicy true depth installing 0 _ .install applied (some table) rfl rfl trivial
      ⟨rfl, fun h => by cases h⟩
  exact ((hentered.step hlook).step hcheck).step hinstall

theorem reused_reachable (depth : ℕ) : (installer controlPolicy true depth).Reachable reused :=
  (reading_reachable depth []).step (Step.begin .install true)

end Sample

open Sample in
/-- An install is refused as reused, though an install batch was launched. -/
theorem reused_after_launch : ∃ s, (installer controlPolicy true 1000).Reachable s ∧ ∃ e ∈ s.log,
    e.outcome.state ≠ .receiptReady ∧ e.outcome.state ≠ .cleaned ∧ e.outcome.state ≠ .quarantined ∧
      e.launched = true :=
  ⟨reused, reused_reachable 1000, _, List.mem_singleton_self _, by decide, by decide, by decide,
    rfl⟩

/-! ### A receipt, and then a removal -/

namespace Sample

def entry (kind : String) (fields : List (String × Json)) : Json := .obj [(kind, .obj fields)]

def payload (protocol field : String) : Json :=
  entry "payload" [("protocol", .str protocol), ("field", .str field)]

def matched (left right : Json) : Json :=
  entry "match" [("op", .str "=="), ("left", left), ("right", right)]

def markKey : Json := entry "meta" [("key", .str "mark")]

def marked (value : Json) : Json := entry "mangle" [("key", markKey), ("value", value)]

/-- The source, and the destination as a gateway: what the mark is looked up by. -/
def markSource : Json :=
  .obj [("concat", .arr [payload "ip" "saddr",
    .obj [("|", .arr [.obj [("&", .arr [payload "ip" "daddr", .str "1.1.1.2"])], .int 16843010])]])]

def listedRule (exprs : List Json) : Json :=
  entry "rule" [("family", .str "inet"), ("table", .str "heel_lease"), ("chain", .str "gate"),
    ("expr", .arr exprs)]

/-- What `nft` lists of the rendered table. -/
def listingJson : Json :=
  .obj [("nftables", .arr [
    entry "metainfo" [("json_schema_version", .int 1)],
    entry "table" [("family", .str "inet"), ("name", .str "heel_lease")],
    entry "set" [("family", .str "inet"), ("name", .str "prepared"), ("table", .str "heel_lease"),
      ("type", .arr [.str "ipv4_addr", .str "ipv4_addr", .str "mark"]), ("flags", .str "timeout")],
    entry "map" [("family", .str "inet"), ("name", .str "activated"), ("table", .str "heel_lease"),
      ("type", .arr [.str "ipv4_addr", .str "ipv4_addr"]), ("map", .str "mark")],
    entry "chain" [("family", .str "inet"), ("table", .str "heel_lease"), ("name", .str "gate"),
      ("type", .str "filter"), ("hook", .str "output"), ("prio", .int 0), ("policy", .str "drop")],
    listedRule [marked (.int 0)],
    listedRule [marked (entry "map" [("key", markSource), ("data", .str "@activated")])],
    listedRule [matched (payload "ip" "saddr") (.str "1.1.1.1"),
      matched (payload "ip" "daddr") (.str "1.1.1.2"),
      matched (payload "tcp" "dport") (.int 443), .obj [("accept", .null)]]])]

def printed : Bytes := (Json.dumps listingJson).map fun c => UInt8.ofNat c.toNat

theorem printed_read : readback controlPolicy (parse 1000 printed) = .ok () := by
  decide +kernel

theorem printed_final :
    afterStep controlPolicy 1000 .readback true (.drove (.exited 0 printed)) = .final := by
  have hstep : stepState controlPolicy 1000 .readback
      { token := .exited, status := some 0, output := printed, launched := true } =
        (none, "none") := by
    rw [stepState, show classify _ _ = none from rfl]
    dsimp only
    rw [if_pos rfl, printed_read]
  rw [afterStep, helper]
  dsimp only
  rw [hstep]
  rfl

def receipt : Outcome :=
  ⟨.receiptReady, some (receiptText controlPolicy), [("phase", "none"), ("readback", "exact")],
    by simp⟩

/-- The looks at the namespace of an install that returns its receipt. -/
def looks : List (Option Identity) := List.replicate 5 (some (1, 2))

def received (table : Bytes) : State where
  registry := some .receiptReady
  table := some table
  launched := true
  writes := 1
  log := [⟨.install, receipt, some table, true, true, looks⟩]

theorem received_reachable {depth : ℕ} {table : Bytes}
    (h : afterStep controlPolicy depth .readback true (.drove (.exited 0 table)) = .final) :
    (installer controlPolicy true depth).Reachable (received table) := by
  let closing := underWay .final (some table) true 1 (List.replicate 4 (some (1, 2)))
  let ready := underWay (.recording receipt) (some table) true 1 looks
  have hread : Step controlPolicy true depth (reading table)
      (.run 0 (.drove (.exited 0 table)) (some table)) closing := by
    have hclosing : closing = underWay (afterStep controlPolicy depth .readback true
        (.drove (.exited 0 table))) (some table) true 1 (List.replicate 4 (some (1, 2))) := by
      rw [h]
    rw [hclosing]
    exact @Step.run controlPolicy true depth (reading table) 0 _ .readback
      (.drove (.exited 0 table)) (some table) rfl rfl trivial ⟨rfl, fun _ => rfl⟩
  have hfinal : Step controlPolicy true depth closing (.look 0 (some (1, 2))) ready :=
    @Step.look controlPolicy true depth closing 0 _ (some (1, 2)) rfl (.inr (.inl rfl))
  have hrecord : Step controlPolicy true depth ready (.record 0) (received table) :=
    @Step.record controlPolicy true depth ready 0 _ receipt rfl rfl
  exact (((reading_reachable depth table).step hread).step hfinal).step hrecord

def removed (table : Bytes) : State where
  registry := some .cleaned
  table := none
  launched := true
  writes := 2
  log := (received table).log ++ [⟨.cleanup, Removal.cleanup.outcome "cleaned", none, true, false,
    [some (1, 2), some (1, 2)]⟩]

theorem removed_reachable {depth : ℕ} {table : Bytes}
    (h : (installer controlPolicy true depth).Reachable (received table)) :
    (installer controlPolicy true depth).Reachable (removed table) := by
  let removing (frame : Frame) (left : Option Bytes) (writes : ℕ) (seen : List (Option Identity)) :
      State :=
    { received table with
      registry := some .new, active := [⟨.cleanup, frame, false, seen⟩], table := left, writes }
  let entered := removing (.removing .cleanup) (some table) 1 []
  let looked := removing (.deleting .cleanup) (some table) 1 [some (1, 2)]
  let deleted := removing (.recording (Removal.cleanup.outcome "cleaned")) none 2
    [some (1, 2), some (1, 2)]
  have hbegin : Step controlPolicy true depth (received table) (.begin .cleanup true) entered :=
    Step.begin .cleanup true
  have hlook : Step controlPolicy true depth entered (.look 0 (some (1, 2))) looked :=
    @Step.look controlPolicy true depth entered 0 _ (some (1, 2)) rfl (.inr (.inr ⟨_, rfl⟩))
  have hdelete : Step controlPolicy true depth looked (.run 0 applied none) deleted :=
    @Step.run controlPolicy true depth looked 0 _ .delete applied none rfl rfl trivial
      ⟨rfl, fun h => by cases h⟩
  have hrecord : Step controlPolicy true depth deleted (.record 0) (removed table) :=
    @Step.record controlPolicy true depth deleted 0 _ _ rfl rfl
  exact (((h.step hbegin).step hlook).step hdelete).step hrecord

end Sample

open Sample in
theorem install_outcomes_sample :
    (removed printed).log.map (fun e => (e.outcome.state, e.table)) =
        [(.receiptReady, some printed), (.cleaned, none)] ∧
      (removed printed).log.countP Entry.isReady ≤ 1 ∧
      (∀ e ∈ (removed printed).log, EntryOk controlPolicy 1000 e) ∧
      ((removed printed).begin controlPolicy true true .install).writes =
        (removed printed).writes := by
  obtain ⟨hreceipts, hentries, hclosed⟩ :=
    install_outcomes (removed_reachable (received_reachable printed_final))
  have hlater : (installer controlPolicy true 1000).Later (removed printed)
      ((removed printed).begin controlPolicy true true .install) :=
    .single ⟨_, Step.begin .install true⟩
  exact ⟨rfl, hreceipts, hentries,
    hclosed _ (List.mem_append_right _ (List.mem_singleton_self _)) rfl _ hlater⟩

end Heel.HostPolicy
