import Heel.Runner.HttpTransport
import Mathlib.Data.List.Basic

/-! The accounts of one request: what the loop over its attempts does, in order, as a relation, and
from it how many attempts there are, what each of them rests on, and what is reported of them. -/
namespace Heel.Transport
open Lib Lib.JsonText Lib.Checks Routes

namespace Event

def sent : Event → Option ℕ
  | beforeAttempt _ _ _ => none
  | attempt number _ _ => some number

/-- A call of `before_attempt` for attempt `k`. -/
def calls (k : ℕ) : Event → Bool
  | beforeAttempt number _ _ => number = k
  | attempt _ _ _ => false

end Event

def sentOf (events : List Event) : List ℕ := events.filterMap Event.sent

/-- What the loop does after `n` attempts, the last of which failed with `previous`. -/
inductive Requests (policy : RetryPolicy) (remaining : ℤ) : ℕ → Option FailureCode → List Event →
    Except Raised TargetResponse → Prop where
  | refused {n previous answer code} : Requests policy remaining n previous
    [.beforeAttempt (n + 1) previous answer] (.error (.failure ⟨code, n⟩))
  | answered {n previous permit answer cancelled} : Requests policy remaining n previous
    [.beforeAttempt (n + 1) previous (.ok (some permit)), .attempt (n + 1) (.ok answer) cancelled]
    (.ok { answer with requestsMade := n + 1 })
  | failed {n previous permit f cancelled} : Requests policy remaining n previous
    [.beforeAttempt (n + 1) previous (.ok (some permit)),
      .attempt (n + 1) (.error (.failure f)) cancelled]
    (.error (.failure { f with requestsMade := n + 1 }))
  | raised {n previous permit cancelled} : Requests policy remaining n previous
    [.beforeAttempt (n + 1) previous (.ok (some permit)),
    .attempt (n + 1) (.error .other) cancelled]
    (.error .other)
  | retried {n previous permit f events result} (hpolicy : n < policy.maximumRetries)
    (hremaining : (n : ℤ) + 1 < remaining) (hcode : f.code ∈ policy.retryableFailureCodes)
    (rest : Requests policy remaining (n + 1) (some f.code) events result) :
    Requests policy remaining n previous
      (.beforeAttempt (n + 1) previous (.ok (some permit)) ::
        .attempt (n + 1) (.error (.failure f)) false :: events) result

variable {policy : RetryPolicy} {remaining : ℤ} {deadline : ℚ} {env : ℕ → Turn}

theorem boundedCall_permit {turn : Turn} {permit : Option ℚ}
    (h : boundedCall deadline turn = .ok permit) : turn.gate = .ok permit := by
  unfold boundedCall at h
  simp only [bind_ok] at h
  obtain ⟨_, -, _, -, h⟩ := h
  exact h

theorem turns_requests (attempts : ℕ) (previous : Option FailureCode) :
    Requests policy remaining attempts previous
      (turns policy remaining deadline env attempts previous).1
      (turns policy remaining deadline env attempts previous).2 := by
  induction hm : policy.maximumRetries - attempts using Nat.strong_induction_on
    generalizing attempts previous with
  | _ m ih =>
    rw [turns]
    dsimp only
    cases hcall : boundedCall deadline (env attempts) with
    | error e =>
      cases e with
      | failure f => exact .refused
      | other => exact .refused
    | ok permit =>
      rw [boundedCall_permit hcall]
      cases permit with
      | none => exact .refused
      | some permit =>
        dsimp only
        split
        · exact .refused
        cases (env attempts).attempt with
        | ok answer => exact .answered
        | error e =>
          cases e with
          | other => exact .raised
          | failure f =>
            dsimp only
            split
            · next hretries =>
              simp only [retries, Bool.and_eq_true, decide_eq_true_eq, Bool.not_eq_true',
                List.contains_iff_mem] at hretries
              obtain ⟨⟨⟨⟨⟨-, hcode⟩, hcancelled⟩, -⟩, hpolicy⟩, hremaining⟩ := hretries
              rw [hcancelled]
              apply Requests.retried (by omega) (by omega) hcode
              exact ih _ (by omega) _ _ rfl
            · exact .failed

section Accounts
variable {n : ℕ} {previous : Option FailureCode} {events : List Event}
  {result : Except Raised TargetResponse}

theorem Requests.numbered (h : Requests policy remaining n previous events result) :
    sentOf events = List.range' (n + 1) (sentOf events).length := by
  induction h with
  | refused => rfl
  | answered => rfl
  | failed => rfl
  | raised => rfl
  | retried _ _ _ _ ih =>
    simp only [sentOf, List.filterMap_cons, Event.sent, List.length_cons, List.range'_succ] at ih ⊢
    rw [← ih]

theorem Requests.bounded (h : Requests policy remaining n previous events result)
    (hn : n ≤ policy.maximumRetries) (hremaining : (n : ℤ) < remaining) :
    n + (sentOf events).length ≤ 1 + policy.maximumRetries ∧
      (n : ℤ) + (sentOf events).length ≤ remaining := by
  induction h with
  | refused =>
    simp only [sentOf, List.filterMap_cons, Event.sent, List.filterMap_nil, List.length_nil]
    omega
  | answered =>
    simp only [sentOf, List.filterMap_cons, Event.sent, List.filterMap_nil, List.length_cons,
      List.length_nil]
    omega
  | failed =>
    simp only [sentOf, List.filterMap_cons, Event.sent, List.filterMap_nil, List.length_cons,
      List.length_nil]
    omega
  | raised =>
    simp only [sentOf, List.filterMap_cons, Event.sent, List.filterMap_nil, List.length_cons,
      List.length_nil]
    omega
  | retried hpolicy hmore _ _ ih =>
    simp only [sentOf, List.filterMap_cons, Event.sent, List.length_cons] at ih ⊢
    have := ih (by omega) (by omega)
    omega

theorem Requests.calls_le (h : Requests policy remaining n previous events result) (k : ℕ) :
    events.countP (Event.calls k) ≤ if n < k then 1 else 0 := by
  have hone : ∀ {n : ℕ}, (if n + 1 = k then 1 else 0) ≤ if n < k then 1 else 0 := by
    intro n
    split
    · rw [if_pos (by omega)]
    · omega
  induction h with
  | refused => simpa [List.countP_cons, Event.calls] using hone
  | answered => simpa [List.countP_cons, Event.calls] using hone
  | failed => simpa [List.countP_cons, Event.calls] using hone
  | raised => simpa [List.countP_cons, Event.calls] using hone
  | retried _ _ _ _ ih =>
    simp only [List.countP_cons, Event.calls, decide_eq_true_eq, Bool.false_eq_true, if_false]
    split at ih
    · rw [if_neg (by omega), if_pos (by omega)]
      omega
    · split
      · rw [if_pos (by omega)]
        omega
      · omega

/-- Every attempt comes right after a call that gave a permit and that was told why. -/
theorem Requests.permitted (h : Requests policy remaining n previous events result) {k : ℕ}
    {outcome : Except Raised Answer} {cancelled : Bool}
    (hmem : Event.attempt k outcome cancelled ∈ events) :
    ∃ code permit before after, events = before ++ .beforeAttempt k code (.ok (some permit)) ::
        .attempt k outcome cancelled :: after ∧
      (k = n + 1 ∧ code = previous ∨ n + 1 < k ∧ ∃ f, code = some f.code ∧
        f.code ∈ policy.retryableFailureCodes ∧
        Event.attempt (k - 1) (.error (.failure f)) false ∈ before) := by
  induction h with
  | refused => simp at hmem
  | answered =>
    simp only [List.mem_cons, reduceCtorEq, List.not_mem_nil, or_false, false_or,
      Event.attempt.injEq] at hmem
    obtain ⟨rfl, rfl, rfl⟩ := hmem
    exact ⟨_, _, [], [], rfl, Or.inl ⟨rfl, rfl⟩⟩
  | failed =>
    simp only [List.mem_cons, reduceCtorEq, List.not_mem_nil, or_false, false_or,
      Event.attempt.injEq] at hmem
    obtain ⟨rfl, rfl, rfl⟩ := hmem
    exact ⟨_, _, [], [], rfl, Or.inl ⟨rfl, rfl⟩⟩
  | raised =>
    simp only [List.mem_cons, reduceCtorEq, List.not_mem_nil, or_false, false_or,
      Event.attempt.injEq] at hmem
    obtain ⟨rfl, rfl, rfl⟩ := hmem
    exact ⟨_, _, [], [], rfl, Or.inl ⟨rfl, rfl⟩⟩
  | @retried n previous permit f events result _ _ hcode _ ih =>
    simp only [List.mem_cons, reduceCtorEq, false_or] at hmem
    cases hmem with
    | inl heq =>
      cases heq
      exact ⟨_, _, [], _, rfl, Or.inl ⟨rfl, rfl⟩⟩
    | inr hmem =>
      obtain ⟨code, permit', before, after, rfl, hcases⟩ := ih hmem
      refine ⟨code, permit', .beforeAttempt (n + 1) previous (.ok (some permit)) ::
        .attempt (n + 1) (.error (.failure f)) false :: before, after, rfl, Or.inr ?_⟩
      cases hcases with
      | inl hfirst =>
        obtain ⟨rfl, rfl⟩ := hfirst
        refine ⟨by omega, f, rfl, hcode, ?_⟩
        simp
      | inr hlater =>
        obtain ⟨hk, g, hg, hgcode, hbefore⟩ := hlater
        exact ⟨by omega, g, hg, hgcode, .tail _ (.tail _ hbefore)⟩

theorem last_attempt {call sent : Event} {before after : List Event} {k : ℕ}
    {outcome : Except Raised Answer} {cancelled : Bool} (hcall : call.sent = none)
    (h : [call, sent] = before ++ .attempt k outcome cancelled :: after) : after = [] := by
  match before with
  | [] =>
    simp only [List.nil_append, List.cons.injEq] at h
    rw [h.1] at hcall
    cases hcall
  | [_] =>
    simp only [List.cons_append, List.nil_append, List.cons.injEq] at h
    exact h.2.2.symm
  | _ :: _ :: _ => simp at h

/-- Nothing comes after an attempt but a retry of a failure that the policy retries. -/
theorem Requests.final (h : Requests policy remaining n previous events result)
    {before after : List Event} {k : ℕ} {outcome : Except Raised Answer} {cancelled : Bool}
    (heq : events = before ++ .attempt k outcome cancelled :: after) (hafter : after ≠ []) :
    cancelled = false ∧
      ∃ f, outcome = .error (.failure f) ∧ f.code ∈ policy.retryableFailureCodes := by
  induction h generalizing before with
  | refused => cases before <;> simp at heq
  | answered => exact absurd (last_attempt rfl heq) hafter
  | failed => exact absurd (last_attempt rfl heq) hafter
  | raised => exact absurd (last_attempt rfl heq) hafter
  | retried _ _ hcode _ ih =>
    match before with
    | [] => simp at heq
    | [_] =>
      simp only [List.cons_append, List.nil_append, List.cons.injEq, Event.attempt.injEq] at heq
      obtain ⟨-, ⟨-, rfl, rfl⟩, -⟩ := heq
      exact ⟨rfl, _, rfl, hcode⟩
    | _ :: _ :: before =>
      simp only [List.cons_append, List.cons.injEq] at heq
      exact ih heq.2.2

theorem Requests.response (h : Requests policy remaining n previous events result)
    {r : TargetResponse} (hr : result = .ok r) : r.requestsMade = n + (sentOf events).length := by
  induction h with
  | refused => cases hr
  | answered =>
    cases hr
    rfl
  | failed => cases hr
  | raised => cases hr
  | retried _ _ _ _ ih =>
    simp only [sentOf, List.filterMap_cons, Event.sent, List.length_cons] at ih ⊢
    rw [ih hr]
    omega

theorem Requests.failure (h : Requests policy remaining n previous events result)
    {f : TransportFailure} (hf : result = .error (.failure f)) :
    f.requestsMade = n + (sentOf events).length := by
  induction h with
  | refused =>
    cases hf
    rfl
  | answered => cases hf
  | failed =>
    cases hf
    rfl
  | raised => cases hf
  | retried _ _ _ _ ih =>
    simp only [sentOf, List.filterMap_cons, Event.sent, List.length_cons] at ih ⊢
    rw [ih hf]
    omega

end Accounts

/-- The accounts of a request with the events of its loop. -/
structure Accounted (policy : RetryPolicy) (remaining : ℤ) (events : List Event)
    (result : Except Raised TargetResponse) : Prop where
  bounded : ((sentOf events).length : ℤ) ≤
    min ((1 + policy.maximumRetries : ℕ) : ℤ) (max 0 remaining)
  numbered : sentOf events = List.range' 1 (sentOf events).length
  permitted : ∀ k outcome cancelled, .attempt k outcome cancelled ∈ events →
    events.countP (Event.calls k) = 1 ∧
    ∃ code permit before after, events = before ++ .beforeAttempt k code (.ok (some permit)) ::
        .attempt k outcome cancelled :: after ∧
      (k = 1 ∧ code = none ∨ 1 < k ∧ ∃ f, code = some f.code ∧
        f.code ∈ policy.retryableFailureCodes ∧
        Event.attempt (k - 1) (.error (.failure f)) false ∈ before)
  final : ∀ before k outcome cancelled after,
    events = before ++ .attempt k outcome cancelled :: after → after ≠ [] →
    cancelled = false ∧
      ∃ f, outcome = .error (.failure f) ∧ f.code ∈ policy.retryableFailureCodes
  response : ∀ r, result = .ok r → r.requestsMade = (sentOf events).length
  failure : ∀ f, result = .error (.failure f) → f.requestsMade = (sentOf events).length

theorem Requests.accounted {policy : RetryPolicy} {remaining : ℤ} {events : List Event}
    {result : Except Raised TargetResponse} (hremaining : 0 < remaining)
    (h : Requests policy remaining 0 none events result) :
    Accounted policy remaining events result := by
  constructor
  · have := h.bounded (Nat.zero_le _) hremaining
    omega
  · exact h.numbered
  · intro k outcome cancelled hmem
    obtain ⟨code, permit, before, after, heq, hcases⟩ := h.permitted hmem
    refine ⟨?_, code, permit, before, after, heq, by simpa using hcases⟩
    have hle := h.calls_le k
    have hpos : 0 < events.countP (Event.calls k) := by
      apply List.countP_pos_iff.mpr
      refine ⟨.beforeAttempt k code (.ok (some permit)), ?_, by simp [Event.calls]⟩
      rw [heq]
      simp
    split at hle <;> omega
  · intro before k outcome cancelled after heq hafter
    exact h.final heq hafter
  · intro r hr
    simpa using h.response hr
  · intro f hf
    simpa using h.failure hf

/-- A request whose failure is raised before its loop has made no attempt. -/
theorem accounted_nothing {policy : RetryPolicy} {remaining : ℤ} {f : TransportFailure}
    (hf : f.requestsMade = 0) : Accounted policy remaining [] (.error (.failure f)) := by
  constructor
  · simp only [sentOf, List.filterMap_nil, List.length_nil]
    omega
  · rfl
  · intro k outcome cancelled hmem
    cases hmem
  · intro before k outcome cancelled after heq
    simp at heq
  · intro r hr
    cases hr
  · intro g hg
    cases hg
    exact hf

def Fresh {α : Type} (x : Except TransportFailure α) : Prop :=
  ∀ f, x = .error f → f.requestsMade = 0

theorem fresh_ok {α : Type} (a : α) : Fresh (.ok a) := by
  intro f hf
  cases hf

theorem fresh_require (c : Prop) [Decidable c] (code : FailureCode) :
    Fresh (require c { code := code } : Except TransportFailure Unit) := by
  intro f hf
  unfold require at hf
  split at hf
  · cases hf
  · cases hf
    rfl

theorem fresh_bind {α β : Type} {x : Except TransportFailure α} {g : α → Except TransportFailure β}
    (hx : Fresh x) (hg : ∀ a, Fresh (g a)) : Fresh (x >>= g) := by
  intro f hf
  cases x with
  | error e =>
    cases hf
    exact hx _ rfl
  | ok a => exact hg a f hf

theorem fresh_mapM {α β : Type} {g : α → Except TransportFailure β} (hg : ∀ a, Fresh (g a))
    (as : List α) : Fresh (as.mapM g) := by
  induction as with
  | nil => exact fresh_ok []
  | cons a as ih =>
    rw [List.mapM_cons]
    exact fresh_bind (hg a) fun b => fresh_bind ih fun bs => fresh_ok (b :: bs)

theorem fresh_invalid {α : Type} (code : FailureCode) :
    Fresh (.error { code := code } : Except TransportFailure α) := by
  intro f hf
  cases hf
  rfl

theorem validRoute_fresh (action : PreparedAction) : Fresh (validRoute action) := by
  unfold validRoute
  apply fresh_bind (fresh_require _ _)
  intro _
  split
  · exact fresh_invalid _
  · exact fresh_bind (fresh_require _ _) fun _ => fresh_bind (fresh_require _ _) fun _ =>
      fresh_bind (fresh_require _ _) fun _ => fresh_ok _

theorem token_fresh (header value : Text) :
    Fresh (credentialHeader.token header value { code := .invalidAuth }) := by
  unfold credentialHeader.token
  exact fresh_bind (fresh_require _ _) fun _ => fresh_ok _

theorem credentialHeader_fresh (profile : String) (credential : Credential) :
    Fresh (credentialHeader profile credential) := by
  unfold credentialHeader
  dsimp only
  split
  · exact fresh_ok _
  · exact token_fresh _ _
  · exact token_fresh _ _
  · apply fresh_bind (fresh_require _ _)
    intro _
    apply fresh_bind
    · apply fresh_mapM
      intro cookie
      split
      · split
        · exact fresh_ok _
        · exact fresh_invalid _
      · exact fresh_invalid _
    · intro pairs
      exact fresh_bind (fresh_require _ _) fun _ => fresh_ok _
  · exact fresh_invalid _

/-- Every request keeps its accounts: it sends no more than its policy and its budget allow, each
attempt on a permit of its own, and reports as many as it made. -/
theorem request_accounted (timeoutSeconds : ℚ) (call : RequestCall) (start : Poll) (locked : Bool)
    (env : ℕ → Turn) :
    Accounted call.policy call.remainingRequests
      (request timeoutSeconds call start locked env).1
      (request timeoutSeconds call start locked env).2 := by
  unfold request
  dsimp only
  split
  · next f hf =>
    have hfresh : f.requestsMade = 0 := by
      apply fresh_bind (validRoute_fresh call.action) _ f hf
      intro route
      exact fresh_bind (fresh_require _ _) fun _ => fresh_bind (fresh_require _ _) fun _ =>
        fresh_bind (credentialHeader_fresh _ _) fun _ => fresh_bind (fresh_require _ _) fun _ =>
          fresh_require _ _
    exact accounted_nothing hfresh
  · next hadmitted =>
    simp only [bind_ok, require_ok] at hadmitted
    obtain ⟨_, -, _, ⟨hrange, -⟩, _, hnonzero, -⟩ := hadmitted
    apply Requests.accounted _ (turns_requests 0 none)
    omega

end Heel.Transport
