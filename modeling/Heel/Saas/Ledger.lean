import Mathlib.Algebra.BigOperators.Group.List.Basic
import Heel.Contracts.Json

/-! The append-only usage ledger of `heel/saas/ledger.py`: reserve, consume, refund and the
compensation of a consumed canary unit, each inside the caller's transaction. -/
namespace Heel.Cloud
open Lib.Checks

inductive Meter where
  | runs | verifiedRuns | verifiedTargets | concurrency | retentionDays | seats | integrations
  | syncedReviews | activeRunners | canaryRuns
  deriving DecidableEq, Repr

inductive EntryKind where
  | reserve | consume | refund | platformFaultRefund
  deriving DecidableEq, Repr

/-- A row of `usage_ledger`. -/
structure Entry where
  workspaceId : String
  meter : Meter
  period : String
  kind : EntryKind
  amount : Int
  reservationId : String
  idempotencyKey : Option String := none
  ref : Option String := none
  reason : Option String := none
  deriving DecidableEq, Repr

abbrev Ledger := List Entry

/-- The quota of a plan that is negotiated. -/
def customQuota : Int := -1

def Entry.charge (e : Entry) : Int :=
  match e.kind with
  | .reserve | .platformFaultRefund => e.amount
  | .refund => -e.amount
  | .consume => 0

namespace Ledger

/-- `usage`: reserved less refunded. -/
def usage (l : Ledger) (workspaceId : String) (meter : Meter) (period : String) : Int :=
  ((l.filter fun e => e.workspaceId = workspaceId ∧ e.meter = meter ∧ e.period = period).map
    Entry.charge).sum

def globalUsage (l : Ledger) (meter : Meter) (period : String) : Int :=
  ((l.filter fun e => e.meter = meter ∧ e.period = period).map Entry.charge).sum

/-- Is there a row of this kind for the reservation? -/
def has (l : Ledger) (reservationId : String) (kind : EntryKind) : Bool :=
  l.any fun e => e.reservationId = reservationId ∧ e.kind = kind

def reservation (l : Ledger) (reservationId : String) : Option Entry :=
  l.find? fun e => e.reservationId = reservationId ∧ e.kind = .reserve

/-- The reserve row that holds an idempotency key. -/
def keyed (l : Ledger) (workspaceId : String) (meter : Meter) (key : String) : Option Entry :=
  l.find? fun e => e.workspaceId = workspaceId ∧ e.meter = meter ∧ e.idempotencyKey = some key ∧
    e.kind = .reserve

/-- What a reservation asks for; `quota` is the plan's, `fresh` the identifier it would get. -/
structure ReserveRequest where
  workspaceId : String
  meter : Meter
  amount : Int
  period : String
  idempotencyKey : Option String
  ref : Option String
  quota : Int
  globalCap : Option Int
  fresh : String
  deriving DecidableEq, Repr

def ReserveRequest.entry (q : ReserveRequest) : Entry where
  workspaceId := q.workspaceId
  meter := q.meter
  period := q.period
  kind := .reserve
  amount := q.amount
  reservationId := q.fresh
  idempotencyKey := q.idempotencyKey
  ref := q.ref

/-- The quota checks and the insert of `reserve_in_transaction`. -/
def reserveNew (l : Ledger) (q : ReserveRequest) : Except Refusal (String × Ledger) := do
  require (q.quota = customQuota ∨ l.usage q.workspaceId q.meter q.period + q.amount ≤ q.quota)
    ⟨.quotaExceeded, "quota exceeded"⟩
  require (q.globalCap.all fun cap => l.globalUsage q.meter q.period + q.amount ≤ cap)
    ⟨.globalCapExceeded, "platform circuit breaker"⟩
  return (q.fresh, l ++ [q.entry])

/-- `reserve_in_transaction`: the reservation of a known key is handed back unless it was
refunded. -/
def reserve (l : Ledger) (q : ReserveRequest) : Except Refusal (String × Ledger) := do
  require (0 < q.amount) ⟨.valueError, "reserve amount must be positive"⟩
  match q.idempotencyKey.bind (l.keyed q.workspaceId q.meter) with
  | some prior => do
    require (¬ l.has prior.reservationId .refund ∧ ¬ l.has prior.reservationId .platformFaultRefund)
      ⟨.idempotencyConflict, "retry with a new key"⟩
    return (prior.reservationId, l)
  | none => reserveNew l q

/-- `_settle_in_transaction`: the answer, and the ledger with the row it appends if it is true. -/
def settle (l : Ledger) (reservationId : String) (kind : EntryKind) :
    Except Refusal (Bool × Ledger) :=
  match l.reservation reservationId with
  | none => .error ⟨.keyError, "unknown reservation"⟩
  | some resv =>
    if l.has reservationId .refund then .ok (false, l)
    else if kind = .refund ∧ l.has reservationId .consume then .ok (false, l)
    else if l.has reservationId kind then .ok (false, l)
    else .ok (true, l ++ [{ resv with kind := kind, idempotencyKey := none, reason := none }])

def consume (l : Ledger) (reservationId : String) : Except Refusal (Bool × Ledger) :=
  l.settle reservationId .consume

def refundConsumed (l : Ledger) (reservationId reason : String) : Except Refusal (Bool × Ledger) :=
  do
  require (reason = "platform_fault" ∨ reason = "runner_fault")
    ⟨.valueError, "canary compensation reason must be platform or runner fault"⟩
  match l.reservation reservationId with
  | none => .error ⟨.keyError, "unknown reservation"⟩
  | some resv => do
    require (resv.meter = .canaryRuns)
      ⟨.valueError, "only CANARY_RUNS reservations support consumed compensation"⟩
    if ¬ l.has reservationId .consume ∨ l.has reservationId .refund ∨
        l.has reservationId .platformFaultRefund then
      return (false, l)
    else
      return (true, l ++ [{ resv with
        kind := .platformFaultRefund, amount := -resv.amount, idempotencyKey := none
        reason := some reason }])

variable {l l' : Ledger} {reservationId : String} {kind : EntryKind} {answer : Bool}

theorem has_append (e : Entry) : Ledger.has (l ++ [e]) reservationId kind =
    (l.has reservationId kind || decide (e.reservationId = reservationId ∧ e.kind = kind)) := by
  simp [has]

theorem reservation_id {e : Entry} (h : l.reservation reservationId = some e) :
    e.reservationId = reservationId ∧ e.kind = .reserve := by
  simpa using List.find?_some h

theorem settle_ok (h : l.settle reservationId kind = .ok (answer, l')) :
    (answer = false ∧ l' = l ∧ (l.has reservationId .refund ∨
      kind = .refund ∧ l.has reservationId .consume ∨ l.has reservationId kind)) ∨
    (answer = true ∧ ¬ l.has reservationId .refund ∧ ¬ l.has reservationId kind ∧
      ¬ (kind = .refund ∧ l.has reservationId .consume) ∧
      ∃ e : Entry, e.reservationId = reservationId ∧ e.kind = kind ∧ l' = l ++ [e]) := by
  unfold settle at h
  split at h
  · cases h
  · rename_i resv hresv
    obtain ⟨hid, -⟩ := reservation_id hresv
    by_cases h1 : l.has reservationId .refund
    · simp only [h1, if_true, Except.ok.injEq, Prod.mk.injEq] at h
      exact .inl ⟨h.1.symm, h.2.symm, .inl h1⟩
    · by_cases h2 : kind = .refund ∧ l.has reservationId .consume
      · simp only [h1, h2, if_true, Bool.false_eq_true, if_false, Except.ok.injEq,
          Prod.mk.injEq, and_self] at h
        exact .inl ⟨h.1.symm, h.2.symm, .inr (.inl h2)⟩
      · by_cases h3 : l.has reservationId kind
        · simp only [h1, h2, h3, if_true, Bool.false_eq_true, if_false, Except.ok.injEq,
            Prod.mk.injEq] at h
          exact .inl ⟨h.1.symm, h.2.symm, .inr (.inr h3)⟩
        · simp only [h1, h2, h3, Bool.false_eq_true, if_false, Except.ok.injEq,
            Prod.mk.injEq] at h
          exact .inr ⟨h.1.symm, h1, h3, h2,
            { resv with kind := kind, idempotencyKey := none, reason := none }, hid, rfl, h.2.symm⟩

theorem refundConsumed_ok {reason : String}
    (h : l.refundConsumed reservationId reason = .ok (answer, l')) :
    (reason = "platform_fault" ∨ reason = "runner_fault") ∧
    ((answer = false ∧ l' = l) ∨
    (answer = true ∧ l.has reservationId .consume ∧ ¬ l.has reservationId .refund ∧
      ¬ l.has reservationId .platformFaultRefund ∧
      ∃ e : Entry, e.reservationId = reservationId ∧ e.kind = .platformFaultRefund ∧
        l' = l ++ [e])) := by
  simp only [refundConsumed, bind_ok, require_ok, exists_const] at h
  obtain ⟨hreason, h⟩ := h
  refine ⟨hreason, ?_⟩
  split at h
  · cases h
  · rename_i resv hresv
    obtain ⟨hid, -⟩ := reservation_id hresv
    simp only [bind_ok, require_ok, exists_const] at h
    obtain ⟨-, h⟩ := h
    split at h
    · simp only [pure, Except.pure, Except.ok.injEq, Prod.mk.injEq] at h
      exact .inl ⟨h.1.symm, h.2.symm⟩
    · rename_i hnot
      simp only [not_or, not_not] at hnot
      simp only [pure, Except.pure, Except.ok.injEq, Prod.mk.injEq] at h
      exact .inr ⟨h.1.symm, hnot.1, hnot.2.1, hnot.2.2, { resv with
        kind := .platformFaultRefund, amount := -resv.amount, idempotencyKey := none
        reason := some reason }, hid, rfl, h.2.symm⟩

end Ledger
end Heel.Cloud
