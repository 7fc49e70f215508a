import Heel.Saas.Usage

/-! The entitlement authority of `heel/saas/entitlement.py` over the catalog of
`heel/saas/catalog.py`: the plan that applies, and the reservation of a run. -/
namespace Heel.Cloud
open Lib Lib.Checks

structure Plan where
  id : String
  quotas : List (Meter × Int)
  deriving DecidableEq, Repr

def Plan.quota (plan : Plan) (meter : Meter) : Int := (plan.quotas.lookup meter).getD 0

def catalogVersion : String := "2026-08-24"
def preCanaryCatalogVersion : String := "2026-08-04"
def legacyCatalogVersion : String := "2026-07-13"

def plans : List Plan := [
  ⟨"free", [(.runs, 25), (.verifiedRuns, 5), (.verifiedTargets, 1), (.concurrency, 1),
    (.retentionDays, 7), (.seats, 1), (.integrations, 0), (.syncedReviews, 3)]⟩,
  ⟨"pro", [(.runs, 300), (.verifiedRuns, 100), (.verifiedTargets, 5), (.concurrency, 3),
    (.retentionDays, 30), (.seats, 3), (.integrations, 3), (.syncedReviews, 25)]⟩,
  ⟨"team", [(.runs, 1500), (.verifiedRuns, 500), (.verifiedTargets, 25), (.concurrency, 8),
    (.retentionDays, 90), (.seats, 10), (.integrations, 10), (.syncedReviews, 100)]⟩,
  ⟨"enterprise", [(.runs, customQuota), (.verifiedRuns, customQuota),
    (.verifiedTargets, customQuota), (.concurrency, customQuota), (.retentionDays, customQuota),
    (.seats, customQuota), (.integrations, customQuota), (.syncedReviews, customQuota)]⟩]

def launchPlans : List Plan := plans.map fun plan =>
  if plan.id = "free" then
    { plan with quotas := plan.quotas ++ [(.activeRunners, 1), (.canaryRuns, 10)] }
  else plan

def legacyPlans : List Plan := plans.map fun plan =>
  { plan with quotas := plan.quotas.filter fun q =>
      q.1 ∉ [Meter.syncedReviews, .activeRunners, .canaryRuns] }

def catalogs : List (String × List Plan) :=
  [(legacyCatalogVersion, legacyPlans), (preCanaryCatalogVersion, plans),
    (catalogVersion, launchPlans)]

def getPlan (planId : String) (version : Option String) : Except Refusal Plan := do
  let known ← match version with
    | none => Except.ok launchPlans
    | some v => (catalogs.lookup v).elim (.error ⟨.keyError, "unknown catalog version"⟩) .ok
  (known.find? fun plan => plan.id = planId).elim (.error ⟨.keyError, "unknown plan"⟩) .ok

structure Subscription where
  workspaceId : String
  planId : String
  state : String
  catalogVersion : String
  deriving DecidableEq, Repr

def activeStates : List String := ["trialing", "active", "past_due"]

def effectivePlan (sub : Subscription) : Except Refusal Plan :=
  let version := if sub.catalogVersion = "" then none else some sub.catalogVersion
  if sub.state ∈ activeStates then getPlan sub.planId version else getPlan "free" version

structure GlobalCaps where
  runs : Int
  verifiedRuns : Int
  deriving DecidableEq, Repr

/-- What `reserve_run` is called with, and the identifiers its reservations would get. -/
structure RunRequest where
  sub : Subscription
  period : String
  verified : Bool
  idempotencyKey : Option String
  ref : Option String
  freshRuns : String
  freshVerified : String
  deriving DecidableEq, Repr

/-- `f"{idempotency_key}:verified" if idempotency_key else None`. -/
def verifiedKey (key : Option String) : Option String :=
  key.bind fun k => if k = "" then none else some (k ++ ":verified")

namespace RunRequest

def runs (q : RunRequest) (caps : GlobalCaps) (plan : Plan) : Ledger.ReserveRequest where
  workspaceId := q.sub.workspaceId
  meter := .runs
  amount := 1
  period := q.period
  idempotencyKey := q.idempotencyKey
  ref := q.ref
  quota := plan.quota .runs
  globalCap := some caps.runs
  fresh := q.freshRuns

def verifiedRuns (q : RunRequest) (caps : GlobalCaps) (plan : Plan) : Ledger.ReserveRequest where
  workspaceId := q.sub.workspaceId
  meter := .verifiedRuns
  amount := 1
  period := q.period
  idempotencyKey := verifiedKey q.idempotencyKey
  ref := q.ref
  quota := plan.quota .verifiedRuns
  globalCap := some caps.verifiedRuns
  fresh := q.freshVerified

end RunRequest

/-- The verified leg of `reserve_run`, and the refund of the other one. -/
def reserveVerified (runsId : String) (q : Ledger.ReserveRequest) (l : Ledger) :
    Ledger × Except Refusal (List String) :=
  match l.reserve q with
  | .ok (id, l) => (l, .ok [runsId, id])
  | .error e =>
    if e.raised = .quotaExceeded ∨ e.raised = .globalCapExceeded then
      match l.settle runsId .refund with
      | .ok (_, l) => (l, .error e)
      | .error e' => (l, .error e')
    else (l, .error e)

/-- `reserve_run`: every call of the ledger is a transaction of its own. -/
def reserveRun (caps : GlobalCaps) (q : RunRequest) (l : Ledger) :
    Ledger × Except Refusal (List String) :=
  match effectivePlan q.sub with
  | .error e => (l, .error e)
  | .ok plan =>
    match l.reserve (q.runs caps plan) with
    | .error e => (l, .error e)
    | .ok (runsId, l) =>
      if q.verified then reserveVerified runsId (q.verifiedRuns caps plan) l
      else (l, .ok [runsId])

namespace Ledger

/-- The reservation that already holds the key of a request. -/
def ReserveRequest.prior (q : ReserveRequest) (l : Ledger) : Option Entry :=
  q.idempotencyKey.bind (l.keyed q.workspaceId q.meter)

/-- Is there room for the request under its quota and its cap? -/
def ReserveRequest.Fits (q : ReserveRequest) (l : Ledger) : Prop :=
  (q.quota = customQuota ∨ l.usage q.workspaceId q.meter q.period + q.amount ≤ q.quota) ∧
    q.globalCap.all (fun cap => l.globalUsage q.meter q.period + q.amount ≤ cap) = true

instance (q : ReserveRequest) (l : Ledger) : Decidable (q.Fits l) :=
  inferInstanceAs (Decidable (_ ∧ _))

end Ledger

/-- What a call that raises has to leave as it was. -/
structure Untouched (workspaceId period : String) (l t : Ledger) : Prop where
  runs : t.usage workspaceId .runs period = l.usage workspaceId .runs period
  verifiedRuns : t.usage workspaceId .verifiedRuns period = l.usage workspaceId .verifiedRuns period
  kept : ∀ r ∈ l.reserves, t.released r.reservationId = l.released r.reservationId

/-- The two kinds of calls that raise and leave a trace: a repetition whose open reservation is
given back, and a new reservation that is kept although the key of the verified one was refunded. -/
def RunRequest.Leaks (q : RunRequest) (caps : GlobalCaps) (l : Ledger) : Prop :=
  q.verified = true ∧ ∃ plan, effectivePlan q.sub = .ok plan ∧
    ((∃ prior, (q.runs caps plan).prior l = some prior ∧ l.released prior.reservationId = false ∧
        l.has prior.reservationId .consume = false ∧
        (q.verifiedRuns caps plan).prior l = none ∧ ¬ (q.verifiedRuns caps plan).Fits l) ∨
      ((q.runs caps plan).prior l = none ∧ (q.runs caps plan).Fits l ∧
        ∃ prior, (q.verifiedRuns caps plan).prior l = some prior ∧
          l.released prior.reservationId = true))

variable {l t : Ledger} {q : Ledger.ReserveRequest} {r : Entry} {id : String} {e : Refusal}

theorem reserve_replay (hpos : 0 < q.amount) (hprior : q.prior l = some r) :
    l.reserve q = if l.released r.reservationId then
      .error ⟨.idempotencyConflict, "retry with a new key"⟩ else .ok (r.reservationId, l) := by
  unfold Ledger.ReserveRequest.prior at hprior
  simp only [Ledger.reserve, require, if_pos hpos, hprior, Ledger.released, bind, Except.bind]
  by_cases h1 : l.has r.reservationId .refund = true
  · simp [h1]
  · by_cases h2 : l.has r.reservationId .platformFaultRefund = true
    · simp [h1, h2]
    · simp [h1, h2, pure, Except.pure]

/-- A request without a key that is known is decided by its quota and its cap. -/
theorem reserve_new (hpos : 0 < q.amount) (hprior : q.prior l = none) :
    (q.Fits l → l.reserve q = .ok (q.fresh, l ++ [q.entry])) ∧
    (¬ q.Fits l → ∃ e, l.reserve q = .error e ∧
      (e.raised = .quotaExceeded ∨ e.raised = .globalCapExceeded)) := by
  unfold Ledger.ReserveRequest.prior at hprior
  have hnew : l.reserve q = l.reserveNew q := by
    simp only [Ledger.reserve, require, if_pos hpos, hprior]
    rfl
  rw [hnew]
  refine ⟨fun hfits => ?_, fun hfits => ?_⟩
  · simp only [Ledger.reserveNew, bind_ok, require_ok, exists_const]
    exact ⟨hfits.1, hfits.2, rfl⟩
  · by_cases hquota : q.quota = customQuota ∨
        l.usage q.workspaceId q.meter q.period + q.amount ≤ q.quota
    · have hcap : ¬ q.globalCap.all
          (fun cap => l.globalUsage q.meter q.period + q.amount ≤ cap) = true :=
        fun hcap => hfits ⟨hquota, hcap⟩
      refine ⟨⟨.globalCapExceeded, "platform circuit breaker"⟩, ?_, .inr rfl⟩
      simp only [Ledger.reserveNew, require, if_pos hquota, if_neg hcap, bind, Except.bind]
    · refine ⟨⟨.quotaExceeded, "quota exceeded"⟩, ?_, .inl rfl⟩
      simp only [Ledger.reserveNew, require, if_neg hquota, bind, Except.bind]

def Entry.refundRow (r : Entry) : Entry :=
  { r with kind := .refund, idempotencyKey := none, reason := none }

theorem settle_refund (hr : l.reservation id = some r) :
    l.settle id .refund = .ok (if l.has id .refund || l.has id .consume then (false, l)
      else (true, l ++ [r.refundRow])) := by
  simp only [Ledger.settle, hr]
  by_cases h1 : l.has id .refund = true
  · simp [h1]
  · by_cases h2 : l.has id .consume = true
    · simp [h1, h2]
    · simp [h1, h2, Entry.refundRow]

theorem prior_mem (h : q.prior l = some r) : r ∈ l.reserves ∧ r.workspaceId = q.workspaceId ∧
    r.meter = q.meter ∧ r.idempotencyKey = q.idempotencyKey := by
  obtain ⟨key, hkey, hfind⟩ := Option.bind_eq_some_iff.mp h
  have hspec := List.find?_some hfind
  simp only [decide_eq_true_eq] at hspec
  exact ⟨mem_reserves.mpr ⟨List.mem_of_find?_eq_some hfind, hspec.2.2.2⟩, hspec.1, hspec.2.1,
    hspec.2.2.1.trans hkey.symm⟩

theorem UsageInv.reservation_of_mem (hi : UsageInv l) (hr : r ∈ l.reserves) :
    l.reservation r.reservationId = some r := by
  obtain ⟨hmem, hkind⟩ := mem_reserves.mp hr
  refine Table.find_only hmem (decide_eq_true ⟨rfl, hkind⟩) fun o ho hspec => ?_
  obtain ⟨hid, hokind⟩ := of_decide_eq_true hspec
  exact Table.eq_of_key hi.ids (mem_reserves.mpr ⟨ho, hokind⟩) hr hid

/-- A reservation of another meter leaves a search by a key alone. -/
theorem prior_append (hmeter : r.meter ≠ q.meter) : q.prior (l ++ [r]) = q.prior l := by
  unfold Ledger.ReserveRequest.prior Ledger.keyed
  congr 1
  funext key
  rw [List.find?_append]
  simp [hmeter]

theorem reserveVerified_error {runsId : String} (hpos : 0 < q.amount)
    (h : reserveVerified runsId q l = (t, .error e)) :
    (t = l ∧ ∃ v, q.prior l = some v ∧ l.released v.reservationId = true) ∨
    (q.prior l = none ∧ ¬ q.Fits l ∧
      ((∃ answer, l.settle runsId .refund = .ok (answer, t)) ∨
        (t = l ∧ ∃ e', l.settle runsId .refund = .error e'))) := by
  unfold reserveVerified at h
  cases hprior : q.prior l with
  | some v =>
    rw [reserve_replay hpos hprior] at h
    by_cases hreleased : l.released v.reservationId = true
    · simp only [hreleased, if_true, reduceCtorEq, or_self, if_false, Prod.mk.injEq] at h
      exact .inl ⟨h.1.symm, v, rfl, hreleased⟩
    · simp only [hreleased, Bool.false_eq_true, if_false, Prod.mk.injEq, reduceCtorEq,
        and_false] at h
  | none =>
    obtain ⟨hok, herr⟩ := reserve_new hpos hprior
    by_cases hfits : q.Fits l
    · rw [hok hfits] at h
      simp at h
    · obtain ⟨e0, he0, hraised⟩ := herr hfits
      rw [he0] at h
      simp only [hraised, if_true] at h
      refine .inr ⟨rfl, hfits, ?_⟩
      split at h
      · rename_i answer u hsettle
        simp only [Prod.mk.injEq] at h
        exact .inl ⟨answer, h.1 ▸ hsettle⟩
      · rename_i e' hsettle
        simp only [Prod.mk.injEq] at h
        exact .inr ⟨h.1.symm, e', hsettle⟩

theorem reachable_reserve (hs : usageLedger.Reachable l)
    (hfresh : ∀ e ∈ l, e.reservationId ≠ q.fresh) (h : l.reserve q = .ok (id, t)) :
    usageLedger.Reachable t := by
  refine .step (a := .reserve q) hs ⟨fun q' hq' => ?_, ?_⟩
  · cases hq'
    exact hfresh
  · rw [Ledger.transact, Ledger.call, h]
    rfl

theorem reachable_refund (hs : usageLedger.Reachable l) {answer : Bool}
    (h : l.settle id .refund = .ok (answer, t)) : usageLedger.Reachable t := by
  refine .step (a := .refund id) hs ⟨fun q' hq' => (by cases hq'), ?_⟩
  rw [Ledger.transact, Ledger.call, h]
  rfl

theorem reserveRun_reachable (caps : GlobalCaps) {q : RunRequest} (hs : usageLedger.Reachable l)
    (hfresh : ∀ e ∈ l, e.reservationId ≠ q.freshRuns ∧ e.reservationId ≠ q.freshVerified)
    (hne : q.freshRuns ≠ q.freshVerified) :
    usageLedger.Reachable (reserveRun caps q l).1 := by
  unfold reserveRun
  split
  · exact hs
  · rename_i plan hplan
    split
    · exact hs
    · rename_i runsId mid hruns
      have hmid := reachable_reserve hs (fun e he => (hfresh e he).1) hruns
      have hfreshv : ∀ e ∈ mid, e.reservationId ≠ q.freshVerified := by
        intro e he
        rcases reserve_rows hruns with rfl | rfl
        · exact (hfresh e he).2
        · rcases List.mem_append.mp he with he | he
          · exact (hfresh e he).2
          · rw [List.mem_singleton.mp he]
            exact hne
      split
      · unfold reserveVerified
        split
        · rename_i hverified
          exact reachable_reserve hmid hfreshv hverified
        · split
          · split
            · rename_i hrefund
              exact reachable_refund hmid hrefund
            · exact hmid
          · exact hmid
      · exact hmid

theorem Untouched.refl (w p : String) (l : Ledger) : Untouched w p l l := ⟨rfl, rfl, fun _ _ => rfl⟩

variable {caps : GlobalCaps} {q : RunRequest} {plan : Plan}

/-- A new reservation that is given back at once leaves nothing behind. -/
theorem refunded_untouched (hfresh : ∀ e ∈ l, e.reservationId ≠ q.freshRuns) :
    Untouched q.sub.workspaceId q.period l
      (l ++ [(q.runs caps plan).entry] ++ [(q.runs caps plan).entry.refundRow]) := by
  have husage : ∀ m, Ledger.usage (l ++ [(q.runs caps plan).entry] ++
      [(q.runs caps plan).entry.refundRow]) q.sub.workspaceId m q.period =
      l.usage q.sub.workspaceId m q.period := by
    intro m
    rw [usage_append, usage_append]
    have hsame : (q.runs caps plan).entry.refundRow.inBucket q.sub.workspaceId m q.period =
        (q.runs caps plan).entry.inBucket q.sub.workspaceId m q.period := rfl
    rw [hsame]
    split
    · simp [Entry.charge, Entry.refundRow, Ledger.ReserveRequest.entry]
    · omega
  refine ⟨husage _, husage _, fun r hr => ?_⟩
  have hne := hfresh r (mem_reserves.mp hr).1
  rw [released_append, released_append]
  simp [Ledger.ReserveRequest.entry, Entry.refundRow, RunRequest.runs, hne.symm]

theorem refund_fresh (caps : GlobalCaps) (plan : Plan)
    (hfresh : ∀ e ∈ l, e.reservationId ≠ q.freshRuns) :
    Ledger.settle (l ++ [(q.runs caps plan).entry]) q.freshRuns .refund =
      .ok (true, l ++ [(q.runs caps plan).entry] ++ [(q.runs caps plan).entry.refundRow]) := by
  have hnone : ∀ kind, l.has q.freshRuns kind = false := by
    intro kind
    rw [Ledger.has, List.any_eq_false]
    exact fun e he hspec => hfresh e he (of_decide_eq_true hspec).1
  have hfind : Ledger.reservation (l ++ [(q.runs caps plan).entry]) q.freshRuns =
      some (q.runs caps plan).entry := by
    refine Table.find_only (by simp) (decide_eq_true ⟨rfl, rfl⟩) fun o ho hspec => ?_
    rcases List.mem_append.mp ho with ho | ho
    · exact absurd (of_decide_eq_true hspec).1 (hfresh o ho)
    · exact List.mem_singleton.mp ho
  rw [settle_refund hfind, Ledger.has_append, Ledger.has_append, hnone, hnone]
  simp [Ledger.ReserveRequest.entry]

theorem reserveRun_untouched (hfresh : ∀ e ∈ l, e.reservationId ≠ q.freshRuns)
    (hi : UsageInv l) (hleaks : ¬ q.Leaks caps l) (h : reserveRun caps q l = (t, .error e)) :
    Untouched q.sub.workspaceId q.period l t := by
  unfold reserveRun at h
  split at h
  · cases h
    exact .refl _ _ _
  · rename_i plan hplan
    have hpos : 0 < (q.runs caps plan).amount := Int.one_pos
    have hposv : 0 < (q.verifiedRuns caps plan).amount := Int.one_pos
    cases hprior : (q.runs caps plan).prior l with
    | some r =>
      rw [reserve_replay hpos hprior] at h
      by_cases hreleased : l.released r.reservationId = true
      · simp only [hreleased, if_true, Prod.mk.injEq] at h
        exact h.1 ▸ .refl _ _ _
      · rw [if_neg hreleased] at h
        simp only at h
        split at h
        · rename_i hverified
          rcases reserveVerified_error hposv h with ⟨rfl, -⟩ |
            ⟨hnone, hfits, ⟨answer, hsettle⟩ | ⟨rfl, -⟩⟩
          · exact .refl _ _ _
          · obtain ⟨hmem, -⟩ := prior_mem hprior
            rw [settle_refund (hi.reservation_of_mem hmem)] at hsettle
            by_cases hconsumed : l.has r.reservationId .consume = true
            · simp only [hconsumed, Bool.or_true, if_true, Except.ok.injEq,
              Prod.mk.injEq] at hsettle
              exact hsettle.2 ▸ .refl _ _ _
            · refine absurd ⟨hverified, plan, hplan, .inl ⟨r, hprior, ?_, ?_, hnone, hfits⟩⟩ hleaks
              · simpa using hreleased
              · simpa using hconsumed
          · exact .refl _ _ _
        · cases h
    | none =>
      obtain ⟨hok, herr⟩ := reserve_new hpos hprior
      by_cases hfits : (q.runs caps plan).Fits l
      · rw [hok hfits] at h
        simp only at h
        split at h
        · rename_i hverified
          rcases reserveVerified_error hposv h with ⟨rfl, v, hv, hvreleased⟩ |
            ⟨hnone, -, ⟨answer, hsettle⟩ | ⟨-, e', hsettle⟩⟩
          · -- a key that was refunded for the verified leg only
            rw [prior_append (by simp [Ledger.ReserveRequest.entry, RunRequest.runs,
              RunRequest.verifiedRuns])] at hv
            rw [released_append] at hvreleased
            simp only [Ledger.ReserveRequest.entry, reduceCtorEq, or_self, and_false, decide_false,
              Bool.or_false] at hvreleased
            exact absurd ⟨hverified, plan, hplan, .inr ⟨hprior, hfits, v, hv, hvreleased⟩⟩ hleaks
          · have hrefund := refund_fresh caps plan hfresh
            rw [show (q.runs caps plan).fresh = q.freshRuns from rfl, hrefund] at hsettle
            simp only [Except.ok.injEq, Prod.mk.injEq] at hsettle
            exact hsettle.2 ▸ refunded_untouched hfresh
          · have hrefund := refund_fresh caps plan hfresh
            rw [show (q.runs caps plan).fresh = q.freshRuns from rfl, hrefund] at hsettle
            cases hsettle
        · cases h
      · obtain ⟨e0, he0, -⟩ := herr hfits
        rw [he0] at h
        simp only [Prod.mk.injEq] at h
        exact h.1 ▸ .refl _ _ _

/-- A call of one of the two kinds raises, and something has changed. -/
theorem reserveRun_leaks (hi : UsageInv l) (hleaks : q.Leaks caps l) :
    ∃ t e, reserveRun caps q l = (t, .error e) ∧ ¬ Untouched q.sub.workspaceId q.period l t := by
  obtain ⟨hverified, plan, hplan, hcase⟩ := hleaks
  have hpos : 0 < (q.runs caps plan).amount := Int.one_pos
  have hposv : 0 < (q.verifiedRuns caps plan).amount := Int.one_pos
  rcases hcase with ⟨r, hprior, hreleased, hconsumed, hnone, hfits⟩ |
    ⟨hprior, hfits, v, hv, hvreleased⟩
  · obtain ⟨hmem, -⟩ := prior_mem hprior
    obtain ⟨e, he, hraised⟩ := (reserve_new hposv hnone).2 hfits
    have hnotRefunded : l.has r.reservationId .refund = false := by
      simp only [Ledger.released, Bool.or_eq_false_iff] at hreleased
      exact hreleased.1
    have hsettle : l.settle r.reservationId .refund = .ok (true, l ++ [r.refundRow]) := by
      rw [settle_refund (hi.reservation_of_mem hmem), hnotRefunded, hconsumed]
      rfl
    refine ⟨l ++ [r.refundRow], e, ?_, fun huntouched => ?_⟩
    · simp only [reserveRun, hplan, reserve_replay hpos hprior, hreleased, Bool.false_eq_true,
        if_false, hverified, if_true, reserveVerified, he, hraised, hsettle]
    · have hkept := huntouched.kept r hmem
      rw [released_append, hreleased] at hkept
      simp [Entry.refundRow] at hkept
  · have hv' : (q.verifiedRuns caps plan).prior (l ++ [(q.runs caps plan).entry]) = some v := by
      rw [prior_append (by simp [Ledger.ReserveRequest.entry, RunRequest.runs,
        RunRequest.verifiedRuns]), hv]
    have hreleased : Ledger.released (l ++ [(q.runs caps plan).entry]) v.reservationId = true := by
      rw [released_append, hvreleased, Bool.true_or]
    refine ⟨l ++ [(q.runs caps plan).entry], ⟨.idempotencyConflict, "retry with a new key"⟩, ?_,
      fun huntouched => ?_⟩
    · simp only [reserveRun, hplan, (reserve_new hpos hprior).1 hfits, hverified, if_true,
        reserveVerified, reserve_replay hposv hv', hreleased, reduceCtorEq, or_self, if_false]
    · have hruns := huntouched.runs
      rw [usage_append] at hruns
      simp [Entry.inBucket, Entry.charge, Ledger.ReserveRequest.entry, RunRequest.runs] at hruns

/-- `reserve_run` is all or nothing exactly where a call is of neither kind. -/
theorem reserve_run_all_or_nothing_iff (hs : usageLedger.Reachable l)
    (hfresh : ∀ e ∈ l, e.reservationId ≠ q.freshRuns) :
    (∀ t e, reserveRun caps q l = (t, .error e) → Untouched q.sub.workspaceId q.period l t) ↔
      ¬ q.Leaks caps l := by
  have hi := usageLedger_inv hs
  refine ⟨fun huntouched hleaks => ?_, fun hleaks t e h => reserveRun_untouched hfresh hi hleaks h⟩
  obtain ⟨t, e, h, htouched⟩ := reserveRun_leaks hi hleaks
  exact htouched (huntouched t e h)

section Sample

def sampleCaps : GlobalCaps := ⟨100000, 10000⟩

def freeSubscription : Subscription := ⟨"workspace_1", "free", "active", "2026-08-24"⟩

def syntheticRun : RunRequest :=
  ⟨freeSubscription, "2026-08", false, some "key_1", none, "resv_1", "resv_2"⟩

def verifiedRun : RunRequest :=
  { syntheticRun with verified := true, freshRuns := "resv_3", freshVerified := "resv_4" }

/-- A ledger whose verified ceiling is exhausted. -/
def exhaustedLedger : Ledger :=
  Ledger.transact [] (.reserve
    ⟨"workspace_1", .verifiedRuns, 5, "2026-08", none, none, 5, some 10000, "resv_0"⟩)

def openRunLedger : Ledger := (reserveRun sampleCaps syntheticRun exhaustedLedger).1

theorem exhaustedLedger_reachable : usageLedger.Reachable exhaustedLedger :=
  .step (a := .reserve _) (.init rfl) ⟨fun _ _ e he => (by cases he), rfl⟩

theorem openRunLedger_reachable : usageLedger.Reachable openRunLedger :=
  reserveRun_reachable sampleCaps exhaustedLedger_reachable (by decide) (by decide)

/-- The reservation of a run that is open is given back when its key is repeated. -/
theorem repeated_key_refunds_open_run : usageLedger.Reachable openRunLedger ∧
    (∀ e ∈ openRunLedger, e.reservationId ≠ verifiedRun.freshRuns) ∧
    ∃ t e, reserveRun sampleCaps verifiedRun openRunLedger = (t, .error e) ∧
      e.raised = .quotaExceeded ∧ openRunLedger.usage "workspace_1" .runs "2026-08" = 1 ∧
      t.usage "workspace_1" .runs "2026-08" = 0 ∧
      openRunLedger.released "resv_1" = false ∧ t.released "resv_1" = true := by
  refine ⟨openRunLedger_reachable, by decide, (reserveRun sampleCaps verifiedRun openRunLedger).1,
    ⟨.quotaExceeded, "quota exceeded"⟩, by decide, rfl, by decide, by decide, by decide, by decide⟩

/-- A new key: the new reservation is given back, and nothing else. -/
def otherKeyRun : RunRequest := { verifiedRun with idempotencyKey := some "key_2" }

theorem reserve_run_all_or_nothing_sample :
    ((∀ t e, reserveRun sampleCaps otherKeyRun openRunLedger = (t, .error e) →
      Untouched "workspace_1" "2026-08" openRunLedger t) ↔
        ¬ otherKeyRun.Leaks sampleCaps openRunLedger) ∧
    (reserveRun sampleCaps otherKeyRun openRunLedger).1.usage "workspace_1" .runs "2026-08" = 1 :=
  ⟨reserve_run_all_or_nothing_iff openRunLedger_reachable (by decide), by decide⟩

end Sample

end Heel.Cloud
