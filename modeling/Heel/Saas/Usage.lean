import Mathlib.Algebra.BigOperators.Group.Finset.Basic
import Mathlib.Algebra.Order.BigOperators.Group.List
import Heel.Lib.Table
import Heel.Lib.Transition
import Heel.Saas.Ledger

/-! The balance of the usage ledger: usage is what the reservations that have not been released
amount to, and a ceiling that every reservation is checked against holds of it. -/
namespace Heel.Cloud
open Lib Lib.Checks

inductive UsageCall where
  | reserve (q : Ledger.ReserveRequest)
  | consume (reservationId : String)
  | refund (reservationId : String)
  | refundConsumed (reservationId reason : String)

def Entry.inBucket (e : Entry) (workspaceId : String) (meter : Meter) (period : String) : Bool :=
  e.workspaceId = workspaceId ∧ e.meter = meter ∧ e.period = period

namespace Ledger

variable {l t : Ledger} {c : UsageCall} {r e : Entry}

/-- The rows a call leaves, if it does not raise. -/
def call (l : Ledger) : UsageCall → Except Refusal Ledger
  | .reserve q => Prod.snd <$> l.reserve q
  | .consume id => Prod.snd <$> l.consume id
  | .refund id => Prod.snd <$> l.settle id .refund
  | .refundConsumed id reason => Prod.snd <$> l.refundConsumed id reason

/-- One serialized transaction: a call that raises leaves the rows as they were. -/
def transact (l : Ledger) (c : UsageCall) : Ledger :=
  match l.call c with
  | .ok t => t
  | .error _ => l

/-- The reservations, and those of a bucket. -/
def reserves (l : Ledger) : Ledger := l.filter fun e => e.kind = .reserve

def released (l : Ledger) (reservationId : String) : Bool :=
  l.has reservationId .refund || l.has reservationId .platformFaultRefund

/-- The reservations of a bucket that have not been given back. -/
def active (l : Ledger) (workspaceId : String) (meter : Meter) (period : String) : Ledger :=
  l.reserves.filter fun e => e.inBucket workspaceId meter period && !l.released e.reservationId

/-- How many rows of some kinds a reservation has. -/
def count (l : Ledger) (reservationId : String) (kinds : List EntryKind) : ℕ :=
  (l.filter fun e => e.reservationId = reservationId ∧ e.kind ∈ kinds).length

end Ledger

/-- The calls on one ledger, in any order; the identifiers of new reservations are fresh. -/
def usageLedger : Transition Ledger UsageCall where
  init l := l = []
  step l c t := (∀ q, c = .reserve q → ∀ e ∈ l, e.reservationId ≠ q.fresh) ∧ t = l.transact c

variable {l t : Ledger} {c : UsageCall} {r e : Entry} {id : String} {kind : EntryKind}
  {kinds : List EntryKind}

/-- What one call does to the ledger, with what it has checked. -/
inductive UsageMove (l : Ledger) : UsageCall → Ledger → Prop
  | same (c : UsageCall) : UsageMove l c l
  | reserve (q : Ledger.ReserveRequest) (hpos : 0 < q.amount)
      (hquota : q.quota = customQuota ∨
        l.usage q.workspaceId q.meter q.period + q.amount ≤ q.quota)
      (hcap : ∀ cap, q.globalCap = some cap →
        l.globalUsage q.meter q.period + q.amount ≤ cap) :
      UsageMove l (.reserve q) (l ++ [q.entry])
  | consume (c : UsageCall) (r e : Entry) (hr : r ∈ l.reserves)
      (hid : e.reservationId = r.reservationId) (hkind : e.kind = .consume)
      (hfirst : l.has r.reservationId .consume = false) : UsageMove l c (l ++ [e])
  /-- A reservation is given back: its row takes from its bucket what it had added. -/
  | release (c : UsageCall) (r e : Entry) (hr : r ∈ l.reserves)
      (hid : e.reservationId = r.reservationId)
      (hkind : e.kind = .refund ∨
        (e.kind = .platformFaultRefund ∧ l.has r.reservationId .consume = true))
      (hbucket : ∀ w m p, e.inBucket w m p = r.inBucket w m p) (hcharge : e.charge = -r.amount)
      (hfirst : l.released r.reservationId = false) : UsageMove l c (l ++ [e])

theorem mem_reserves : r ∈ l.reserves ↔ r ∈ l ∧ r.kind = .reserve := by
  simp [Ledger.reserves]

theorem reservation_mem (h : l.reservation id = some r) : r ∈ l.reserves ∧
    r.reservationId = id := by
  have hspec := List.find?_some h
  simp only [decide_eq_true_eq] at hspec
  exact ⟨mem_reserves.mpr ⟨List.mem_of_find?_eq_some h, hspec.2⟩, hspec.1⟩

theorem reserveNew_ok {q : Ledger.ReserveRequest} (h : l.reserveNew q = .ok (id, t)) :
    (q.quota = customQuota ∨ l.usage q.workspaceId q.meter q.period + q.amount ≤ q.quota) ∧
      (∀ cap, q.globalCap = some cap → l.globalUsage q.meter q.period + q.amount ≤ cap) ∧
      id = q.fresh ∧ t = l ++ [q.entry] := by
  simp only [Ledger.reserveNew, bind_ok, require_ok, exists_const, pure, Except.pure,
    Except.ok.injEq, Prod.mk.injEq] at h
  obtain ⟨hquota, hcap, rfl, rfl⟩ := h
  refine ⟨hquota, fun cap hsome => ?_, rfl, rfl⟩
  rw [hsome] at hcap
  exact of_decide_eq_true hcap

theorem reserve_move {q : Ledger.ReserveRequest} (h : l.reserve q = .ok (id, t)) :
    UsageMove l (.reserve q) t := by
  simp only [Ledger.reserve, bind_ok, require_ok, exists_const] at h
  obtain ⟨hpos, h⟩ := h
  split at h
  · simp only [bind_ok, require_ok, exists_const] at h
    obtain ⟨-, h⟩ := h
    cases h
    exact .same _
  · obtain ⟨hquota, hcap, -, rfl⟩ := reserveNew_ok h
    exact .reserve q hpos hquota hcap

theorem reserve_rows {q : Ledger.ReserveRequest} (h : l.reserve q = .ok (id, t)) :
    t = l ∨ t = l ++ [q.entry] := by
  simp only [Ledger.reserve, bind_ok, require_ok, exists_const] at h
  obtain ⟨-, h⟩ := h
  split at h
  · simp only [bind_ok, require_ok, exists_const] at h
    obtain ⟨-, h⟩ := h
    cases h
    exact .inl rfl
  · exact .inr (reserveNew_ok h).2.2.2

/-- A compensation only follows a consumption. -/
def Ledger.Compensated (l : Ledger) : Prop :=
  ∀ id, l.has id .platformFaultRefund = true → l.has id .consume = true

theorem settle_move {answer : Bool} (hi : l.Compensated) (hkind : kind = .consume ∨ kind = .refund)
    (h : l.settle id kind = .ok (answer, t)) : UsageMove l c t := by
  unfold Ledger.settle at h
  split at h
  · cases h
  · rename_i r hr
    obtain ⟨hmem, rfl⟩ := reservation_mem hr
    by_cases h1 : l.has r.reservationId .refund = true
    · rw [if_pos h1] at h
      cases h
      exact .same _
    · rw [if_neg h1] at h
      split at h
      · cases h
        exact .same _
      · rename_i h2
        split at h
        · cases h
          exact .same _
        · rename_i h3
          cases h
          rcases hkind with rfl | rfl
          · exact .consume c r _ hmem rfl rfl (by simpa using h3)
          · refine .release c r _ hmem rfl (.inl rfl) (fun _ _ _ => rfl) rfl ?_
            have hconsume : ¬ l.has r.reservationId .consume = true := fun hc => h2 ⟨rfl, hc⟩
            have hcomp : ¬ l.has r.reservationId .platformFaultRefund = true :=
              fun hc => hconsume (hi _ hc)
            simp [Ledger.released, h1, hcomp]

theorem refundConsumed_move {reason : String} {answer : Bool}
    (h : l.refundConsumed id reason = .ok (answer, t)) : UsageMove l c t := by
  simp only [Ledger.refundConsumed, bind_ok, require_ok, exists_const] at h
  obtain ⟨-, h⟩ := h
  split at h
  · cases h
  · rename_i r hr
    obtain ⟨hmem, rfl⟩ := reservation_mem hr
    simp only [bind_ok, require_ok, exists_const] at h
    obtain ⟨-, h⟩ := h
    split at h
    · cases h
      exact .same _
    · rename_i hnot
      cases h
      simp only [not_or, not_not] at hnot
      refine .release c r _ hmem rfl (.inr ⟨rfl, hnot.1⟩) (fun _ _ _ => rfl) rfl ?_
      simp [Ledger.released, hnot.2.1, hnot.2.2]

theorem call_move (hi : l.Compensated) (h : l.call c = .ok t) : UsageMove l c t := by
  cases c with
  | reserve q =>
    obtain ⟨id, h⟩ := snd_ok h
    exact reserve_move h
  | consume id =>
    obtain ⟨answer, h⟩ := snd_ok h
    exact settle_move hi (.inl rfl) h
  | refund id =>
    obtain ⟨answer, h⟩ := snd_ok h
    exact settle_move hi (.inr rfl) h
  | refundConsumed id reason =>
    obtain ⟨answer, h⟩ := snd_ok h
    exact refundConsumed_move h

theorem transact_move (hi : l.Compensated) : UsageMove l c (l.transact c) := by
  unfold Ledger.transact
  split
  · rename_i t ht
    exact call_move hi ht
  · exact .same c

theorem usage_append (l : Ledger) (e : Entry) (w : String) (m : Meter) (p : String) :
    Ledger.usage (l ++ [e]) w m p = l.usage w m p + if e.inBucket w m p then e.charge else 0 := by
  unfold Ledger.usage Entry.inBucket
  rw [List.filter_append, List.map_append, List.sum_append, List.filter_singleton]
  by_cases h : e.workspaceId = w ∧ e.meter = m ∧ e.period = p
  · simp [h]
  · simp [h]

theorem globalUsage_append (l : Ledger) (e : Entry) (m : Meter) (p : String) :
    Ledger.globalUsage (l ++ [e]) m p =
      l.globalUsage m p + if e.meter = m ∧ e.period = p then e.charge else 0 := by
  unfold Ledger.globalUsage
  rw [List.filter_append, List.map_append, List.sum_append, List.filter_singleton]
  by_cases h : e.meter = m ∧ e.period = p
  · simp [h]
  · simp [h]

theorem count_append : Ledger.count (l ++ [e]) id kinds =
    l.count id kinds + if e.reservationId = id ∧ e.kind ∈ kinds then 1 else 0 := by
  unfold Ledger.count
  rw [List.filter_append, List.length_append, List.filter_singleton]
  by_cases h : e.reservationId = id ∧ e.kind ∈ kinds
  · simp [h]
  · simp [h]

theorem count_zero (h : ∀ kind ∈ kinds, l.has id kind = false) : l.count id kinds = 0 := by
  rw [Ledger.count, List.length_eq_zero_iff, List.filter_eq_nil_iff]
  intro e he hspec
  simp only [decide_eq_true_eq] at hspec
  have hnone := h e.kind hspec.2
  rw [Ledger.has, List.any_eq_false] at hnone
  exact hnone e he (decide_eq_true ⟨hspec.1, rfl⟩)

theorem released_append : Ledger.released (l ++ [e]) id = (l.released id ||
    decide (e.reservationId = id ∧ (e.kind = .refund ∨ e.kind = .platformFaultRefund))) := by
  simp only [Ledger.released, Ledger.has_append]
  by_cases h : e.reservationId = id
  · simp only [h, true_and]
    cases e.kind <;> simp [Bool.or_comm]
  · simp [h]

theorem reserves_append (h : e.kind ≠ .reserve) : Ledger.reserves (l ++ [e]) = l.reserves := by
  simp [Ledger.reserves, h]

structure UsageInv (l : Ledger) : Prop where
  ids : (l.reserves.map (·.reservationId)).Nodup
  positive : ∀ r ∈ l.reserves, 0 < r.amount
  owned : ∀ e ∈ l, ∃ r ∈ l.reserves, r.reservationId = e.reservationId
  compensated : l.Compensated
  once : ∀ id, l.count id [.reserve] ≤ 1 ∧ l.count id [.consume] ≤ 1 ∧
    l.count id [.refund, .platformFaultRefund] ≤ 1
  balance : ∀ w m p, l.usage w m p = ((l.active w m p).map (·.amount)).sum

theorem UsageInv.empty : UsageInv [] := by
  refine ⟨List.nodup_nil, ?_, ?_, ?_, ?_, ?_⟩ <;>
    simp [Ledger.reserves, Ledger.Compensated, Ledger.has, Ledger.count, Ledger.usage,
      Ledger.active]

theorem UsageInv.reserve (h : UsageInv l) {q : Ledger.ReserveRequest} (hpos : 0 < q.amount)
    (hfresh : ∀ e ∈ l, e.reservationId ≠ q.fresh) : UsageInv (l ++ [q.entry]) := by
  have hnone : ∀ kind, l.has q.fresh kind = false := by
    intro kind
    rw [Ledger.has, List.any_eq_false]
    exact fun e he hspec => hfresh e he (of_decide_eq_true hspec).1
  have hreserves : Ledger.reserves (l ++ [q.entry]) = l.reserves ++ [q.entry] := by
    simp [Ledger.reserves, Ledger.ReserveRequest.entry]
  have hreleased : ∀ id, Ledger.released (l ++ [q.entry]) id = l.released id := by
    intro id
    rw [released_append]
    simp [Ledger.ReserveRequest.entry]
  refine ⟨?_, ?_, ?_, ?_, ?_, ?_⟩
  · rw [hreserves, List.map_append]
    refine List.nodup_append.mpr ⟨h.ids, by simp, ?_⟩
    rintro _ hin _ hnew rfl
    obtain ⟨r, hr, hid⟩ := List.mem_map.mp hin
    exact hfresh r (mem_reserves.mp hr).1
      (hid.trans (by simpa [Ledger.ReserveRequest.entry] using hnew))
  · intro r hr
    rw [hreserves] at hr
    rcases List.mem_append.mp hr with hr | hr
    · exact h.positive r hr
    · rw [List.mem_singleton.mp hr]
      exact hpos
  · intro e he
    rw [hreserves]
    rcases List.mem_append.mp he with he | he
    · obtain ⟨r, hr, hid⟩ := h.owned e he
      exact ⟨r, List.mem_append_left _ hr, hid⟩
    · exact ⟨q.entry, List.mem_append_right _ (List.mem_singleton.mpr rfl),
        by rw [List.mem_singleton.mp he]⟩
  · intro id hid
    rw [Ledger.has_append] at hid ⊢
    simp only [Ledger.ReserveRequest.entry, Bool.or_eq_true, decide_eq_true_eq, reduceCtorEq,
      and_false, or_false] at hid ⊢
    exact h.compensated id hid
  · intro id
    obtain ⟨h1, h2, h3⟩ := h.once id
    refine ⟨?_, ?_, ?_⟩
    · rw [count_append]
      by_cases hid : q.entry.reservationId = id
      · have hzero : l.count id [.reserve] = 0 :=
          count_zero fun kind _ => hid ▸ hnone kind
        rw [hzero]
        split <;> omega
      · rw [if_neg fun hspec => hid hspec.1]
        omega
    · rw [count_append, if_neg fun hspec => by simp [Ledger.ReserveRequest.entry] at hspec]
      omega
    · rw [count_append, if_neg fun hspec => by simp [Ledger.ReserveRequest.entry] at hspec]
      omega
  · intro w m p
    have hactive : Ledger.active (l ++ [q.entry]) w m p =
        l.active w m p ++ if q.entry.inBucket w m p then [q.entry] else [] := by
      simp only [Ledger.active, hreserves, List.filter_append, hreleased, List.filter_singleton]
      have hnew : l.released q.entry.reservationId = false := by
        simp only [Ledger.released, Ledger.ReserveRequest.entry, hnone, Bool.or_self]
      rw [hnew]
      simp
    rw [usage_append, hactive, h.balance]
    split
    · simp [Entry.charge, Ledger.ReserveRequest.entry]
    · simp

/-- A row that settles a reservation leaves the reservations as they were. -/
theorem UsageInv.settled (h : UsageInv l) (hr : r ∈ l.reserves)
    (hid : e.reservationId = r.reservationId) (hkind : e.kind ≠ .reserve)
    (hcompensated : Ledger.Compensated (l ++ [e]))
    (honce : ∀ id, e.reservationId = id → Ledger.count (l ++ [e]) id [.consume] ≤ 1 ∧
      Ledger.count (l ++ [e]) id [.refund, .platformFaultRefund] ≤ 1)
    (hbalance : ∀ w m p, Ledger.usage (l ++ [e]) w m p =
      ((Ledger.active (l ++ [e]) w m p).map (·.amount)).sum) : UsageInv (l ++ [e]) := by
  refine ⟨?_, ?_, ?_, hcompensated, fun id => ?_, hbalance⟩
  · rw [reserves_append hkind]
    exact h.ids
  · rw [reserves_append hkind]
    exact h.positive
  · rw [reserves_append hkind]
    intro o ho
    rcases List.mem_append.mp ho with ho | ho
    · exact h.owned o ho
    · exact ⟨r, hr, by rw [List.mem_singleton.mp ho, hid]⟩
  · obtain ⟨h1, h2, h3⟩ := h.once id
    refine ⟨?_, ?_⟩
    · rw [count_append, if_neg fun hspec => hkind (List.mem_singleton.mp hspec.2)]
      exact h1
    · by_cases hown : e.reservationId = id
      · exact honce id hown
      · rw [count_append, count_append, if_neg fun hspec => hown hspec.1,
          if_neg fun hspec => hown hspec.1]
        exact ⟨h2, h3⟩

theorem UsageInv.consume (h : UsageInv l) (hr : r ∈ l.reserves)
    (hid : e.reservationId = r.reservationId) (hkind : e.kind = .consume)
    (hfirst : l.has r.reservationId .consume = false) : UsageInv (l ++ [e]) := by
  have hreleased : ∀ id, Ledger.released (l ++ [e]) id = l.released id := by
    intro id
    rw [released_append, hkind]
    simp
  refine h.settled hr hid (by simp [hkind]) (fun id hc => ?_) (fun id hown => ?_) fun w m p => ?_
  · rw [Ledger.has_append] at hc ⊢
    rw [hkind] at hc
    simp only [Bool.or_eq_true, decide_eq_true_eq, reduceCtorEq, and_false, or_false] at hc
    rw [h.compensated id hc, Bool.true_or]
  · subst hown
    have hzero : l.count e.reservationId [.consume] = 0 := by
      refine count_zero fun kind hin => ?_
      rw [List.mem_singleton.mp hin, hid]
      exact hfirst
    rw [count_append, count_append, hzero, hkind]
    simp only [List.mem_cons, reduceCtorEq, List.not_mem_nil, or_self, and_false, if_false,
      Nat.add_zero]
    exact ⟨by simp, (h.once e.reservationId).2.2⟩
  · have hactive : Ledger.active (l ++ [e]) w m p = l.active w m p := by
      simp only [Ledger.active, reserves_append (show e.kind ≠ .reserve by simp [hkind]), hreleased]
    rw [usage_append, hactive, h.balance]
    simp [Entry.charge, hkind]

theorem UsageInv.release (h : UsageInv l) (hr : r ∈ l.reserves)
    (hid : e.reservationId = r.reservationId)
    (hkind : e.kind = .refund ∨
      (e.kind = .platformFaultRefund ∧ l.has r.reservationId .consume = true))
    (hbucket : ∀ w m p, e.inBucket w m p = r.inBucket w m p) (hcharge : e.charge = -r.amount)
    (hfirst : l.released r.reservationId = false) : UsageInv (l ++ [e]) := by
  have hnot : e.kind ≠ .reserve := by
    rcases hkind with hk | ⟨hk, -⟩ <;> simp [hk]
  have hnotConsume : e.kind ≠ .consume := by
    rcases hkind with hk | ⟨hk, -⟩ <;> simp [hk]
  refine h.settled hr hid hnot (fun id hc => ?_) (fun id hown => ?_) fun w m p => ?_
  · rw [Ledger.has_append] at hc ⊢
    simp only [Bool.or_eq_true, decide_eq_true_eq] at hc ⊢
    rcases hc with hc | ⟨hown, hc⟩
    · exact .inl (h.compensated id hc)
    · rcases hkind with hk | ⟨-, hconsumed⟩
      · simp [hk] at hc
      · exact .inl (hown ▸ hid ▸ hconsumed)
  · subst hown
    have hzero : l.count e.reservationId [.refund, .platformFaultRefund] = 0 := by
      simp only [Ledger.released, Bool.or_eq_false_iff] at hfirst
      refine count_zero fun kind hin => ?_
      simp only [List.mem_cons, List.not_mem_nil, or_false] at hin
      rcases hin with rfl | rfl
      · exact hid ▸ hfirst.1
      · exact hid ▸ hfirst.2
    refine ⟨?_, ?_⟩
    · rw [count_append, if_neg fun hspec => hnotConsume (List.mem_singleton.mp hspec.2)]
      exact (h.once e.reservationId).2.1
    · rw [count_append, hzero]
      split <;> omega
  · -- the row of `r` leaves the active rows of its bucket
    have hreleased : ∀ id, Ledger.released (l ++ [e]) id =
        (l.released id || decide (id = r.reservationId)) := by
      intro id
      rw [released_append, hid]
      rcases hkind with hk | ⟨hk, -⟩ <;> simp [hk, eq_comm]
    have hactive : Ledger.active (l ++ [e]) w m p = l.reserves.filter fun o =>
        (o.inBucket w m p && !l.released o.reservationId) &&
          decide (o.reservationId ≠ r.reservationId) := by
      rw [Ledger.active, reserves_append hnot]
      refine List.filter_congr fun o _ => ?_
      rw [hreleased]
      simp [Bool.and_assoc]
    rw [usage_append, hactive, h.balance, hbucket]
    by_cases hin : r.inBucket w m p = true
    · rw [if_pos hin, Ledger.active, Table.sum_remove h.ids hr (by simp [hin, hfirst]), hcharge]
      omega
    · rw [if_neg hin, Ledger.active]
      have hsame : (l.reserves.filter fun o => (o.inBucket w m p && !l.released o.reservationId) &&
          decide (o.reservationId ≠ r.reservationId)) =
          l.reserves.filter fun o => o.inBucket w m p && !l.released o.reservationId := by
        refine List.filter_congr fun o ho => ?_
        by_cases hsame : o.reservationId = r.reservationId
        · rw [Table.eq_of_key h.ids ho hr hsame]
          simp [hin]
        · simp [hsame]
      rw [hsame]
      omega

theorem UsageMove.inv (hmove : UsageMove l c t) (h : UsageInv l)
    (hfresh : ∀ q, c = .reserve q → ∀ e ∈ l, e.reservationId ≠ q.fresh) : UsageInv t := by
  cases hmove with
  | same => exact h
  | reserve q hpos hquota hcap => exact h.reserve hpos (hfresh q rfl)
  | consume _ r e hr hid hkind hfirst => exact h.consume hr hid hkind hfirst
  | release _ r e hr hid hkind hbucket hcharge hfirst =>
    exact h.release hr hid hkind hbucket hcharge hfirst

theorem usageLedger_inv (hs : usageLedger.Reachable l) : UsageInv l := by
  refine Transition.invariant _ ?_ ?_ hs
  · rintro s rfl
    exact .empty
  · rintro s c t h ⟨hfresh, rfl⟩
    exact (transact_move h.compensated).inv h hfresh

/-- A weight that only a reservation raises, up to a ceiling it is checked against. -/
theorem UsageMove.ceiling (hmove : UsageMove l c t) (h : UsageInv l) (weight : Ledger → ℤ)
    (sel : Entry → Bool) {bound : ℤ}
    (happend : ∀ e, weight (l ++ [e]) = weight l + if sel e then e.charge else 0)
    (hreserve : ∀ q, c = .reserve q → sel q.entry = true →
      (q.quota = customQuota ∨ l.usage q.workspaceId q.meter q.period + q.amount ≤ q.quota) →
      (∀ cap, q.globalCap = some cap → l.globalUsage q.meter q.period + q.amount ≤ cap) →
      weight l + q.amount ≤ bound) (hle : weight l ≤ bound) : weight t ≤ bound := by
  cases hmove with
  | same => exact hle
  | reserve q hpos hquota hcap =>
    rw [happend]
    by_cases hsel : sel q.entry = true
    · rw [if_pos hsel]
      exact hreserve q rfl hsel hquota hcap
    · rw [if_neg hsel]
      omega
  | consume _ r e hr hid hkind hfirst =>
    have hzero : e.charge = 0 := by simp [Entry.charge, hkind]
    rw [happend, hzero]
    simp only [ite_self]
    omega
  | release _ r e hr hid hkind hbucket hcharge hfirst =>
    have hpos := h.positive r hr
    rw [happend, hcharge]
    split <;> omega

/-- All the reservations of a bucket are checked against one quota. -/
def SameQuota (workspaceId : String) (meter : Meter) (period : String) (quota : ℤ) (_ : Ledger)
    (c : UsageCall) : Prop :=
  ∀ q, c = .reserve q → q.entry.inBucket workspaceId meter period = true → q.quota = quota

/-- All the reservations of a meter and a period are checked against one cap of the platform. -/
def SameCap (meter : Meter) (period : String) (cap : ℤ) (_ : Ledger) (c : UsageCall) : Prop :=
  ∀ q, c = .reserve q → q.meter = meter → q.period = period → q.globalCap = some cap

variable {w : String} {m : Meter} {p : String}

theorem usage_le_quota {quota : ℤ} (hfinite : quota ≠ customQuota)
    (hs : (usageLedger.restrict (SameQuota w m p quota)).Reachable l) :
    l.usage w m p ≤ max 0 quota := by
  induction hs with
  | init h =>
    obtain rfl := h
    exact le_max_left _ _
  | @step s t c hs hstep ih =>
    obtain ⟨⟨hfresh, rfl⟩, hguard⟩ := hstep
    have hi := usageLedger_inv hs.of_restrict
    refine (transact_move hi.compensated).ceiling hi (fun l => l.usage w m p)
      (·.inBucket w m p) (fun e => usage_append s e w m p) (fun q hq hin hquota _ => ?_) ih
    rw [hguard q hq hin] at hquota
    obtain ⟨rfl, rfl, rfl⟩ := of_decide_eq_true hin
    exact (hquota.resolve_left hfinite).trans (le_max_right _ _)

theorem globalUsage_le_cap {cap : ℤ}
    (hs : (usageLedger.restrict (SameCap m p cap)).Reachable l) :
    l.globalUsage m p ≤ max 0 cap := by
  induction hs with
  | init h =>
    obtain rfl := h
    exact le_max_left _ _
  | @step s t c hs hstep ih =>
    obtain ⟨⟨hfresh, rfl⟩, hguard⟩ := hstep
    have hi := usageLedger_inv hs.of_restrict
    refine (transact_move hi.compensated).ceiling hi (fun l => l.globalUsage m p)
      (fun e => e.meter = m ∧ e.period = p)
      (fun e => by simpa using globalUsage_append s e m p) (fun q hq hin _ hcap => ?_) ih
    obtain ⟨rfl, rfl⟩ := of_decide_eq_true hin
    exact (hcap cap (hguard q hq rfl rfl)).trans (le_max_right _ _)

theorem UsageInv.nonneg (h : UsageInv l) (w : String) (m : Meter) (p : String) :
    0 ≤ l.usage w m p := by
  rw [h.balance]
  refine List.sum_nonneg fun a ha => ?_
  obtain ⟨r, hr, rfl⟩ := List.mem_map.mp ha
  exact (h.positive r (List.mem_of_mem_filter hr)).le

theorem globalUsage_eq_sum (l : Ledger) (m : Meter) (p : String) (workspaces : Finset String)
    (hall : ∀ e ∈ l, e.workspaceId ∈ workspaces) :
    l.globalUsage m p = ∑ w ∈ workspaces, l.usage w m p := by
  induction l using List.reverseRecOn with
  | nil => simp [Ledger.globalUsage, Ledger.usage]
  | append_singleton l e ih =>
    have hin : e.workspaceId ∈ workspaces := hall e (by simp)
    rw [globalUsage_append, ih fun o ho => hall o (List.mem_append_left _ ho)]
    simp only [usage_append, Finset.sum_add_distrib]
    congr 1
    rw [Finset.sum_eq_single e.workspaceId]
    · simp [Entry.inBucket]
    · intro w _ hne
      simp [Entry.inBucket, hne.symm]
    · exact fun hout => absurd hin hout

/-- What the rows of a reservation, and those of a bucket, add up to. -/
structure Balanced (l : Ledger) : Prop where
  once : ∀ id, l.count id [.reserve] ≤ 1 ∧ l.count id [.consume] ≤ 1 ∧
    l.count id [.refund, .platformFaultRefund] ≤ 1
  active : ∀ w m p, l.usage w m p = ((l.active w m p).map (·.amount)).sum ∧ 0 ≤ l.usage w m p
  platform : ∀ m p workspaces, (∀ e ∈ l, e.workspaceId ∈ workspaces) →
    l.globalUsage m p = ∑ w ∈ workspaces, l.usage w m p

/-- The ledger balances, and stays under every quota and every cap that is always applied. -/
theorem ledger_balances (hs : usageLedger.Reachable l) : Balanced l ∧
    (∀ w m p quota, quota ≠ customQuota →
      (usageLedger.restrict (SameQuota w m p quota)).Reachable l →
        l.usage w m p ≤ max 0 quota) ∧
    ∀ m p cap, (usageLedger.restrict (SameCap m p cap)).Reachable l →
      l.globalUsage m p ≤ max 0 cap := by
  have hi := usageLedger_inv hs
  refine ⟨⟨hi.once, fun w m p => ⟨hi.balance w m p, hi.nonneg w m p⟩, globalUsage_eq_sum l⟩, ?_, ?_⟩
  · exact fun w m p quota hfinite hrun => usage_le_quota hfinite hrun
  · exact fun m p cap hrun => globalUsage_le_cap hrun

section Sample

def unitRequest (id : String) : Ledger.ReserveRequest :=
  ⟨"workspace_1", .canaryRuns, 1, "2026-08", none, none, 2, some 2, id⟩

/-- Two units reserved, the first of which was consumed and given back. -/
def settledLedger : Ledger :=
  ((((Ledger.transact [] (.reserve (unitRequest "resv_1"))).transact (.consume "resv_1")).transact
    (.reserve (unitRequest "resv_2"))).transact (.refundConsumed "resv_1" "runner_fault"))

theorem settledLedger_reachable :
    (usageLedger.restrict (SameQuota "workspace_1" .canaryRuns "2026-08" 2)).Reachable
      settledLedger := by
  have h0 : (usageLedger.restrict (SameQuota "workspace_1" .canaryRuns "2026-08" 2)).Reachable [] :=
    .init rfl
  have h1 := h0.step (a := .reserve (unitRequest "resv_1"))
    ⟨⟨fun q hq => (by cases hq; decide), rfl⟩, fun q hq _ => (by cases hq; rfl)⟩
  have h2 := h1.step (a := .consume "resv_1")
    ⟨⟨fun q hq => (by cases hq), rfl⟩, fun q hq _ => (by cases hq)⟩
  have h3 := h2.step (a := .reserve (unitRequest "resv_2"))
    ⟨⟨fun q hq => (by cases hq; decide), rfl⟩, fun q hq _ => (by cases hq; rfl)⟩
  exact h3.step (a := .refundConsumed "resv_1" "runner_fault")
    ⟨⟨fun q hq => (by cases hq), rfl⟩, fun q hq _ => (by cases hq)⟩

theorem ledger_balances_sample : Balanced settledLedger ∧
    settledLedger.usage "workspace_1" .canaryRuns "2026-08" ≤ 2 ∧ settledLedger.length = 4 := by
  have h := ledger_balances settledLedger_reachable.of_restrict
  exact ⟨h.1, h.2.1 _ _ _ 2 (by decide) settledLedger_reachable, by decide⟩

end Sample

end Heel.Cloud
