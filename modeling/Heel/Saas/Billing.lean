import Mathlib.Data.Rat.Defs
import Heel.Lib.Register
import Heel.Saas.Entitlement

/-! The subscription store of `heel/saas/billing.py`: verified events, in whatever order and however
often they are delivered. -/
namespace Heel.Cloud
open Lib Lib.Checks

structure SubState where
  workspaceId : String
  planId : String
  state : String
  catalogVersion : String
  version : Int
  cancelAtPeriodEnd : Bool := false
  deriving DecidableEq, Repr

/-- The columns an upsert keeps when it is given no value for them. -/
structure ProviderDetails where
  interval : Option String := none
  currentPeriodEnd : Option ℚ := none
  providerCustomerId : Option String := none
  providerSubscriptionId : Option String := none
  deriving DecidableEq, Repr

/-- `COALESCE(excluded.c, c)`, column by column. -/
def ProviderDetails.coalesce (new old : ProviderDetails) : ProviderDetails where
  interval := new.interval.or old.interval
  currentPeriodEnd := new.currentPeriodEnd.or old.currentPeriodEnd
  providerCustomerId := new.providerCustomerId.or old.providerCustomerId
  providerSubscriptionId := new.providerSubscriptionId.or old.providerSubscriptionId

/-- A row of `subscriptions`. -/
structure SubscriptionRow extends SubState, ProviderDetails
  deriving DecidableEq, Repr

/-- A row of `billing_events`. -/
structure BillingEventRow where
  eventId : String
  type : String
  applied : Bool
  deriving DecidableEq, Repr

structure BillingStore where
  subscriptions : List SubscriptionRow := []
  events : List BillingEventRow := []
  deriving DecidableEq, Repr

/-- What a webhook delivers; a field that is absent is `none`. -/
structure BillingEvent extends ProviderDetails where
  id : String
  type : String
  workspaceId : String
  state : String
  planId : Option String
  version : Option Int
  catalogVersion : Option String
  cancelAtPeriodEnd : Option Bool
  deriving DecidableEq, Repr

inductive Disposition where
  | applied | duplicate | stale | illegal
  deriving DecidableEq, Repr

/-- `_ALLOWED`. -/
def allowedStates : List (String × List String) := [
  ("incomplete", ["trialing", "active", "canceled", "unpaid"]),
  ("trialing", ["active", "past_due", "canceled", "unpaid"]),
  ("active", ["active", "past_due", "canceled", "unpaid"]),
  ("past_due", ["active", "canceled", "unpaid"]),
  ("unpaid", ["active", "canceled"]),
  ("canceled", ["active"])]

/-- May a subscription go from one state to the other? -/
def Follows (old new : String) : Prop := new = old ∨ new ∈ (allowedStates.lookup old).getD []

theorem Follows.refl (state : String) : Follows state state := .inl rfl

instance (old new : String) : Decidable (Follows old new) :=
  inferInstanceAs (Decidable (_ ∨ _))

namespace BillingStore

def get (b : BillingStore) (workspaceId : String) : Option SubState :=
  (b.subscriptions.find? fun r => r.workspaceId = workspaceId).map (·.toSubState)

def upsert (b : BillingStore) (s : SubState) (details : ProviderDetails) : BillingStore :=
  { b with
    subscriptions := Table.upsert (fun r : SubscriptionRow => r.workspaceId = s.workspaceId)
      (fun r => ⟨s, details.coalesce r.toProviderDetails⟩) ⟨s, details⟩ b.subscriptions }

def seenEvent (b : BillingStore) (eventId : String) : Bool :=
  b.events.any fun r => r.eventId = eventId

def recordEvent (b : BillingStore) (eventId type : String) (applied : Bool) : BillingStore :=
  { b with
    events := if b.seenEvent eventId then b.events else b.events ++ [⟨eventId, type, applied⟩] }

end BillingStore

/-- `value or default`, of an optional text. -/
def textOr (value : Option String) (default : String) : String :=
  (value.filter (· ≠ "")).getD default

namespace BillingEvent

/-- `int(event.get("version", 0))`. -/
def newVersion (e : BillingEvent) : Int := e.version.getD 0

/-- The subscription an event leaves when it is applied. -/
def next (e : BillingEvent) (cur : Option SubState) : SubState where
  workspaceId := e.workspaceId
  planId := textOr e.planId (cur.elim "free" (·.planId))
  state := e.state
  catalogVersion := textOr e.catalogVersion (cur.elim Cloud.catalogVersion (·.catalogVersion))
  version := e.newVersion
  cancelAtPeriodEnd := e.cancelAtPeriodEnd.getD (cur.elim false (·.cancelAtPeriodEnd))

end BillingEvent

def applyEvent (e : BillingEvent) (b : BillingStore) : Except Refusal
    (Disposition × BillingStore) :=
  if b.seenEvent e.id then .ok (.duplicate, b)
  else
    let cur := b.get e.workspaceId
    if cur.any fun c => e.newVersion ≤ c.version then
      .ok (.stale, b.recordEvent e.id e.type false)
    else if cur.any fun c => e.state ≠ c.state ∧
        e.state ∉ (allowedStates.lookup c.state).getD [] then
      .ok (.illegal, b.recordEvent e.id e.type false)
    else do
      let _ ← getPlan (e.next cur).planId none
      return (.applied, (b.upsert (e.next cur) e.toProviderDetails).recordEvent e.id e.type true)

namespace BillingStore

/-- A delivery that raises changes nothing. -/
def deliver (b : BillingStore) (e : BillingEvent) : BillingStore :=
  match applyEvent e b with
  | .ok (_, b) => b
  | .error _ => b

def deliverAll (b : BillingStore) (es : List BillingEvent) : BillingStore := es.foldl deliver b

/-- What the deliveries are answered, by the event. -/
def answers (b : BillingStore) : List BillingEvent → List (String × Except Refusal Disposition)
  | [] => []
  | e :: es => (e.id, Prod.fst <$> applyEvent e b) :: (b.deliver e).answers es

def AllApplied (b : BillingStore) (es : List BillingEvent) : Prop :=
  ∀ a ∈ b.answers es, a.2 = .ok .applied

/-- The last event may follow what is stored and every other event. -/
def NewestFollows (b : BillingStore) (workspaceId : String) (es : List BillingEvent) : Prop :=
  ∀ n ∈ es.getLast?, (∀ c ∈ b.get workspaceId, Follows c.state n.state) ∧
    ∀ e ∈ es, Follows e.state n.state

instance (b : BillingStore) (es : List BillingEvent) : Decidable (b.AllApplied es) :=
  inferInstanceAs (Decidable (∀ a ∈ b.answers es, _))

instance (b : BillingStore) (workspaceId : String) (es : List BillingEvent) :
    Decidable (b.NewestFollows workspaceId es) :=
  inferInstanceAs (Decidable (∀ n ∈ es.getLast?, _))

end BillingStore

/-- The event says everything that it leaves. -/
structure BillingEvent.Explicit (e : BillingEvent) : Prop where
  planId : ∃ p ∈ e.planId, p ≠ ""
  catalogVersion : ∃ v ∈ e.catalogVersion, v ≠ ""
  cancelAtPeriodEnd : e.cancelAtPeriodEnd.isSome

namespace BillingStore
variable {b t : BillingStore} {e n : BillingEvent} {es ds : List BillingEvent} {w : String}

/-- The identifiers of the events that were recorded. -/
def seen (b : BillingStore) : List String := b.events.map (·.eventId)

theorem seenEvent_iff {id : String} : b.seenEvent id = true ↔ id ∈ b.seen := by
  simp [seenEvent, seen, List.any_eq_true]

theorem get_recordEvent {id type : String} {applied : Bool} :
    (b.recordEvent id type applied).get w = b.get w := rfl

theorem seen_recordEvent {id type : String} {applied : Bool} (h : id ∉ b.seen) :
    (b.recordEvent id type applied).seen = b.seen ++ [id] := by
  rw [recordEvent, if_neg (seenEvent_iff.not.mpr h), seen, List.map_append]
  rfl

theorem seen_upsert {s : SubState} {d : ProviderDetails} : (b.upsert s d).seen = b.seen := rfl

theorem get_upsert {s : SubState} {d : ProviderDetails} :
    (b.upsert s d).get s.workspaceId = some s := by
  unfold upsert get
  rw [Table.find_upsert (fun r _ => by simp) (by simp)]
  cases b.subscriptions.find? fun r => r.workspaceId = s.workspaceId <;> rfl

theorem get_upsert_other {s : SubState} {d : ProviderDetails} (hw : w ≠ s.workspaceId) :
    (b.upsert s d).get w = b.get w := by
  unfold upsert get
  rw [Table.find_upsert_other (fun r hr => ?_) (by simpa using hw.symm)]
  simp only [decide_eq_true_eq] at hr
  simp only [decide_eq_false_iff_not, hr]
  exact ⟨hw.symm, hw.symm⟩

/-- The event is newer than what is stored, and may follow it. -/
def Takes (b : BillingStore) (e : BillingEvent) : Prop :=
  ∀ c ∈ b.get e.workspaceId, c.version < e.newVersion ∧ Follows c.state e.state

instance (b : BillingStore) (e : BillingEvent) : Decidable (b.Takes e) :=
  inferInstanceAs (Decidable (∀ c ∈ b.get e.workspaceId, _))

inductive Outcome (b : BillingStore) (e : BillingEvent) :
    Except Refusal (Disposition × BillingStore) → Prop
  | duplicate (hseen : e.id ∈ b.seen) : Outcome b e (.ok (.duplicate, b))
  | refused (d : Disposition) (hd : d ≠ .applied) (hseen : e.id ∉ b.seen) (htakes : ¬ b.Takes e) :
    Outcome b e (.ok (d, b.recordEvent e.id e.type false))
  | unknownPlan (r : Refusal) (hseen : e.id ∉ b.seen) (htakes : b.Takes e)
    (hplan : getPlan (e.next (b.get e.workspaceId)).planId none = .error r) :
    Outcome b e (.error r)
  | applied (plan : Plan) (hseen : e.id ∉ b.seen) (htakes : b.Takes e)
    (hplan : getPlan (e.next (b.get e.workspaceId)).planId none = .ok plan) :
    Outcome b e (.ok (.applied, (b.upsert (e.next (b.get e.workspaceId))
      e.toProviderDetails).recordEvent e.id e.type true))

theorem takes_iff : b.Takes e ↔
    (b.get e.workspaceId).any (fun c => e.newVersion ≤ c.version) = false ∧
    (b.get e.workspaceId).any (fun c => e.state ≠ c.state ∧
      e.state ∉ (allowedStates.lookup c.state).getD []) = false := by
  unfold Takes Follows
  cases b.get e.workspaceId with
  | none => simp
  | some c => simp [or_iff_not_imp_left]

theorem applyEvent_outcome (b : BillingStore) (e : BillingEvent) : b.Outcome e
    (applyEvent e b) := by
  unfold applyEvent
  by_cases hseen : b.seenEvent e.id = true
  · rw [if_pos hseen]
    exact .duplicate (seenEvent_iff.mp hseen)
  · rw [if_neg hseen]
    rw [seenEvent_iff] at hseen
    dsimp only
    split
    · rename_i h
      exact .refused _ (by decide) hseen fun ht => by simp [(takes_iff.mp ht).1] at h
    · split
      · rename_i h
        exact .refused _ (by decide) hseen fun ht => by rw [(takes_iff.mp ht).2] at h; cases h
      · rename_i h h'
        have htakes := takes_iff.mpr ⟨Bool.not_eq_true _ ▸ h, Bool.not_eq_true _ ▸ h'⟩
        cases hplan : getPlan (e.next (b.get e.workspaceId)).planId none with
        | error r => exact .unknownPlan r hseen htakes hplan
        | ok plan => exact .applied plan hseen htakes hplan

theorem applyEvent_applied (h : applyEvent e b = .ok (.applied, t)) :
    e.id ∉ b.seen ∧ b.Takes e ∧
      (∃ plan, getPlan (e.next (b.get e.workspaceId)).planId none = .ok plan) ∧
      t = (b.upsert (e.next (b.get e.workspaceId)) e.toProviderDetails).recordEvent
        e.id e.type true := by
  have hout := applyEvent_outcome b e
  rw [h] at hout
  cases hout with
  | refused d hd hseen htakes => exact absurd rfl hd
  | applied plan hseen htakes hplan => exact ⟨hseen, htakes, ⟨plan, hplan⟩, rfl⟩

theorem mem_seen_recordEvent {id id' type : String} {applied : Bool} :
    id' ∈ (b.recordEvent id type applied).seen ↔ id' ∈ b.seen ∨ id' = id := by
  by_cases h : id ∈ b.seen
  · rw [recordEvent, if_pos (seenEvent_iff.mpr h)]
    exact ⟨.inl, fun h' => h'.elim (fun h' => h') fun h' => h' ▸ h⟩
  · rw [seen_recordEvent h]
    simp

theorem mem_seen_deliver {id : String} (h : id ∈ b.seen) : id ∈ (b.deliver e).seen := by
  have hout := applyEvent_outcome b e
  unfold deliver
  generalize applyEvent e b = r at hout
  cases hout with
  | duplicate hseen => exact h
  | refused d hd hseen htakes => exact mem_seen_recordEvent.mpr (.inl h)
  | unknownPlan r hseen htakes hplan => exact h
  | applied plan hseen htakes hplan => exact mem_seen_recordEvent.mpr (.inl h)

theorem version_deliver {c : SubState} (hc : b.get w = some c) :
    ∃ d, (b.deliver e).get w = some d ∧ c.version ≤ d.version := by
  have hout := applyEvent_outcome b e
  unfold deliver
  generalize applyEvent e b = r at hout
  cases hout with
  | duplicate hseen => exact ⟨c, hc, le_rfl⟩
  | refused d hd hseen htakes => exact ⟨c, hc, le_rfl⟩
  | unknownPlan r hseen htakes hplan => exact ⟨c, hc, le_rfl⟩
  | applied plan hseen htakes hplan =>
    by_cases hw : w = e.workspaceId
    · subst hw
      exact ⟨_, get_upsert (s := e.next _), (htakes c hc).1.le⟩
    · exact ⟨c, (get_upsert_other (s := e.next _) hw).trans hc, le_rfl⟩

theorem version_deliverAll {c : SubState} (hc : b.get w = some c) (ds : List BillingEvent) :
    ∃ d, (b.deliverAll ds).get w = some d ∧ c.version ≤ d.version := by
  induction ds generalizing b c with
  | nil => exact ⟨c, hc, le_rfl⟩
  | cons e ds ih =>
    obtain ⟨d, hd, hle⟩ := version_deliver (e := e) hc
    obtain ⟨d', hd', hle'⟩ := ih hd
    exact ⟨d', hd', hle.trans hle'⟩

theorem applied_seen (h : Prod.fst <$> applyEvent e b = .ok .applied) :
    e.id ∉ b.seen ∧ e.id ∈ (b.deliver e).seen := by
  obtain ⟨t, ht⟩ := fst_ok h
  obtain ⟨hseen, -, -, rfl⟩ := applyEvent_applied ht
  refine ⟨hseen, ?_⟩
  rw [deliver, ht]
  exact mem_seen_recordEvent.mpr (.inr rfl)

theorem applied_unseen {a : String × Except Refusal Disposition} (ha : a ∈ b.answers ds)
    (happlied : a.2 = .ok .applied) : a.1 ∉ b.seen := by
  induction ds generalizing b with
  | nil => cases ha
  | cons e ds ih =>
    rcases List.mem_cons.mp ha with rfl | ha
    · exact (applied_seen happlied).1
    · exact fun hseen => ih ha (mem_seen_deliver hseen)

theorem applied_once (b : BillingStore) (ds : List BillingEvent) : (b.answers ds).Pairwise
    fun x y => x.2 = .ok .applied → y.2 = .ok .applied → x.1 ≠ y.1 := by
  induction ds generalizing b with
  | nil => exact .nil
  | cons e ds ih =>
    refine .cons (fun y hy hx hyapplied heq => ?_) (ih (b.deliver e))
    exact applied_unseen hy hyapplied (heq ▸ (applied_seen hx).2)

theorem textOr_some {value default : String} (h : value ≠ "") :
    textOr (some value) default = value := by
  simp [textOr, Option.filter, h]

theorem next_explicit (h : e.Explicit) (cur : Option SubState) : e.next cur = e.next none := by
  obtain ⟨p, hp, hpne⟩ := h.planId
  obtain ⟨v, hv, hvne⟩ := h.catalogVersion
  obtain ⟨c, hc⟩ := Option.isSome_iff_exists.mp h.cancelAtPeriodEnd
  simp only [Option.mem_def] at hp hv
  simp only [BillingEvent.next, hp, hv, hc, textOr_some hpne, textOr_some hvne, Option.getD_some]

def feed : Feed BillingEvent String SubState Int where
  key := (·.id)
  value e := e.next none
  version := (·.version)
  follows c v := decide (Follows c.state v.state)

/-- What the events of a workspace depend on. -/
def register (b : BillingStore) (workspaceId : String) : Register String SubState :=
  ⟨b.get workspaceId, b.seen⟩

/-- An event that says everything, of the workspace, for a plan that exists. -/
structure Regular (w : String) (e : BillingEvent) : Prop where
  workspaceId : e.workspaceId = w
  explicit : e.Explicit
  plan : ∃ plan, getPlan (e.next none).planId none = .ok plan

theorem takes_register (hw : e.workspaceId = w) : b.Takes e ↔ feed.Admits (b.register w) e := by
  subst hw
  simp [Takes, Feed.Admits, feed, register, BillingEvent.next]

/-- The store delivers an event as the register delivers its message. -/
theorem register_deliver (h : Regular w e) :
    (b.deliver e).register w = feed.deliver (b.register w) e := by
  obtain ⟨plan, hplan⟩ := h.plan
  have hout := applyEvent_outcome b e
  unfold deliver
  generalize applyEvent e b = r at hout
  cases hout with
  | duplicate hseen => exact (Feed.deliver_seen (F := feed) hseen).symm
  | refused d hd hseen htakes =>
    rw [Feed.deliver_refused (F := feed) hseen ((takes_register h.workspaceId).not.mp htakes)]
    simp only [register, get_recordEvent, seen_recordEvent hseen]
    rfl
  | unknownPlan r hseen htakes herror =>
    rw [next_explicit h.explicit, hplan] at herror
    cases herror
  | applied plan' hseen htakes _ =>
    rw [Feed.deliver_set (F := feed) hseen ((takes_register h.workspaceId).mp htakes),
      next_explicit h.explicit]
    have hset := get_upsert (b := b) (s := e.next none) (d := e.toProviderDetails)
    simp only [register, get_recordEvent]
    rw [seen_recordEvent (by rwa [seen_upsert]), seen_upsert, ← h.workspaceId]
    rw [show e.workspaceId = (e.next none).workspaceId from rfl, hset]
    rfl

theorem register_deliverAll (h : ∀ e ∈ ds, Regular w e) :
    (b.deliverAll ds).register w = feed.deliverAll (b.register w) ds := by
  induction ds generalizing b with
  | nil => rfl
  | cons e ds ih =>
    rw [Feed.deliverAll_cons, ← register_deliver (h e (.head _))]
    exact ih fun k hk => h k (.tail _ hk)

/-- Events that are all applied set the register one after the other. -/
theorem AllApplied.allSet (h : b.AllApplied es)
    (hes : ∀ e ∈ es, e.workspaceId = w ∧ e.Explicit) :
    (∀ e ∈ es, Regular w e) ∧ feed.AllSet (b.register w) es := by
  induction es generalizing b with
  | nil => exact ⟨fun e he => (by cases he), trivial⟩
  | cons e es ih =>
    obtain ⟨hw, hexplicit⟩ := hes e (.head _)
    obtain ⟨t, ht⟩ := fst_ok (h _ (.head _))
    obtain ⟨hseen, htakes, ⟨plan, hplan⟩, -⟩ := applyEvent_applied ht
    have hregular : Regular w e := ⟨hw, hexplicit, plan, next_explicit hexplicit _ ▸ hplan⟩
    obtain ⟨hrest, hset⟩ := ih (b := b.deliver e) (fun a ha => h a (.tail _ ha))
      fun k hk => hes k (.tail _ hk)
    rw [register_deliver hregular] at hset
    refine ⟨fun k hk => ?_, hseen, (takes_register hw).mp htakes, hset⟩
    rcases List.mem_cons.mp hk with rfl | hk
    · exact hregular
    · exact hrest k hk

/-- The last event of a run that applies all decides what is stored. -/
theorem get_deliverAll_last {xs : List BillingEvent} (h : b.AllApplied (xs ++ [n]))
    (hes : ∀ e ∈ xs ++ [n], e.workspaceId = w ∧ e.Explicit) :
    (b.deliverAll (xs ++ [n])).get w = some (n.next none) := by
  obtain ⟨hregular, hset⟩ := h.allSet hes
  have := (Feed.AllSet.at hset).1
  rw [← register_deliverAll hregular] at this
  exact this

end BillingStore

/-- Events that are all applied in one order leave the same subscription in every order, and however
often they are repeated, if and only if the last of them may follow what is stored and every other.
The version never decreases and no event is applied twice. -/
theorem billing_converges_iff {b : BillingStore} {w : String} {es : List BillingEvent}
    (hes : ∀ e ∈ es, e.workspaceId = w ∧ e.Explicit) (happlied : b.AllApplied es) :
    ((∀ ds, (∀ e, e ∈ ds ↔ e ∈ es) → (b.deliverAll ds).get w = (b.deliverAll es).get w) ↔
      b.NewestFollows w es) ∧
    ∀ ds, (∀ c, b.get w = some c → ∃ d, (b.deliverAll ds).get w = some d ∧ c.version ≤ d.version) ∧
      (b.answers ds).Pairwise fun x y => x.2 = .ok .applied → y.2 = .ok .applied → x.1 ≠ y.1 := by
  refine ⟨?_, fun ds => ⟨fun c hc => BillingStore.version_deliverAll hc ds, b.applied_once ds⟩⟩
  rcases List.eq_nil_or_concat es with rfl | ⟨xs, n, rfl⟩
  · refine ⟨fun _ n hn => (by cases hn), fun _ ds hds => ?_⟩
    obtain rfl : ds = [] :=
      List.eq_nil_iff_forall_not_mem.mpr fun e he => by simpa using (hds e).mp he
    rfl
  · rw [List.concat_eq_append] at *
    obtain ⟨hregular, hset⟩ := happlied.allSet hes
    have hlast : b.NewestFollows w (xs ++ [n]) ↔ (∀ c ∈ (b.register w).value,
        BillingStore.feed.follows c (BillingStore.feed.value n)) ∧
        ∀ e ∈ xs, BillingStore.feed.follows (BillingStore.feed.value e)
            (BillingStore.feed.value n) := by
      simp [BillingStore.NewestFollows, BillingStore.feed, BillingStore.register, BillingEvent.next,
        or_imp, forall_and, Follows.refl]
    rw [hlast, ← Feed.converges_iff hset, BillingStore.get_deliverAll_last happlied hes]
    refine forall₂_congr fun ds hds => ?_
    rw [← BillingStore.register_deliverAll fun e he => hregular e ((hds e).mp he)]
    rfl

section Sample

def subscriptionEvent (id state : String) (version : Int) : BillingEvent where
  id := id
  type := "subscription.updated"
  workspaceId := "workspace_1"
  state := state
  planId := some "pro"
  version := some version
  catalogVersion := some "2026-08-24"
  cancelAtPeriodEnd := some false

theorem subscriptionEvent_regular (id state : String) (version : Int) :
    (subscriptionEvent id state version).workspaceId = "workspace_1" ∧
      (subscriptionEvent id state version).Explicit :=
  ⟨rfl, ⟨"pro", rfl, by decide⟩, ⟨"2026-08-24", rfl, by decide⟩, rfl⟩

def renewedEvents : List BillingEvent := [subscriptionEvent "event_1" "active" 1,
  subscriptionEvent "event_2" "past_due" 2, subscriptionEvent "event_3" "active" 3]

theorem renewedEvents_regular : ∀ e ∈ renewedEvents, e.workspaceId = "workspace_1" ∧
    e.Explicit := by
  unfold renewedEvents
  simp only [List.forall_mem_cons, subscriptionEvent_regular, true_and]
  exact fun e he => by cases he

/-- A payment fails and is made good: the end is the same in every order. -/
theorem billing_converges_sample :
    (∀ ds, (∀ e, e ∈ ds ↔ e ∈ renewedEvents) →
      (BillingStore.deliverAll {} ds).get "workspace_1" =
        (BillingStore.deliverAll {} renewedEvents).get "workspace_1") ∧
    ((BillingStore.deliverAll {} renewedEvents).get "workspace_1").map (·.version) = some 3 :=
  ⟨(billing_converges_iff (b := {}) renewedEvents_regular (by decide)).1.mpr (by decide), by decide⟩

def overdueEvents : List BillingEvent := [subscriptionEvent "event_1" "unpaid" 1,
  subscriptionEvent "event_2" "active" 2, subscriptionEvent "event_3" "past_due" 3]

/-- The same events, the last two the other way round. -/
def swappedEvents : List BillingEvent := [subscriptionEvent "event_1" "unpaid" 1,
  subscriptionEvent "event_3" "past_due" 3, subscriptionEvent "event_2" "active" 2]

/-- An event that arrives early is refused and never looked at again. -/
theorem early_event_is_lost : BillingStore.AllApplied {} overdueEvents ∧
    (∀ e, e ∈ swappedEvents ↔ e ∈ overdueEvents) ∧
    ((BillingStore.deliverAll {} overdueEvents).get "workspace_1").map
      (fun c => (c.state, c.version)) = some ("past_due", 3) ∧
    ((BillingStore.deliverAll {} swappedEvents).get "workspace_1").map
      (fun c => (c.state, c.version)) = some ("active", 2) := by
  refine ⟨by decide, fun e => ?_, by decide, by decide⟩
  simp only [swappedEvents, overdueEvents, List.mem_cons, List.not_mem_nil, or_false]
  tauto

end Sample

end Heel.Cloud
