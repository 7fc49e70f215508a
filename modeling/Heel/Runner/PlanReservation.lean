import Heel.Runner.PlanAttempts
import Heel.Runner.StopRace

/-! Where the main thread stands against its callbacks, over whole invocations: nothing is sent
without a reservation of its own, and nothing is found without both answers. -/
namespace Heel.PlanExecution
open Lib Containment Executor PlanDifferential

variable {P : Platform} {plan : Plan} {B : Nat → Bundle P} {W : Content.Words} {R : Allowance}
variable {s t : State}

/-! ### What the main thread leaves of the callbacks -/

theorem LogKept.filterMap {before after : List Entry} (h : LogKept before after) :
    after.filterMap Entry.opIndex = before.filterMap Entry.opIndex := by
  obtain ⟨more, rfl, hmore⟩ := h
  rw [List.filterMap_append, List.filterMap_eq_nil_iff.mpr hmore, List.append_nil]

theorem LogKept.request {before after : List Entry} (h : LogKept before after) {i k n op : Nat} :
    .request i k n op ∈ after ↔ .request i k n op ∈ before := by
  obtain ⟨more, rfl, hmore⟩ := h
  constructor
  · intro hx
    cases List.mem_append.mp hx with
    | inl hold => exact hold
    | inr hnew => exact absurd (hmore _ hnew) (by simp [Entry.opIndex])
  · intro hx
    exact List.mem_append_left _ hx

/-- New callbacks have done nothing, and the events of the main thread are not theirs. -/
theorem CallInv.frame {limit used : Nat} {history more : List Event} {calls new : List Callback}
    {log log' : List Entry} (h : CallInv limit used history calls log)
    (hmore : ∀ e ∈ more, e.ofMain = true) (hnew : ∀ c ∈ new, c.phase = .entered)
    (hlog : LogKept log log') : CallInv limit used (history ++ more) (calls ++ new) log' := by
  have htook : ∀ id op, .took id op ∈ history ++ more → .took id op ∈ history := by
    intro id op he
    exact (List.mem_append.mp he).resolve_right fun hm => by simpa [Event.ofMain] using hmore _ hm
  have hold : ∀ (id : Nat) (c : Callback), (calls ++ new)[id]? = some c →
      calls[id]? = some c ∨ c.phase = .entered := by
    intro id c hc
    rw [List.getElem?_append] at hc
    split at hc
    · exact Or.inl hc
    · exact Or.inr (hnew c (List.mem_of_getElem? hc))
  have hkept : ∀ {id : Nat} {c : Callback}, calls[id]? = some c → (calls ++ new)[id]? = some c := by
    intro id c hc
    rw [List.getElem?_append_left (List.getElem?_eq_some_iff.mp hc).1, hc]
  refine ⟨h.used_le, ?_, ?_, ?_, ?_, ?_, ?_, ?_⟩
  · intro id op he
    exact h.took_lt id op (htook id op he)
  · intro id id' op he he'
    exact h.took_one id id' op (htook id op he) (htook id' op he')
  · intro id c hc
    cases hold id c hc with
    | inl hc' => exact (h.steps id c hc').trans (List.sublist_append_left _ _)
    | inr hphase =>
      rw [hphase]
      exact List.nil_sublist _
  · intro i k n op hx
    obtain ⟨id, c, hc, he, hphase⟩ := h.entries i k n op (hlog.request.mp hx)
    exact ⟨id, c, hkept hc, List.mem_append_left _ he, hphase⟩
  · rw [hlog.filterMap]
    exact h.entries_once
  · intro id c op hc hphase
    cases hold id c hc with
    | inl hc' => exact hlog.request.mpr (h.granted id c op hc' hphase)
    | inr hentered => simp [hentered] at hphase
  · intro i k he
    have he' := (List.mem_append.mp he).resolve_right
      fun hm => by simpa [Event.ofMain] using hmore _ hm
    obtain ⟨id, c, hc, hpair, haction, hphase⟩ := h.refused i k he'
    exact ⟨id, c, hkept hc, hpair, haction, hphase⟩

theorem MainMove.frame (m : MainMove plan W R s t) :
    ∃ more new, t.history = s.history ++ more ∧ (∀ e ∈ more, e.ofMain = true) ∧
      t.calls = s.calls ++ new ∧ ∀ c ∈ new, c.phase = .entered := by
  cases m with
  | control _ calls history => exact ⟨[], [], by simp [history], by simp, by simp [calls], by simp⟩
  | spawn _ _ calls history => exact ⟨[], _, by simp [history], by simp, calls, by simp⟩
  | send _ _ calls history =>
    exact ⟨_, [], history, by simp [Event.ofMain], by simp [calls], by simp⟩
  | respond _ _ calls history =>
    exact ⟨_, [], history, by simp [Event.ofMain], by simp [calls], by simp⟩
  | leave _ _ calls history =>
    exact ⟨_, [], history, by simp [Event.ofMain], by simp [calls], by simp⟩
  | keep _ _ _ calls history => exact ⟨[], [], by simp [history], by simp, by simp [calls], by simp⟩

/-! ### Where the main thread stands -/

/-- The main thread has left action `k` of pair `i` behind. -/
def Main.past (i k : Nat) : Main → Prop
  | .entering j => i < j
  | .acting j l | .requesting j l _ => i < j ∨ (i = j ∧ k < l)
  | .executed j _ _ => i ≤ j
  | .judged o | .recorded o => i ≤ o.pair
  | .complete | .failed => True

theorem Control.past {calls : List Callback} {a b : Main} {i k : Nat}
    (h : Control plan W R calls a b)
    (ha : a.past i k) : b.past i k := by
  cases h with
  | skip => exact Nat.le_of_lt ha
  | enter => exact Or.inl ha
  | start => exact ha
  | finish =>
    simp only [Main.past] at ha ⊢
    omega
  | resume => exact ha
  | wireFailed => exact ha
  | wireAnswered => exact ha
  | judge => exact ha
  | record => exact ha
  | store => exact Nat.lt_succ_of_le ha
  | fail => trivial
  | complete => trivial

theorem MainMove.past {i k : Nat} (m : MainMove plan W R s t) (hs : s.main.past i k) :
    t.main.past i k := by
  cases m with
  | control h => exact h.past hs
  | spawn before main =>
    rw [before] at hs
    rw [main]
    exact hs
  | send before main =>
    rw [before] at hs
    rw [main]
    exact hs
  | respond before main =>
    rw [before] at hs
    rw [main]
    simp only [Main.past] at hs ⊢
    omega
  | leave before main =>
    have hle : ∀ {j l : Nat}, (i < j ∨ (i = j ∧ k < l)) → i ≤ j := by
      intro j l h
      omega
    have hj : ∀ {j l : Nat}, (s.main = .acting j l ∨ ∃ client, s.main = .requesting j l client) →
        i ≤ j := by
      intro j l h
      obtain h | ⟨client, h⟩ := h
      · exact hle (h ▸ hs)
      · exact hle (h ▸ hs)
    obtain h | ⟨d, category, h, -⟩ := main
    · rw [h]
      exact hj before
    · rw [h]
      exact hj before
  | keep before _ main =>
    rw [before] at hs
    obtain h | h := main
    · rw [h]
      exact Nat.lt_succ_of_le hs
    · rw [h]
      trivial

/-- The callback belongs to the request in hand: it has granted, or the client waits for it. -/
def InHand (main : Main) (id : Nat) (c : Callback) : Prop :=
  ∃ client, main = .requesting c.pair c.action client ∧
    ((∃ op, c.phase = .granted op) ∨ client = .waiting id)

theorem Control.inHand {calls : List Callback} {a b : Main} {id : Nat} {c : Callback}
    (h : Control plan W R calls a b) (hc : calls[id]? = some c) (ha : InHand a id c) :
    b.past c.pair c.action ∨ InHand b id c := by
  obtain ⟨client, heq, hphase⟩ := ha
  cases h with
  | skip => cases heq
  | enter => cases heq
  | start => cases heq
  | finish => cases heq
  | @resume i k id' op c' hc' hgranted =>
    cases heq
    refine Or.inr ⟨_, rfl, Or.inl ?_⟩
    cases hphase with
    | inl hg => exact hg
    | inr hid =>
      cases hid
      rw [hc, Option.some.injEq] at hc'
      exact ⟨op, hc' ▸ hgranted⟩
  | wireFailed =>
    cases heq
    exact Or.inr ⟨_, rfl, Or.inl (hphase.resolve_right (by simp))⟩
  | wireAnswered =>
    cases heq
    exact Or.inr ⟨_, rfl, Or.inl (hphase.resolve_right (by simp))⟩
  | judge => cases heq
  | record => cases heq
  | store => cases heq
  | fail => exact Or.inl trivial
  | complete => cases heq

theorem MainMove.inHand {id : Nat} {c : Callback} (m : MainMove plan W R s t)
    (hc : s.calls[id]? = some c) (hs : InHand s.main id c) :
    t.main.past c.pair c.action ∨ InHand t.main id c := by
  cases m with
  | control h => exact h.inHand hc hs
  | spawn before main =>
    obtain ⟨client, heq, hphase⟩ := hs
    cases before.symm.trans heq
    exact Or.inr ⟨_, main, Or.inl (hphase.resolve_right (by simp))⟩
  | send before main =>
    obtain ⟨client, heq, hphase⟩ := hs
    cases before.symm.trans heq
    exact Or.inr ⟨_, main, Or.inl (hphase.resolve_right (by simp))⟩
  | respond before main =>
    obtain ⟨client, heq, hphase⟩ := hs
    cases before.symm.trans heq
    rw [main]
    exact Or.inl (Or.inr ⟨rfl, Nat.lt_succ_self _⟩)
  | leave before main =>
    obtain ⟨client, heq, hphase⟩ := hs
    have hpair : ∀ {i k : Nat}, (s.main = .acting i k ∨ ∃ client, s.main = .requesting i k client) →
        c.pair = i := by
      intro i k h
      obtain h | ⟨client', h⟩ := h
      · cases heq.symm.trans h
      · cases heq.symm.trans h
        rfl
    obtain h | ⟨d, category, h, -⟩ := main
    · rw [h]
      exact Or.inl (Nat.le_of_eq (hpair before))
    · rw [h]
      exact Or.inl (Nat.le_of_eq (hpair before))
  | keep before =>
    obtain ⟨client, heq, hphase⟩ := hs
    cases before.symm.trans heq

/-- A callback is in hand or left behind, and so is an abandoned action. -/
structure Placement (main : Main) (history : List Event) (calls : List Callback) : Prop where
  placed : ∀ (id : Nat) (c : Callback), calls[id]? = some c →
    main.past c.pair c.action ∨ InHand main id c
  abandoned : ∀ i k, .abandoned i k ∈ history → main.past i k

theorem Placement.call {limit used used' id : Nat} {c : Callback} {phase : CallPhase} {e : Event}
    {entry : Option Entry} {main : Main} {history : List Event} {calls : List Callback}
    (h : Placement main history calls) (hc : calls[id]? = some c)
    (m : CallMove limit used id c phase e entry used') :
    Placement main (history ++ [e]) (calls.set id { c with phase }) := by
  constructor
  · intro id' c' hc'
    cases set_some hc hc' with
    | inl hown =>
      obtain ⟨hid, heq⟩ := hown
      rw [hid, heq]
      cases h.placed id c hc with
      | inl hpast => exact Or.inl hpast
      | inr hhand =>
        obtain ⟨client, hmain, hphase⟩ := hhand
        refine Or.inr ⟨client, hmain, Or.inr (hphase.resolve_left ?_)⟩
        rintro ⟨op, hgranted⟩
        exact m.live.2 op hgranted
    | inr hother => exact h.placed id' c' hother.2
  · intro i k he
    cases List.mem_append.mp he with
    | inl hold => exact h.abandoned i k hold
    | inr hnew =>
      rw [List.mem_singleton] at hnew
      cases m <;> cases hnew

theorem Placement.main (h : Placement s.main s.history s.calls) (m : MainMove plan W R s t) :
    Placement t.main t.history t.calls := by
  have hplaced : ∀ (id : Nat) (c : Callback), s.calls[id]? = some c →
      t.main.past c.pair c.action ∨ InHand t.main id c := by
    intro id c hc
    cases h.placed id c hc with
    | inl hpast => exact Or.inl (m.past hpast)
    | inr hhand => exact m.inHand hc hhand
  have habandoned : ∀ i k, .abandoned i k ∈ s.history → t.main.past i k := by
    intro i k he
    exact m.past (h.abandoned i k he)
  cases m with
  | control _ calls history => exact ⟨calls ▸ hplaced, history ▸ habandoned⟩
  | @spawn i k attempt previous _ main calls history =>
    refine ⟨?_, history ▸ habandoned⟩
    intro id c hc
    rw [calls, List.getElem?_append] at hc
    split at hc
    · exact hplaced id c hc
    next hlen =>
      obtain ⟨hid, heq⟩ := List.getElem?_eq_some_iff.mp hc
      have hid : id = s.calls.length := by
        simp only [List.length_singleton] at hid
        omega
      subst hid
      simp only [Nat.sub_self, List.getElem_cons_zero] at heq
      subst heq
      exact Or.inr ⟨_, main, Or.inr rfl⟩
  | send _ _ calls history =>
    refine ⟨calls ▸ hplaced, ?_⟩
    intro i k he
    rw [history] at he
    exact habandoned i k (by simpa using he)
  | respond _ _ calls history =>
    refine ⟨calls ▸ hplaced, ?_⟩
    intro i k he
    rw [history] at he
    exact habandoned i k (by simpa using he)
  | leave _ main calls history =>
    refine ⟨calls ▸ hplaced, ?_⟩
    intro i k he
    rw [history] at he
    cases List.mem_append.mp he with
    | inl hold => exact habandoned i k hold
    | inr hnew =>
      cases List.mem_singleton.mp hnew
      obtain hm | ⟨d, category, hm, -⟩ := main
      · rw [hm]
        exact Nat.le_refl _
      · rw [hm]
        exact Nat.le_refl _
  | keep _ _ _ calls history => exact ⟨calls ▸ hplaced, history ▸ habandoned⟩

/-! ### What is sent -/

def Client.call : Client → Option Nat
  | .waiting id | .holding id _ => some id
  | _ => none

/-- A callback sends once, with the index it was granted. -/
structure Sends (main : Main) (history : List Event) (calls : List Callback) : Prop where
  unsent : ∀ i k client id, main = .requesting i k client → client.call = some id →
    (∃ c : Callback, calls[id]? = some c ∧ c.pair = i ∧ c.action = k) ∧
      ∀ op j l, .sent id op j l ∉ history
  holds : ∀ i k id op, main = .requesting i k (.holding id op) →
    ∃ c : Callback, calls[id]? = some c ∧ c.phase = .granted op
  sent : ∀ id op i k, .sent id op i k ∈ history →
    ∃ c : Callback, calls[id]? = some c ∧ c.phase = .granted op
  sent_once : (history.filterMap Event.sentOp).Nodup

theorem sent_snoc {history : List Event} {e : Event} (he : e.sentOp = none) {id op i k : Nat} :
    .sent id op i k ∈ history ++ [e] ↔ .sent id op i k ∈ history := by
  rw [List.mem_append, List.mem_singleton, or_iff_left]
  rintro rfl
  cases he

theorem filterMap_snoc {history : List Event} {e : Event} (he : e.sentOp = none) :
    (history ++ [e]).filterMap Event.sentOp = history.filterMap Event.sentOp := by
  simp [List.filterMap_append, he]

theorem Sends.call {limit used used' id : Nat} {c : Callback} {phase : CallPhase} {e : Event}
    {entry : Option Entry} {main : Main} {history : List Event} {calls : List Callback}
    (h : Sends main history calls) (hc : calls[id]? = some c)
    (m : CallMove limit used id c phase e entry used') :
    Sends main (history ++ [e]) (calls.set id { c with phase }) := by
  have hgranted : ∀ (id' op : Nat),
      (∃ c' : Callback, calls[id']? = some c' ∧ c'.phase = .granted op) →
      ∃ c' : Callback, (calls.set id { c with phase })[id']? = some c' ∧
      c'.phase = .granted op := by
    rintro id' op ⟨c', hc', hphase⟩
    have hne : id ≠ id' := by
      rintro rfl
      rw [hc, Option.some.injEq] at hc'
      exact m.live.2 op (hc' ▸ hphase)
    exact ⟨c', by rw [List.getElem?_set_ne hne, hc'], hphase⟩
  constructor
  · intro i k client id' hmain hcall
    obtain ⟨⟨c', hc', hpair, haction⟩, hsent⟩ := h.unsent i k client id' hmain hcall
    refine ⟨?_, fun op j l he => hsent op j l ((sent_snoc m.unsent).mp he)⟩
    by_cases hid : id = id'
    · subst hid
      rw [hc, Option.some.injEq] at hc'
      subst hc'
      exact ⟨_, set_self hc, hpair, haction⟩
    · exact ⟨c', by rw [List.getElem?_set_ne hid, hc'], hpair, haction⟩
  · intro i k id' op hmain
    exact hgranted id' op (h.holds i k id' op hmain)
  · intro id' op i k he
    exact hgranted id' op (h.sent id' op i k ((sent_snoc m.unsent).mp he))
  · rw [filterMap_snoc m.unsent]
    exact h.sent_once

theorem Control.waiting {calls : List Callback} {a : Main} {i k id : Nat} {client : Client}
    (h : Control plan W R calls a (.requesting i k client)) (hcall : client.call = some id) :
    a = .requesting i k (.waiting id) ∧ ∀ op, client = .holding id op →
      ∃ c : Callback, calls[id]? = some c ∧ c.phase = .granted op := by
  cases h with
  | start => cases hcall
  | resume hc hphase =>
    cases hcall
    refine ⟨rfl, ?_⟩
    intro op heq
    cases heq
    exact ⟨_, hc, hphase⟩
  | wireFailed => cases hcall
  | wireAnswered => cases hcall

/-- The callback whose grant is in hand has not sent: its index is new. -/
theorem Sends.fresh {limit used id op i k : Nat} {log : List Entry} {main : Main}
    {history : List Event} {calls : List Callback} (h : Sends main history calls)
    (hcalls : CallInv limit used history calls log)
      (hmain : main = .requesting i k (.holding id op)) :
    op ∉ history.filterMap Event.sentOp := by
  intro hop
  obtain ⟨e, he, heq⟩ := List.mem_filterMap.mp hop
  cases e with
  | sent id' op' j l =>
    cases heq
    obtain ⟨c, hc, hphase⟩ := h.holds i k id op hmain
    obtain ⟨c', hc', hphase'⟩ := h.sent id' op j l he
    have hsame : id' = id := hcalls.took_one id' id op (hcalls.took hc' (by rw [hphase']; rfl))
      (hcalls.took hc (by rw [hphase]; rfl))
    subst hsame
    exact (h.unsent i k (.holding id' op) id' hmain rfl).2 op j l he
  | verified => cases heq
  | took => cases heq
  | permitted => cases heq
  | logged => cases heq
  | refused => cases heq
  | abandoned => cases heq
  | completed => cases heq

theorem Sends.main {limit : Nat} (h : Sends s.main s.history s.calls)
    (hcalls : CallInv limit s.used s.history s.calls s.log) (m : MainMove plan W R s t) :
    Sends t.main t.history t.calls := by
  cases m with
  | control hcontrol calls history =>
    rw [calls, history]
    refine ⟨?_, ?_, h.sent, h.sent_once⟩
    · intro i k client id hmain hcall
      rw [hmain] at hcontrol
      exact h.unsent i k (.waiting id) id (hcontrol.waiting hcall).1 rfl
    · intro i k id op hmain
      rw [hmain] at hcontrol
      exact (hcontrol.waiting rfl).2 op rfl
  | @spawn i k attempt previous before main calls history =>
    rw [main, calls, history]
    have hgranted : ∀ (id op : Nat),
        (∃ c : Callback, s.calls[id]? = some c ∧ c.phase = .granted op) → id < s.calls.length ∧
        ∃ c : Callback, (s.calls ++ [{ pair := i, action := k, attempt, previous }])[id]? = some c ∧
          c.phase = .granted op := by
      rintro id op ⟨c, hc, hphase⟩
      have hlt := (List.getElem?_eq_some_iff.mp hc).1
      exact ⟨hlt, c, by rw [List.getElem?_append_left hlt, hc], hphase⟩
    refine ⟨?_, ?_, ?_, h.sent_once⟩
    · intro j l client id hmain hcall
      cases hmain
      cases hcall
      refine ⟨⟨_, List.getElem?_concat_length, rfl, rfl⟩, ?_⟩
      intro op j l he
      exact absurd (hgranted _ op (h.sent _ op j l he)).1 (Nat.lt_irrefl _)
    · intro j l id op hmain
      cases hmain
    · intro id op j l he
      exact (hgranted id op (h.sent id op j l he)).2
  | @send i k id op before main calls history =>
    rw [main, calls, history]
    refine ⟨?_, ?_, ?_, ?_⟩
    · intro j l client id' hmain hcall
      cases hmain
      cases hcall
    · intro j l id' op' hmain
      cases hmain
    · intro id' op' j l he
      cases List.mem_append.mp he with
      | inl hold => exact h.sent id' op' j l hold
      | inr hnew =>
        cases List.mem_singleton.mp hnew
        exact h.holds i k id op before
    · rw [List.filterMap_append]
      exact List.Nodup.append h.sent_once (by simp [Event.sentOp])
        (by simpa [Event.sentOp] using h.fresh hcalls before)
  | respond before main calls history =>
    rw [main, calls, history]
    refine ⟨?_, ?_, ?_, ?_⟩
    · intro j l client id hmain
      cases hmain
    · intro j l id op hmain
      cases hmain
    · intro id op j l he
      exact h.sent id op j l ((sent_snoc rfl).mp he)
    · rw [filterMap_snoc rfl]
      exact h.sent_once
  | leave before main calls history =>
    rw [calls, history]
    have hnot : ∀ j l client, t.main ≠ .requesting j l client := by
      intro j l client hmain
      obtain hm | ⟨d, category, hm, -⟩ := main
      · cases hm.symm.trans hmain
      · cases hm.symm.trans hmain
    refine ⟨?_, ?_, ?_, ?_⟩
    · intro j l client id hmain
      exact absurd hmain (hnot j l client)
    · intro j l id op hmain
      exact absurd hmain (hnot j l _)
    · intro id op j l he
      exact h.sent id op j l ((sent_snoc rfl).mp he)
    · rw [filterMap_snoc rfl]
      exact h.sent_once
  | keep before _ main calls history =>
    rw [calls, history]
    have hnot : ∀ j l client, t.main ≠ .requesting j l client := by
      intro j l client hmain
      obtain hm | hm := main
      · cases hm.symm.trans hmain
      · cases hm.symm.trans hmain
    refine ⟨?_, ?_, h.sent, h.sent_once⟩
    · intro j l client id hmain
      exact absurd hmain (hnot j l client)
    · intro j l id op hmain
      exact absurd hmain (hnot j l _)

/-! ### What is found -/

/-- Both requests of the pair answered, and both observations are at hand. -/
structure Backed (history : List Event) (o : PairOutcome) : Prop where
  lower : .completed o.pair 0 ∈ history
  higher : .completed o.pair 1 ∈ history
  observed : o.lower.isSome = true ∧ o.higher.isSome = true
  completed : o.executionDisposition = "completed"

theorem Backed.mono {history more : List Event} {o : PairOutcome} (h : Backed history o) :
    Backed (history ++ more) o :=
  ⟨List.mem_append_left _ h.lower, List.mem_append_left _ h.higher, h.observed, h.completed⟩

/-- The requests that have answered where the main thread stands. -/
def Main.answered (history : List Event) : Main → Prop
  | .acting i k | .requesting i k _ => ∀ l < k, .completed i l ∈ history
  | .executed i d _ => d = .completed → .completed i 0 ∈ history ∧ .completed i 1 ∈ history
  | .judged o | .recorded o => o.stores = true → Backed history o
  | .entering _ | .complete | .failed => True

theorem Main.answered.mono {history more : List Event} {main : Main} (h : main.answered history) :
    main.answered (history ++ more) := by
  cases main with
  | entering => trivial
  | acting i k => exact fun l hl => List.mem_append_left _ (h l hl)
  | requesting i k client => exact fun l hl => List.mem_append_left _ (h l hl)
  | executed i d category =>
    exact fun hd => ⟨List.mem_append_left _ (h hd).1, List.mem_append_left _ (h hd).2⟩
  | judged o => exact fun ho => (h ho).mono
  | recorded o => exact fun ho => (h ho).mono
  | complete => trivial
  | failed => trivial

theorem stores_verdict {o : PairOutcome} (h : o.stores = true) :
    o.verdict.verdict = .finding ∧ o.executionDisposition = "completed" := by
  simp only [PairOutcome.stores, Bool.and_eq_true, decide_eq_true_eq] at h
  exact ⟨h.1.1.2, h.2⟩

theorem notStarted_stores (i : Nat) (reason : String) (continues : Bool) :
    (notStarted i reason continues).stores = false := by
  simp [PairOutcome.stores, notStarted]

theorem name_completed {d : Disposition} (h : d.name = "completed") : d = .completed := by
  cases d with
  | completed => rfl
  | _ => simp [Disposition.name] at h

theorem judgePair_stores {pair : Pair} {i : Nat} {d : Disposition} {category : ErrorCategory}
    {lower higher : Option PlanObservation} {assessment : String} {reason : Option String}
    (h : (judgePair W R pair i d category lower higher assessment reason).stores = true) :
    d = .completed ∧ lower.isSome = true ∧ higher.isSome = true := by
  obtain ⟨hfinding, hname⟩ := stores_verdict h
  have hd : d = .completed := name_completed hname
  obtain ⟨l, g, a, hl, hg, -⟩ := evaluatePlanPair_finding hfinding
  simp only [hd, ↓reduceIte] at hl hg
  exact ⟨hd, by rw [hl]; rfl, by rw [hg]; rfl⟩

theorem Control.answered {calls : List Callback} {history : List Event} {a b : Main}
    (h : Control plan W R calls a b) (ha : a.answered history) : b.answered history := by
  cases h with
  | skip => exact fun ho => absurd ho (by simp [notStarted_stores])
  | enter => exact fun l hl => absurd hl (Nat.not_lt_zero l)
  | start => exact ha
  | finish => exact fun _ => ⟨ha 0 (by decide), ha 1 (by decide)⟩
  | resume => exact ha
  | wireFailed => exact ha
  | wireAnswered => exact ha
  | judge =>
    intro ho
    obtain ⟨hd, hlower, hhigher⟩ := judgePair_stores ho
    subst hd
    exact ⟨(ha rfl).1, (ha rfl).2, ⟨hlower, hhigher⟩, rfl⟩
  | record => exact ha
  | store => trivial
  | fail => trivial
  | complete => trivial

/-- What has answered, and what is found on it. -/
structure Answers (main : Main) (history : List Event) (findings : List PairOutcome) : Prop where
  answered : main.answered history
  backed : ∀ o ∈ findings, Backed history o

theorem Answers.main (h : Answers s.main s.history s.findings) (m : MainMove plan W R s t) :
    Answers t.main t.history t.findings := by
  cases m with
  | control hcontrol _ history findings =>
    rw [history, findings]
    exact ⟨hcontrol.answered h.answered, h.backed⟩
  | spawn before main _ history findings =>
    have hanswered := h.answered
    rw [before] at hanswered
    rw [main, history, findings]
    exact ⟨hanswered, h.backed⟩
  | send before main _ history findings =>
    have hanswered := h.answered
    rw [before] at hanswered
    rw [main, history, findings]
    exact ⟨fun l hl => List.mem_append_left _ (hanswered l hl), fun o ho => (h.backed o ho).mono⟩
  | respond before main _ history findings =>
    have hanswered := h.answered
    rw [before] at hanswered
    rw [main, history, findings]
    refine ⟨?_, fun o ho => (h.backed o ho).mono⟩
    intro l hl
    cases Nat.lt_succ_iff_lt_or_eq.mp hl with
    | inl hlt => exact List.mem_append_left _ (hanswered l hlt)
    | inr heq => simp [heq]
  | leave before main _ history findings =>
    rw [history, findings]
    refine ⟨?_, fun o ho => (h.backed o ho).mono⟩
    obtain hm | ⟨d, category, hm, hne⟩ := main
    · rw [hm]
      exact fun ho => absurd ho (by simp [notStarted_stores])
    · rw [hm]
      exact fun hd => absurd hd hne
  | keep before stores main _ history findings =>
    have hanswered := h.answered
    rw [before] at hanswered
    rw [history, findings]
    constructor
    · obtain hm | hm := main
      · rw [hm]
        trivial
      · rw [hm]
        trivial
    · intro o ho
      cases List.mem_append.mp ho with
      | inl hold => exact h.backed o hold
      | inr hnew =>
        rw [List.mem_singleton.mp hnew]
        exact hanswered stores

/-! ### Runs -/

structure Inv (plan : Plan) (s : State) : Prop where
  calls : CallInv plan.effectiveMaxOps s.used s.history s.calls s.log
  placement : Placement s.main s.history s.calls
  sends : Sends s.main s.history s.calls
  answers : Answers s.main s.history s.findings

theorem inv_init (preflight : Option String) : Inv plan { preflight } where
  calls := ⟨Nat.zero_le _, by simp, by simp, by simp, by simp, List.nodup_nil, by simp, by simp⟩
  placement := ⟨by simp, by simp⟩
  sends := ⟨by simp, by simp, by simp, List.nodup_nil⟩
  answers := ⟨trivial, by simp⟩

theorem inv_step {a : Step} (h : Inv plan s) (hstep : step plan B W R s a = some t) :
    Inv plan t := by
  cases a with
  | callback id choice =>
    obtain ⟨c, phase, e, entry, hc, m, calls, history, log, main, findings⟩ := callStep_move hstep
    constructor
    · rw [calls, history, log]
      exact h.calls.move hc m
    · rw [main, calls, history]
      exact h.placement.call hc m
    · rw [main, calls, history]
      exact h.sends.call hc m
    · rw [main, history, findings]
      exact ⟨h.answers.answered.mono, fun o ho => (h.answers.backed o ho).mono⟩
  | main choice =>
    obtain ⟨m, used, hlog⟩ := mainStep_move hstep
    refine ⟨?_, h.placement.main m, h.sends.main h.calls m, h.answers.main m⟩
    obtain ⟨more, new, history, hmore, calls, hnew⟩ := m.frame
    rw [used, history, calls]
    exact h.calls.frame hmore hnew hlog

theorem reachable_inv (h : (invocation plan B W R).Reachable s) : Inv plan s := by
  refine Transition.invariant _ ?_ ?_ h
  · rintro _ ⟨preflight, rfl⟩
    exact inv_init preflight
  · intro s a t hs hstep
    exact inv_step hs (show step plan B W R s a = some t from hstep)

theorem send_step {a : Step} {id op i k : Nat} (h : step plan B W R s a = some t)
    (hsend : t.history = s.history ++ [.sent id op i k]) :
    s.main = .requesting i k (.holding id op) := by
  cases a with
  | callback id' choice =>
    obtain ⟨c, phase, e, entry, -, m, -, history, -⟩ := callStep_move h
    rw [history, List.append_cancel_left_eq, List.singleton_inj] at hsend
    have hunsent := m.unsent
    rw [hsend] at hunsent
    cases hunsent
  | main choice =>
    obtain ⟨m, -, -⟩ := mainStep_move h
    cases m with
    | control _ _ history => simp [history] at hsend
    | spawn _ _ _ history => simp [history] at hsend
    | send before _ _ history =>
      rw [history, List.append_cancel_left_eq, List.singleton_inj] at hsend
      cases hsend
      exact before
    | respond _ _ _ history => simp [history] at hsend
    | leave _ _ _ history => simp [history] at hsend
    | keep _ _ _ _ history => simp [history] at hsend

theorem Inv.sent_lt (h : Inv plan s) {op : Nat} (hop : op ∈ s.history.filterMap Event.sentOp) :
    op < s.used := by
  obtain ⟨e, he, heq⟩ := List.mem_filterMap.mp hop
  cases e with
  | sent id op' i k =>
    cases heq
    obtain ⟨c, hc, hphase⟩ := h.sends.sent id op i k he
    exact h.calls.took_lt id op (h.calls.took hc (by rw [hphase]; rfl))
  | verified => cases heq
  | took => cases heq
  | permitted => cases heq
  | logged => cases heq
  | refused => cases heq
  | abandoned => cases heq
  | completed => cases heq

theorem nodup_length_le {xs : List Nat} {n : Nat} (hnodup : xs.Nodup) (h : ∀ x ∈ xs, x < n) :
    xs.length ≤ n := by
  have hsub : xs ⊆ List.range n := fun x hx => List.mem_range.mpr (h x hx)
  simpa using (List.subperm_of_subset hnodup hsub).length_le

theorem not_past (i k : Nat) (client : Client) : ¬ (Main.requesting i k client).past i k := by
  simp [Main.past]

/-- A callback of the action in hand that was refused is the one the client waits for. -/
theorem Inv.not_refused {id op i k : Nat} (h : Inv plan s)
    (hmain : s.main = .requesting i k (.holding id op)) : .refused i k ∉ s.history := by
  intro he
  obtain ⟨id', c, hc, rfl, rfl, hphase⟩ := h.calls.refused i k he
  obtain hpast | ⟨client, heq, hhand⟩ := h.placement.placed id' c hc
  · rw [hmain] at hpast
    exact not_past _ _ _ hpast
  · cases hmain.symm.trans heq
    simp [hphase] at hhand

/-- In every reachable state of an invocation as many requests are sent at most as the budget has
given, and the budget keeps its limit. What is sent next was verified, taken from the budget,
permitted and logged in that order under an index of its own, and its action was neither refused nor
abandoned; the log has no index twice. A finding has both answers. -/
theorem sends_within_reservation (h : (invocation plan B W R).Reachable s) :
    (s.history.filterMap Event.sentOp).length ≤ s.used ∧ s.used ≤ plan.effectiveMaxOps ∧
    (∀ a t id op i k, step plan B W R s a = some t → t.history = s.history ++ [.sent id op i k] →
      [.verified id, .took id op, .permitted id, .logged id op].Sublist s.history ∧
      (∃ attempt, .request i k attempt op ∈ s.log) ∧ op ∉ s.history.filterMap Event.sentOp ∧
      .refused i k ∉ s.history ∧ .abandoned i k ∉ s.history) ∧
    (s.log.filterMap Entry.opIndex).Nodup ∧ ∀ o ∈ s.findings, Backed s.history o := by
  have hinv := reachable_inv h
  refine ⟨nodup_length_le hinv.sends.sent_once fun op hop => hinv.sent_lt hop,
    hinv.calls.used_le, ?_,
    hinv.calls.entries_once, hinv.answers.backed⟩
  intro a t id op i k hstep hsend
  have hmain := send_step hstep hsend
  obtain ⟨c, hc, hphase⟩ := hinv.sends.holds i k id op hmain
  obtain ⟨⟨c', hc', hpair, haction⟩, -⟩ := hinv.sends.unsent i k (.holding id op) id hmain rfl
  rw [hc, Option.some.injEq] at hc'
  subst hc'
  refine ⟨?_, ?_, hinv.sends.fresh hinv.calls hmain, hinv.not_refused hmain, ?_⟩
  · have hsteps := hinv.calls.steps id c hc
    rw [hphase] at hsteps
    exact hsteps
  · rw [← hpair, ← haction]
    exact ⟨c.attempt, hinv.calls.granted id c op hc hphase⟩
  · intro he
    have hpast := hinv.placement.abandoned i k he
    rw [hmain] at hpast
    exact not_past i k _ hpast

/-! ### An invocation of one pair -/

def run (plan : Plan) (B : Nat → Bundle P) (W : Content.Words) (R : Allowance) (s : State)
    (steps : List Step) : Option State :=
  steps.foldlM (step plan B W R) s

theorem reachable_run {steps : List Step} (hs : (invocation plan B W R).Reachable s)
    (h : run plan B W R s steps = some t) : (invocation plan B W R).Reachable t := by
  induction steps generalizing s with
  | nil =>
    cases h
    exact hs
  | cons a steps ih =>
    rw [run, List.foldlM_cons, Option.bind_eq_bind, Option.bind_eq_some_iff] at h
    obtain ⟨u, hu, hrest⟩ := h
    exact ih (hs.step hu) hrest

def samplePlan : Plan where
  pairs := [⟨JsonText.points "GET", none⟩]
  effectiveMaxOps := 3
  two_le := by decide

/-- A request that is answered at its first attempt. -/
def sampleRequest (id : Nat) : List Step :=
  [.main .start, .main (.call 1 none), .callback id (.verify true true), .callback id .take,
    .callback id (.permit 0 ⟨none, .ok 1, none⟩ true), .callback id (.append true true),
    .main .resume, .main .send, .main .wireAnswered, .main .respond]

def sampleSteps : List Step :=
  [.main (.enter true)] ++ sampleRequest 0 ++ sampleRequest 1 ++
    [.main .finish, .main (.judge (some lowerInvoice) (some higherInvoice) "observed" none),
      .main (.record true), .main (.store true true)]

theorem sends_within_reservation_sample :
    ∃ s, (invocation samplePlan (fun _ => sampleBundle) latin shallow).Reachable s ∧
      s.history.filterMap Event.sentOp = [0, 1] ∧ s.findings.length = 1 ∧
      (s.history.filterMap Event.sentOp).length ≤ s.used ∧ s.used ≤ 3 ∧
      (s.log.filterMap Entry.opIndex).Nodup ∧ ∀ o ∈ s.findings, Backed s.history o := by
  have hrun : (run samplePlan (fun _ => sampleBundle) latin shallow {} sampleSteps).map
      (fun s => (s.history.filterMap Event.sentOp, s.findings.length)) = some ([0, 1], 1) := by
    decide +kernel
  obtain ⟨s, hs, heq⟩ := Option.map_eq_some_iff.mp hrun
  rw [Prod.mk.injEq] at heq
  have hreach := reachable_run (.init ⟨none, rfl⟩) hs
  obtain ⟨hsent, hused, -, hlog, hfindings⟩ := sends_within_reservation hreach
  exact ⟨s, hreach, heq.1, heq.2, hsent, hused, hlog, hfindings⟩

end Heel.PlanExecution
