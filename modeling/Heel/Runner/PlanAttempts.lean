import Heel.Runner.PlanExecution
import Heel.Runner.PlanFindings

/-! What an invocation reserves before it sends: the callbacks against the history, then the main
thread over them. -/
namespace Heel.PlanExecution
open Lib Containment Executor PlanDifferential

variable {P : Platform} {plan : Plan} {B : Nat → Bundle P} {W : Content.Words} {R : Allowance}
variable {s t : State}

def Event.sentOp : Event → Option Nat
  | .sent _ op _ _ => some op
  | _ => none

def Event.ofMain : Event → Bool
  | .sent .. | .completed .. | .abandoned .. => true
  | _ => false

def Entry.opIndex : Entry → Option Nat
  | .request _ _ _ op => some op
  | _ => none

/-- The steps of a callback so far, in their order. -/
def CallPhase.steps (id : Nat) : CallPhase → List Event
  | .entered | .refused => []
  | .verified => [.verified id]
  | .took op => [.verified id, .took id op]
  | .permitted op => [.verified id, .took id op, .permitted id]
  | .granted op => [.verified id, .took id op, .permitted id, .logged id op]

/-- The index that a callback has taken and may still use. -/
def CallPhase.op : CallPhase → Option Nat
  | .took op | .permitted op | .granted op => some op
  | _ => none

/-- Indices are taken once, logged once, and the history holds what a callback has done. -/
structure CallInv (limit used : Nat) (history : List Event) (calls : List Callback)
    (log : List Entry) : Prop where
  used_le : used ≤ limit
  took_lt : ∀ id op, .took id op ∈ history → op < used
  took_one : ∀ id id' op, .took id op ∈ history → .took id' op ∈ history → id = id'
  steps : ∀ (id : Nat) (c : Callback), calls[id]? = some c → (c.phase.steps id).Sublist history
  entries : ∀ i k n op, .request i k n op ∈ log → ∃ (id : Nat) (c : Callback), calls[id]? = some c ∧
    .took id op ∈ history ∧ (c.phase = .granted op ∨ c.phase = .refused)
  entries_once : (log.filterMap Entry.opIndex).Nodup
  granted : ∀ (id : Nat) (c : Callback) (op : Nat), calls[id]? = some c → c.phase = .granted op →
    .request c.pair c.action c.attempt op ∈ log
  refused : ∀ i k, .refused i k ∈ history →
    ∃ (id : Nat) (c : Callback), calls[id]? = some c ∧ c.pair = i ∧
    c.action = k ∧ c.phase = .refused

section call
variable {limit used used' : Nat} {history : List Event} {calls : List Callback} {log : List Entry}
variable {id : Nat} {c : Callback} {phase : CallPhase} {e : Event} {entry : Option Entry}

theorem CallInv.took (h : CallInv limit used history calls log) {op : Nat}
    (hc : calls[id]? = some c) (hop : c.phase.op = some op) : .took id op ∈ history := by
  apply (h.steps id c hc).subset
  cases hphase : c.phase with
  | entered => simp [hphase, CallPhase.op] at hop
  | verified => simp [hphase, CallPhase.op] at hop
  | took o =>
    rw [hphase] at hop
    cases hop
    simp [CallPhase.steps]
  | permitted o =>
    rw [hphase] at hop
    cases hop
    simp [CallPhase.steps]
  | granted o =>
    rw [hphase] at hop
    cases hop
    simp [CallPhase.steps]
  | refused => simp [hphase, CallPhase.op] at hop

/-- What a step of a callback does: the phase it leaves, its event, its entry and the budget. -/
inductive CallMove (limit used id : Nat) (c : Callback) :
    CallPhase → Event → Option Entry → Nat → Prop
  | verify (h : c.phase = .entered) : CallMove limit used id c .verified (.verified id) none used
  | take (h : c.phase = .verified) (hfree : used < limit) :
    CallMove limit used id c (.took used) (.took id used) none (used + 1)
  | permit {op : Nat} (h : c.phase = .took op) :
    CallMove limit used id c (.permitted op) (.permitted id) none used
  | append {op : Nat} (h : c.phase = .permitted op) :
    CallMove limit used id c (.granted op) (.logged id op)
      (some (.request c.pair c.action c.attempt op)) used
  | refuse (h : ∀ op, c.phase ≠ .granted op) (hlive : c.phase ≠ .refused) :
    CallMove limit used id c .refused (.refused c.pair c.action) none used
  | lose {op : Nat} (h : c.phase = .permitted op) :
    CallMove limit used id c .refused (.refused c.pair c.action)
      (some (.request c.pair c.action c.attempt op)) used

theorem CallMove.live (m : CallMove limit used id c phase e entry used') :
    c.phase ≠ .refused ∧ ∀ op, c.phase ≠ .granted op := by
  cases m with
  | verify h => simp [h]
  | take h => simp [h]
  | permit h => simp [h]
  | append h => simp [h]
  | refuse h hlive => exact ⟨hlive, h⟩
  | lose h => simp [h]

theorem CallMove.steps (m : CallMove limit used id c phase e entry used') :
    phase = .refused ∨ phase.steps id = c.phase.steps id ++ [e] := by
  cases m with
  | verify h => simp [h, CallPhase.steps]
  | take h => simp [h, CallPhase.steps]
  | permit h => simp [h, CallPhase.steps]
  | append h => simp [h, CallPhase.steps]
  | refuse => exact Or.inl rfl
  | lose => exact Or.inl rfl

theorem CallMove.took_of (m : CallMove limit used id c phase e entry used') {id' op : Nat}
    (he : e = .took id' op) : id' = id ∧ op = used ∧ used' = used + 1 := by
  cases m with
  | take =>
    cases he
    exact ⟨rfl, rfl, rfl⟩
  | verify => cases he
  | permit => cases he
  | append => cases he
  | refuse => cases he
  | lose => cases he

theorem CallMove.budget (m : CallMove limit used id c phase e entry used') :
    used ≤ used' ∧ (used ≤ limit → used' ≤ limit) := by
  cases m with
  | take _ hfree => exact ⟨Nat.le_succ _, fun _ => hfree⟩
  | verify => exact ⟨Nat.le_refl _, fun h => h⟩
  | permit => exact ⟨Nat.le_refl _, fun h => h⟩
  | append => exact ⟨Nat.le_refl _, fun h => h⟩
  | refuse => exact ⟨Nat.le_refl _, fun h => h⟩
  | lose => exact ⟨Nat.le_refl _, fun h => h⟩

/-- The entry of a callback carries the index it has taken, and closes it. -/
theorem CallMove.entry_of (m : CallMove limit used id c phase e entry used') {x : Entry}
    (hx : x ∈ entry.toList) : ∃ op, x = .request c.pair c.action c.attempt op ∧
      c.phase = .permitted op ∧ (phase = .granted op ∨ phase = .refused) := by
  cases m with
  | verify => cases hx
  | take => cases hx
  | permit => cases hx
  | append h => exact ⟨_, by simpa using hx, h, Or.inl rfl⟩
  | refuse => cases hx
  | lose h => exact ⟨_, by simpa using hx, h, Or.inr rfl⟩

theorem CallMove.grants (m : CallMove limit used id c phase e entry used') {op : Nat}
    (h : phase = .granted op) : entry = some (.request c.pair c.action c.attempt op) := by
  cases m with
  | append =>
    cases h
    rfl
  | verify => cases h
  | take => cases h
  | permit => cases h
  | refuse => cases h
  | lose => cases h

theorem CallMove.refused_of (m : CallMove limit used id c phase e entry used') {i k : Nat}
    (he : e = .refused i k) : i = c.pair ∧ k = c.action ∧ phase = .refused := by
  cases m with
  | refuse =>
    cases he
    exact ⟨rfl, rfl, rfl⟩
  | lose =>
    cases he
    exact ⟨rfl, rfl, rfl⟩
  | verify => cases he
  | take => cases he
  | permit => cases he
  | append => cases he

theorem CallMove.unsent (m : CallMove limit used id c phase e entry used') :
    e.sentOp = none := by
  cases m <;> rfl

theorem set_some {calls : List Callback} {id id' : Nat} {c x y : Callback}
    (hc : calls[id]? = some c) (h : (calls.set id x)[id']? = some y) :
    (id' = id ∧ y = x) ∨ (id' ≠ id ∧ calls[id']? = some y) := by
  by_cases hid : id' = id
  · subst hid
    rw [List.getElem?_set_self (List.getElem?_eq_some_iff.mp hc).1] at h
    exact Or.inl ⟨rfl, (Option.some.inj h).symm⟩
  · rw [List.getElem?_set_ne (Ne.symm hid)] at h
    exact Or.inr ⟨hid, h⟩

theorem set_self {calls : List Callback} {id : Nat} {c x : Callback} (hc : calls[id]? = some c) :
    (calls.set id x)[id]? = some x :=
  List.getElem?_set_self (List.getElem?_eq_some_iff.mp hc).1

theorem CallInv.move (h : CallInv limit used history calls log) (hc : calls[id]? = some c)
    (m : CallMove limit used id c phase e entry used') :
    CallInv limit used' (history ++ [e]) (calls.set id { c with phase }) (log ++ entry.toList) := by
  obtain ⟨hle, hlimit⟩ := m.budget
  have hfresh : ∀ op, c.phase = .permitted op → ∀ x ∈ log, x.opIndex ≠ some op := by
    -- the entry of an index closes the callback that took it
    intro op hphase x hx hop
    cases x with
    | request i k n o =>
      obtain ⟨id', c', hc', htook, hclosed⟩ := h.entries i k n o hx
      have ho : o = op := by simpa [Entry.opIndex] using hop
      have hsame : id' = id := h.took_one id' id op (ho ▸ htook) (h.took hc (by rw [hphase]; rfl))
      rw [hsame, hc, Option.some.injEq] at hc'
      rw [← hc', hphase] at hclosed
      simp at hclosed
    | pair => cases hop
    | finding => cases hop
    | runComplete => cases hop
  refine ⟨hlimit h.used_le, ?_, ?_, ?_, ?_, ?_, ?_, ?_⟩
  · intro id' op ht
    cases List.mem_append.mp ht with
    | inl hold => exact Nat.lt_of_lt_of_le (h.took_lt id' op hold) hle
    | inr hnew =>
      obtain ⟨-, hop, hused⟩ := m.took_of (List.mem_singleton.mp hnew).symm
      omega
  · intro a b op ha hb
    cases List.mem_append.mp ha with
    | inl holda =>
      cases List.mem_append.mp hb with
      | inl holdb => exact h.took_one a b op holda holdb
      | inr hnewb =>
        obtain ⟨-, hop, -⟩ := m.took_of (List.mem_singleton.mp hnewb).symm
        exact absurd (h.took_lt a op holda) (by omega)
    | inr hnewa =>
      obtain ⟨hida, hop, -⟩ := m.took_of (List.mem_singleton.mp hnewa).symm
      cases List.mem_append.mp hb with
      | inl holdb => exact absurd (h.took_lt b op holdb) (by omega)
      | inr hnewb =>
        obtain ⟨hidb, -, -⟩ := m.took_of (List.mem_singleton.mp hnewb).symm
        rw [hida, hidb]
  · intro id' c' hc'
    cases set_some hc hc' with
    | inl hown =>
      rw [hown.1, hown.2]
      cases m.steps with
      | inl hrefused =>
        simp only [hrefused]
        exact List.nil_sublist _
      | inr hsteps =>
        simp only [hsteps]
        exact (h.steps id c hc).append (List.Sublist.refl [e])
    | inr hother => exact (h.steps id' c' hother.2).trans (List.sublist_append_left _ _)
  · intro i k n op hx
    cases List.mem_append.mp hx with
    | inl hold =>
      obtain ⟨id', c', hc', htook, hclosed⟩ := h.entries i k n op hold
      have hne : id' ≠ id := by
        intro hid
        rw [hid, hc, Option.some.injEq] at hc'
        cases hclosed with
        | inl hg => exact m.live.2 op (hc' ▸ hg)
        | inr hr => exact m.live.1 (hc' ▸ hr)
      exact ⟨id', c', by rw [List.getElem?_set_ne (Ne.symm hne)]; exact hc',
        List.mem_append_left _ htook, hclosed⟩
    | inr hnew =>
      obtain ⟨o, ho, hphase, hclosed⟩ := m.entry_of hnew
      cases ho
      exact ⟨id, _, set_self hc, List.mem_append_left _ (h.took hc (by rw [hphase]; rfl)), hclosed⟩
  · rw [List.filterMap_append]
    cases hentry : entry with
    | none => simpa using h.entries_once
    | some x =>
      have hmem : x ∈ entry.toList := by simp [hentry]
      obtain ⟨o, ho, hphase, -⟩ := m.entry_of hmem
      rw [ho]
      simp only [Option.toList_some, List.filterMap_cons, List.filterMap_nil, Entry.opIndex]
      rw [List.nodup_append]
      refine ⟨h.entries_once, by simp, ?_⟩
      intro a ha b hb hab
      obtain ⟨y, hy, hyop⟩ := List.mem_filterMap.mp ha
      rw [List.mem_singleton] at hb
      exact hfresh o hphase y hy (by rw [hyop, hab, hb])
  · intro id' c' op hc' hg
    cases set_some hc hc' with
    | inl hown =>
      rw [hown.2] at hg ⊢
      rw [m.grants hg]
      simp
    | inr hother => exact List.mem_append_left _ (h.granted id' c' op hother.2 hg)
  · intro i k hr
    cases List.mem_append.mp hr with
    | inl hold =>
      obtain ⟨id', c', hc', hpair, haction, hphase⟩ := h.refused i k hold
      have hne : id' ≠ id := by
        intro hid
        rw [hid, hc, Option.some.injEq] at hc'
        exact m.live.1 (hc' ▸ hphase)
      exact ⟨id', c', by rw [List.getElem?_set_ne (Ne.symm hne)]; exact hc', hpair, haction, hphase⟩
    | inr hnew =>
      obtain ⟨hi, hk, hphase⟩ := m.refused_of (List.mem_singleton.mp hnew).symm
      exact ⟨id, _, set_self hc, hi.symm, hk.symm, hphase⟩

end call

theorem callStep_move {id : Nat} {choice : CallChoice} (h : callStep plan B s id choice = some t) :
    ∃ c phase e entry, s.calls[id]? = some c ∧
      CallMove plan.effectiveMaxOps s.used id c phase e entry t.used ∧
      t.calls = s.calls.set id { c with phase } ∧ t.history = s.history ++ [e] ∧
      t.log = s.log ++ entry.toList ∧ t.main = s.main ∧ t.findings = s.findings := by
  unfold callStep at h
  split at h
  · cases h
  next c hc =>
    split at h
    next held authorized hphase =>
      split at h
      · cases h
        exact ⟨c, _, _, _, hc, .verify hphase, rfl, rfl,
          by simp [State.note, State.setPhase], rfl, rfl⟩
      · cases h
        exact ⟨c, _, _, _, hc, .refuse (by simp [hphase]) (by simp [hphase]), rfl, rfl,
          by simp [State.refuse, State.note, State.setPhase], rfl, rfl⟩
    next hphase =>
      split at h
      · cases h
        exact ⟨c, _, _, _, hc, .refuse (by simp [hphase]) (by simp [hphase]), rfl, rfl,
          by simp [State.refuse, State.note, State.setPhase], rfl, rfl⟩
      next hfree =>
        cases h
        exact ⟨c, _, _, _, hc, .take hphase (Nat.lt_of_not_le hfree), rfl, rfl,
          by simp [State.note, State.setPhase], rfl, rfl⟩
    next op monotonic reading recorded hphase =>
      split at h
      · cases h
        exact ⟨c, _, _, _, hc, .refuse (by simp [hphase]) (by simp [hphase]), rfl, rfl,
          by simp [State.refuse, State.note, State.setPhase], rfl, rfl⟩
      next counters _ =>
        dsimp only at h
        split at h
        · cases h
          exact ⟨c, _, _, _, hc, .permit hphase, rfl, rfl, by simp [State.note, State.setPhase],
            rfl, rfl⟩
        · cases h
          exact ⟨c, _, _, _, hc, .refuse (by simp [hphase]) (by simp [hphase]), rfl, rfl,
            by simp [State.refuse, State.note, State.setPhase], rfl, rfl⟩
    next op stored returned hphase =>
      dsimp only at h
      cases returned with
      | true =>
        simp only [Bool.or_true, if_true] at h
        cases h
        exact ⟨c, _, _, _, hc, .append hphase, rfl, rfl, rfl, rfl, rfl⟩
      | false =>
        simp only [Bool.or_false, Bool.false_eq_true, if_false] at h
        cases stored with
        | true =>
          cases h
          exact ⟨c, _, _, _, hc, .lose hphase, rfl, rfl, rfl, rfl, rfl⟩
        | false =>
          cases h
          exact ⟨c, _, _, _, hc, .refuse (by simp [hphase]) (by simp [hphase]), rfl, rfl,
            by simp [State.refuse, State.note, State.setPhase], rfl, rfl⟩
    · cases h

/-- A move of the main thread that starts no callback and leaves the history. -/
inductive Control (plan : Plan) (W : Content.Words) (R : Allowance) (calls : List Callback) :
    Main → Main → Prop
  | skip {i : Nat} {reason : String} {continues : Bool} :
    Control plan W R calls (.entering i) (.judged (notStarted i reason continues))
  | enter {i : Nat} : Control plan W R calls (.entering i) (.acting i 0)
  | start {i k : Nat} : Control plan W R calls (.acting i k) (.requesting i k .idle)
  | finish {i : Nat} : Control plan W R calls (.acting i 2) (.executed i .completed .none)
  | resume {i k id op : Nat} {c : Callback} (hc : calls[id]? = some c)
    (hphase : c.phase = .granted op) :
    Control plan W R calls (.requesting i k (.waiting id)) (.requesting i k (.holding id op))
  | wireFailed {i k : Nat} :
    Control plan W R calls (.requesting i k .sending) (.requesting i k .idle)
  | wireAnswered {i k : Nat} :
    Control plan W R calls (.requesting i k .sending) (.requesting i k .answered)
  | judge {i : Nat} {d : Disposition} {category : ErrorCategory} {pair : Pair}
    {lower higher : Option PlanObservation} {assessment : String} {reason : Option String} :
    Control plan W R calls (.executed i d category)
      (.judged (judgePair W R pair i d category lower higher assessment reason))
  | record {o : PairOutcome} : Control plan W R calls (.judged o) (.recorded o)
  | store {o : PairOutcome} : Control plan W R calls (.recorded o) (.entering (o.pair + 1))
  | fail {m : Main} : Control plan W R calls m .failed
  | complete {i : Nat} : Control plan W R calls (.entering i) .complete

/-- What a step of the main thread does to the records of the invocation. -/
inductive MainMove (plan : Plan) (W : Content.Words) (R : Allowance) (s t : State) : Prop
  | control (h : Control plan W R s.calls s.main t.main) (calls : t.calls = s.calls)
    (history : t.history = s.history) (findings : t.findings = s.findings)
  | spawn {i k attempt : Nat} {previous : Option FailureCode}
    (before : s.main = .requesting i k .idle)
    (main : t.main = .requesting i k (.waiting s.calls.length))
    (calls : t.calls = s.calls ++ [{ pair := i, action := k, attempt, previous }])
    (history : t.history = s.history) (findings : t.findings = s.findings)
  | send {i k id op : Nat} (before : s.main = .requesting i k (.holding id op))
    (main : t.main = .requesting i k .sending) (calls : t.calls = s.calls)
    (history : t.history = s.history ++ [.sent id op i k]) (findings : t.findings = s.findings)
  | respond {i k : Nat} (before : s.main = .requesting i k .answered)
    (main : t.main = .acting i (k + 1)) (calls : t.calls = s.calls)
    (history : t.history = s.history ++ [.completed i k]) (findings : t.findings = s.findings)
  | leave {i k : Nat}
    (before : s.main = .acting i k ∨ ∃ client, s.main = .requesting i k client)
    (main : t.main = .judged (notStarted i "executor_rejected" false) ∨
      ∃ d category, t.main = .executed i d category ∧ d ≠ .completed)
    (calls : t.calls = s.calls) (history : t.history = s.history ++ [.abandoned i k])
    (findings : t.findings = s.findings)
  | keep {o : PairOutcome} (before : s.main = .recorded o) (stores : o.stores = true)
    (main : t.main = .entering (o.pair + 1) ∨ t.main = .failed) (calls : t.calls = s.calls)
    (history : t.history = s.history) (findings : t.findings = s.findings ++ [o])

theorem failureClass_not_completed (exc : Exc) : (failureClass exc).disposition ≠ .completed := by
  unfold failureClass
  repeat' split
  all_goals simp

theorem raised_main (i : Nat) (exc : Exc) (stopRecorded : Bool) :
    ∃ d category, raised i exc stopRecorded = .executed i d category ∧ d ≠ .completed := by
  unfold raised
  dsimp only
  split
  · exact ⟨_, _, rfl, by decide⟩
  · exact ⟨_, _, rfl, failureClass_not_completed exc⟩

theorem enterPair_move (i : Nat) (authorized : Bool) (hmain : s.main = .entering i) :
    MainMove plan W R s (enterPair plan s i authorized) ∧
      (enterPair plan s i authorized).used = s.used ∧
      (enterPair plan s i authorized).log = s.log := by
  unfold enterPair
  split
  · exact ⟨.control (hmain ▸ .skip) rfl rfl rfl, rfl, rfl⟩
  · repeat' split
    · exact ⟨.control (hmain ▸ .skip) rfl rfl rfl, rfl, rfl⟩
    · exact ⟨.control (hmain ▸ .skip) rfl rfl rfl, rfl, rfl⟩
    · exact ⟨.control (hmain ▸ .enter) rfl rfl rfl, rfl, rfl⟩
    · exact ⟨.control (hmain ▸ .skip) rfl rfl rfl, rfl, rfl⟩

theorem clientStep_move {i k : Nat} {client : Client} {choice : MainChoice}
    (hmain : s.main = .requesting i k client) (h : clientStep s i k client choice = some t) :
    MainMove plan W R s t ∧ t.used = s.used ∧ t.log = s.log := by
  unfold clientStep at h
  split at h
  · cases h
    exact ⟨.spawn hmain rfl rfl rfl rfl, rfl, rfl⟩
  · split at h
    next c hc =>
      split at h
      next op hphase =>
        cases h
        exact ⟨.control (hmain ▸ .resume hc hphase) rfl rfl rfl, rfl, rfl⟩
      · cases h
    · cases h
  · cases h
    exact ⟨.send hmain rfl rfl rfl rfl, rfl, rfl⟩
  · cases h
    exact ⟨.control (hmain ▸ .wireFailed) rfl rfl rfl, rfl, rfl⟩
  · cases h
    exact ⟨.control (hmain ▸ .wireAnswered) rfl rfl rfl, rfl, rfl⟩
  · cases h
    exact ⟨.respond hmain rfl rfl rfl rfl, rfl, rfl⟩
  · cases h

/-- The log grows by entries that carry no index. -/
def LogKept (before after : List Entry) : Prop :=
  ∃ more, after = before ++ more ∧ ∀ x ∈ more, x.opIndex = none

theorem LogKept.refl (log : List Entry) : LogKept log log := ⟨[], by simp, by simp⟩

theorem LogKept.one (log : List Entry) {x : Entry} (h : x.opIndex = none) :
    LogKept log (log ++ [x]) := ⟨[x], rfl, by simpa using h⟩

theorem mainStep_move {choice : MainChoice} (h : mainStep plan W R s choice = some t) :
    MainMove plan W R s t ∧ t.used = s.used ∧ LogKept s.log t.log := by
  unfold mainStep at h
  split at h
  · cases h
  · cases h
  · cases h
    exact ⟨.control .fail rfl rfl rfl, rfl, .refl _⟩
  next i authorized hmain =>
    split at h
    · cases h
      obtain ⟨hmove, hused, hlog⟩ : MainMove plan W R s (enterPair plan s i authorized) ∧ _ ∧ _ :=
        enterPair_move i authorized hmain
      exact ⟨hmove, hused, hlog ▸ .refl _⟩
    · cases h
      exact ⟨.control (hmain ▸ .complete) rfl rfl rfl, rfl, .one _ rfl⟩
  next i k hmain =>
    cases h
    exact ⟨.leave (Or.inl hmain) (Or.inl rfl) rfl rfl rfl, rfl, .refl _⟩
  next i k client hmain =>
    cases h
    exact ⟨.leave (Or.inr ⟨client, hmain⟩) (Or.inl rfl) rfl rfl rfl, rfl, .refl _⟩
  next i k hmain =>
    split at h
    · cases h
      exact ⟨.control (hmain ▸ .start) rfl rfl rfl, rfl, .refl _⟩
    · cases h
  next i k exc stopRecorded hmain =>
    cases h
    exact ⟨.leave (Or.inl hmain) (Or.inr (raised_main i exc stopRecorded))
      rfl rfl rfl, rfl, .refl _⟩
  next i k client exc stopRecorded hmain =>
    cases h
    exact ⟨.leave (Or.inr ⟨client, hmain⟩) (Or.inr (raised_main i exc stopRecorded))
      rfl rfl rfl, rfl,
      .refl _⟩
  next i k hmain =>
    split at h
    next hk =>
      cases h
      exact ⟨.control (by rw [hmain, hk]; exact .finish) rfl rfl rfl, rfl, .refl _⟩
    · cases h
  next i k client _ hmain _ _ _ =>
    obtain ⟨hmove, hused, hlog⟩ : MainMove plan W R s t ∧ _ ∧ _ := clientStep_move hmain h
    exact ⟨hmove, hused, hlog ▸ .refl _⟩
  next i d category lower higher assessment reason hmain =>
    split at h
    · cases h
      exact ⟨.control (hmain ▸ .judge) rfl rfl rfl, rfl, .refl _⟩
    · cases h
  next o logged hmain =>
    split at h
    · cases h
      exact ⟨.control (hmain ▸ .record) rfl rfl rfl, rfl, .one _ rfl⟩
    · cases h
      exact ⟨.control .fail rfl rfl rfl, rfl, .refl _⟩
  next o saved logged hmain =>
    dsimp only at h
    split at h
    next hstores =>
      split at h
      · split at h
        · cases h
          exact ⟨.keep hmain hstores (Or.inl rfl) rfl rfl rfl, rfl, .one _ rfl⟩
        · cases h
          exact ⟨.keep hmain hstores (Or.inr rfl) rfl rfl rfl, rfl, .refl _⟩
      · cases h
        exact ⟨.control .fail rfl rfl rfl, rfl, .refl _⟩
    · cases h
      exact ⟨.control (hmain ▸ .store) rfl rfl rfl, rfl, .refl _⟩
  · cases h

end Heel.PlanExecution
