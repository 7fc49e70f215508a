import Heel.Saas.ContextEdits

/-! Every call on runner contexts, and every call on the work that hangs on them, as a sequence of
edits. -/
namespace Heel.Cloud
open Lib Lib.Checks

variable {db t u : ContextDb}

theorem planRequests_edits (planRequests : List PlanRequest) :
    ContextEdits db { db with planRequests := planRequests } :=
  .single (.quiet db db.canary db.affinities planRequests (.refl _))

structure OnlyEnds (db t : ContextDb) : Prop where
  edits : ContextEdits db t
  active : ∀ b ∈ t.bindings, b.status = .active → b ∈ db.bindings
  canary : t.canary = db.canary
  links : t.links = db.links
  planRequests : t.planRequests = db.planRequests

theorem OnlyEnds.refl (db : ContextDb) : OnlyEnds db db :=
  ⟨.refl, fun _ hb _ => hb, rfl, rfl, rfl⟩

theorem OnlyEnds.trans (h : OnlyEnds db t) (h' : OnlyEnds t u) : OnlyEnds db u :=
  ⟨h.edits.trans h'.edits, fun b hb hs => h.active b (h'.active b hb hs) hs,
    h'.canary.trans h.canary, h'.links.trans h.links, h'.planRequests.trans h.planRequests⟩

theorem ContextInv.unqueued (hi : ContextInv db) {row : ContextBinding} (hrow : row ∈ db.bindings)
    (hs : row.status = .active) : db.queued row.key = false := by
  by_contra hqueued
  rw [Bool.not_eq_false, ContextDb.queued, List.any_eq_true] at hqueued
  obtain ⟨q, hq, hkey⟩ := hqueued
  simp only [decide_eq_true_eq] at hkey
  obtain ⟨b, hb, hbkey, -, hbs⟩ := hi.queued q hq
  have hsame : b = row := hi.binding_eq hb hrow (hbkey ▸ hkey.2.2.1)
  exact hbs (hsame ▸ hs)

theorem enqueueTerminalCancellation_ok {row : ContextBinding} (hq : db.queued row.key = false)
    (h : enqueueTerminalCancellation row db = .ok t) :
    t = { db with queue := db.enqueued row } := by
  unfold enqueueTerminalCancellation at h
  unfold ContextDb.enqueued
  split at h
  · rename_i hlinked
    simp only [bind_ok, require_ok, exists_const, hq, Bool.false_eq_true, if_false] at h
    obtain ⟨-, h⟩ := h
    cases h
    rw [if_pos hlinked]
  · rename_i hlinked
    cases h
    rw [if_neg hlinked]

theorem terminate_ends (hi : ContextInv db) {row : ContextBinding} {p : ContextBinding → Bool}
    {f : ContextBinding → ContextBinding} (hrow : row ∈ db.bindings) (hs : row.status = .active)
    (hp : ∀ b ∈ db.bindings, p b = true ↔ b = row) (hf : ∀ b, ContextBinding.Ends b (f b))
    (h : enqueueTerminalCancellation row (db.updateBindings p f) = .ok t) :
    OnlyEnds db t ∧ ∀ b ∈ t.bindings, b.status = .active → b ≠ row := by
  have hqueued : (db.updateBindings p f).queued row.key = false := hi.unqueued hrow hs
  rw [enqueueTerminalCancellation_ok hqueued h]
  have hback : ∀ b ∈ Table.update p f db.bindings, b.status = .active →
      b ∈ db.bindings ∧ b ≠ row := by
    intro b hb hbs
    obtain ⟨o, ho, rfl⟩ := Table.mem_update.mp hb
    by_cases hpo : p o = true
    · rw [if_pos hpo] at hbs
      exact absurd hbs (hf o).status
    · rw [if_neg hpo]
      exact ⟨ho, fun heq => hpo ((hp o ho).mpr heq)⟩
  refine ⟨⟨.single (.terminate db row p f hrow hs hp hf),
    fun b hb hbs => (hback b hb hbs).1, rfl, rfl,
    rfl⟩, fun b hb hbs => (hback b hb hbs).2⟩

theorem expireRow_ends (hi : ContextInv db) {now : Int} {row : ContextBinding} {n : ℕ}
    (hrow : ∀ b ∈ db.bindings, b.key.rcbId = row.key.rcbId → b.status = .active → b = row)
    (h : expireRow now row db = .ok (t, n)) : OnlyEnds db t ∧
      ∀ b ∈ t.bindings, b.status = .active → b.key.rcbId = row.key.rcbId → now < b.expiresAtMs := by
  simp only [expireRow] at h
  split at h
  · rename_i hdue
    obtain ⟨o, ho, hdue⟩ := List.any_eq_true.mp hdue
    simp only [decide_eq_true_eq] at hdue
    obtain rfl := hrow o ho hdue.1 hdue.2.1
    simp only [bind_ok, pure, Except.pure, Except.ok.injEq, Prod.mk.injEq] at h
    obtain ⟨s, hs, rfl, -⟩ := h
    have hends := terminate_ends hi ho hdue.2.1 (fun b hb => ?_) (fun b => ?_) hs
    · refine ⟨hends.1, fun b hb hbs hid => absurd ?_ (hends.2 b hb hbs)⟩
      exact hi.binding_eq (hends.1.active b hb hbs) ho hid
    · simp only [decide_eq_true_eq]
      refine ⟨fun hb' => hrow b hb hb'.1 hb'.2.1, fun heq => ?_⟩
      rw [heq]
      exact ⟨rfl, hdue.2.1, hdue.2.2⟩
    · exact ⟨rfl, by simp, rfl, by simp⟩
  · rename_i hdue
    cases h
    refine ⟨.refl _, fun b hb hbs hid => ?_⟩
    by_contra hle
    exact hdue (List.any_eq_true.mpr ⟨b, hb, decide_eq_true ⟨hid, hbs, not_lt.mp hle⟩⟩)

theorem expireRows_ends (hi : ContextInv db) {now : Int} {rows : List ContextBinding} {n : ℕ}
    (hrows : ∀ row ∈ rows, ∀ b ∈ db.bindings, b.key.rcbId = row.key.rcbId →
      b.status = .active → b = row) (h : expireRows now rows db = .ok (t, n)) : OnlyEnds db t ∧
      ∀ row ∈ rows, ∀ b ∈ t.bindings, b.status = .active → b.key.rcbId = row.key.rcbId →
        now < b.expiresAtMs := by
  induction rows generalizing db n with
  | nil =>
    cases h
    exact ⟨.refl _, fun _ hrow => by cases hrow⟩
  | cons row rest ih =>
    simp only [expireRows, bind_ok, pure, Except.pure, Except.ok.injEq, Prod.mk.injEq] at h
    obtain ⟨⟨s, n1⟩, hfirst, ⟨v, n2⟩, hrest, rfl, -⟩ := h
    obtain ⟨hends, hlive⟩ := expireRow_ends hi (hrows row List.mem_cons_self) hfirst
    obtain ⟨hends', hlive'⟩ := ih (hends.edits.inv hi) (fun o ho b hb hid hbs =>
      hrows o (List.mem_cons_of_mem _ ho) b (hends.active b hb hbs) hid hbs) hrest
    refine ⟨hends.trans hends', fun o ho b hb hbs hid => ?_⟩
    rcases List.mem_cons.mp ho with rfl | ho
    · exact hlive b (hends'.active b hb hbs) hbs hid
    · exact hlive' o ho b hb hbs hid

theorem dueBindings_mem {now : Int} {scope : ContextBinding → Bool} {limit : ℕ}
    {row : ContextBinding} (h : row ∈ dueBindings now scope limit db) : row ∈ db.bindings := by
  have hrow := List.mem_of_mem_take h
  rw [List.mem_insertionSort] at hrow
  exact List.mem_of_mem_filter hrow

theorem ContextInv.due_rows (hi : ContextInv db) {now : Int} {scope : ContextBinding → Bool}
    {limit : ℕ} {row : ContextBinding} (hrow : row ∈ dueBindings now scope limit db)
    {b : ContextBinding} (hb : b ∈ db.bindings) (hid : b.key.rcbId = row.key.rcbId) : b = row :=
  hi.binding_eq hb (dueBindings_mem hrow) hid

theorem expireScoped_ends (hi : ContextInv db) {now : Int} {scope : ContextBinding → Bool}
    (h : expireScoped now scope db = .ok t) : OnlyEnds db t ∧
      ∀ b ∈ t.bindings, b.status = .active → scope b = true → now < b.expiresAtMs := by
  simp only [expireScoped, bind_ok, require_ok, exists_const, pure, Except.pure,
    Except.ok.injEq] at h
  obtain ⟨hone, ⟨s, n⟩, hrows, rfl⟩ := h
  obtain ⟨hends, hlive⟩ := expireRows_ends hi
    (fun row hrow b hb hid _ => hi.due_rows hrow hb hid) hrows
  refine ⟨hends, fun b hb hbs hscope => ?_⟩
  by_contra hle
  have hdue : b ∈ (db.bindings.filter fun b => b.status = .active ∧ b.expiresAtMs ≤ now ∧
      scope b).insertionSort expiresBefore := by
    rw [List.mem_insertionSort, List.mem_filter]
    exact ⟨hends.active b hb hbs, decide_eq_true ⟨hbs, not_lt.mp hle, hscope⟩⟩
  have hall : b ∈ dueBindings now scope 2 db := by
    unfold dueBindings at hone ⊢
    rw [List.length_take] at hone
    rwa [List.take_of_length_le (by omega)]
  exact hle (hlive b hall b hb hbs rfl)

theorem expireNamed_ends (hi : ContextInv db) {now : Int} {named : ContextBinding → Bool}
    (h : expireNamed now named db = .ok t) : OnlyEnds db t := by
  unfold expireNamed at h
  split at h
  · exact (expireScoped_ends hi h).1
  · cases h
    exact .refl _

theorem expireDueBatch_edits (hi : ContextInv db) {nowMs limit : Int} {answer : ℕ × Bool}
    (h : expireDueBatch nowMs limit db = .ok (t, answer)) : ContextEdits db t := by
  simp only [expireDueBatch, bind_ok, pure, Except.pure, Except.ok.injEq, Prod.mk.injEq] at h
  obtain ⟨_, -, ⟨s, n⟩, hrows, rfl, -⟩ := h
  refine (expireRows_ends hi (fun row hrow b hb hid _ => ?_) hrows).1.edits
  exact hi.due_rows (List.mem_of_mem_take hrow) hb hid

theorem activeBinding_ok (hi : ContextInv db) {env : ContextEnv} {reading : ℕ} {q : ContextRef}
    {b : ContextBinding} (h : activeBinding env reading q db = .ok (t, b)) :
    t = db ∧ b ∈ db.bindings ∧ b.key.ref = q ∧ b.status = .active ∧
      env.nowMs reading < b.expiresAtMs := by
  simp only [activeBinding, bind_ok] at h
  obtain ⟨s, hs, h⟩ := h
  split at h
  · cases h
  · rename_i o ho
    simp only [bind_ok, require_ok, exists_const] at h
    obtain ⟨-, h⟩ := h
    cases h
    have hin := List.mem_of_find?_eq_some ho
    have hspec := List.find?_some ho
    simp only [liveBinding, decide_eq_true_eq, Bool.decide_and, Bool.and_eq_true] at hspec
    obtain ⟨href, -, -, -, -, hactive, hexp⟩ := hspec
    have hends := (expireScoped_ends hi hs).1
    have hold := hends.active b hin hactive
    refine ⟨?_, hold, href, hactive, hexp⟩
    -- a row that was due would be this binding, which is not
    simp only [expireScoped, bind_ok, require_ok, exists_const, pure, Except.pure,
      Except.ok.injEq] at hs
    obtain ⟨-, ⟨v, n⟩, hrows, rfl⟩ := hs
    cases hdue : dueBindings (env.nowMs reading) (fun b => b.key.ref = q) 2 db with
    | nil =>
      rw [hdue] at hrows
      cases hrows
      rfl
    | cons row rest =>
      have hrow : row ∈ dueBindings (env.nowMs reading) (fun b => b.key.ref = q) 2 db := by
        rw [hdue]
        exact List.mem_cons_self
      have hfilter := List.mem_of_mem_take hrow
      rw [List.mem_insertionSort, List.mem_filter] at hfilter
      obtain ⟨hrowin, hrowdue⟩ := hfilter
      simp only [decide_eq_true_eq, Bool.decide_and, Bool.and_eq_true] at hrowdue
      have hsame : row = b := hi.binding_eq hrowin hold
        (congrArg (·.bindingId) (hrowdue.2.2.trans href.symm))
      have hle := hrowdue.2.1
      rw [hsame] at hle
      omega

theorem insertBinding_edits {b : ContextBinding} (hs : b.status = .active)
    (he : 0 < b.expiresAtMs) (h : insertBinding b db = .ok t) : ContextEdits db t := by
  simp only [insertBinding, bind_ok, require_ok, exists_const, pure, Except.pure,
    Except.ok.injEq] at h
  obtain ⟨huniq, rfl⟩ := h
  refine .single (.bind db b hs he fun o ho => ⟨(huniq o ho).1, fun hlive => ?_⟩)
  obtain ⟨hrunner, hos⟩ := hlive
  simp only [ContextKey.runner, Prod.mk.injEq] at hrunner
  exact (huniq o ho).2.2 ⟨hrunner.1, hrunner.2, hos, hs⟩

theorem createContext_edits (hi : ContextInv db) {env : ContextEnv} {workspaceId projectId : String}
    {q : ContextCreate} {actor : String} {role : Role} {b : ContextBinding}
    (h : createContext env workspaceId projectId q actor role db = .ok (t, b)) :
    ContextEdits db t := by
  simp only [createContext, bind_ok, require_ok, exists_const, pure, Except.pure, Except.ok.injEq,
    Prod.mk.injEq] at h
  obtain ⟨_, -, -, _, -, s, hs, ⟨e, k, proof⟩, -, -, -, hlong, v, hinsert, rfl, rfl⟩ := h
  refine (expireScoped_ends hi hs).1.edits.trans (insertBinding_edits rfl ?_ hinsert)
  have hnow : 0 ≤ env.nowMs 0 := le_max_left _ _
  simp only [ContextCreate.binding, contextMinTtlMs] at hlong ⊢
  omega

theorem revokeContext_edits (hi : ContextInv db) {env : ContextEnv}
    {workspaceId projectId bindingId actor : String} {role : Role} {valid : Bool}
    (h : revokeContext env workspaceId projectId bindingId actor role valid db = .ok t) :
    ContextEdits db t := by
  simp only [revokeContext, bind_ok, require_ok, exists_const] at h
  obtain ⟨_, hactor, -, _, -, s, hs, h⟩ := h
  have hends := expireNamed_ends hi hs
  have hinv := hends.edits.inv hi
  split at h
  · cases h
  · rename_i row hfind
    simp only [bind_ok, require_ok, exists_const] at h
    obtain ⟨hstatus, h⟩ := h
    have hrow := List.mem_of_find?_eq_some hfind
    have hnamed := List.find?_some hfind
    simp only [ContextBinding.named, decide_eq_true_eq] at hnamed
    simp only [requireActor, bind_ok, require_ok, exists_const] at hactor
    have hplan : ContextEdits s { s with planRequests := _ } := planRequests_edits
      (Table.update (fun r : PlanRequest => r.key.workspaceId = workspaceId ∧
        r.key.rcbId = bindingId ∧ r.status = .opened) ({ · with status := .cancelled })
        s.planRequests)
    refine (hends.edits.trans hplan).trans
      (terminate_ends (hplan.inv hinv) hrow hstatus (fun b hb => ?_) (fun b => ?_) h).1.edits
    · simp only [decide_eq_true_eq]
      exact ⟨fun hid => hinv.binding_eq hb hrow (hid.trans hnamed.2.2.symm),
        fun heq => heq ▸ hnamed.2.2⟩
    · exact ⟨rfl, by simp, rfl, fun _ => ⟨actor, rfl, hactor.1.1⟩⟩

theorem listForRunner_edits (hi : ContextInv db) {env : ContextEnv}
    {workspaceId runnerId runnerKeyId : String} {rows : List ContextBinding}
    (h : listForRunner env workspaceId runnerId runnerKeyId db = .ok (t, rows)) :
    ContextEdits db t := by
  simp only [listForRunner, bind_ok, require_ok, exists_const, pure, Except.pure, Except.ok.injEq,
    Prod.mk.injEq] at h
  obtain ⟨s, hs, -, -, rfl, -⟩ := h
  exact (expireScoped_ends hi hs).1.edits

theorem assertOrEstablishAffinity_ok {row : ContextBinding} {at_ : Int}
    (h : assertOrEstablishAffinity row at_ db = .ok t) :
    t = { db with affinities := t.affinities } := by
  unfold assertOrEstablishAffinity at h
  split at h
  · simp only [bind_ok, require_ok, exists_const] at h
    obtain ⟨-, h⟩ := h
    cases h
    rfl
  · simp only [bind_ok, require_ok, exists_const] at h
    obtain ⟨-, h⟩ := h
    cases h
    rfl

theorem claimContext_edits (hi : ContextInv db) {env : ContextEnv} {q : ContextRef} {valid : Bool}
    {answer : ContextBinding × Int} (h : claimContext env q valid db = .ok (t, answer)) :
    ContextEdits db t := by
  simp only [claimContext, bind_ok, require_ok, exists_const] at h
  obtain ⟨-, ⟨s, row⟩, hactive, v, haffinity, h⟩ := h
  obtain ⟨rfl, -⟩ := activeBinding_ok hi hactive
  have hquiet : ContextEdits s v := by
    rw [assertOrEstablishAffinity_ok haffinity]
    exact .single (.quiet s s.canary v.affinities s.planRequests (.refl _))
  split at h
  · simp only [bind_ok, require_ok, exists_const] at h
    obtain ⟨-, h⟩ := h
    cases h
    exact hquiet.tail (.mark v _ _ fun b => ⟨rfl, rfl, rfl, rfl⟩)
  · cases h
    exact hquiet

theorem createPlanRequest_edits {env : ContextEnv} {workspaceId projectId bindingId : String}
    {q : PlanSelection} {actor : String} {role : Role} {answer : PlanRequest}
    (h : createPlanRequest env workspaceId projectId bindingId q actor role db = .ok (t, answer)) :
    ContextEdits db t := by
  simp only [createPlanRequest, bind_ok, require_ok, exists_const] at h
  obtain ⟨_, -, -, _, -, h⟩ := h
  split at h
  · cases h
  · simp only [bind_ok, require_ok, exists_const] at h
    obtain ⟨-, -, inventory, -, -, -, h⟩ := h
    cases h
    exact planRequests_edits _

theorem claimPlanRequest_edits (hi : ContextInv db) {env : ContextEnv} {q : ContextRef}
    {valid : Bool} {answer : Option PlanRequest}
    (h : claimPlanRequest env q valid db = .ok (t, answer)) : ContextEdits db t := by
  simp only [claimPlanRequest, bind_ok, require_ok, exists_const] at h
  obtain ⟨-, ⟨s, b⟩, hactive, h⟩ := h
  obtain ⟨rfl, -⟩ := activeBinding_ok hi hactive
  cases h
  exact planRequests_edits _

end Heel.Cloud
