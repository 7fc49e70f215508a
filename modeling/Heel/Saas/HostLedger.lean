import Heel.Lib.Literal
import Heel.Lib.Transition
import Heel.Saas.HostSnapshot

/-! What the ledger of generations admits: over any sequence of decisions the requests of one
generation pass in the order of their sequences, a closed generation passes no more, and a slot
has one open generation. -/
namespace Heel.Cloud
open Lib Lib.Checks Host

/-! ### What one request does to the ledger -/

/-- The cases of `_ledger` that return. -/
inductive LedgerMove (capacity : Nat) (q : HostRequest) (now : Int) (rows : List Generation) :
    List Generation → Option HostReason → Prop
  | enrol (hfresh : ∀ o ∈ rows, o.generationId ≠ q.generationId) (hroom : rows.length < capacity)
      (hq : q.sequence = 1)
      (hslot : ∀ o ∈ supersede q now rows, o.opened = true → o.slot ≠ (q.hostBootEpoch, q.slotId)) :
      LedgerMove capacity q now rows (supersede q now rows ++ [enrolled q now]) none
  | unenrolled (hfresh : ∀ o ∈ rows, o.generationId ≠ q.generationId)
      (hroom : rows.length < capacity) (hq : q.sequence ≠ 1) :
      LedgerMove capacity q now rows (rows ++ [unenrolled q now]) (some .replayedSequence)
  | closed (row : Generation) (hrow : row ∈ rows) (hid : row.generationId = q.generationId)
      (hclosed : row.opened = false) : LedgerMove capacity q now rows rows (some .replayedSequence)
  | close (row : Generation) (reason : GenerationClose) (answer : HostReason) (hrow : row ∈ rows)
      (hid : row.generationId = q.generationId) :
      LedgerMove capacity q now rows (closeGeneration row reason now rows) (some answer)
  | advance (row : Generation) (hrow : row ∈ rows) (hid : row.generationId = q.generationId)
      (hopen : row.opened = true) (hsequence : row.lastSequence < q.sequence)
      (hcp : row.lastCpMs ≤ now) (hhost : row.lastMonotonicMs ≤ q.monotonicMs) :
      LedgerMove capacity q now rows (Table.update (advances q now) (·.advanced q now) rows) none

variable {capacity : Nat} {q : HostRequest} {now : Int} {rows rows' : List Generation}
  {answer : Option HostReason}

theorem closeGeneration_ids (row : Generation) (reason : GenerationClose) :
    (closeGeneration row reason now rows).map (·.generationId) = rows.map (·.generationId) :=
  Table.map_update fun _ _ => rfl

theorem supersede_ids (q : HostRequest) (now : Int) (rows : List Generation) :
    (supersede q now rows).map (·.generationId) = rows.map (·.generationId) := by
  unfold supersede
  split
  · exact closeGeneration_ids _ _
  · rfl

theorem supersede_length : (supersede q now rows).length = rows.length := by
  have h := congrArg List.length (supersede_ids q now rows)
  simpa using h

theorem hostLedger_move (h : hostLedger capacity q now rows = .ok (rows', answer)) :
    LedgerMove capacity q now rows rows' answer := by
  unfold hostLedger at h
  split at h
  · rename_i hnone
    have hfresh : ∀ o ∈ rows, o.generationId ≠ q.generationId := by
      intro o ho
      simpa using List.find?_eq_none.mp hnone o ho
    unfold enrol at h
    by_cases hq : q.sequence = 1
    · simp only [if_pos hq, requireCapacity, insertGeneration, bind_ok, require_ok,
        exists_const, supersede_length] at h
      obtain ⟨hroom, mid, ⟨⟨-, hslot, -⟩, hmid⟩, h⟩ := h
      cases hmid
      cases h
      exact .enrol hfresh hroom hq (hslot rfl)
    · simp only [if_neg hq, requireCapacity, insertGeneration, bind_ok, require_ok,
        exists_const] at h
      obtain ⟨hroom, mid, ⟨-, hmid⟩, h⟩ := h
      cases hmid
      cases h
      exact .unenrolled hfresh hroom hq
  · rename_i row hfind
    have hrow := List.mem_of_find?_eq_some hfind
    have hid : row.generationId = q.generationId := by simpa using List.find?_some hfind
    simp only [Except.ok.injEq, advance] at h
    split_ifs at h with h1 h2 h3 h4 h5 h6
    · cases h
      exact .closed row hrow hid h1
    · cases h
      exact .close row _ _ hrow hid
    · cases h
      exact .close row _ _ hrow hid
    · cases h
      exact .close row _ _ hrow hid
    · cases h
      exact .close row _ _ hrow hid
    · cases h
      simp only [not_or, not_lt] at h4
      exact .advance row hrow hid (by simpa using h1) (not_le.mp h3) h4.1 h4.2
    · cases h
      exact .close row _ _ hrow hid

/-! ### The history of a ledger -/

/-- A request as a committed decision has recorded it. -/
structure Seen where
  request : HostRequest
  cpMs : Int
  refusal : Option HostReason
  deriving DecidableEq, Repr

/-- What is recorded of the requests of one generation. -/
def entries (seen : List Seen) (id : String) : List Seen :=
  seen.filter (·.request.generationId = id)

/-- The requests of one generation that passed. -/
def passes (seen : List Seen) (id : String) : List Seen :=
  (entries seen id).filter (·.refusal = none)

/-- A later pass has a larger sequence and no earlier time. -/
def Seen.Before (p r : Seen) : Prop :=
  p.request.sequence < r.request.sequence ∧ p.cpMs ≤ r.cpMs ∧
    p.request.monotonicMs ≤ r.request.monotonicMs

structure HostRun where
  rows : List Generation
  seen : List Seen
  deriving DecidableEq, Repr

/-- What a decision records, if it reaches the ledger and commits. -/
def recorded (P : Platform) (capacity : Nat) (env : HostEnv) (q : HostRequest)
    (rows : List Generation) : Option Seen :=
  if env.draining ∨ env.stopping ∨ env.quarantined ∨ env.stoppingInside then none
  else match attempt P capacity env q rows, env.nowNs with
    | .ok _, some ns =>
      match hostLedger capacity q (ceilMs ns) rows with
      | .ok (_, refusal) => some ⟨q, ceilMs ns, refusal⟩
      | .error _ => none
    | _, _ => none

/-- Every sequence of decisions on requests that `validate_request` accepts. -/
def hostDecisions (P : Platform) (capacity : Nat) : Transition HostRun (HostEnv × HostRequest) where
  init s := s.rows = [] ∧ s.seen = []
  step s a t := a.2.valid = true ∧ t.rows = (hostDecide P capacity a.1 a.2 s.rows).1 ∧
    t.seen = s.seen ++ (recorded P capacity a.1 a.2 s.rows).toList

variable {P : Platform} {env : HostEnv}

theorem attempt_ok {db : Option RunDb} {reply : HostReply}
    (h : attempt P capacity env q rows = .ok (rows', db, reply)) :
    ∃ ns answer, env.nowNs = some ns ∧
      hostLedger capacity q (ceilMs ns) rows = .ok (rows', answer) ∧
      (reply.active.isSome = true → answer = none) := by
  unfold attempt at h
  split at h
  · cases h
  · cases h
  · rename_i ns _ hns
    simp only [bind_ok, require_ok, exists_const] at h
    obtain ⟨-, ⟨out, odb, oreply⟩, hdecide, h⟩ := h
    split at h
    · cases h
    · cases h
      simp only [decideSnapshot, bind_ok, require_ok, exists_const] at hdecide
      obtain ⟨-, ⟨mid, answer⟩, hledger, hdecide⟩ := hdecide
      refine ⟨ns, answer, hns, ?_⟩
      cases answer with
      | some reason =>
        cases hdecide
        exact ⟨hledger, fun ha => by cases ha⟩
      | none =>
        simp only [bind_ok] at hdecide
        obtain ⟨⟨db', reply'⟩, -, hdecide⟩ := hdecide
        cases hdecide
        exact ⟨hledger, fun _ => rfl⟩

/-- A decision leaves the ledger alone, or commits one move of it. -/
theorem hostDecide_cases (P : Platform) (capacity : Nat) (env : HostEnv) (q : HostRequest)
    (rows : List Generation) :
    ((hostDecide P capacity env q rows).1 = rows ∧ recorded P capacity env q rows = none ∧
      ∀ reply, (hostDecide P capacity env q rows).2 = .ok reply → reply.active = none) ∨
    ∃ now rows' answer reply, hostLedger capacity q now rows = .ok (rows', answer) ∧
      hostDecide P capacity env q rows = (rows', .ok reply) ∧
      recorded P capacity env q rows = some ⟨q, now, answer⟩ ∧
      (reply.active.isSome = true → answer = none) := by
  by_cases hdrain : env.draining ∨ env.stopping
  · left
    simp only [hostDecide, if_pos hdrain]
    refine ⟨trivial, ?_, fun reply h => by cases h; rfl⟩
    rw [recorded, if_pos (by tauto)]
  · by_cases hquarantined : env.quarantined = true
    · left
      simp only [hostDecide, if_neg hdrain, if_pos hquarantined]
      refine ⟨trivial, ?_, fun reply h => by cases h⟩
      rw [recorded, if_pos (by tauto)]
    · by_cases hinside : env.stoppingInside = true
      · left
        simp only [hostDecide, if_neg hdrain, if_neg hquarantined, if_pos hinside]
        refine ⟨trivial, ?_, fun reply h => by cases h; rfl⟩
        rw [recorded, if_pos (by tauto)]
      · have hrecorded : recorded P capacity env q rows =
            match attempt P capacity env q rows, env.nowNs with
            | .ok _, some ns =>
              match hostLedger capacity q (ceilMs ns) rows with
              | .ok (_, refusal) => some ⟨q, ceilMs ns, refusal⟩
              | .error _ => none
            | _, _ => none := by
          rw [recorded, if_neg (by tauto)]
        simp only [hostDecide, if_neg hdrain, if_neg hquarantined, if_neg hinside,
          snapshotTransaction]
        rw [hrecorded]
        cases hattempt : attempt P capacity env q rows with
        | error code => exact .inl ⟨rfl, rfl, fun reply h => by cases h⟩
        | ok out =>
          obtain ⟨rows', db, reply⟩ := out
          obtain ⟨ns, answer, hns, hledger, hactive⟩ := attempt_ok hattempt
          refine .inr ⟨ceilMs ns, rows', answer, reply, hledger, rfl, ?_, hactive⟩
          simp only [hns, hledger]

/-! ### The invariant -/

theorem entries_append (seen : List Seen) (e : Seen) (id : String) :
    entries (seen ++ [e]) id =
      entries seen id ++ if e.request.generationId = id then [e] else [] := by
  rw [entries, List.filter_append, entries]
  congr 1
  by_cases h : e.request.generationId = id <;> simp [h]

theorem passes_refused (seen : List Seen) {e : Seen} (h : e.refusal ≠ none) (id : String) :
    passes (seen ++ [e]) id = passes seen id := by
  rw [passes, entries_append, List.filter_append, passes]
  split <;> simp [h]

theorem passes_passed {seen : List Seen} {e : Seen} (h : e.refusal = none) {id : String}
    (hid : e.request.generationId = id) : passes (seen ++ [e]) id = passes seen id ++ [e] := by
  rw [passes, entries_append, List.filter_append, passes, if_pos hid]
  simp [h]

theorem passes_other (seen : List Seen) {e : Seen} {id : String}
    (hid : e.request.generationId ≠ id) : passes (seen ++ [e]) id = passes seen id := by
  rw [passes, entries_append, if_neg hid, List.append_nil, passes]

structure GenerationInv (seen : List Seen) (g : Generation) : Prop where
  known : entries seen g.generationId ≠ []
  sorted : (passes seen g.generationId).Pairwise Seen.Before
  first : ∀ p, (passes seen g.generationId).head? = some p → p.request.sequence = 1
  started : g.opened = true → passes seen g.generationId ≠ []
  last : g.opened = true → ∀ p ∈ passes seen g.generationId,
    p.request.sequence ≤ g.lastSequence ∧ p.cpMs ≤ g.lastCpMs ∧
      p.request.monotonicMs ≤ g.lastMonotonicMs
  /-- A generation first seen past its first sequence. -/
  missed : ∀ e, (entries seen g.generationId).head? = some e → e.request.sequence ≠ 1 →
    g.opened = false ∧ passes seen g.generationId = []

variable {seen : List Seen} {g : Generation} {e : Seen}

theorem GenerationInv.close (h : GenerationInv seen g) {g' : Generation}
    (hid : g'.generationId = g.generationId) (hclosed : g'.opened = false) :
    GenerationInv seen g' := by
  refine ⟨hid ▸ h.known, hid ▸ h.sorted, hid ▸ h.first, ?_, ?_, fun e he hne => ⟨hclosed, ?_⟩⟩
  · simp [hclosed]
  · simp [hclosed]
  · rw [hid] at he ⊢
    exact (h.missed e he hne).2

theorem GenerationInv.other (h : GenerationInv seen g)
    (hid : e.request.generationId ≠ g.generationId) : GenerationInv (seen ++ [e]) g := by
  have hentries : entries (seen ++ [e]) g.generationId = entries seen g.generationId := by
    rw [entries_append, if_neg hid, List.append_nil]
  have hpasses := passes_other seen hid
  constructor
  · exact hentries ▸ h.known
  · exact hpasses ▸ h.sorted
  · exact hpasses ▸ h.first
  · exact hpasses ▸ h.started
  · exact hpasses ▸ h.last
  · rw [hentries, hpasses]
    exact h.missed

theorem entries_head (h : GenerationInv seen g) (e : Seen) :
    (entries (seen ++ [e]) g.generationId).head? = (entries seen g.generationId).head? := by
  rw [entries_append, List.head?_append_of_ne_nil _ h.known]

theorem entries_known (h : GenerationInv seen g) (e : Seen) :
    entries (seen ++ [e]) g.generationId ≠ [] := by
  rw [entries_append]
  exact List.append_ne_nil_of_left_ne_nil h.known _

theorem GenerationInv.refused (h : GenerationInv seen g) (he : e.refusal ≠ none) :
    GenerationInv (seen ++ [e]) g := by
  have hpasses := passes_refused seen he g.generationId
  constructor
  · exact entries_known h e
  · exact hpasses ▸ h.sorted
  · exact hpasses ▸ h.first
  · exact hpasses ▸ h.started
  · exact hpasses ▸ h.last
  · rw [entries_head h, hpasses]
    exact h.missed

theorem GenerationInv.pass (h : GenerationInv seen g) (hopen : g.opened = true)
    (hid : q.generationId = g.generationId) (hsequence : g.lastSequence < q.sequence)
    (hcp : g.lastCpMs ≤ now) (hhost : g.lastMonotonicMs ≤ q.monotonicMs) :
    GenerationInv (seen ++ [⟨q, now, none⟩]) (g.advanced q now) := by
  have hpasses : passes (seen ++ [⟨q, now, none⟩]) g.generationId =
      passes seen g.generationId ++ [⟨q, now, none⟩] := passes_passed rfl hid
  have hlast := h.last hopen
  constructor
  · exact entries_known h _
  · show (passes (seen ++ [⟨q, now, none⟩]) g.generationId).Pairwise Seen.Before
    rw [hpasses, List.pairwise_append]
    refine ⟨h.sorted, List.pairwise_singleton _ _, fun p hp r hr => ?_⟩
    obtain ⟨h1, h2, h3⟩ := hlast p hp
    rw [List.mem_singleton.mp hr]
    exact ⟨h1.trans_lt hsequence, h2.trans hcp, h3.trans hhost⟩
  · show ∀ p, (passes (seen ++ [⟨q, now, none⟩]) g.generationId).head? = some p → _
    rw [hpasses, List.head?_append_of_ne_nil _ (h.started hopen)]
    exact h.first
  · show _ → passes (seen ++ [⟨q, now, none⟩]) g.generationId ≠ []
    rw [hpasses]
    simp
  · show _ → ∀ p ∈ passes (seen ++ [⟨q, now, none⟩]) g.generationId, _
    rw [hpasses]
    intro _ p hp
    rcases List.mem_append.mp hp with hp | hp
    · obtain ⟨h1, h2, h3⟩ := hlast p hp
      exact ⟨(h1.trans_lt hsequence).le, h2.trans hcp, h3.trans hhost⟩
    · rw [List.mem_singleton.mp hp]
      exact ⟨le_rfl, le_rfl, le_rfl⟩
  · intro e he hne
    have hhead : (entries seen g.generationId).head? = some e := by
      rw [← entries_head h ⟨q, now, none⟩]
      exact he
    have hmissed := (h.missed e hhead hne).1
    rw [hopen] at hmissed
    cases hmissed

structure LedgerInv (capacity : Nat) (s : HostRun) : Prop where
  ids : (s.rows.map (·.generationId)).Nodup
  slots : s.rows.Pairwise fun a b => a.slot = b.slot → ¬ (a.opened = true ∧ b.opened = true)
  size : s.rows.length ≤ capacity
  /-- A generation without a row has no history. -/
  unknown : ∀ e ∈ s.seen, ∃ g ∈ s.rows, g.generationId = e.request.generationId
  each : ∀ g ∈ s.rows, GenerationInv s.seen g

/-- The history of a generation starts with the request that makes its row. -/
theorem entries_fresh (h : ∀ e ∈ seen, e.request.generationId ≠ q.generationId) (e : Seen)
    (he : e.request = q) : entries (seen ++ [e]) q.generationId = [e] := by
  have hnil : entries seen q.generationId = [] := by
    rw [entries, List.filter_eq_nil_iff]
    intro x hx
    simpa using h x hx
  rw [entries_append, hnil, he]
  simp

theorem enrolled_inv (h : ∀ e ∈ seen, e.request.generationId ≠ q.generationId)
    (hq : q.sequence = 1) :
    GenerationInv (seen ++ [⟨q, now, none⟩]) (enrolled q now) := by
  have hentries := entries_fresh (e := ⟨q, now, none⟩) h rfl
  have hpasses : passes (seen ++ [⟨q, now, none⟩]) q.generationId = [⟨q, now, none⟩] := by
    rw [passes, hentries]
    rfl
  constructor
  · show entries _ q.generationId ≠ []
    rw [hentries]
    exact List.cons_ne_nil _ _
  · show (passes _ q.generationId).Pairwise _
    rw [hpasses]
    exact List.pairwise_singleton _ _
  · show ∀ p, (passes _ q.generationId).head? = some p → _
    rw [hpasses]
    intro p hp
    cases hp
    exact hq
  · show _ → passes _ q.generationId ≠ []
    rw [hpasses]
    exact fun _ => List.cons_ne_nil _ _
  · show _ → ∀ p ∈ passes _ q.generationId, _
    rw [hpasses]
    intro _ p hp
    rw [List.mem_singleton.mp hp]
    exact ⟨hq.le, le_rfl, le_rfl⟩
  · show ∀ e, (entries _ q.generationId).head? = some e → _
    rw [hentries]
    intro e he hne
    cases he
    exact absurd hq hne

theorem unenrolled_inv (h : ∀ e ∈ seen, e.request.generationId ≠ q.generationId)
    {reason : HostReason} :
    GenerationInv (seen ++ [⟨q, now, some reason⟩]) (unenrolled q now) := by
  have hentries := entries_fresh (e := ⟨q, now, some reason⟩) h rfl
  have hpasses : passes (seen ++ [⟨q, now, some reason⟩]) q.generationId = [] := by
    rw [passes, hentries]
    rfl
  constructor
  · show entries _ q.generationId ≠ []
    rw [hentries]
    exact List.cons_ne_nil _ _
  · show (passes _ q.generationId).Pairwise _
    rw [hpasses]
    exact List.Pairwise.nil
  · show ∀ p, (passes _ q.generationId).head? = some p → _
    rw [hpasses]
    intro p hp
    cases hp
  · intro hopen
    cases hopen
  · intro hopen
    cases hopen
  · exact fun _ _ _ => ⟨rfl, hpasses⟩

theorem LedgerInv.close (h : LedgerInv capacity ⟨rows, seen⟩) (row : Generation)
    (reason : GenerationClose) :
    LedgerInv capacity ⟨closeGeneration row reason now rows, seen⟩ := by
  constructor
  · exact (closeGeneration_ids row reason).symm ▸ h.ids
  · have hkeep := h.slots
    simp only [closeGeneration, Table.update, List.pairwise_map]
    refine hkeep.imp fun {a b} hab hslot hopen => hab ?_ ⟨?_, ?_⟩
    · split at hslot <;> split at hslot <;> exact hslot
    · have ha := hopen.1
      split at ha
      · cases ha
      · exact ha
    · have hb := hopen.2
      split at hb
      · cases hb
      · exact hb
  · simpa [closeGeneration, Table.update] using h.size
  · intro e he
    obtain ⟨g, hg, hid⟩ := h.unknown e he
    have hmem : e.request.generationId ∈
        (closeGeneration row reason now rows).map (·.generationId) := by
      rw [closeGeneration_ids, ← hid]
      exact List.mem_map_of_mem hg
    obtain ⟨g', hg', hid'⟩ := List.mem_map.mp hmem
    exact ⟨g', hg', hid'⟩
  · intro g' hg'
    obtain ⟨g, hg, rfl⟩ := Table.mem_update.mp hg'
    split
    · exact (h.each g hg).close rfl rfl
    · exact h.each g hg

theorem LedgerInv.supersede (h : LedgerInv capacity ⟨rows, seen⟩) (q : HostRequest) (now : Int) :
    LedgerInv capacity ⟨supersede q now rows, seen⟩ := by
  unfold Cloud.supersede
  split
  · exact h.close _ _
  · exact h

theorem LedgerInv.refused (h : LedgerInv capacity ⟨rows, seen⟩) (he : e.refusal ≠ none)
    (hrow : ∃ g ∈ rows, g.generationId = e.request.generationId) :
    LedgerInv capacity ⟨rows, seen ++ [e]⟩ := by
  refine ⟨h.ids, h.slots, h.size, fun x hx => ?_, fun g hg => (h.each g hg).refused he⟩
  rcases List.mem_append.mp hx with hx | hx
  · exact h.unknown x hx
  · rw [List.mem_singleton.mp hx]
    exact hrow

/-- A row for a generation that had none, with the request that made it. -/
theorem LedgerInv.append (h : LedgerInv capacity ⟨rows, seen⟩)
    (hid : e.request.generationId = g.generationId)
    (hfresh : ∀ o ∈ rows, o.generationId ≠ g.generationId) (hroom : rows.length < capacity)
    (hslot : g.opened = true → ∀ o ∈ rows, o.opened = true → o.slot ≠ g.slot)
    (hg : GenerationInv (seen ++ [e]) g) : LedgerInv capacity ⟨rows ++ [g], seen ++ [e]⟩ := by
  constructor
  · rw [List.map_append, List.nodup_append]
    refine ⟨h.ids, List.nodup_singleton _, fun a ha b hb => ?_⟩
    obtain ⟨o, ho, rfl⟩ := List.mem_map.mp ha
    rw [List.mem_singleton.mp hb]
    exact hfresh o ho
  · rw [List.pairwise_append]
    refine ⟨h.slots, List.pairwise_singleton _ _, fun a ha b hb hab hopen => ?_⟩
    rw [List.mem_singleton.mp hb] at hab hopen
    exact hslot hopen.2 a ha hopen.1 hab
  · rw [List.length_append, List.length_singleton]
    exact hroom
  · intro x hx
    rcases List.mem_append.mp hx with hx | hx
    · obtain ⟨o, ho, hox⟩ := h.unknown x hx
      exact ⟨o, List.mem_append_left _ ho, hox⟩
    · rw [List.mem_singleton.mp hx]
      exact ⟨g, by simp, hid.symm⟩
  · intro o ho
    rcases List.mem_append.mp ho with ho | ho
    · refine (h.each o ho).other ?_
      rw [hid]
      exact (hfresh o ho).symm
    · rw [List.mem_singleton.mp ho]
      exact hg

theorem LedgerInv.fresh (h : LedgerInv capacity ⟨rows, seen⟩)
    (hfresh : ∀ o ∈ rows, o.generationId ≠ q.generationId) :
    ∀ e ∈ seen, e.request.generationId ≠ q.generationId := by
  intro e he heq
  obtain ⟨g, hg, hid⟩ := h.unknown e he
  exact hfresh g hg (hid.trans heq)

theorem LedgerInv.advance (h : LedgerInv capacity ⟨rows, seen⟩) {row : Generation}
    (hrow : row ∈ rows) (hid : row.generationId = q.generationId) (hopen : row.opened = true)
    (hsequence : row.lastSequence < q.sequence) (hcp : row.lastCpMs ≤ now)
    (hhost : row.lastMonotonicMs ≤ q.monotonicMs) :
    LedgerInv capacity ⟨Table.update (advances q now) (·.advanced q now) rows,
      seen ++ [⟨q, now, none⟩]⟩ := by
  have hids := h.ids
  constructor
  · have hkeys : (Table.update (advances q now) (·.advanced q now) rows).map
        (·.generationId) = rows.map (·.generationId) := Table.map_update fun _ _ => rfl
    exact hkeys ▸ hids
  · simp only [Table.update, List.pairwise_map]
    refine h.slots.imp fun {a b} hab hslot hopened => hab ?_ ⟨?_, ?_⟩
    · split at hslot <;> split at hslot <;> exact hslot
    · have ha := hopened.1
      split at ha <;> exact ha
    · have hb := hopened.2
      split at hb <;> exact hb
  · simpa [Table.update] using h.size
  · intro e he
    have hold : ∃ g ∈ rows, g.generationId = e.request.generationId := by
      rcases List.mem_append.mp he with he | he
      · exact h.unknown e he
      · rw [List.mem_singleton.mp he]
        exact ⟨row, hrow, hid⟩
    obtain ⟨g, hg, hge⟩ := hold
    refine ⟨_, Table.mem_update.mpr ⟨g, hg, rfl⟩, ?_⟩
    split <;> exact hge
  · intro g' hg'
    obtain ⟨g, hg, rfl⟩ := Table.mem_update.mp hg'
    by_cases hadv : advances q now g = true
    · rw [if_pos hadv]
      simp only [advances, decide_eq_true_eq] at hadv
      have hgrow : g = row := Table.eq_of_key hids hg hrow (hadv.1.trans hid.symm)
      exact (h.each g hg).pass hadv.2.1 hadv.1.symm hadv.2.2.1 hadv.2.2.2 (hgrow ▸ hhost)
    · rw [if_neg hadv]
      refine (h.each g hg).other fun heq => hadv ?_
      have hgrow : g = row := Table.eq_of_key hids hg hrow (heq.symm.trans hid.symm)
      simp only [advances, decide_eq_true_eq]
      exact ⟨heq.symm, hgrow ▸ hopen, hgrow ▸ hsequence, hgrow ▸ hcp⟩

theorem LedgerMove.inv (h : LedgerInv capacity ⟨rows, seen⟩)
    (hmove : LedgerMove capacity q now rows rows' answer) :
    LedgerInv capacity ⟨rows', seen ++ [⟨q, now, answer⟩]⟩ := by
  cases hmove with
  | enrol hfresh hroom hq hslot =>
    refine (h.supersede q now).append rfl ?_ ?_ (fun _ => hslot)
      (enrolled_inv (h.fresh hfresh) hq)
    · intro o ho heq
      have hmem : o.generationId ∈ rows.map (·.generationId) := by
        rw [← supersede_ids q now]
        exact List.mem_map_of_mem ho
      obtain ⟨o', ho', hid⟩ := List.mem_map.mp hmem
      exact hfresh o' ho' (hid.trans heq)
    · rw [supersede_length]
      exact hroom
  | unenrolled hfresh hroom hq =>
    exact h.append rfl hfresh hroom (fun hopen => by cases hopen) (unenrolled_inv (h.fresh hfresh))
  | closed row hrow hid hclosed => exact h.refused (by simp) ⟨row, hrow, hid⟩
  | close row reason answer hrow hid =>
    refine (h.close row reason).refused (by simp) ?_
    refine ⟨_, Table.mem_update.mpr ⟨row, hrow, rfl⟩, ?_⟩
    split <;> exact hid
  | advance row hrow hid hopen hsequence hcp hhost =>
    exact h.advance hrow hid hopen hsequence hcp hhost

variable {s t : HostRun}

/-- A step leaves the run of the ledger as it was, or adds one move and its record. -/
theorem hostDecisions_step (h : (hostDecisions P capacity).step s (env, q) t) :
    t = s ∨ ∃ now answer, LedgerMove capacity q now s.rows t.rows answer ∧
      t.seen = s.seen ++ [⟨q, now, answer⟩] := by
  obtain ⟨-, hrows, hseen⟩ := h
  simp only at hrows hseen
  rcases hostDecide_cases P capacity env q s.rows with
    ⟨hsame, hnone, -⟩ | ⟨now, rows', answer, reply, hledger, hdecide, hrecorded, -⟩
  · left
    rw [hsame] at hrows
    rw [hnone] at hseen
    cases t
    simp_all
  · right
    refine ⟨now, answer, ?_, by simpa [hrecorded] using hseen⟩
    rw [hrows, hdecide]
    exact hostLedger_move hledger

theorem hostDecisions_inv (hs : (hostDecisions P capacity).Reachable s) :
    LedgerInv capacity s := by
  refine (hostDecisions P capacity).invariant (P := LedgerInv capacity) ?_ ?_ hs
  · rintro s ⟨hrows, hseen⟩
    constructor <;> simp [hrows, hseen]
  · rintro s ⟨env, q⟩ t hs h
    rcases hostDecisions_step h with rfl | ⟨now, answer, hmove, hseen⟩
    · exact hs
    · have := hmove.inv hs
      rw [← hseen] at this
      exact this

/-! ### What stays -/

/-- Kept from one ledger to any later one: the rows, and a closed generation with its passes. -/
structure LedgerKept (s t : HostRun) : Prop where
  rows : s.rows.map (·.generationId) <+: t.rows.map (·.generationId)
  closed : ∀ g ∈ s.rows, g.opened = false →
    (∃ g' ∈ t.rows, g'.generationId = g.generationId ∧ g'.opened = false) ∧
      passes t.seen g.generationId = passes s.seen g.generationId

theorem LedgerKept.refl (s : HostRun) : LedgerKept s s :=
  ⟨List.prefix_rfl, fun g hg hclosed => ⟨⟨g, hg, rfl, hclosed⟩, rfl⟩⟩

theorem LedgerKept.trans {u : HostRun} (h : LedgerKept s t) (h' : LedgerKept t u) :
    LedgerKept s u := by
  refine ⟨h.rows.trans h'.rows, fun g hg hclosed => ?_⟩
  obtain ⟨⟨g', hg', hid, hclosed'⟩, hpasses⟩ := h.closed g hg hclosed
  obtain ⟨hrow, hpasses'⟩ := h'.closed g' hg' hclosed'
  rw [hid] at hrow hpasses'
  exact ⟨hrow, hpasses'.trans hpasses⟩

theorem LedgerKept.of_update {p : Generation → Bool} {f : Generation → Generation} {e : Seen}
    (hid : ∀ g, (f g).generationId = g.generationId)
    (hopened : ∀ g, g.opened = false → p g = true → (f g).opened = false)
    (hpasses : ∀ g ∈ rows, g.opened = false →
      passes (seen ++ [e]) g.generationId = passes seen g.generationId) :
    LedgerKept ⟨rows, seen⟩ ⟨Table.update p f rows, seen ++ [e]⟩ := by
  refine ⟨?_, fun g hg hclosed => ⟨⟨_, Table.mem_update.mpr ⟨g, hg, rfl⟩, ?_, ?_⟩,
    hpasses g hg hclosed⟩⟩
  · have hids : (Table.update p f rows).map (·.generationId) = rows.map (·.generationId) :=
      Table.map_update fun g _ => hid g
    exact hids.symm ▸ List.prefix_rfl
  · split
    · exact hid g
    · rfl
  · split
    · exact hopened g hclosed ‹_›
    · exact hclosed

theorem LedgerKept.append {s : HostRun} (h : LedgerKept s ⟨rows, seen⟩) (g : Generation) :
    LedgerKept s ⟨rows ++ [g], seen⟩ := by
  refine ⟨h.rows.trans ?_, fun o ho hclosed => ?_⟩
  · rw [List.map_append]
    exact List.prefix_append _ _
  · obtain ⟨⟨o', ho', hkept⟩, hpasses⟩ := h.closed o ho hclosed
    exact ⟨⟨o', List.mem_append_left _ ho', hkept⟩, hpasses⟩

theorem LedgerMove.kept (h : LedgerInv capacity ⟨rows, seen⟩)
    (hmove : LedgerMove capacity q now rows rows' answer) :
    LedgerKept ⟨rows, seen⟩ ⟨rows', seen ++ [⟨q, now, answer⟩]⟩ := by
  cases hmove with
  | enrol hfresh hroom hq hslot =>
    refine LedgerKept.append ?_ _
    have hother : ∀ g ∈ rows, g.opened = false →
        passes (seen ++ [⟨q, now, none⟩]) g.generationId = passes seen g.generationId :=
      fun g hg _ => passes_other _ (hfresh g hg).symm
    unfold supersede
    split
    · exact .of_update (fun _ => rfl) (fun _ _ _ => rfl) hother
    · exact ⟨List.prefix_rfl, fun g hg hclosed => ⟨⟨g, hg, rfl, hclosed⟩, hother g hg hclosed⟩⟩
  | unenrolled hfresh hroom hq =>
    have hrows : LedgerKept ⟨rows, seen⟩ ⟨rows, seen ++ [⟨q, now, some .replayedSequence⟩]⟩ :=
      ⟨List.prefix_rfl, fun g hg hclosed =>
        ⟨⟨g, hg, rfl, hclosed⟩, passes_other _ (hfresh g hg).symm⟩⟩
    exact hrows.append _
  | closed row hrow hid hclosed =>
    refine ⟨List.prefix_rfl, fun g hg hclosed => ⟨⟨g, hg, rfl, hclosed⟩, ?_⟩⟩
    exact passes_refused _ (by simp) _
  | close row reason answer hrow hid =>
    exact .of_update (fun _ => rfl) (fun _ _ _ => rfl) fun g _ _ => passes_refused _ (by simp) _
  | advance row hrow hid hopen hsequence hcp hhost =>
    refine .of_update (fun _ => rfl) (fun _ hclosed _ => hclosed) fun g hg hclosed => ?_
    refine passes_other _ fun heq => ?_
    have hgrow : g = row := Table.eq_of_key h.ids hg hrow (heq.symm.trans hid.symm)
    rw [hgrow, hopen] at hclosed
    cases hclosed

theorem hostDecisions_kept (hs : (hostDecisions P capacity).Reachable s)
    (h : (hostDecisions P capacity).Later s t) : LedgerKept s t := by
  refine Transition.later_rel (hostDecisions P capacity) LedgerKept.refl
    (fun _ _ _ => LedgerKept.trans) ?_ hs h
  rintro s ⟨env, q⟩ t hs h
  rcases hostDecisions_step h with rfl | ⟨now, answer, hmove, hseen⟩
  · exact .refl t
  · have := hmove.kept (hostDecisions_inv hs)
    rw [← hseen] at this
    exact this

/-- The requests of each generation are admitted once, in order, until it closes. -/
theorem host_ledger_admits_once (hs : (hostDecisions P capacity).Reachable s) :
    (∀ id, (passes s.seen id).Pairwise Seen.Before ∧
      (∀ p, (passes s.seen id).head? = some p → p.request.sequence = 1) ∧
      (∀ e, (entries s.seen id).head? = some e → 1 < e.request.sequence →
        passes s.seen id = [] ∧ ∀ g ∈ s.rows, g.generationId = id → g.opened = false)) ∧
    s.rows.Pairwise (fun a b => a.slot = b.slot → ¬ (a.opened = true ∧ b.opened = true)) ∧
    s.rows.length ≤ capacity ∧
    (∀ t, (hostDecisions P capacity).Later s t →
      s.rows.map (·.generationId) <+: t.rows.map (·.generationId) ∧
      ∀ g ∈ s.rows, g.opened = false → passes t.seen g.generationId = passes s.seen g.generationId ∧
        ∀ g' ∈ t.rows, g'.generationId = g.generationId → g'.opened = false) ∧
    ∀ env q t, (hostDecisions P capacity).step s (env, q) t →
      (∀ reply, (hostDecide P capacity env q s.rows).2 = .ok reply → reply.active.isSome = true →
        ∃ now, t.seen = s.seen ++ [⟨q, now, none⟩]) ∧
      ∀ code, (hostDecide P capacity env q s.rows).2 = .error code → t = s := by
  have hinv := hostDecisions_inv hs
  refine ⟨fun id => ?_, hinv.slots, hinv.size, fun t hlater => ?_, fun env q t hstep => ?_⟩
  · by_cases hrow : ∃ g ∈ s.rows, g.generationId = id
    · obtain ⟨g, hg, rfl⟩ := hrow
      have heach := hinv.each g hg
      refine ⟨heach.sorted, heach.first, fun e he hlt => ?_⟩
      obtain ⟨hclosed, hnone⟩ := heach.missed e he (by omega)
      refine ⟨hnone, fun g' hg' hid => ?_⟩
      rw [Table.eq_of_key hinv.ids hg' hg hid]
      exact hclosed
    · have hnone : entries s.seen id = [] := by
        rw [entries, List.filter_eq_nil_iff]
        intro e he hid
        obtain ⟨g, hg, hge⟩ := hinv.unknown e he
        exact hrow ⟨g, hg, hge.trans (by simpa using hid)⟩
      rw [passes, hnone]
      simp
  · have hkept := hostDecisions_kept hs hlater
    refine ⟨hkept.rows, fun g hg hclosed => ?_⟩
    obtain ⟨⟨g', hg', hid, hclosed'⟩, hpasses⟩ := hkept.closed g hg hclosed
    refine ⟨hpasses, fun o ho hoid => ?_⟩
    have hids := (hostDecisions_inv (hs.later hlater)).ids
    rw [Table.eq_of_key hids ho hg' (hoid.trans hid.symm)]
    exact hclosed'
  · obtain ⟨-, hrows, hseen⟩ := hstep
    simp only at hrows hseen
    rcases hostDecide_cases P capacity env q s.rows with
      ⟨hsame, hnone, hinactive⟩ | ⟨now, rows', answer, reply, hledger, hdecide, hrecorded, hactive⟩
    · refine ⟨fun reply hreply ha => ?_, fun _ _ => ?_⟩
      · rw [hinactive reply hreply] at ha
        cases ha
      · rw [hsame] at hrows
        rw [hnone] at hseen
        cases t
        simp_all
    · refine ⟨fun reply' hreply ha => ?_, fun code hcode => ?_⟩
      · rw [hdecide] at hreply
        cases hreply
        refine ⟨now, ?_⟩
        rw [hseen, hrecorded, hactive ha]
        rfl
      · rw [hdecide] at hcode
        cases hcode

def sampleHostRequest : HostRequest where
  hostBootEpoch := "boot-0001"
  slotId := "slot-1"
  requestNonce := "00000000000000000000000000000001"
  generationId := "00000000000000000000000000000002"
  workspaceId := "ws_0000000000000001"
  projectId := "prj_00000000000000000000000000000001"
  environmentId := "env_00000000000000000000000000000001"
  verificationRecordDigest := "0000000000000000000000000000000000000000000000000000000000000001"
  runnerId := "runner_1"
  runnerKeyId := "key_1"
  bindingId := "rcb_00000000000000000000000000000001"
  bindingDigest := "0000000000000000000000000000000000000000000000000000000000000002"
  runId := "crun_00000000000000000000000000000001"
  grantId := "grant_1"
  grantDigest := "0000000000000000000000000000000000000000000000000000000000000003"
  sequence := 1
  monotonicMs := 50
  killSwitchGeneration := 1

/-- A decision on a workspace that does not exist: the ledger comes first. -/
def sampleHostEnv : HostEnv where
  draining := false
  stopping := false
  stoppingInside := false
  quarantined := false
  connection := none
  drainingNs := 0
  nowNs := some 1000000000
  view := ⟨1, false, [], fun _ => none⟩
  fault := none

def hostPlatform : Platform := ⟨id, String.ofList, fun _ _ _ => true⟩

def HostRun.decided (P : Platform) (capacity : Nat) (s : HostRun) (a : HostEnv × HostRequest) :
    HostRun where
  rows := (hostDecide P capacity a.1 a.2 s.rows).1
  seen := s.seen ++ (recorded P capacity a.1 a.2 s.rows).toList

theorem decided_later {capacity : Nat} (turns : List (HostEnv × HostRequest))
    (h : ∀ a ∈ turns, a.2.valid = true) (s : HostRun) :
    (hostDecisions P capacity).Later s (turns.foldl (HostRun.decided P capacity) s) := by
  induction turns generalizing s with
  | nil => exact .refl
  | cons a rest ih =>
    obtain ⟨ha, hrest⟩ := List.forall_mem_cons.mp h
    exact .head ⟨a, ha, rfl, rfl⟩ (ih hrest _)

/-- A request of one host for one slot, at the two clocks of the parties. -/
def hostTurn (generationId : String) (sequence nowMs monotonicMs : Int) : HostEnv × HostRequest :=
  ({ sampleHostEnv with nowNs := some (nowMs * 1000000) },
    { sampleHostRequest with
      generationId := generationId, sequence := sequence, monotonicMs := monotonicMs })

def firstGeneration : String := "00000000000000000000000000000002"
def secondGeneration : String := "00000000000000000000000000000003"
def thirdGeneration : String := "00000000000000000000000000000004"

/-- Two requests that pass and one of them again; then two hosts that start anew. -/
def hostTurns : List (HostEnv × HostRequest) :=
  [hostTurn firstGeneration 1 1000 50, hostTurn firstGeneration 2 1100 150,
    hostTurn firstGeneration 2 1150 200, hostTurn secondGeneration 1 1200 20,
    hostTurn firstGeneration 3 1250 300, hostTurn thirdGeneration 1 1300 10]

theorem hostTurns_valid : ∀ a ∈ hostTurns, a.2.valid = true := by
  simp only [hostTurns, List.forall_mem_cons, List.not_mem_nil, false_imp_iff, implies_true,
    and_true, HostRequest.valid, hostTurn, firstGeneration, secondGeneration, thirdGeneration,
    sampleHostRequest, epochText, hexText, tagged, tokenText, String.toList_ofList]
  simp only [Literal.toList_eq]
  decide +kernel

def sampleLedgerAfter (count : Nat) : HostRun :=
  (hostTurns.take count).foldl (HostRun.decided hostPlatform 3) ⟨[], []⟩

def fourthTurn : HostEnv × HostRequest := hostTurn "00000000000000000000000000000005" 1 1400 10

theorem fourthTurn_valid : fourthTurn.2.valid = true := by
  simp only [fourthTurn, HostRequest.valid, hostTurn, sampleHostRequest, epochText, hexText, tagged,
    tokenText, String.toList_ofList]
  simp only [Literal.toList_eq]
  decide +kernel

theorem sampleLedgerAfter_reachable (count : Nat) :
    (hostDecisions hostPlatform 3).Reachable (sampleLedgerAfter count) :=
  Transition.Reachable.later (.init ⟨rfl, rfl⟩)
    (decided_later _ (fun a ha => hostTurns_valid a (List.mem_of_mem_take ha)) _)

theorem sampleLedgerAfter_later :
    (hostDecisions hostPlatform 3).Later (sampleLedgerAfter 3) (sampleLedgerAfter 6) :=
  decided_later (hostTurns.drop 3) (fun a ha => hostTurns_valid a (List.mem_of_mem_drop ha))
    (sampleLedgerAfter 3)

/-- The repeated request closes the first generation, the third supersedes the second, and the
fourth finds no place. -/
theorem host_ledger_admits_once_sample :
    (sampleLedgerAfter 6).rows.map (fun g => (g.closeReason, g.requests)) =
        [(some .replayedSequence, 2), (some .superseded, 1), (none, 1)] ∧
      (passes (sampleLedgerAfter 6).seen firstGeneration).Pairwise Seen.Before ∧
      passes (sampleLedgerAfter 6).seen firstGeneration =
        passes (sampleLedgerAfter 3).seen firstGeneration ∧
      (sampleLedgerAfter 6).rows.Pairwise
        (fun a b => a.slot = b.slot → ¬ (a.opened = true ∧ b.opened = true)) ∧
      (sampleLedgerAfter 6).rows.length ≤ 3 ∧
      (sampleLedgerAfter 6).decided hostPlatform 3 fourthTurn = sampleLedgerAfter 6 := by
  have hthird := host_ledger_admits_once (sampleLedgerAfter_reachable 3)
  have hlast := host_ledger_admits_once (sampleLedgerAfter_reachable 6)
  have hclosed := (hthird.2.2.2.1 _ sampleLedgerAfter_later).2
    ⟨firstGeneration, "boot-0001", "slot-1", false, some .replayedSequence, 1000, 2, 150, 1100, 2,
      some 1150⟩ (by decide +kernel) rfl
  have hfull := (hlast.2.2.2.2 fourthTurn.1 fourthTurn.2
    (.decided hostPlatform 3 (sampleLedgerAfter 6) fourthTurn) ⟨fourthTurn_valid, rfl, rfl⟩).2
  exact ⟨by decide +kernel, (hlast.1 firstGeneration).1, hclosed.1, hlast.2.1, hlast.2.2.1,
    hfull .generationCapacityExhausted (by decide +kernel)⟩

end Heel.Cloud
