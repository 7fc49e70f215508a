import Heel.Saas.DiscoveryEdits
import Heel.Saas.Quota

/-! The bound of a discovery authorization: its counters tell its rounds, its rounds stay within
the bound, and its one unit is spent with its first round, after every sequence of calls. -/
namespace Heel.Cloud
open Lib Lib.Checks

/-! ### The counters of one authorization -/

def Round.executionMs (r : Round) : Int := r.terminalAtMs.getD 0 - r.issuedAtMs

def terminalRounds (rows : List Round) : List Round := rows.filter fun r => r.state = .terminal

/-- The counters of an authorization tell its rounds, which are listed as they were issued. -/
structure Counts (a : Authorization) (rows : List Round) : Prop where
  numbers : rows.map (·.round) = (List.range rows.length).map fun i : Nat => (i : Int) + 1
  issued : a.roundsIssued = rows.length
  actions : a.actionsIssued = (rows.map (·.actions)).sum
  /-- Only the last round may still run. -/
  states : ∀ r ∈ rows, r.state = .terminal ∨ r.state = .issued ∧ r.round = a.roundsIssued
  settled : ∀ r ∈ rows, r.state = .terminal → r.terminalAtMs.isSome ∧ r.requestsCompleted.isSome
  executionMs : a.executionMsUsed = ((terminalRounds rows).map Round.executionMs).sum
  requests : a.requestsCompleted =
    ((terminalRounds rows).map fun r => r.requestsCompleted.getD 0).sum
  withinRequests : a.actionsIssued ≤ a.bound.maxRequests
  withinRounds : a.roundsIssued ≤ a.bound.maxRounds

variable {a : Authorization} {rows : List Round} {r : Round}

theorem Counts.numbers_nodup (h : Counts a rows) : (rows.map (·.round)).Nodup := by
  rw [h.numbers]
  refine List.nodup_range.map fun i j hij => ?_
  simpa using hij

theorem Counts.positive (h : Counts a rows) (hr : r ∈ rows) : 1 ≤ r.round := by
  have hin := List.mem_map_of_mem (f := fun r : Round => r.round) hr
  rw [h.numbers] at hin
  obtain ⟨i, -, hi⟩ := List.mem_map.mp hin
  omega

theorem Counts.congr (h : Counts a rows) {o : Authorization} (h1 : o.roundsIssued = a.roundsIssued)
    (h2 : o.actionsIssued = a.actionsIssued) (h3 : o.executionMsUsed = a.executionMsUsed)
    (h4 : o.requestsCompleted = a.requestsCompleted) (h5 : o.bound = a.bound) : Counts o rows := by
  refine ⟨h.numbers, h1.trans h.issued, h2.trans h.actions, ?_, h.settled, h3.trans h.executionMs,
    h4.trans h.requests, ?_, ?_⟩
  · rw [h1]
    exact h.states
  · rw [h2, h5]
    exact h.withinRequests
  · rw [h1, h5]
    exact h.withinRounds

theorem Counts.touch (h : Counts a rows) {p : Round → Bool} {f : Round → Round}
    (hf : ∀ r, (f r).round = r.round ∧ (f r).actions = r.actions ∧ (f r).state = r.state ∧
      (f r).issuedAtMs = r.issuedAtMs ∧ (f r).terminalAtMs = r.terminalAtMs ∧
      (f r).requestsCompleted = r.requestsCompleted) : Counts a (Table.update p f rows) := by
  have hsame : ∀ r ∈ Table.update p f rows, ∃ o ∈ rows, r.state = o.state ∧ r.round = o.round ∧
      r.terminalAtMs = o.terminalAtMs ∧ r.requestsCompleted = o.requestsCompleted := by
    intro r hr
    obtain ⟨o, ho, rfl⟩ := Table.mem_update.mp hr
    refine ⟨o, ho, ?_⟩
    split
    · exact ⟨(hf o).2.2.1, (hf o).1, (hf o).2.2.2.2⟩
    · exact ⟨rfl, rfl, rfl, rfl⟩
  have hterminal : terminalRounds (Table.update p f rows) =
      Table.update p f (terminalRounds rows) :=
    Table.filter_update fun r _ => by rw [(hf r).2.2.1]
  have hlength : (Table.update p f rows).length = rows.length := List.length_map _
  refine ⟨?_, ?_, ?_, ?_, ?_, ?_, ?_, h.withinRequests, h.withinRounds⟩
  · rw [Table.map_update fun r _ => (hf r).1, hlength]
    exact h.numbers
  · rw [hlength]
    exact h.issued
  · rw [Table.map_update fun r _ => (hf r).2.1]
    exact h.actions
  · intro r hr
    obtain ⟨o, ho, hstate, hround, -⟩ := hsame r hr
    rw [hstate, hround]
    exact h.states o ho
  · intro r hr hstate
    obtain ⟨o, ho, hos, -, h1, h2⟩ := hsame r hr
    rw [h1, h2]
    exact h.settled o ho (hos ▸ hstate)
  · rw [hterminal, Table.map_update]
    · exact h.executionMs
    · intro r _
      rw [Round.executionMs, (hf r).2.2.2.2.1, (hf r).2.2.2.1, Round.executionMs]
  · rw [hterminal, Table.map_update]
    · exact h.requests
    · intro r _
      rw [(hf r).2.2.2.2.2]

/-- A settlement moves one round and adds its time and its requests. -/
theorem Counts.settle {before after : List Round} (h : Counts a (before ++ r :: after))
    (hs : r.state = .issued) (terminalAtMs requestsCompleted : Int) :
    Counts { a with
      executionMsUsed := a.executionMsUsed + (terminalAtMs - r.issuedAtMs)
      requestsCompleted := a.requestsCompleted + requestsCompleted }
      (before ++ r.settled terminalAtMs requestsCompleted :: after) := by
  have hexecution := h.executionMs
  have hrequests := h.requests
  have hmem : ∀ o ∈ before ++ r.settled terminalAtMs requestsCompleted :: after,
      o ∈ before ++ r :: after ∨ o = r.settled terminalAtMs requestsCompleted := by
    intro o ho
    simp only [List.mem_append, List.mem_cons] at ho ⊢
    tauto
  simp only [terminalRounds, List.filter_append, List.filter_cons, hs, List.map_append,
    List.sum_append, reduceCtorEq, decide_false, Bool.false_eq_true,
    if_false] at hexecution hrequests
  refine ⟨?_, ?_, ?_, ?_, ?_, ?_, ?_, h.withinRequests, h.withinRounds⟩
  · have hnumbers := h.numbers
    simp only [List.map_append, List.map_cons, List.length_append, List.length_cons] at hnumbers ⊢
    exact hnumbers
  · have hissued := h.issued
    simp only [List.length_append, List.length_cons] at hissued ⊢
    exact hissued
  · have hactions := h.actions
    simp only [List.map_append, List.map_cons] at hactions ⊢
    exact hactions
  · intro o ho
    rcases hmem o ho with hold | rfl
    · exact h.states o hold
    · exact .inl rfl
  · intro o ho hstate
    rcases hmem o ho with hold | rfl
    · exact h.settled o hold hstate
    · exact ⟨rfl, rfl⟩
  · simp only [hexecution, terminalRounds, List.filter_append, List.filter_cons, Round.settled,
      Round.executionMs, List.map_append, List.map_cons, List.sum_append, List.sum_cons,
      decide_true, if_true, Option.getD_some]
    omega
  · simp only [hrequests, terminalRounds, List.filter_append, List.filter_cons, Round.settled,
      List.map_append, List.map_cons, List.sum_append, List.sum_cons, decide_true, if_true,
      Option.getD_some]
    omega

/-- A new round under the next number, once every earlier one has ended. -/
theorem Counts.issue (h : Counts a rows) (hstate : r.state = .issued)
    (hnext : r.round = a.roundsIssued + 1)
    (hprevious : 1 < r.round → ∃ o ∈ rows, o.round = r.round - 1 ∧ o.state = .terminal)
    (hrequests : a.actionsIssued + r.actions ≤ a.bound.maxRequests)
    (hrounds : r.round ≤ a.bound.maxRounds) {o : Authorization} (hbound : o.bound = a.bound)
    (hissued : o.roundsIssued = r.round) (hactions : o.actionsIssued = a.actionsIssued + r.actions)
    (hexecution : o.executionMsUsed = a.executionMsUsed)
    (hcompleted : o.requestsCompleted = a.requestsCompleted) : Counts o (rows ++ [r]) := by
  have hterminal : ∀ x ∈ rows, x.state = .terminal := by
    intro x hx
    rcases h.states x hx with hx' | ⟨-, hround⟩
    · exact hx'
    · have hone : 1 < r.round := by
        have hpos := h.positive hx
        omega
      obtain ⟨y, hy, hyround, hystate⟩ := hprevious hone
      have hxy : x = y := Table.eq_of_key h.numbers_nodup hx hy (by omega)
      rw [hxy]
      exact hystate
  have hkept : terminalRounds (rows ++ [r]) = terminalRounds rows := by
    simp [terminalRounds, List.filter_append, hstate]
  have hlength := h.issued
  refine ⟨?_, ?_, ?_, ?_, ?_, ?_, ?_, ?_, ?_⟩
  · rw [List.map_append, h.numbers, List.length_append, List.length_singleton, List.range_succ,
      List.map_append]
    simp only [List.map_cons, List.map_nil]
    rw [hnext, hlength]
  · rw [List.length_append, List.length_singleton]
    push_cast
    omega
  · rw [List.map_append, List.sum_append, hactions, h.actions]
    simp
  · intro x hx
    simp only [List.mem_append, List.mem_singleton] at hx
    rcases hx with hx | rfl
    · exact .inl (hterminal x hx)
    · exact .inr ⟨hstate, hissued.symm⟩
  · intro x hx hxs
    simp only [List.mem_append, List.mem_singleton] at hx
    rcases hx with hx | rfl
    · exact h.settled x hx hxs
    · rw [hstate] at hxs
      cases hxs
  · rw [hkept, hexecution]
    exact h.executionMs
  · rw [hkept, hcompleted]
    exact h.requests
  · rw [hactions, hbound]
    exact hrequests
  · rw [hissued, hbound]
    exact hrounds

/-! ### The invariant -/

/-- The unit is reserved or given back before the first round, and spent after it. -/
def SpentByRounds (a : Authorization) : Prop :=
  a.quotaState = .consumed ∧ 1 ≤ a.roundsIssued ∨
    (a.quotaState = .reserved ∨ a.quotaState = .refunded) ∧ a.roundsIssued = 0

structure AuthorizationInv (db : CanaryDb) (a : Authorization) : Prop where
  counts : Counts a (db.roundsOf a.authorizationId)
  tells : TellsLedger db.ledger a.reservationId a.quotaState
  spent : SpentByRounds a

structure DiscoveryInv (db : CanaryDb) : Prop where
  ids : (db.authorizations.map (·.authorizationId)).Nodup
  reservations : (db.authorizations.map (·.reservationId)).Nodup
  roundIds : (db.rounds.map (·.roundId)).Nodup
  owned : ∀ r ∈ db.rounds, ∃ a ∈ db.authorizations, a.authorizationId = r.authorizationId
  opened : db.authorizations.Pairwise fun a b => a.place = b.place →
    ¬ (a.state = .opened ∧ b.state = .opened)
  each : ∀ a ∈ db.authorizations, AuthorizationInv db a

variable {db t : CanaryDb}

theorem AuthorizationInv.congr (h : AuthorizationInv db a) (hl : t.ledger = db.ledger)
    (hr : t.roundsOf a.authorizationId = db.roundsOf a.authorizationId) : AuthorizationInv t a :=
  ⟨hr ▸ h.counts, hl ▸ h.tells, h.spent⟩

theorem AuthorizationInv.others (h : AuthorizationInv db a) {more : Ledger}
    (hl : t.ledger = db.ledger ++ more) (hmore : ∀ e ∈ more, e.reservationId ≠ a.reservationId)
    (hr : t.roundsOf a.authorizationId = db.roundsOf a.authorizationId) :
    AuthorizationInv t a := by
  refine ⟨hr ▸ h.counts, ⟨h.tells.1, fun kind hk => ?_⟩, h.spent⟩
  rw [hl, has_others hmore]
  exact h.tells.2 kind hk

/-- An update of one authorization that keeps its name, its unit and its place, and
opens nothing. -/
theorem DiscoveryInv.update (h : DiscoveryInv db) {id : String} {f : Authorization → Authorization}
    (hauth : t.authorizations = Table.update (fun o : Authorization => o.authorizationId = id) f
      db.authorizations)
    (hf : ∀ o, (f o).authorizationId = o.authorizationId ∧
      (f o).reservationId = o.reservationId ∧ (f o).place = o.place ∧
      ((f o).state = .opened → o.state = .opened))
    (hids : (t.rounds.map (·.roundId)).Nodup)
    (howned : ∀ r ∈ t.rounds, ∃ o ∈ db.authorizations, o.authorizationId = r.authorizationId)
    (hself : ∀ o ∈ db.authorizations, o.authorizationId = id → AuthorizationInv t (f o))
    (hother : ∀ o ∈ db.authorizations, o.authorizationId ≠ id → AuthorizationInv t o) :
    DiscoveryInv t := by
  refine ⟨?_, ?_, hids, ?_, ?_, ?_⟩
  · rw [hauth, Table.map_update fun o _ => (hf o).1]
    exact h.ids
  · rw [hauth, Table.map_update fun o _ => (hf o).2.1]
    exact h.reservations
  · intro r hr
    obtain ⟨o, ho, hid⟩ := howned r hr
    refine ⟨_, hauth ▸ Table.mem_update.mpr ⟨o, ho, rfl⟩, ?_⟩
    split
    · exact (hf o).1.trans hid
    · exact hid
  · rw [hauth, Table.update, List.pairwise_map]
    refine h.opened.imp fun {o o'} hpair hplace => ?_
    have hcols : ∀ x : Authorization, (if decide (x.authorizationId = id) = true then f x
        else x).place = x.place ∧ ((if decide (x.authorizationId = id) = true then f x
        else x).state = .opened → x.state = .opened) := by
      intro x
      split
      · exact (hf x).2.2
      · exact ⟨rfl, fun hx => hx⟩
    rw [(hcols o).1, (hcols o').1] at hplace
    exact fun hboth => hpair hplace ⟨(hcols o).2 hboth.1, (hcols o').2 hboth.2⟩
  · intro o' ho'
    rw [hauth] at ho'
    obtain ⟨o, ho, rfl⟩ := Table.mem_update.mp ho'
    split
    · rename_i hid
      exact hself o ho (by simpa using hid)
    · rename_i hid
      exact hother o ho (by simpa using hid)

theorem DiscoveryInv.close (h : DiscoveryInv db) (id : String) (state : AuthorizationState)
    (reason : CloseReason) (now : Int) (revokedBy : Option String) (hstate : state ≠ .opened) :
    DiscoveryInv (db.updateAuthorization id (·.closed state reason now revokedBy)) := by
  refine h.update rfl (fun o => ⟨rfl, rfl, rfl, fun ho => absurd ho hstate⟩)
    h.roundIds h.owned ?_ ?_
  · intro o ho _
    obtain ⟨hcounts, htells, hspent⟩ := h.each o ho
    exact ⟨hcounts.congr rfl rfl rfl rfl rfl, htells, hspent⟩
  · exact fun o ho _ => (h.each o ho).congr rfl rfl

/-- The row a settlement appends, if it appends one, is the reservation's. -/
theorem settle_rows {l l' : Ledger} {reservationId : String} {kind : EntryKind} {answer : Bool}
    (h : l.settle reservationId kind = .ok (answer, l')) :
    ∃ more, l' = l ++ more ∧ ∀ e ∈ more, e.reservationId = reservationId := by
  rcases Ledger.settle_ok h with ⟨-, rfl, -⟩ | ⟨-, -, -, -, e, he, -, rfl⟩
  · exact ⟨[], by simp, by simp⟩
  · exact ⟨[e], rfl, by simpa using he⟩

theorem DiscoveryInv.refund (h : DiscoveryInv db) (ha : a ∈ db.authorizations)
    (hn : a.roundsIssued = 0) (hq : a.quotaState = .reserved) (state : AuthorizationState)
    (reason : CloseReason) (now : Int) (revokedBy : Option String) (hstate : state ≠ .opened)
    {answer : Bool} {ledger : Ledger}
    (hl : db.ledger.settle a.reservationId .refund = .ok (answer, ledger)) :
    DiscoveryInv ({ db with ledger := ledger }.updateAuthorization a.authorizationId
      fun a => { a.closed state reason now revokedBy with quotaState := .refunded }) := by
  obtain ⟨more, hmore, hrows⟩ := settle_rows hl
  refine h.update rfl (fun o => ⟨rfl, rfl, rfl, fun ho => absurd ho hstate⟩)
    h.roundIds h.owned ?_ ?_
  · intro o ho hid
    obtain rfl := Table.eq_of_key h.ids ho ha hid
    obtain ⟨hcounts, htells, hspent⟩ := h.each o ho
    rw [hq] at htells
    exact ⟨hcounts.congr rfl rfl rfl rfl rfl, (refund_reserved htells hl).1, .inr ⟨.inr rfl, hn⟩⟩
  · intro o ho hid
    refine (h.each o ho).others hmore (fun e he heq => hid ?_) rfl
    rw [Table.eq_of_key h.reservations ho ha (heq.symm.trans (hrows e he))]

section UpdateRound
variable {roundId : String} {f : Round → Round}

theorem updateRound_ids (hf : ∀ o, (f o).roundId = o.roundId) :
    (db.updateRound roundId f).rounds.map (·.roundId) = db.rounds.map (·.roundId) :=
  Table.map_update fun o _ => hf o

theorem updateRound_roundsOf (hf : ∀ o, (f o).authorizationId = o.authorizationId) (id : String) :
    (db.updateRound roundId f).roundsOf id =
      Table.update (fun o => o.roundId = roundId) f (db.roundsOf id) :=
  Table.filter_update fun o _ => by rw [hf]

theorem DiscoveryInv.updateRound_owned (h : DiscoveryInv db)
    (hf : ∀ o, (f o).authorizationId = o.authorizationId) :
    ∀ o ∈ (db.updateRound roundId f).rounds,
      ∃ a ∈ db.authorizations, a.authorizationId = o.authorizationId := by
  intro o ho
  obtain ⟨o', ho', rfl⟩ := Table.mem_update.mp ho
  obtain ⟨a, ha, hid⟩ := h.owned o' ho'
  refine ⟨a, ha, ?_⟩
  split
  · rw [hf]
    exact hid
  · exact hid

end UpdateRound

/-- Rounds of other authorizations do not hold the round that is updated. -/
theorem DiscoveryInv.rounds_others (h : DiscoveryInv db) (hr : r ∈ db.rounds) {id : String}
    (hid : id ≠ r.authorizationId) (f : Round → Round)
    (hf : ∀ o, (f o).authorizationId = o.authorizationId) :
    (db.updateRound r.roundId f).roundsOf id = db.roundsOf id := by
  rw [updateRound_roundsOf hf]
  refine Table.update_none fun o ho => ?_
  obtain ⟨ho, howner⟩ := List.mem_filter.mp ho
  simp only [decide_eq_true_eq, decide_eq_false_iff_not] at howner ⊢
  intro heq
  exact hid (howner.symm.trans (by rw [Table.eq_of_key h.roundIds ho hr heq]))

theorem DiscoveryInv.settle (h : DiscoveryInv db) (hr : r ∈ db.rounds) (hs : r.state = .issued)
    (terminalAtMs requestsCompleted : Int) :
    DiscoveryInv ((db.updateRound r.roundId
      (·.settled terminalAtMs requestsCompleted)).updateAuthorization r.authorizationId fun a =>
        { a with
          executionMsUsed := a.executionMsUsed + (terminalAtMs - r.issuedAtMs)
          requestsCompleted := a.requestsCompleted + requestsCompleted }) := by
  refine h.update rfl (fun o => ⟨rfl, rfl, rfl, fun ho => ho⟩) ?_ ?_ ?_ ?_
  · exact (updateRound_ids (f := fun o => o.settled terminalAtMs requestsCompleted)
      fun _ => rfl).symm ▸ h.roundIds
  · exact h.updateRound_owned fun _ => rfl
  · intro o ho hid
    obtain ⟨hcounts, htells, hspent⟩ := h.each o ho
    have hin : r ∈ db.roundsOf o.authorizationId := by
      simpa [CanaryDb.roundsOf, hid] using hr
    have hnodup : ((db.roundsOf o.authorizationId).map (·.roundId)).Nodup :=
      h.roundIds.sublist (List.filter_sublist.map _)
    obtain ⟨before, after, hsplit, hupdate⟩ := Table.update_one
      (f := (·.settled terminalAtMs requestsCompleted)) (g := fun o : Round => o.roundId)
      (p := fun o : Round => o.roundId = r.roundId) hnodup hin (by simp)
    refine ⟨?_, htells, hspent⟩
    show Counts _ ((db.updateRound r.roundId
      (·.settled terminalAtMs requestsCompleted)).roundsOf o.authorizationId)
    rw [updateRound_roundsOf (f := fun o => o.settled terminalAtMs requestsCompleted)
      (fun _ => rfl), hupdate]
    exact (hsplit ▸ hcounts).settle hs _ _
  · exact fun o ho hid => (h.each o ho).congr rfl (h.rounds_others hr hid _ fun _ => rfl)

theorem DiscoveryInv.bytes (h : DiscoveryInv db) (roundId id : String) (received : Int) :
    DiscoveryInv ((db.updateRound roundId fun o =>
      { o with bytesReceived := some received }).updateAuthorization id fun a =>
        { a with bytesReceived := a.bytesReceived + received }) := by
  have hcounts : ∀ o ∈ db.authorizations, Counts o ((db.updateRound roundId fun o =>
      { o with bytesReceived := some received }).roundsOf o.authorizationId) := by
    intro o ho
    rw [updateRound_roundsOf (f := fun o => { o with bytesReceived := some received })
      (fun _ => rfl)]
    exact (h.each o ho).counts.touch fun _ => ⟨rfl, rfl, rfl, rfl, rfl, rfl⟩
  refine h.update rfl (fun o => ⟨rfl, rfl, rfl, fun ho => ho⟩) ?_ ?_ ?_ ?_
  · exact (updateRound_ids (f := fun o => { o with bytesReceived := some received })
      fun _ => rfl).symm ▸ h.roundIds
  · exact h.updateRound_owned fun _ => rfl
  · intro o ho _
    exact ⟨(hcounts o ho).congr rfl rfl rfl rfl rfl, (h.each o ho).tells, (h.each o ho).spent⟩
  · intro o ho _
    exact ⟨hcounts o ho, (h.each o ho).tells, (h.each o ho).spent⟩

theorem DiscoveryInv.create (h : DiscoveryInv db) {env : CloudEnv} {q : AuthorizationRequest}
    (hfresh : ∀ e ∈ db.ledger, e.reservationId ≠ env.freshReservation)
    (huniq : ∀ o ∈ db.authorizations, o.authorizationId ≠ env.freshAuthorization ∧
      o.reservationId ≠ env.freshReservation ∧ ¬ (o.place = q.place ∧ o.state = .opened)) :
    DiscoveryInv { db with
      ledger := db.ledger ++ [(q.reserveRequest env).entry]
      authorizations := db.authorizations ++ [q.row env env.freshReservation] } := by
  have hnone : db.roundsOf env.freshAuthorization = [] := by
    rw [CanaryDb.roundsOf, List.filter_eq_nil_iff]
    intro r hr heq
    obtain ⟨o, ho, hid⟩ := h.owned r hr
    simp only [decide_eq_true_eq] at heq
    exact (huniq o ho).1 (hid.trans heq)
  refine ⟨?_, ?_, h.roundIds, ?_, ?_, ?_⟩
  · simp only [List.map_append, List.map_cons, List.map_nil]
    refine List.nodup_append.mpr ⟨h.ids, by simp, ?_⟩
    rintro _ hid _ hnew rfl
    simp only [List.mem_singleton] at hnew
    obtain ⟨o, ho, heq⟩ := List.mem_map.mp hid
    exact (huniq o ho).1 (heq.trans hnew)
  · simp only [List.map_append, List.map_cons, List.map_nil]
    refine List.nodup_append.mpr ⟨h.reservations, by simp, ?_⟩
    rintro _ hid _ hnew rfl
    simp only [List.mem_singleton] at hnew
    obtain ⟨o, ho, heq⟩ := List.mem_map.mp hid
    exact (huniq o ho).2.1 (heq.trans hnew)
  · intro r hr
    obtain ⟨o, ho, hid⟩ := h.owned r hr
    exact ⟨o, List.mem_append_left _ ho, hid⟩
  · refine List.pairwise_append.mpr ⟨h.opened, List.pairwise_singleton _ _, ?_⟩
    intro o ho x hx hplace
    simp only [List.mem_singleton] at hx
    rw [hx] at hplace
    exact fun ⟨hopen, _⟩ => (huniq o ho).2.2 ⟨hplace, hopen⟩
  · intro o ho
    simp only [List.mem_append, List.mem_singleton] at ho
    rcases ho with ho | rfl
    · refine (h.each o ho).others rfl ?_ rfl
      simp only [List.mem_singleton, forall_eq]
      exact (huniq o ho).2.1.symm
    · refine ⟨?_, ⟨by simp [AuthorizationRequest.row], fun kind hk => ?_⟩, .inr ⟨.inl rfl, rfl⟩⟩
      · show Counts _ (db.roundsOf env.freshAuthorization)
        rw [hnone]
        constructor <;> simp [AuthorizationRequest.row, terminalRounds]
      · have hno : db.ledger.has env.freshReservation kind = false := by
          simp only [Ledger.has, List.any_eq_false, decide_eq_true_eq, not_and]
          exact fun e he hid => absurd hid (hfresh e he)
        show Ledger.has (db.ledger ++ [(q.reserveRequest env).entry]) env.freshReservation kind = _
        rw [Ledger.has_append, hno]
        cases kind <;>
          simp_all [AuthorizationRequest.row, QuotaState.rows, Ledger.ReserveRequest.entry]

theorem DiscoveryInv.aside (h : DiscoveryInv db) (hl : t.ledger = db.ledger)
    (ha : t.authorizations = db.authorizations) (hr : t.rounds = db.rounds) : DiscoveryInv t := by
  refine ⟨ha ▸ h.ids, ha ▸ h.reservations, hr ▸ h.roundIds, ?_, ha ▸ h.opened, ?_⟩
  · rw [hr, ha]
    exact h.owned
  · rw [ha]
    refine fun o ho => (h.each o ho).congr hl ?_
    rw [CanaryDb.roundsOf, hr, CanaryDb.roundsOf]

theorem DiscoveryInv.edit (h : DiscoveryInv db) (hedit : DiscoveryEdit db t) : DiscoveryInv t := by
  cases hedit with
  | aside hl ha hr hg => exact h.aside hl ha hr
  | stop r =>
    have hstop := stopRun_stops db r
    exact h.aside hstop.ledger hstop.authorizations hstop.rounds
  | create env q hfresh huniq => exact h.create hfresh huniq
  | close a state reason now revokedBy ha hs hstate =>
    exact h.close _ state reason now revokedBy hstate
  | refund a state reason now revokedBy answer ledger ha hs hstate hn hq hl =>
    exact h.refund ha hn hq state reason now revokedBy hstate hl
  | settle r terminalAtMs requestsCompleted hr hs => exact h.settle hr hs _ _
  | bytes roundId id received => exact h.bytes roundId id received

theorem DiscoveryInv.edits (h : DiscoveryInv db) (hedits : DiscoveryEdits db t) :
    DiscoveryInv t := by
  induction hedits with
  | refl => exact h
  | tail _ hedit ih => exact ih.edit hedit

/-! ### A new round -/

theorem Issues.roundsOf (h : Issues db t a r) : t.roundsOf a.authorizationId =
    db.roundsOf a.authorizationId ++ [r] := by
  simp [CanaryDb.roundsOf, h.inserted, List.filter_append, h.authorizationId]

theorem Issues.roundsOf_others (h : Issues db t a r) {id : String} (hid : id ≠ a.authorizationId) :
    t.roundsOf id = db.roundsOf id := by
  have hne : ¬ r.authorizationId = id := by
    rw [h.authorizationId]
    exact hid.symm
  simp [CanaryDb.roundsOf, h.inserted, List.filter_append, hne]

/-- The counters of the authorization after the issue of a round. -/
theorem Issues.counts (h : Issues db t a r) (hinv : DiscoveryInv db) {o : Authorization}
    (hbound : o.bound = a.bound) (hissued : o.roundsIssued = r.round)
    (hactions : o.actionsIssued = a.actionsIssued + r.actions)
    (hexecution : o.executionMsUsed = a.executionMsUsed)
    (hcompleted : o.requestsCompleted = a.requestsCompleted) :
    Counts o (t.roundsOf a.authorizationId) := by
  rw [h.roundsOf]
  refine (hinv.each a h.mem).counts.issue h.issued h.next (fun hone => ?_) h.requests h.rounds
    hbound hissued hactions hexecution hcompleted
  obtain ⟨o, ho, hid, hround, hstate⟩ := h.previous hone
  exact ⟨o, by simpa [CanaryDb.roundsOf, hid] using ho, hround, hstate⟩

theorem DiscoveryInv.issue (h : DiscoveryInv db) (hi : Issues db t a r) : DiscoveryInv t := by
  obtain ⟨hcounts, htells, hspent⟩ := h.each a hi.mem
  have hissued := hcounts.issued
  have hnext := hi.next
  have hself : ∀ o ∈ db.authorizations, o.authorizationId = a.authorizationId → o = a :=
    fun o ho hid => Table.eq_of_key h.ids ho hi.mem hid
  have hids : (t.rounds.map (·.roundId)).Nodup := by
    rw [hi.inserted, List.map_append]
    refine List.nodup_append.mpr ⟨h.roundIds, by simp, ?_⟩
    rintro _ hid _ hnew rfl
    simp only [List.map_cons, List.map_nil, List.mem_singleton] at hnew
    obtain ⟨o, ho, heq⟩ := List.mem_map.mp hid
    exact hi.fresh o ho (heq.trans hnew)
  have howned : ∀ x ∈ t.rounds, ∃ o ∈ db.authorizations, o.authorizationId = x.authorizationId := by
    intro x hx
    rw [hi.inserted] at hx
    simp only [List.mem_append, List.mem_singleton] at hx
    rcases hx with hx | rfl
    · exact h.owned x hx
    · exact ⟨a, hi.mem, hi.authorizationId.symm⟩
  rcases hi.counted with ⟨hone, hq, answer, hl, -, hauth⟩ | ⟨hone, hl, hauth⟩
  · have hempty : a.actionsIssued = 0 := by
      have hrows : db.roundsOf a.authorizationId = [] := by
        rw [← List.length_eq_zero_iff]
        omega
      rw [hcounts.actions, hrows]
      rfl
    obtain ⟨more, hmore, hrows⟩ := settle_rows hl
    refine h.update hauth (fun o => ⟨rfl, rfl, rfl, fun ho => ho⟩) hids howned ?_ ?_
    · intro o ho hid
      obtain rfl := hself o ho hid
      rw [hq] at htells
      obtain rfl : answer = true := by
        cases answer with
        | true => rfl
        | false =>
          rcases Ledger.settle_ok hl with ⟨-, -, hrow⟩ | ⟨hfalse, -⟩
          · rw [htells.2 .refund (by simp), htells.2 .consume (by simp)] at hrow
            simp [QuotaState.rows] at hrow
          · cases hfalse
      refine ⟨hi.counts h rfl hone.symm ?_ rfl rfl, (consume_reserved htells hl).1,
        .inl ⟨rfl, le_refl _⟩⟩
      simp [hempty]
    · intro o ho hid
      refine (h.each o ho).others hmore (fun e he heq => hid ?_) (hi.roundsOf_others hid)
      rw [Table.eq_of_key h.reservations ho hi.mem (heq.symm.trans (hrows e he))]
  · refine h.update hauth (fun o => ⟨rfl, rfl, rfl, fun ho => ho⟩) hids howned ?_ ?_
    · intro o ho hid
      obtain rfl := hself o ho hid
      refine ⟨hi.counts h rfl hnext.symm rfl rfl rfl, hl ▸ htells, ?_⟩
      rcases hspent with ⟨hq, hpos⟩ | ⟨-, hzero⟩
      · exact .inl ⟨hq, by simp only; omega⟩
      · exact absurd (hnext.trans (by rw [hzero]; rfl)) hone
    · exact fun o ho hid => (h.each o ho).congr hl (hi.roundsOf_others hid)

/-! ### Every sequence of calls -/

inductive DiscoveryCall where
  | create (env : CloudEnv) (q : AuthorizationRequest)
  | submit (env : RoundEnv) (b : BindingRow) (plan : RoundPlan)
  | result (env : RoundEnv) (runId : String) (requestsCompleted : Int)
      (report : Option SubmittedReport) (inventory : Except Refusal Unit)
  | afterRefusal (env : CloudEnv) (id : String) (kind : RefusalClose) (actionCount : Int)
  | get (env : CloudEnv) (place : String × String × String) (id : String)
  | revoke (env : CloudEnv) (place : String × String × String) (id actor : String) (role : Role)
  | liveCheck (now : Int) (runId : String)
  | reap (env : RoundEnv)

variable (P : Platform)

/-- The rows a call leaves, if it does not raise. -/
def discoveryCall (db : CanaryDb) : DiscoveryCall → Except Refusal CanaryDb
  | .create env q => createDiscoveryAuthorization env q db
  | .submit env b plan => submitDiscoveryRound P env b plan db
  | .result env runId requestsCompleted report inventory =>
    discoveryResult env runId requestsCompleted report inventory db
  | .afterRefusal env id kind actionCount => closeDiscoveryAfterRefusal env id kind actionCount db
  | .get env place id => getDiscoveryAuthorization env place id db
  | .revoke env place id actor role => revokeDiscoveryAuthorization env place id actor role db
  | .liveCheck now runId => discoveryLiveClose now runId db
  | .reap env => reapDiscovery env db

/-- One transaction: a call that raises leaves the rows as they were. -/
def discoveryTransact (db : CanaryDb) (c : DiscoveryCall) : CanaryDb :=
  match discoveryCall P db c with
  | .ok t => t
  | .error _ => db

inductive DiscoveryStep where
  | call (c : DiscoveryCall)
  /-- Other tables, and the ledger rows of other reservations. -/
  | elsewhere

/-- The sequences of calls on discovery authorizations; a new authorization draws a reservation
identifier that no row of the ledger has. -/
def discovery : Transition CanaryDb DiscoveryStep where
  init db := db.authorizations = [] ∧ db.rounds = []
  step db s t := match s with
    | .call c => (∀ env q, c = .create env q → db.Fresh env) ∧ t = discoveryTransact P db c
    | .elsewhere => t.authorizations = db.authorizations ∧ t.rounds = db.rounds ∧
      ∃ more, t.ledger = db.ledger ++ more ∧
        ∀ e ∈ more, ∀ a ∈ db.authorizations, e.reservationId ≠ a.reservationId

variable {P}

theorem discoveryTransact_ok {c : DiscoveryCall} (h : DiscoveryInv db)
    (hfresh : ∀ env q, c = .create env q → db.Fresh env) :
    DiscoveryEdits db (discoveryTransact P db c) ∨ ∃ env b plan a r, c = .submit env b plan ∧
      Issues db (discoveryTransact P db c) a r ∧ r.issuedAtMs = env.now := by
  unfold discoveryTransact
  split
  · rename_i t ht
    cases c with
    | create env q => exact .inl (createDiscoveryAuthorization_edits (hfresh env q rfl) ht)
    | submit env b plan =>
      rcases submitDiscoveryRound_ok h.ids ht with hedits | ⟨a, r, hissue, htime⟩
      · exact .inl hedits
      · exact .inr ⟨env, b, plan, a, r, rfl, hissue, htime⟩
    | result => exact .inl (discoveryResult_edits h.roundIds ht)
    | afterRefusal => exact .inl (closeDiscoveryAfterRefusal_edits ht)
    | get => exact .inl (getDiscoveryAuthorization_edits ht)
    | revoke => exact .inl (revokeDiscoveryAuthorization_edits ht)
    | liveCheck => exact .inl (discoveryLiveClose_edits ht)
    | reap => exact .inl (reapDiscovery_edits h.roundIds ht)
  · exact .inl .refl

theorem DiscoveryInv.step {s : DiscoveryStep} (h : DiscoveryInv db)
    (hstep : (discovery P).step db s t) : DiscoveryInv t := by
  cases s with
  | call c =>
    obtain ⟨hfresh, rfl⟩ := hstep
    rcases discoveryTransact_ok h hfresh with hedits | ⟨env, b, plan, a, r, -, hissue, -⟩
    · exact h.edits hedits
    · exact h.issue hissue
  | elsewhere =>
    obtain ⟨ha, hr, more, hl, hmore⟩ := hstep
    refine ⟨ha ▸ h.ids, ha ▸ h.reservations, hr ▸ h.roundIds, ?_, ha ▸ h.opened, ?_⟩
    · rw [hr, ha]
      exact h.owned
    · rw [ha]
      refine fun o ho => (h.each o ho).others hl (fun e he => hmore e he o ho) ?_
      rw [CanaryDb.roundsOf, hr, CanaryDb.roundsOf]

theorem discovery_inv (hs : (discovery P).Reachable db) : DiscoveryInv db := by
  refine (discovery P).invariant (P := DiscoveryInv) ?_ (fun _ _ _ h hstep => h.step hstep) hs
  rintro s ⟨ha, hr⟩
  constructor <;> simp [ha, hr]

/-- The round was issued by a submission that found its authorization open, unexpired and with
the floor of execution time left, and its wall budget within what was left. -/
def IssuedInTime (P : Platform) (db : CanaryDb) (r : Round) : Prop :=
  ∃ before env b plan after, (discovery P).Reachable before ∧
    (discovery P).step before (.call (.submit env b plan)) after ∧ (discovery P).Later after db ∧
    (∀ o ∈ before.rounds, o.roundId ≠ r.roundId) ∧ (∃ o ∈ after.rounds, o.roundId = r.roundId) ∧
    r.issuedAtMs = env.now ∧
    ∃ a ∈ before.authorizations, a.authorizationId = r.authorizationId ∧ a.state = .opened ∧
      env.now < a.expiresAtMs ∧
      a.executionMsUsed + discoveryRoundFloorMs ≤ a.bound.maxTotalExecutionMs ∧
      r.wallBudgetMs ≤ a.bound.maxTotalExecutionMs - a.executionMsUsed

theorem IssuedInTime.later (h : IssuedInTime P db r) {o : Round} (hkey : o.key = r.key)
    {s : DiscoveryStep} (hstep : (discovery P).step db s t) : IssuedInTime P t o := by
  obtain ⟨before, env, b, plan, after, hbefore, hcall, hlater, hrest⟩ := h
  simp only [Round.key, Prod.mk.injEq] at hkey
  obtain ⟨h1, h2, h3, h4⟩ := hkey
  refine ⟨before, env, b, plan, after, hbefore, hcall, hlater.tail ⟨s, hstep⟩, ?_⟩
  rw [h1, h2, h3, h4]
  exact hrest

theorem rounds_issued_in_time (hs : (discovery P).Reachable db) :
    ∀ r ∈ db.rounds, IssuedInTime P db r := by
  induction hs with
  | init h => simp [h.2]
  | @step s t label hreach hstep ih =>
    have hold : t.rounds.map Round.key = s.rounds.map Round.key →
        ∀ r ∈ t.rounds, IssuedInTime P t r := by
      intro hkeys r hr
      have hin : r.key ∈ s.rounds.map Round.key := hkeys ▸ List.mem_map_of_mem hr
      obtain ⟨o, ho, heq⟩ := List.mem_map.mp hin
      exact (ih o ho).later heq.symm hstep
    cases label with
    | elsewhere =>
      obtain ⟨-, hr, -⟩ := hstep
      exact hold (congrArg _ hr)
    | call c =>
      have hcall := hstep
      obtain ⟨hfresh, rfl⟩ := hcall
      rcases discoveryTransact_ok (discovery_inv hreach) hfresh with
        hedits | ⟨env, b, plan, a, r, rfl, hissue, htime⟩
      · exact hold hedits.keys
      · intro x hx
        rw [hissue.inserted] at hx
        simp only [List.mem_append, List.mem_singleton] at hx
        rcases hx with hx | rfl
        · exact (ih x hx).later rfl hstep
        · have hlive := hissue.unexpired
          rw [htime] at hlive
          exact ⟨s, env, b, plan, _, hreach, hstep, .refl, hissue.fresh,
            ⟨x, by simp [hissue.inserted], rfl⟩, htime, a, hissue.mem, hissue.authorizationId.symm,
            hissue.opened, hlive, hissue.floor, hissue.wall⟩

/-- What the counters, the rounds and the unit of an authorization say. -/
structure WithinBound (db : CanaryDb) (a : Authorization) : Prop where
  actions : a.actionsIssued = ((db.roundsOf a.authorizationId).map (·.actions)).sum ∧
    a.actionsIssued ≤ a.bound.maxRequests
  rounds : 0 ≤ a.roundsIssued ∧ a.roundsIssued ≤ a.bound.maxRounds ∧
    (db.roundsOf a.authorizationId).map (·.round) =
      (List.range a.roundsIssued.toNat).map fun i : Nat => (i : Int) + 1
  oneIssued : ((db.roundsOf a.authorizationId).filter fun r => r.state = .issued).length ≤ 1
  executionMs : a.executionMsUsed =
    ((terminalRounds (db.roundsOf a.authorizationId)).map Round.executionMs).sum
  requests : a.requestsCompleted =
    ((terminalRounds (db.roundsOf a.authorizationId)).map fun r => r.requestsCompleted.getD 0).sum
  settled : ∀ r ∈ db.roundsOf a.authorizationId, r.state = .terminal →
    r.terminalAtMs.isSome ∧ r.requestsCompleted.isSome
  consumed : (a.quotaState = .consumed ↔ 1 ≤ a.roundsIssued) ∧
    (db.ledger.has a.reservationId .consume = true ↔ 1 ≤ a.roundsIssued)
  refunded : (a.quotaState = .refunded → a.roundsIssued = 0) ∧
    (db.ledger.has a.reservationId .refund = true → a.roundsIssued = 0)

theorem Counts.one_issued (h : Counts a rows) :
    (rows.filter fun r => r.state = .issued).length ≤ 1 := by
  have hlast : ∀ r ∈ rows.filter (fun r => r.state = .issued), r.round = a.roundsIssued := by
    intro r hr
    obtain ⟨hr, hstate⟩ := List.mem_filter.mp hr
    rcases h.states r hr with hs | ⟨-, hs⟩
    · simp [hs] at hstate
    · exact hs
  have hnodup : ((rows.filter fun r => r.state = .issued).map (·.round)).Nodup :=
    h.numbers_nodup.sublist (List.filter_sublist.map _)
  generalize rows.filter (fun r => r.state = .issued) = live at hlast hnodup
  match live with
  | [] => simp
  | [_] => simp
  | x :: y :: rest =>
    have hxy : x.round = y.round :=
      (hlast x (by simp)).trans (hlast y (by simp)).symm
    simp [hxy] at hnodup

theorem AuthorizationInv.withinBound (h : AuthorizationInv db a) : WithinBound db a := by
  obtain ⟨hcounts, htells, hspent⟩ := h
  have hissued := hcounts.issued
  have hconsume := htells.2 .consume (by simp)
  have hrefund := htells.2 .refund (by simp)
  refine ⟨⟨hcounts.actions, hcounts.withinRequests⟩, ⟨by omega, hcounts.withinRounds, ?_⟩,
    hcounts.one_issued, hcounts.executionMs, hcounts.requests, hcounts.settled, ?_, ?_⟩
  · rw [hcounts.numbers, hissued, Int.toNat_natCast]
  · rw [hconsume]
    rcases hspent with ⟨hq, hpos⟩ | ⟨hq | hq, hzero⟩
    · simp [hq, hpos, QuotaState.rows]
    · simp [hq, hzero, QuotaState.rows]
    · simp [hq, hzero, QuotaState.rows]
  · rw [hrefund]
    rcases hspent with ⟨hq, hpos⟩ | ⟨hq | hq, hzero⟩
    · simp [hq, QuotaState.rows]
    · simp [hq, QuotaState.rows]
    · exact ⟨fun _ => hzero, fun _ => hzero⟩

/-- Discovery stays within its bounds after every sequence of calls. -/
theorem discovery_bounds (hs : (discovery P).Reachable db) :
    (∀ a ∈ db.authorizations, WithinBound db a) ∧
    (∀ r ∈ db.rounds, IssuedInTime P db r ∧
      ∃ a ∈ db.authorizations, a.authorizationId = r.authorizationId) ∧
    db.authorizations.Pairwise fun a b => a.place = b.place →
      ¬ (a.state = .opened ∧ b.state = .opened) := by
  have hinv := discovery_inv hs
  exact ⟨fun a ha => (hinv.each a ha).withinBound,
    fun r hr => ⟨rounds_issued_in_time hs r hr, hinv.owned r hr⟩, hinv.opened⟩

theorem reachable_submit (hs : (discovery P).Reachable db) (env : RoundEnv) (b : BindingRow)
    (plan : RoundPlan) :
    (discovery P).Reachable (discoveryTransact P db (.submit env b plan)) :=
  .step (a := .call (.submit env b plan)) hs ⟨fun _ _ h => (by cases h), rfl⟩

section Sample

def roundEnv : RoundEnv where
  toCloudEnv := cloudEnv "resv_2"
  planRequestOpen := false
  matchesBinding := true
  run _ := none
  freshRun := "run_2"
  freshRound := "round_1"

def roundBinding : BindingRow :=
  ⟨"workspace_1", "project_1", "environment_1", "runner_1", "key_1"⟩

def seedPlan : RoundPlan where
  authorizationId := "authorization_1"
  authorizationDigest := "digest_1"
  round := 1
  frontierDigest := "frontier_1"
  cumulativeRequestsBefore := 0
  actionCount := 12
  sources := (List.range 12).map fun i => ⟨0, i⟩
  actions := discoverySeedPaths.map fun path => ⟨.get, path⟩
  wallTimeoutMs := 60000
  maximumResponseBytes := 65536
  origin := "https://staging.example"
  hostname := "staging.example"
  projectionId := "approval_2"
  projectionDigest := "projection_2"

/-- The rows once the seed round of an authorization was submitted. -/
def discoveringDb : CanaryDb :=
  discoveryTransact textPlatform authorizedDb (.submit roundEnv roundBinding seedPlan)

theorem discoveringDb_reachable : (discovery textPlatform).Reachable discoveringDb := by
  have h0 : (discovery textPlatform).Reachable pendingDb := .init ⟨rfl, rfl⟩
  have h1 : (discovery textPlatform).Reachable authorizedDb := by
    refine .step (a := .call (.create (cloudEnv "resv_1") sampleRequest)) h0 ⟨?_, rfl⟩
    rintro env q ⟨⟩
    simp [CanaryDb.Fresh, pendingDb]
  exact reachable_submit h1 _ _ _

def endedEnv : RoundEnv :=
  { roundEnv with run := fun _ => some ⟨.terminal, some 2000, 2000, 90000000, some 12⟩ }

def foundCandidate : Candidate := ⟨.get, "/pets", .wellKnownSpec, 3, 200⟩

def roundReport : SubmittedReport :=
  ⟨"authorization_1", 1, "run_2", "grant_1", "key_1", [foundCandidate], 100, "report_1", true⟩

/-- The digest of references under the sample platform. -/
def answeredDigest (x : Except Refusal String) : String :=
  match x with
  | .ok digest => digest
  | .error _ => ""

theorem answeredDigest_ok {x : Except Refusal String} (h : accepts x = true) :
    x = .ok (answeredDigest x) := by
  obtain ⟨digest, rfl⟩ := (accepts_iff x).mp h
  rfl

/-- The plan of a second round, for what the first one found. -/
def foundPlan : RoundPlan :=
  { seedPlan with
    round := 2
    frontierDigest := answeredDigest (discoveryFrontierDigest textPlatform [(1, foundCandidate)])
    cumulativeRequestsBefore := 12
    actionCount := 1
    sources := [⟨1, 3⟩]
    actions := [⟨.get, "/pets"⟩]
    projectionId := "approval_3"
    projectionDigest := "projection_3" }

def foundEnv : RoundEnv :=
  { roundEnv with
    freshGrant := "grant_2", freshRun := "run_3", freshRound := "round_2" }

/-- The authorization of the sample once its first round was submitted. -/
def issuedAuthorization : Authorization :=
  { reservedAuthorization with quotaState := .consumed, roundsIssued := 1, actionsIssued := 12 }

def seedApproval : ApprovalRequest where
  approvalId := "approval_2"
  workspaceId := "workspace_1"
  projectRef := "project_1"
  runId := "run_2"
  runnerId := "runner_1"
  runnerKeyId := "key_1"
  projectionDigest := "projection_2"
  status := .approved
  projectionJson := some ⟨some .discovery, "staging.example"⟩
  uploadedBy := "runner_1"
  createdAt := 1000
  expiresAt := 86401000
  approvedBy := some "user_1"
  reason := some "discovery_authorization:authorization_1"

def seedGrant : ExecutionGrant where
  grantId := "grant_1"
  workspaceId := "workspace_1"
  projectRef := "project_1"
  approvalId := "approval_2"
  runId := "run_2"
  runnerId := "runner_1"
  runnerKeyId := "key_1"
  status := .issued
  reservationId := discoveryRoundGrantReference "authorization_1" 1
  idempotencyKey := discoveryRoundIdempotencyKey textPlatform "authorization_1" 1
  grantJson := some ⟨"projection_2", "staging.example", 0⟩
  issuedAt := 1000
  expiresAt := 601000

/-- The first round, whatever the digest of its frontier. -/
def seedRound (digest : String) : Round where
  roundId := "round_1"
  authorizationId := "authorization_1"
  round := 1
  runnerId := "runner_1"
  runnerKeyId := "key_1"
  runId := "run_2"
  grantId := "grant_1"
  projectionDigest := "projection_2"
  frontierDigest := digest
  actions := 12
  cumulativeRequestsBefore := 0
  wallBudgetMs := 60000
  state := .issued
  issuedAtMs := 1000

/-- The rows once the first round was submitted. -/
def seededRows (digest : String) : CanaryDb :=
  { authorizedRows with
    ledger := [reservedEntry, { reservedEntry with kind := .consume, idempotencyKey := none }]
    approvals := [samplePending, seedApproval]
    runs := pendingDb.runs ++
      [{ workspaceId := "workspace_1", projectRef := "project_1", runId := "run_2"
         status := .approved
         grantId := some "grant_1", updatedAt := 1000 }]
    grants := [seedGrant]
    authorizations := [issuedAuthorization]
    rounds := [seedRound digest] }

def reportedRows (digest : String) : CanaryDb :=
  { seededRows digest with
    authorizations := [{ issuedAuthorization with
      executionMsUsed := 1000, requestsCompleted := 12, bytesReceived := 100 }]
    rounds := [{ seedRound digest with
      state := .terminal, terminalAtMs := some 2000, requestsCompleted := some 12
      bytesReceived := some 100 }]
    reports := [roundReport.stored (seedRound digest)] }

theorem seed_submitted (digest : String) : submitDiscoveryRound textPlatform roundEnv roundBinding
    { seedPlan with frontierDigest := digest } authorizedRows = .ok (seededRows digest) :=
  rfl

theorem discoveryResult_recorded {env : RoundEnv} {runId : String} {requests : Int}
    {report : SubmittedReport} {inventory : Except Refusal Unit} {db db' : CanaryDb} {r : Round}
    (hround : (db.rounds.find? fun r => r.runId = runId) = some r)
    (hvalid : validatedDiscoveryReport r report = .ok ())
    (hsettled : settleEnded env r requests db = .ok db') :
    discoveryResult env runId requests (some report) inventory db =
      recordDiscoveryReport r report inventory db' := by
  rw [discoveryResult, hround]
  simp only [Option.map_some, Option.getD_some]
  rw [bind_of_ok hvalid, bind_of_ok hsettled]

def settledRows (digest : String) : CanaryDb :=
  { seededRows digest with
    authorizations := [{ issuedAuthorization with
      executionMsUsed := 1000, requestsCompleted := 12 }]
    rounds := [{ seedRound digest with
      state := .terminal, terminalAtMs := some 2000, requestsCompleted := some 12 }] }

theorem seed_settled (digest : String) :
    settleEnded endedEnv (seedRound digest) 12 (seededRows digest) = .ok (settledRows digest) := by
  have hsettled : settleDiscoveryRound 1000 (seedRound digest) 2000 12 (seededRows digest) =
      .ok (settledRows digest) := by
    simp [settleDiscoveryRound, CanaryDb.updateRound, CanaryDb.updateAuthorization, Table.update,
      CanaryDb.authorization, Authorization.exhausted, Round.settled, discoveryDoneExecutionMs,
      seededRows, settledRows, seedRound, issuedAuthorization, reservedAuthorization]
  exact hsettled

theorem seed_recorded (digest : String) :
    recordDiscoveryReport (seedRound digest) roundReport (.ok ()) (settledRows digest) =
      .ok (reportedRows digest) := by
  simp [recordDiscoveryReport, CanaryDb.updateRound, CanaryDb.updateAuthorization, Table.update,
    SubmittedReport.stored, seededRows, settledRows, reportedRows, seedRound, roundReport,
    issuedAuthorization, reservedAuthorization, authorizedRows, pendingDb]

/-- The report of the first round and its settlement, in one call. -/
theorem seed_reported (digest : String) :
    discoveryTransact textPlatform (seededRows digest)
      (.result endedEnv "run_2" 12 (some roundReport) (.ok ())) = reportedRows digest := by
  have hreported : discoveryResult endedEnv "run_2" 12 (some roundReport) (.ok ())
      (seededRows digest) = .ok (reportedRows digest) :=
    (discoveryResult_recorded rfl rfl (seed_settled digest)).trans (seed_recorded digest)
  rw [discoveryTransact, discoveryCall, hreported]

theorem found_frontier (digest : String) :
    frontierChecks textPlatform foundPlan (reportedRows digest) = .ok () := by
  have hdigest : discoveryFrontierDigest textPlatform [(1, foundCandidate)] =
      .ok foundPlan.frontierDigest := answeredDigest_ok (by decide +kernel)
  have hcandidate : ([((⟨1, 3⟩ : RoundSource), (⟨.get, "/pets"⟩ : RoundAction))].mapM fun p =>
      referencedCandidate (reportedRows digest) "authorization_1" 2 p.1 p.2) =
          .ok [(1, foundCandidate)] := rfl
  have hlater : foundPlan.round ≠ 1 := by decide
  rw [frontierChecks, if_neg hlater]
  simp only [bind_ok, require_ok]
  exact ⟨_, hcandidate, _, hdigest, rfl⟩

theorem idempotencyKey_text (id : String) (round : Int) :
    discoveryRoundIdempotencyKey textPlatform id round =
      "ca1-" ++ ("heel.discovery-round-grant.v1|" ++ id ++ "|" ++ toString round) := by
  simp only [discoveryRoundIdempotencyKey, textPlatform, String.ofList_toList]

def reportedAuthorization : Authorization :=
  { issuedAuthorization with
    executionMsUsed := 1000, requestsCompleted := 12, bytesReceived := 100 }

def foundApproval : ApprovalRequest :=
  { seedApproval with
    approvalId := "approval_3", runId := "run_3", projectionDigest := "projection_3"
    status := .awaitingExecutionApproval, approvedBy := none, reason := none }

def foundGrant : ExecutionGrant :=
  roundGrant textPlatform foundEnv reportedAuthorization foundPlan foundApproval 601000

/-- The rows once the projection of the second round was submitted. -/
def submittedRows (digest : String) : CanaryDb :=
  { reportedRows digest with
    approvals := (reportedRows digest).approvals ++ [foundApproval]
    runs := (reportedRows digest).runs ++
      [{ workspaceId := "workspace_1", projectRef := "project_1", runId := "run_3"
         updatedAt := 1000 }] }

def grantedRows (digest : String) : CanaryDb :=
  { submittedRows digest with
    grants := [seedGrant, foundGrant]
    approvals := (reportedRows digest).approvals ++ [{ foundApproval with
      status := .approved, approvedBy := seedApproval.approvedBy, reason := seedApproval.reason }]
    runs := (reportedRows digest).runs ++
      [{ workspaceId := "workspace_1", projectRef := "project_1", runId := "run_3"
         status := .approved
         grantId := some "grant_2", updatedAt := 1000 }] }

example : foundPlan.round = 2 ∧ foundPlan.actions.length = 1 := by decide +kernel

theorem found_checked (digest : String) :
    roundChecks textPlatform foundEnv foundPlan reportedAuthorization (reportedRows digest) =
      .ok () := by
  simp only [roundChecks, found_frontier]
  rfl

theorem found_submitted (digest : String) :
    submitProjection foundEnv roundBinding foundPlan (reportedRows digest) =
      .ok (submittedRows digest, foundApproval) :=
  rfl

theorem found_inserted (digest : String) : (submittedRows digest).insertGrant foundGrant =
    .ok { submittedRows digest with grants := [seedGrant, foundGrant] } := by
  have hreference : seedGrant.reservationId ≠ foundGrant.reservationId := by
    change discoveryRoundGrantReference "authorization_1" 1 ≠
      discoveryRoundGrantReference "authorization_1" 2
    rw [discoveryRoundGrantReference, discoveryRoundGrantReference, ne_eq, String.append_right_inj]
    decide
  have hkey : seedGrant.idempotencyKey ≠ foundGrant.idempotencyKey := by
    change discoveryRoundIdempotencyKey textPlatform "authorization_1" 1 ≠
      discoveryRoundIdempotencyKey textPlatform "authorization_1" 2
    rw [idempotencyKey_text, idempotencyKey_text, ne_eq, String.append_right_inj,
      String.append_right_inj]
    decide
  have hgrant : seedGrant.grantId ≠ foundGrant.grantId := show "grant_1" ≠ "grant_2" by decide
  have hrun : seedGrant.runId ≠ foundGrant.runId := show "run_2" ≠ "run_3" by decide
  have huniq : ∀ o ∈ (submittedRows digest).grants, o.grantId ≠ foundGrant.grantId ∧
      o.reservationId ≠ foundGrant.reservationId ∧
      ¬ (o.workspaceId = foundGrant.workspaceId ∧ o.idempotencyKey = foundGrant.idempotencyKey) ∧
      ¬ (o.workspaceId = foundGrant.workspaceId ∧ o.projectRef = foundGrant.projectRef ∧
        o.runId = foundGrant.runId) := by
    intro o ho
    obtain rfl : o = seedGrant := List.mem_singleton.mp ho
    exact ⟨hgrant, hreference, fun h => hkey h.2, fun h => hrun h.2.2⟩
  rw [CanaryDb.insertGrant, bind_of_ok (passed huniq)]
  rfl

theorem found_granted (digest : String) :
    issueDiscoveryGrant textPlatform foundEnv reportedAuthorization foundPlan foundApproval
      (submittedRows digest) = .ok (grantedRows digest) := by
  have hauthority : foundEnv.authority = .ok 90000000 := rfl
  have hexpires : min (min (foundEnv.now + 600000) 90000000) reportedAuthorization.expiresAtMs =
      601000 := by decide
  rw [issueDiscoveryGrant, bind_of_ok hauthority]
  simp only [hexpires]
  rw [bind_of_ok (passed (by decide)), bind_of_ok (passed (by decide)),
    bind_of_ok (passed (by decide)), ← foundGrant, bind_of_ok (found_inserted digest)]
  rfl

def foundRound : Round := foundPlan.row foundEnv roundBinding foundApproval.runId

/-- The rows once the second round was issued. -/
def foundRows (digest : String) : CanaryDb :=
  { grantedRows digest with
    authorizations := [{ reportedAuthorization with roundsIssued := 2, actionsIssued := 13 }]
    rounds := (reportedRows digest).rounds ++ [foundRound] }

theorem found_counted (digest : String) :
    countRound foundPlan
      { grantedRows digest with rounds := (reportedRows digest).rounds ++ [foundRound] } =
        .ok (foundRows digest) :=
  rfl

theorem found_issued (digest : String) :
    submitDiscoveryRound textPlatform foundEnv roundBinding foundPlan (reportedRows digest) =
      .ok (foundRows digest) := by
  have hauthorization : ((reportedRows digest).authorizations.find? fun a =>
      a.authorizationId = foundPlan.authorizationId ∧ a.place = roundBinding.place) =
        some reportedAuthorization := rfl
  have hround : ((reportedRows digest).rounds.find? fun r =>
      r.authorizationId = reportedAuthorization.authorizationId ∧
        r.round = foundPlan.round) = none := rfl
  have hinserted : (grantedRows digest).insertRound foundRound = .ok
      { grantedRows digest with rounds := (reportedRows digest).rounds ++ [foundRound] } := rfl
  rw [submitDiscoveryRound, hauthorization]
  dsimp only
  rw [hround]
  dsimp only
  rw [bind_of_ok (passed (by decide)), bind_of_ok (found_checked digest),
    bind_of_ok (found_submitted digest)]
  dsimp only
  rw [bind_of_ok (found_granted digest), ← foundRound, bind_of_ok hinserted, found_counted]

/-- The rows once the first round was reported and a second one submitted for what it found. -/
def secondRoundDb : CanaryDb :=
  discoveryTransact textPlatform
    (discoveryTransact textPlatform discoveringDb
      (.result endedEnv "run_2" 12 (some roundReport) (.ok ())))
    (.submit foundEnv roundBinding foundPlan)

theorem secondRoundDb_rows : secondRoundDb = foundRows "frontier_1" := by
  have hsubmitted : submitDiscoveryRound textPlatform roundEnv roundBinding seedPlan
      authorizedRows = .ok (seededRows "frontier_1") := seed_submitted "frontier_1"
  have hseeded : discoveringDb = seededRows "frontier_1" := by
    rw [discoveringDb, authorizedDb_rows, discoveryTransact, discoveryCall, hsubmitted]
  rw [secondRoundDb, hseeded, seed_reported, discoveryTransact, discoveryCall, found_issued]

theorem secondRoundDb_reachable : (discovery textPlatform).Reachable secondRoundDb := by
  apply reachable_submit
  exact .step (a := .call (.result endedEnv "run_2" 12 (some roundReport) (.ok ())))
    discoveringDb_reachable ⟨fun _ _ h => (by cases h), rfl⟩

theorem discovery_bounds_sample :
    (∀ a ∈ secondRoundDb.authorizations, WithinBound secondRoundDb a) ∧
    (∀ r ∈ secondRoundDb.rounds, IssuedInTime textPlatform secondRoundDb r) ∧
    secondRoundDb.authorizations.map (fun a =>
      (a.roundsIssued, a.actionsIssued, a.requestsCompleted, a.executionMsUsed)) =
        [(2, 13, 12, 1000)] ∧
    secondRoundDb.rounds.map (fun r => (r.round, r.state)) = [(1, .terminal), (2, .issued)] := by
  obtain ⟨hbounds, hrounds, -⟩ := discovery_bounds secondRoundDb_reachable
  exact ⟨hbounds, fun r hr => (hrounds r hr).1, by rw [secondRoundDb_rows]; rfl,
    by rw [secondRoundDb_rows]; rfl⟩

end Sample

end Heel.Cloud
