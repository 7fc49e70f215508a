import Heel.Lib.History
import Heel.Lib.Transition
import Heel.Sync.QueueMoves

/-! Fenced transmission over whole runs of the sync queue: the newest handle of a record is the only
one that is good for anything, transmissions do not overlap, and a receipt ends it all. -/
namespace Heel.SyncQueue
open Lib Lib.Checks

/-! ### The system -/

abbrev SyncEntry := SyncTurn × SyncAnswer

/-- The files, the last clock reading and the turns so far. -/
structure SyncWorld where
  files : Files := fun _ => none
  clock : ℚ := 0
  history : List SyncEntry := []

def Files.write (files : Files) : Option SyncRecord → Files
  | none => files
  | some r => fun key => if key = r.toSyncKey then some r else files key

def SyncWorld.take (K : StoredRequests) (w : SyncWorld) (turn : SyncTurn) : SyncWorld where
  files := w.files.write (turn.respond K w.files).1
  clock := turn.now
  history := w.history ++ [(turn, (turn.respond K w.files).2)]

/-- Any number of workers, one turn after the other, on a clock that does not go back. -/
def syncQueue (K : StoredRequests) : Transition SyncWorld SyncTurn where
  init w := w = {}
  step w turn v := w.clock ≤ turn.now ∧ v = w.take K turn

namespace SyncEntry

/-- The handle of a record that the turn yields. -/
def issues (key : SyncKey) (e : SyncEntry) : Option Handle :=
  e.2.yields.filter fun h => h.key = key

/-- `schedule_retry` gives the permit back. -/
def releases (permit : SyncTransmissionPermit) (e : SyncEntry) : Prop :=
  (∃ due code, e.1.call = .retry (.permit permit) due code) ∧ e.2 = .flag true

/-- `complete` stores the receipt. -/
def completes (permit : SyncTransmissionPermit) (receipt : Receipt) (e : SyncEntry) : Prop :=
  e.1.call = .complete permit (some receipt) ∧ e.2 = .flag true

def approves (key : SyncKey) (human : StoredHumanApproval) (e : SyncEntry) : Prop :=
  ∃ a r, e.1.call = .approve a ∧ e.2 = .record r ∧ a.toSyncKey = key ∧
    human = ⟨a.approvedAt, a.expiresAt⟩

def authorizes (key : SyncKey) (transport : StoredTransportApproval) (e : SyncEntry) : Prop :=
  ∃ lease a h, e.1.call = .bind lease a ∧ e.2 = .handle (some h) ∧ a.toSyncKey = key ∧
    transport = a.stored

end SyncEntry

def newestHandle (history : List SyncEntry) (key : SyncKey) : Option Handle :=
  History.newest (SyncEntry.issues key) history

/-- A call at or after the last reading with which the handle succeeds. -/
def HandleWorks (K : StoredRequests) (w : SyncWorld) (h : Handle) : Prop :=
  ∃ turn : SyncTurn, w.clock ≤ turn.now ∧ turn.call.presents = some h ∧
    (turn.respond K w.files).2.succeeds = true

/-- A permit is within an approval by a human, one for the transport and a lease, each for its
record, given before and live when it begins. -/
def PermitSound (before : List SyncEntry) (e : SyncEntry) : Prop :=
  ∀ permit, e.2.yields = some (.permit permit) → ∃ lease human transport,
    e.1.call = .begin lease ∧ permit.begunAt = e.1.now ∧
    newestHandle before permit.record.toSyncKey = some (.lease lease) ∧
    lease.record.toSyncKey = permit.record.toSyncKey ∧
    permit.record.humanApproval = some human ∧ permit.record.transportApproval = some transport ∧
    (∃ x ∈ before, x.approves permit.record.toSyncKey human) ∧
    (∃ x ∈ before, x.authorizes permit.record.toSyncKey transport) ∧
    human.approvedAt ≤ permit.begunAt ∧ transport.approvedAt ≤ permit.begunAt ∧
    permit.begunAt < permit.effectiveExpiresAt ∧
    permit.effectiveExpiresAt ≤ human.expiresAt ∧
    permit.effectiveExpiresAt ≤ transport.expiresAt ∧
    permit.effectiveExpiresAt ≤ lease.leaseExpiresAt

/-- A permit is yielded only when every permit of the record before it was given back or is over. -/
def PermitFenced (before : List SyncEntry) (e : SyncEntry) : Prop :=
  ∀ q, e.2.yields = some (.permit q) → ∀ x ∈ before, ∀ p, x.2.yields = some (.permit p) →
    p.record.toSyncKey = q.record.toSyncKey →
      (∃ y ∈ before, y.releases p) ∨ p.effectiveExpiresAt ≤ q.begunAt

/-- After a receipt no handle of the record is yielded, and no receipt stored. -/
def ReceiptFinal (before : List SyncEntry) (e : SyncEntry) : Prop :=
  ∀ x ∈ before, ∀ permit receipt, x.completes permit receipt →
    (∀ h, e.2.yields = some h → h.key ≠ permit.record.toSyncKey) ∧
    ∀ permit' receipt', e.completes permit' receipt' →
      permit'.record.toSyncKey ≠ permit.record.toSyncKey

/-! ### The invariant -/

/-- The files agree with what has happened. -/
structure SyncInv (w : SyncWorld) : Prop where
  keys : ∀ key r, w.files key = some r → r.toSyncKey = key
  holder : ∀ key r, w.files key = some r → ∀ h, r.holder = some h →
    newestHandle w.history key = some h
  human : ∀ key r, w.files key = some r → ∀ human ∈ r.humanApproval,
    ∃ x ∈ w.history, x.approves key human
  transport : ∀ key r, w.files key = some r → ∀ transport ∈ r.transportApproval,
    ∃ x ∈ w.history, x.authorizes key transport
  receipts : ∀ x ∈ w.history, ∀ permit receipt, x.completes permit receipt →
    ∃ r, w.files permit.record.toSyncKey = some r ∧ r.receipt = some receipt
  permits : ∀ x ∈ w.history, ∀ p, x.2.yields = some (.permit p) →
    p.record.holder = some (.permit p) ∧
    (∃ human, p.record.humanApproval = some human ∧ p.effectiveExpiresAt ≤ human.expiresAt) ∧
    ((∃ y ∈ w.history, y.releases p) ∨ p.effectiveExpiresAt ≤ w.clock ∨
      w.files p.record.toSyncKey = some p.record ∨
      ∃ r, w.files p.record.toSyncKey = some r ∧ r.receipt ≠ none)
  sound : History.Each PermitSound w.history
  fenced : History.Each PermitFenced w.history
  final : History.Each ReceiptFinal w.history

variable {K : StoredRequests} {files : Files} {turn : SyncTurn}

/-- A move that writes leaves the record with the handle it yields. -/
theorem SyncMove.holder {r : SyncRecord} {answer : SyncAnswer}
    (hm : SyncMove files turn (some r) answer) : r.holder = answer.yields := by
  cases hm with
  | prepared r hnew hhuman htransport hnone => exact hnone
  | approved a r hcall hr hkey hopen hdue => rfl
  | claimed r token expires hcall hr hclaimable => rfl
  | renewed lease r token expires hcall hr hheld => rfl
  | bound lease a r hcall hr hheld hkey =>
    obtain ⟨-, htoken, hexpires⟩ := holder_lease hheld
    simp [SyncRecord.holder, SyncRecord.bound, htoken, hexpires, SyncAnswer.yields]
  | begun lease r human transport effective hcall hr hheld hhuman htransport happroved hauthorized
      heffective hlive t ht =>
    subst ht
    rfl
  | retried authority r due code hcall hr hheld => rfl
  | completed permit r receipt hcall hr hheld => rfl

theorem SyncMove.quiet_yields {answer : SyncAnswer} (hm : SyncMove files turn none answer) :
    answer.yields = none ∧ answer ≠ .flag true := by
  cases hm with
  | quiet answer hquiet =>
    cases answer with
    | handle h =>
      have hnone : h = none := by simpa [SyncAnswer.succeeds] using hquiet
      exact ⟨hnone, nofun⟩
    | flag done =>
      cases done with
      | false => exact ⟨rfl, nofun⟩
      | true => cases hquiet
    | record r => exact ⟨rfl, nofun⟩
    | refused e => exact ⟨rfl, nofun⟩

/-- A move writes over no record, or over one that has no receipt and the same request. -/
theorem SyncMove.over {r : SyncRecord} {answer : SyncAnswer}
    (hm : SyncMove files turn (some r) answer) :
    files r.toSyncKey = none ∨ ∃ o, files r.toSyncKey = some o ∧ o.receipt = none ∧
      r.requestJson = o.requestJson := by
  cases hm with
  | prepared r hnew => exact .inl hnew
  | approved a r hcall hr hkey hopen hdue => exact .inr ⟨r, hr, hopen, rfl⟩
  | claimed r token expires hcall hr hclaimable =>
    have hopen := (of_decide_eq_true hclaimable).2.1
    exact .inr ⟨r, hr, by simpa using hopen, rfl⟩
  | renewed lease r token expires hcall hr hheld => exact .inr ⟨r, hr, (holder_spec hheld).1, rfl⟩
  | bound lease a r hcall hr hheld hkey => exact .inr ⟨r, hr, (holder_spec hheld).1, rfl⟩
  | begun lease r human transport effective hcall hr hheld hhuman htransport happroved hauthorized
      heffective hlive t ht =>
    subst ht
    exact .inr ⟨r, hr, (holder_spec hheld).1, rfl⟩
  | retried authority r due code hcall hr hheld => exact .inr ⟨r, hr, (holder_spec hheld).1, rfl⟩
  | completed permit r receipt hcall hr hheld => exact .inr ⟨r, hr, (holder_spec hheld).1, rfl⟩

/-- A call that succeeds with a handle presents the one that stands for a record. -/
theorem SyncMove.presents {written : Option SyncRecord} {answer : SyncAnswer} {h : Handle}
    (hm : SyncMove files turn written answer) (hh : turn.call.presents = some h)
    (hs : answer.succeeds = true) : ∃ r, files r.toSyncKey = some r ∧ r.holder = some h := by
  cases hm with
  | quiet answer hquiet =>
    rw [hs] at hquiet
    cases hquiet
  | prepared => cases hs
  | approved => cases hs
  | claimed r token expires hcall hr hclaimable =>
    rw [hcall] at hh
    cases hh
  | renewed lease r token expires hcall hr hheld =>
    rw [hcall] at hh
    cases hh
    exact ⟨r, hr, hheld⟩
  | bound lease a r hcall hr hheld hkey =>
    rw [hcall] at hh
    cases hh
    exact ⟨r, hr, hheld⟩
  | begun lease r human transport effective hcall hr hheld =>
    rw [hcall] at hh
    cases hh
    exact ⟨r, hr, hheld⟩
  | retried authority r due code hcall hr hheld =>
    rw [hcall] at hh
    cases hh
    exact ⟨r, hr, hheld⟩
  | completed permit r receipt hcall hr hheld =>
    rw [hcall] at hh
    cases hh
    exact ⟨r, hr, hheld⟩

/-- The human approval of a written record was there before, or is given now. -/
theorem SyncMove.human {r : SyncRecord} {answer : SyncAnswer}
    (hm : SyncMove files turn (some r) answer) {human : StoredHumanApproval}
    (hhuman : human ∈ r.humanApproval) :
    (∃ o, files r.toSyncKey = some o ∧ human ∈ o.humanApproval) ∨
      SyncEntry.approves r.toSyncKey human (turn, answer) := by
  cases hm with
  | prepared r hnew hnone =>
    rw [hnone] at hhuman
    cases hhuman
  | approved a r hcall hr hkey hopen hdue =>
    exact .inr ⟨a, _, hcall, rfl, hkey.symm, (Option.some.inj hhuman).symm⟩
  | claimed r token expires hcall hr hclaimable => exact .inl ⟨r, hr, hhuman⟩
  | renewed lease r token expires hcall hr hheld => exact .inl ⟨r, hr, hhuman⟩
  | bound lease a r hcall hr hheld hkey => exact .inl ⟨r, hr, hhuman⟩
  | begun lease r human' transport effective hcall hr hheld hh htransport happroved hauthorized
      heffective hlive t ht =>
    subst ht
    exact .inl ⟨r, hr, hhuman⟩
  | retried authority r due code hcall hr hheld => exact .inl ⟨r, hr, hhuman⟩
  | completed permit r receipt hcall hr hheld => exact .inl ⟨r, hr, hhuman⟩

/-- The transport approval of a written record was there before, or is given now. -/
theorem SyncMove.transport {r : SyncRecord} {answer : SyncAnswer}
    (hm : SyncMove files turn (some r) answer) {transport : StoredTransportApproval}
    (htransport : transport ∈ r.transportApproval) :
    (∃ o, files r.toSyncKey = some o ∧ transport ∈ o.transportApproval) ∨
      SyncEntry.authorizes r.toSyncKey transport (turn, answer) := by
  cases hm with
  | prepared r hnew hhuman hnone =>
    rw [hnone] at htransport
    cases htransport
  | approved a r hcall hr hkey hopen hdue => cases htransport
  | claimed r token expires hcall hr hclaimable => cases htransport
  | renewed lease r token expires hcall hr hheld =>
    exact .inl ⟨r, hr, (Option.filter_eq_some_iff.mp htransport).1⟩
  | bound lease a r hcall hr hheld hkey =>
    exact .inr ⟨lease, a, _, hcall, rfl, hkey, (Option.some.inj htransport).symm⟩
  | begun lease r human transport' effective hcall hr hheld hh ht' happroved hauthorized
      heffective hlive t ht =>
    subst ht
    exact .inl ⟨r, hr, htransport⟩
  | retried authority r due code hcall hr hheld => cases htransport
  | completed permit r receipt hcall hr hheld => exact .inl ⟨r, hr, htransport⟩

/-- Whatever is written over a transmission gives its permit back, comes after its end or stores
its receipt. -/
theorem SyncMove.ends {r : SyncRecord} {answer : SyncAnswer} {p : SyncTransmissionPermit}
    (hm : SyncMove files turn (some r) answer) (hfile : files r.toSyncKey = some p.record)
    (hheld : p.record.holder = some (.permit p)) {human : StoredHumanApproval}
    (hhuman : p.record.humanApproval = some human) (hle : p.effectiveExpiresAt ≤ human.expiresAt) :
    SyncEntry.releases p (turn, answer) ∨ p.effectiveExpiresAt ≤ turn.now ∨ r.receipt ≠ none := by
  have hnolease : ∀ {o lease}, files o.toSyncKey = some o → o.toSyncKey = r.toSyncKey →
      o.holder = some (.lease lease) → False := by
    intro o lease ho hkey hlease
    rw [hkey, hfile] at ho
    rw [← Option.some.inj ho, hheld] at hlease
    cases hlease
  cases hm with
  | prepared r hnew =>
    rw [hfile] at hnew
    cases hnew
  | approved a o hcall ho hkey hopen hdue =>
    obtain rfl := Option.some.inj (ho.symm.trans hfile)
    exact .inr (.inl (hle.trans (hdue human hhuman)))
  | claimed o token expires hcall ho hclaimable =>
    obtain rfl := Option.some.inj (ho.symm.trans hfile)
    refine .inr (.inl ?_)
    obtain ⟨t, ht, heffective⟩ := holder_permit hheld
    have hover := (of_decide_eq_true hclaimable).2.2.1
    rw [ht, Option.all_some, decide_eq_true_eq] at hover
    exact heffective.trans_le hover
  | renewed lease o token expires hcall ho hlease => exact (hnolease ho rfl hlease).elim
  | bound lease a o hcall ho hlease hkey => exact (hnolease ho rfl hlease).elim
  | begun lease o human' transport effective hcall ho hlease hh htransport happroved hauthorized
      heffective hlive t ht =>
    subst ht
    exact (hnolease ho rfl hlease).elim
  | retried authority o due code hcall ho hauthority =>
    obtain rfl := Option.some.inj (ho.symm.trans hfile)
    rw [hheld] at hauthority
    cases hauthority
    exact .inl ⟨⟨due, code, hcall⟩, rfl⟩
  | completed permit o receipt hcall ho hpermit => exact .inr (.inr nofun)

/-! ### One turn -/

@[simp] theorem write_same (r : SyncRecord) : (files.write (some r)) r.toSyncKey = some r :=
  if_pos rfl

/-- A file after a write is the record written, or an old file of another key. -/
theorem write_cases {r o : SyncRecord} {key : SyncKey} (h : (files.write (some r)) key = some o) :
    (key = r.toSyncKey ∧ o = r) ∨ (key ≠ r.toSyncKey ∧ files key = some o) := by
  by_cases hkey : key = r.toSyncKey
  · have hsame : (files.write (some r)) key = some r := if_pos hkey
    exact .inl ⟨hkey, Option.some.inj (h.symm.trans hsame)⟩
  · have hold : (files.write (some r)) key = files key := if_neg hkey
    exact .inr ⟨hkey, hold.symm.trans h⟩

theorem write_other {r : SyncRecord} {key : SyncKey} (hne : key ≠ r.toSyncKey) :
    (files.write (some r)) key = files key := if_neg hne

theorem SyncInv.quiet {w : SyncWorld} (hi : SyncInv w) {answer : SyncAnswer}
    (hclock : w.clock ≤ turn.now) (hyields : answer.yields = none) (hflag : answer ≠ .flag true) :
    SyncInv ⟨w.files, turn.now, w.history ++ [(turn, answer)]⟩ where
  keys := hi.keys
  holder key r hr h hheld := by
    have hissues : SyncEntry.issues key (turn, answer) = none := by
      rw [SyncEntry.issues, hyields, Option.filter_none]
    rw [newestHandle, History.newest_concat, hissues, Option.none_or]
    exact hi.holder key r hr h hheld
  human key r hr human hhuman := by
    obtain ⟨x, hx, happroves⟩ := hi.human key r hr human hhuman
    exact ⟨x, List.mem_append_left _ hx, happroves⟩
  transport key r hr transport htransport := by
    obtain ⟨x, hx, hauthorizes⟩ := hi.transport key r hr transport htransport
    exact ⟨x, List.mem_append_left _ hx, hauthorizes⟩
  receipts x hx permit receipt hcompletes := by
    rcases List.mem_append.mp hx with hx | hx
    · exact hi.receipts x hx permit receipt hcompletes
    · rw [List.mem_singleton.mp hx] at hcompletes
      exact absurd hcompletes.2 hflag
  permits x hx p hp := by
    rcases List.mem_append.mp hx with hx | hx
    · obtain ⟨hheld, hhuman, hstate⟩ := hi.permits x hx p hp
      refine ⟨hheld, hhuman, ?_⟩
      rcases hstate with ⟨y, hy, hreleases⟩ | hover | hfile
      · exact .inl ⟨y, List.mem_append_left _ hy, hreleases⟩
      · exact .inr (.inl (hover.trans hclock))
      · exact .inr (.inr hfile)
    · rw [List.mem_singleton.mp hx, hyields] at hp
      cases hp
  sound := History.each_concat.mpr ⟨hi.sound, fun p hp => by
    rw [hyields] at hp
    cases hp⟩
  fenced := History.each_concat.mpr ⟨hi.fenced, fun q hq => by
    rw [hyields] at hq
    cases hq⟩
  final := by
    refine History.each_concat.mpr ⟨hi.final, fun x _ permit receipt _ => ⟨fun h hh => ?_, ?_⟩⟩
    · rw [hyields] at hh
      cases hh
    · intro permit' receipt' hcompletes
      exact absurd hcompletes.2 hflag

theorem SyncMove.yields_key {r : SyncRecord} {answer : SyncAnswer} {h : Handle}
    (hm : SyncMove files turn (some r) answer) (hh : answer.yields = some h) :
    h.key = r.toSyncKey :=
  congrArg SyncRecord.toSyncKey (holder_spec (hm.holder.trans hh)).2

theorem SyncMove.completes {r : SyncRecord} {answer : SyncAnswer} {permit : SyncTransmissionPermit}
    {receipt : Receipt} (hm : SyncMove files turn (some r) answer)
    (hc : SyncEntry.completes permit receipt (turn, answer)) :
    permit.record.toSyncKey = r.toSyncKey ∧ r.receipt = some receipt := by
  obtain ⟨hcall, hflag⟩ := hc
  dsimp only at hcall hflag
  cases hm with
  | completed p o c hcall' ho hheld =>
    rw [hcall] at hcall'
    cases hcall'
    have hrecord : permit.record = o := (holder_spec hheld).2
    rw [hrecord]
    exact ⟨rfl, rfl⟩
  | retried authority o due code hcall' =>
    rw [hcall] at hcall'
    cases hcall'
  | _ => cases hflag

/-- What a turn that yields a permit has found and written. -/
structure Begins (files : Files) (turn : SyncTurn) (r : SyncRecord) (p : SyncTransmissionPermit)
    (lease : SyncLease) (o : SyncRecord) (human : StoredHumanApproval)
    (transport : StoredTransportApproval) : Prop where
  call : turn.call = .begin lease
  file : files o.toSyncKey = some o
  held : o.holder = some (.lease lease)
  key : r.toSyncKey = o.toSyncKey
  begunAt : p.begunAt = turn.now
  humanKept : o.humanApproval = some human ∧ r.humanApproval = some human
  transportKept : o.transportApproval = some transport ∧ r.transportApproval = some transport
  approved : human.approvedAt ≤ turn.now
  authorized : transport.approvedAt ≤ turn.now
  live : turn.now < p.effectiveExpiresAt
  effective : p.effectiveExpiresAt =
    min (min human.expiresAt transport.expiresAt) lease.leaseExpiresAt

theorem SyncMove.begins {r : SyncRecord} {answer : SyncAnswer} {p : SyncTransmissionPermit}
    (hm : SyncMove files turn (some r) answer) (hp : answer.yields = some (.permit p)) :
    ∃ lease o human transport, Begins files turn r p lease o human transport := by
  cases hm with
  | begun lease o human transport effective hcall ho hheld hhuman htransport happroved hauthorized
      heffective hlive t ht =>
    subst ht
    cases hp
    exact ⟨lease, o, human, transport, hcall, ho, hheld, rfl, rfl, ⟨hhuman, hhuman⟩,
      ⟨htransport, htransport⟩, happroved, hauthorized, hlive, heffective⟩
  | _ => cases hp

section Write
variable {w : SyncWorld} {r : SyncRecord} {answer : SyncAnswer}

theorem SyncMove.closed (hm : SyncMove files turn (some r) answer) {key : SyncKey} {o : SyncRecord}
    (ho : files key = some o) (hreceipt : o.receipt ≠ none) : key ≠ r.toSyncKey := by
  rintro rfl
  rcases hm.over with hnone | ⟨o', ho', hopen, -⟩
  · rw [hnone] at ho
    cases ho
  · rw [ho'] at ho
    exact hreceipt (Option.some.inj ho ▸ hopen)

theorem SyncInv.holder_write (hi : SyncInv w) (hm : SyncMove w.files turn (some r) answer)
    {key : SyncKey} {o : SyncRecord} (ho : (w.files.write (some r)) key = some o) {h : Handle}
    (hheld : o.holder = some h) : newestHandle (w.history ++ [(turn, answer)]) key = some h := by
  rw [newestHandle, History.newest_concat]
  rcases write_cases ho with ⟨rfl, rfl⟩ | ⟨hne, ho⟩
  · have hyields : answer.yields = some h := hm.holder.symm.trans hheld
    have hissues : SyncEntry.issues o.toSyncKey (turn, answer) = some h := by
      rw [SyncEntry.issues, hyields, Option.filter_some, if_pos]
      exact decide_eq_true (hm.yields_key hyields)
    rw [hissues, Option.some_or]
  · have hissues : SyncEntry.issues key (turn, answer) = none := by
      rw [SyncEntry.issues, Option.filter_eq_none_iff]
      intro h' hh'
      rw [hm.yields_key hh']
      simpa using fun hsame => hne hsame.symm
    rw [hissues, Option.none_or]
    exact hi.holder key o ho h hheld

theorem SyncInv.human_write (hi : SyncInv w) (hm : SyncMove w.files turn (some r) answer)
    {key : SyncKey} {o : SyncRecord} (ho : (w.files.write (some r)) key = some o)
    {human : StoredHumanApproval} (hhuman : human ∈ o.humanApproval) :
    ∃ x ∈ w.history ++ [(turn, answer)], x.approves key human := by
  have hold : ∀ {key o}, w.files key = some o → human ∈ o.humanApproval →
      ∃ x ∈ w.history ++ [(turn, answer)], x.approves key human := by
    intro key o ho hhuman
    obtain ⟨x, hx, happroves⟩ := hi.human key o ho human hhuman
    exact ⟨x, List.mem_append_left _ hx, happroves⟩
  rcases write_cases ho with ⟨rfl, rfl⟩ | ⟨hne, ho⟩
  · rcases hm.human hhuman with ⟨o, ho, hhuman⟩ | hnew
    · exact hold ho hhuman
    · exact ⟨_, List.mem_append_right _ (List.mem_singleton.mpr rfl), hnew⟩
  · exact hold ho hhuman

theorem SyncInv.transport_write (hi : SyncInv w) (hm : SyncMove w.files turn (some r) answer)
    {key : SyncKey} {o : SyncRecord} (ho : (w.files.write (some r)) key = some o)
    {transport : StoredTransportApproval} (htransport : transport ∈ o.transportApproval) :
    ∃ x ∈ w.history ++ [(turn, answer)], x.authorizes key transport := by
  have hold : ∀ {key o}, w.files key = some o → transport ∈ o.transportApproval →
      ∃ x ∈ w.history ++ [(turn, answer)], x.authorizes key transport := by
    intro key o ho htransport
    obtain ⟨x, hx, hauthorizes⟩ := hi.transport key o ho transport htransport
    exact ⟨x, List.mem_append_left _ hx, hauthorizes⟩
  rcases write_cases ho with ⟨rfl, rfl⟩ | ⟨hne, ho⟩
  · rcases hm.transport htransport with ⟨o, ho, htransport⟩ | hnew
    · exact hold ho htransport
    · exact ⟨_, List.mem_append_right _ (List.mem_singleton.mpr rfl), hnew⟩
  · exact hold ho htransport

theorem SyncInv.receipts_write (hi : SyncInv w) (hm : SyncMove w.files turn (some r) answer)
    {x : SyncEntry} (hx : x ∈ w.history ++ [(turn, answer)]) {permit : SyncTransmissionPermit}
    {receipt : Receipt} (hcompletes : x.completes permit receipt) :
    ∃ o, (w.files.write (some r)) permit.record.toSyncKey = some o ∧ o.receipt = some receipt := by
  rcases List.mem_append.mp hx with hx | hx
  · obtain ⟨o, ho, hreceipt⟩ := hi.receipts x hx permit receipt hcompletes
    have hne := hm.closed ho (by rw [hreceipt]; nofun)
    exact ⟨o, (write_other hne).trans ho, hreceipt⟩
  · rw [List.mem_singleton.mp hx] at hcompletes
    obtain ⟨hkey, hreceipt⟩ := hm.completes hcompletes
    rw [hkey]
    exact ⟨r, write_same r, hreceipt⟩

/-- An old permit has been given back, is over, or is the one of the record. -/
theorem SyncInv.permits_write (hi : SyncInv w) (hclock : w.clock ≤ turn.now)
    (hm : SyncMove w.files turn (some r) answer) {x : SyncEntry} (hx : x ∈ w.history)
    {p : SyncTransmissionPermit} (hp : x.2.yields = some (.permit p)) :
    (∃ y ∈ w.history ++ [(turn, answer)], y.releases p) ∨ p.effectiveExpiresAt ≤ turn.now ∨
      (w.files.write (some r)) p.record.toSyncKey = some p.record ∨
      ∃ o, (w.files.write (some r)) p.record.toSyncKey = some o ∧ o.receipt ≠ none := by
  obtain ⟨hheld, ⟨human, hhuman, hle⟩, hstate⟩ := hi.permits x hx p hp
  rcases hstate with ⟨y, hy, hreleases⟩ | hover | hfile | ⟨o, ho, hreceipt⟩
  · exact .inl ⟨y, List.mem_append_left _ hy, hreleases⟩
  · exact .inr (.inl (hover.trans hclock))
  · by_cases hkey : p.record.toSyncKey = r.toSyncKey
    · rw [hkey] at hfile ⊢
      rcases hm.ends hfile hheld hhuman hle with hreleases | hover | hreceipt
      · exact .inl ⟨_, List.mem_append_right _ (List.mem_singleton.mpr rfl), hreleases⟩
      · exact .inr (.inl hover)
      · exact .inr (.inr (.inr ⟨r, write_same r, hreceipt⟩))
    · exact .inr (.inr (.inl ((write_other hkey).trans hfile)))
  · exact .inr (.inr (.inr ⟨o, (write_other (hm.closed ho hreceipt)).trans ho, hreceipt⟩))

theorem SyncInv.sound_write (hi : SyncInv w) (hm : SyncMove w.files turn (some r) answer) :
    PermitSound w.history (turn, answer) := by
  intro p hp
  obtain ⟨lease, o, human, transport, hb⟩ := hm.begins hp
  have hrecord : p.record = r := (holder_spec (hm.holder.trans hp)).2
  have hlease : lease.record = o := (holder_spec hb.held).2
  have hle : p.effectiveExpiresAt ≤ min human.expiresAt transport.expiresAt :=
    hb.effective ▸ min_le_left _ _
  rw [hrecord, hb.key]
  refine ⟨lease, human, transport, hb.call, hb.begunAt, hi.holder _ o hb.file _
    hb.held, hlease ▸ rfl,
    hb.humanKept.2, hb.transportKept.2, hi.human _ o hb.file human hb.humanKept.1,
    hi.transport _ o hb.file transport hb.transportKept.1, ?_, ?_, ?_, hle.trans (min_le_left _ _),
    hle.trans (min_le_right _ _), hb.effective ▸ min_le_right _ _⟩
  · exact hb.begunAt ▸ hb.approved
  · exact hb.begunAt ▸ hb.authorized
  · exact hb.begunAt ▸ hb.live

theorem SyncInv.fenced_write (hi : SyncInv w) (hclock : w.clock ≤ turn.now)
    (hm : SyncMove w.files turn (some r) answer) : PermitFenced w.history (turn, answer) := by
  intro q hq x hx p hp hkey
  obtain ⟨lease, o, human, transport, hb⟩ := hm.begins hq
  have hrecord : q.record = r := (holder_spec (hm.holder.trans hq)).2
  rw [hrecord, hb.key] at hkey
  obtain ⟨hheld, -, hstate⟩ := hi.permits x hx p hp
  rw [hkey, hb.file] at hstate
  rcases hstate with hreleased | hover | hsame | ⟨o', ho', hreceipt⟩
  · exact .inl hreleased
  · exact .inr (hb.begunAt ▸ hover.trans hclock)
  · -- a lease stands for the record that is begun
    rw [← Option.some.inj hsame, hb.held] at hheld
    cases hheld
  · rw [← Option.some.inj ho'] at hreceipt
    exact absurd (holder_spec hb.held).1 hreceipt

theorem SyncInv.final_write (hi : SyncInv w) (hm : SyncMove w.files turn (some r) answer) :
    ReceiptFinal w.history (turn, answer) := by
  intro x hx permit receipt hcompletes
  obtain ⟨o, ho, hreceipt⟩ := hi.receipts x hx permit receipt hcompletes
  have hne := hm.closed ho (by rw [hreceipt]; nofun)
  constructor
  · intro h hh hkey
    exact hne (hkey.symm.trans (hm.yields_key hh))
  · intro permit' receipt' hcompletes' hkey
    exact hne (hkey.symm.trans (hm.completes hcompletes').1)

theorem SyncInv.write (hi : SyncInv w) (hclock : w.clock ≤ turn.now)
    (hm : SyncMove w.files turn (some r) answer) :
    SyncInv ⟨w.files.write (some r), turn.now, w.history ++ [(turn, answer)]⟩ where
  keys key o ho := by
    rcases write_cases ho with ⟨rfl, rfl⟩ | ⟨-, ho⟩
    · rfl
    · exact hi.keys key o ho
  holder key o ho h hheld := hi.holder_write hm ho hheld
  human key o ho human hhuman := hi.human_write hm ho hhuman
  transport key o ho transport htransport := hi.transport_write hm ho htransport
  receipts x hx permit receipt hcompletes := hi.receipts_write hm hx hcompletes
  permits x hx p hp := by
    rcases List.mem_append.mp hx with hx | hx
    · obtain ⟨hheld, hhuman, -⟩ := hi.permits x hx p hp
      exact ⟨hheld, hhuman, hi.permits_write hclock hm hx hp⟩
    · rw [List.mem_singleton.mp hx] at hp
      obtain ⟨lease, o, human, transport, hb⟩ := hm.begins hp
      have hheld : r.holder = some (.permit p) := hm.holder.trans hp
      have hrecord : p.record = r := (holder_spec hheld).2
      rw [hrecord]
      refine ⟨hheld, ⟨human, hb.humanKept.2, ?_⟩, .inr (.inr (.inl (write_same r)))⟩
      rw [hb.effective]
      exact (min_le_left _ _).trans (min_le_left _ _)
  sound := History.each_concat.mpr ⟨hi.sound, hi.sound_write hm⟩
  fenced := History.each_concat.mpr ⟨hi.fenced, hi.fenced_write hclock hm⟩
  final := History.each_concat.mpr ⟨hi.final, hi.final_write hm⟩

end Write

/-! ### Runs -/

theorem syncInv_empty : SyncInv {} where
  keys _ _ h := absurd h (Option.some_ne_none _).symm
  holder _ _ h := absurd h (Option.some_ne_none _).symm
  human _ _ h := absurd h (Option.some_ne_none _).symm
  transport _ _ h := absurd h (Option.some_ne_none _).symm
  receipts _ h := absurd h List.not_mem_nil
  permits _ h := absurd h List.not_mem_nil
  sound := History.each_nil
  fenced := History.each_nil
  final := History.each_nil

theorem SyncInv.reachable {w : SyncWorld} (hw : (syncQueue K).Reachable w) : SyncInv w := by
  refine Transition.invariant (syncQueue K) ?_ ?_ hw
  · rintro _ rfl
    exact syncInv_empty
  · rintro w turn _ hi ⟨hclock, rfl⟩
    have hm := respond_move K w.files turn
    unfold SyncWorld.take
    cases hwritten : (turn.respond K w.files).1 with
    | none =>
      rw [hwritten] at hm
      obtain ⟨hyields, hflag⟩ := hm.quiet_yields
      exact hi.quiet hclock hyields hflag
    | some r =>
      rw [hwritten] at hm
      exact hi.write hclock hm

/-- A step keeps the request of a record, and a record with a receipt. -/
theorem syncQueue_files {w v : SyncWorld} {turn : SyncTurn} (h : (syncQueue K).step w turn v)
    {key : SyncKey} {r : SyncRecord} (hr : w.files key = some r) :
    ∃ t, v.files key = some t ∧ t.requestJson = r.requestJson ∧ (r.receipt ≠ none → t = r) := by
  obtain ⟨-, rfl⟩ := h
  have hm := respond_move K w.files turn
  unfold SyncWorld.take
  cases hwritten : (turn.respond K w.files).1 with
  | none => exact ⟨r, hr, rfl, fun _ => rfl⟩
  | some t =>
    rw [hwritten] at hm
    by_cases hkey : key = t.toSyncKey
    · subst hkey
      rcases hm.over with hnone | ⟨o, ho, hopen, hrequest⟩
      · rw [hnone] at hr
        cases hr
      · obtain rfl := Option.some.inj (ho.symm.trans hr)
        exact ⟨t, write_same t, hrequest, fun hreceipt => absurd hopen hreceipt⟩
    · exact ⟨r, (write_other hkey).trans hr, rfl, fun _ => rfl⟩

theorem syncQueue_later {w v : SyncWorld} (hw : (syncQueue K).Reachable w)
    (hv : (syncQueue K).Later w v) : ∀ key r, w.files key = some r →
      ∃ t, v.files key = some t ∧ t.requestJson = r.requestJson ∧ (r.receipt ≠ none → t = r) := by
  refine (syncQueue K).later_rel
    (R := fun w v => ∀ key r, w.files key = some r →
      ∃ t, v.files key = some t ∧ t.requestJson = r.requestJson ∧ (r.receipt ≠ none → t = r))
    (fun w key r hr => ⟨r, hr, rfl, fun _ => rfl⟩) (fun w v u hwv hvu key r hr => ?_)
    (fun w turn v _ hstep key r hr => syncQueue_files hstep hr) hw hv
  obtain ⟨t, ht, hrequest, hsame⟩ := hwv key r hr
  obtain ⟨t', ht', hrequest', hsame'⟩ := hvu key t ht
  refine ⟨t', ht', hrequest'.trans hrequest, fun hreceipt => ?_⟩
  obtain rfl := hsame hreceipt
  exact hsame' hreceipt

theorem HandleWorks.newest {w : SyncWorld} {h : Handle} (hi : SyncInv w) (hh : HandleWorks K w h) :
    newestHandle w.history h.key = some h := by
  obtain ⟨turn, -, hpresents, hsucceeds⟩ := hh
  obtain ⟨r, hr, hheld⟩ := (respond_move K w.files turn).presents hpresents hsucceeds
  have hkey : h.key = r.toSyncKey := congrArg SyncRecord.toSyncKey (holder_spec hheld).2
  rw [hkey]
  exact hi.holder _ r hr h hheld

/-- Over every run of the sync queue only the newest handle of a record works, permits are within
their approvals and do not overlap, and a receipt is final; the request of a record
never changes. -/
theorem transmission_is_fenced {w : SyncWorld} (hw : (syncQueue K).Reachable w) :
    (∀ h, HandleWorks K w h → newestHandle w.history h.key = some h) ∧
    (∀ h h', HandleWorks K w h → HandleWorks K w h' → h.key = h'.key → h = h') ∧
    History.Each PermitFenced w.history ∧
    History.Each PermitSound w.history ∧
    History.Each ReceiptFinal w.history ∧
    (∀ x ∈ w.history, ∀ permit receipt, x.completes permit receipt →
      ∃ r, w.files permit.record.toSyncKey = some r ∧ r.receipt = some receipt) ∧
    ∀ v, (syncQueue K).Later w v → ∀ key r, w.files key = some r →
      ∃ t, v.files key = some t ∧ t.requestJson = r.requestJson ∧ (r.receipt ≠ none → t = r) := by
  have hi := SyncInv.reachable hw
  refine ⟨fun h hh => hh.newest hi, fun h h' hh hh' hkey => ?_, hi.fenced, hi.sound, hi.final,
    hi.receipts, fun v hv => syncQueue_later hw hv⟩
  have hnewest := hh.newest hi
  rw [hkey, hh'.newest hi] at hnewest
  exact (Option.some.inj hnewest).symm

section Sample

def hexText (start : String) (digit : Char) (length : ℕ) : String :=
  String.ofList (start.toList ++ List.replicate length digit)

theorem hexForm_hexText (start : String) {digit : Char} (length : ℕ)
    (h : digit.isDigit = true ∨ ('a' ≤ digit ∧ digit ≤ 'f')) :
    hexForm start length (hexText start digit length) = true := by
  simp only [hexForm, hexText, String.toList_ofList, List.take_left', List.drop_left',
    List.length_replicate, List.all_replicate]
  simp [h]

def sampleRequests : StoredRequests := fun _ _ _ => some "projection"

def sampleKey : SyncKey := ⟨hexText "ws_" 'a' 16, hexText "prj_" 'a' 32, hexText "" 'a' 64⟩

def leaseToken (digit : Char) : String := hexText "fsl_" digit 32

def permitToken (digit : Char) : String := hexText "fst_" digit 32

/-- A turn of a worker that draws tokens of one digit. -/
def syncTurn (digit : Char) (now : ℚ) (call : SyncCall) : SyncTurn where
  now := now
  config := ⟨30, by decide +kernel, by decide +kernel⟩
  draws := [leaseToken digit]
  permitToken := permitToken digit
  call := call

/-- An approval for the transport, given at a time and good for five minutes. -/
def transportOf (digit : Char) (given : ℚ) : TransportApproval :=
  ⟨sampleKey, hexText "fsauth_" digit 32, "user_1", given, given + 300⟩

theorem sample_texts : ∀ digit ∈ ['a', 'b'], isLeaseToken (leaseToken digit) = true ∧
    isPermitToken (permitToken digit) = true ∧
    isApprovalId (hexText "fsauth_" digit 32) = true := by
  have hforms : ∀ digit ∈ ['a', 'b'], digit.isDigit = true ∨ ('a' ≤ digit ∧ digit ≤ 'f') := by
    intro digit hdigit
    obtain rfl | rfl : digit = 'a' ∨ digit = 'b' := by simpa using hdigit
    · exact .inr (by decide)
    · exact .inr (by decide)
  exact fun digit hdigit => ⟨hexForm_hexText _ _ (hforms digit hdigit),
    hexForm_hexText _ _ (hforms digit hdigit), hexForm_hexText _ _ (hforms digit hdigit)⟩

theorem sampleKey_check : isWorkspace sampleKey.workspaceRef = true ∧
    sampleKey.check = .ok () := by
  have hform : 'a'.isDigit = true ∨ ('a' ≤ 'a' ∧ 'a' ≤ 'f') := by decide
  refine ⟨hexForm_hexText _ _ hform, ?_⟩
  simp only [SyncKey.check, sampleKey, pattern, isWorkspace, isProject, isDigest,
    hexForm_hexText _ _ hform]
  rfl

variable {files : Files} {r : SyncRecord} {digit : Char} {now expires : ℚ}

/-! What a file of the sample holds. -/

/-- A retry state is valid whose lease, if it has one, is of a worker. -/
theorem retry_sample {s : RetryState} (hattempts : s.attempts ≤ maxAttempts)
    (hnext : s.nextAttemptAt.all (0 ≤ ·) = true)
    (hcode : s.lastErrorCode.all (retryErrorCodes.contains ·) = true)
    (hsome : s.leaseToken.isSome = s.leaseExpiresAt.isSome)
    (hexpires : s.leaseExpiresAt.all (0 ≤ ·) = true)
    (htoken : ∀ token ∈ s.leaseToken, ∃ digit ∈ ['a', 'b'], token = leaseToken digit) :
    s.valid = true := by
  have hform : s.leaseToken.all isLeaseToken = true := by
    cases ht : s.leaseToken with
    | none => rfl
    | some token =>
      obtain ⟨digit, hdigit, rfl⟩ := htoken token ht
      exact (sample_texts digit hdigit).1
  simp only [RetryState.valid, hattempts, hnext, hcode, hsome, hform, hexpires, and_self,
    decide_true]

/-- The file of a record with approvals of the sample is read back. -/
theorem stored_sample (hkey : r.toSyncKey = sampleKey)
    (hhuman : r.humanApproval.all (·.valid) = true)
    (htransport : ∀ t ∈ r.transportApproval, ∃ digit ∈ ['a', 'b'], ∃ given, 0 ≤ given ∧
      t = (transportOf digit given).stored)
    (htransmission : ∀ t ∈ r.transmission, t.valid sampleKey.requestDigest = true ∧
      r.transmissionBound t = true)
    (hretry : r.retry.valid = true) (hreceipt : r.receipt = none)
    (hstage : r.stageValid = true) : storedValid sampleRequests sampleKey r = true := by
  have hgiven : r.transportApproval.all (·.valid sampleKey.requestDigest) = true := by
    cases ht : r.transportApproval with
    | none => rfl
    | some t =>
      obtain ⟨digit, hdigit, given, hgiven, rfl⟩ := htransport t ht
      have hlong : maxApprovalSeconds = 600 := by decide +kernel
      simp only [Option.all_some, StoredTransportApproval.valid, TransportApproval.stored,
        transportOf, (sample_texts digit hdigit).2.2, hgiven, decide_eq_true_eq, true_and,
        add_sub_cancel_left, hlong]
      exact ⟨lt_add_of_pos_right given (by decide), by decide⟩
  have hbegun : r.transmission.all (·.valid sampleKey.requestDigest) = true ∧
      r.transmission.all r.transmissionBound = true := by
    cases ht : r.transmission with
    | none => exact ⟨rfl, rfl⟩
    | some t => exact htransmission t ht
  simp only [storedValid, hkey, sampleKey_check, hhuman, hgiven, hbegun, hretry, hreceipt, hstage]
  simp [sampleRequests, accepts]

theorem readable_sample (h : files sampleKey = some r)
    (hvalid : storedValid sampleRequests sampleKey r = true) :
    readable sampleRequests files sampleKey = some r := by
  rw [readable, h, Option.filter_some, if_pos hvalid]

theorem read_sample (h : files sampleKey = some r)
    (hvalid : storedValid sampleRequests sampleKey r = true) :
    readRecord sampleRequests files sampleKey = .ok (some r) := by
  rw [readRecord, h]
  exact if_pos hvalid

/-! What each call of the sample writes and answers. -/

theorem claim_sample (h : files sampleKey = some r)
    (hvalid : storedValid sampleRequests sampleKey r = true) (hnow : 0 ≤ now)
    (hdigit : digit ∈ ['a', 'b']) (hclaimable : claimable now r = true)
    (hfree : r.retry.leaseToken = none) (hexpires : now + 30 = expires) :
    (syncTurn digit now (.claim sampleKey)).respond sampleRequests files =
      (some (r.claimed (leaseToken digit) expires), .handle (some (.lease
        ⟨leaseToken digit, expires, r.claimed (leaseToken digit) expires⟩))) := by
  subst hexpires
  have htoken : newLeaseToken [leaseToken digit] none = .ok (leaseToken digit) :=
    (bind_of_ok (passed (sample_texts digit hdigit).1) _).trans rfl
  have hlocked : claimLocked now (syncTurn digit now (.claim sampleKey)).config [leaseToken digit]
      r = .ok ⟨some (r.claimed (leaseToken digit) (now + 30)), some
        ⟨leaseToken digit, now + 30, r.claimed (leaseToken digit) (now + 30)⟩⟩ := by
    rw [claimLocked, if_pos hclaimable, hfree]
    exact (bind_of_ok htoken _).trans rfl
  have hclaim : claim sampleRequests files now (syncTurn digit now (.claim sampleKey)).config
      [leaseToken digit] sampleKey = .ok ⟨some (r.claimed (leaseToken digit) (now + 30)), some
        ⟨leaseToken digit, now + 30, r.claimed (leaseToken digit) (now + 30)⟩⟩ := by
    refine (bind_of_ok sampleKey_check.2 _).trans ?_
    rw [readable_sample h hvalid]
    exact (bind_of_ok (passed hnow) _).trans hlocked
  have hdraws : (syncTurn digit now (.claim sampleKey)).draws = [leaseToken digit] := rfl
  have htime : (syncTurn digit now (.claim sampleKey)).now = now := rfl
  have hcall : (syncTurn digit now (.claim sampleKey)).call = .claim sampleKey := rfl
  simp only [SyncTurn.respond, hcall, hdraws, htime, hclaim, reply, Option.map_some]

/-- A record of the sample under a lease that is live. -/
structure Leased (r : SyncRecord) (digit : Char) (now expires : ℚ) : Prop where
  stored : storedValid sampleRequests sampleKey r = true
  key : r.toSyncKey = sampleKey
  worker : digit ∈ ['a', 'b']
  token : r.retry.leaseToken = some (leaseToken digit)
  expiry : r.retry.leaseExpiresAt = some expires
  transmission : r.transmission = none
  receipt : r.receipt = none
  live : 0 ≤ now ∧ now < expires

theorem Leased.handle (h : Leased r digit now expires) :
    validateLeaseHandle ⟨leaseToken digit, expires, r⟩ = .ok () := by
  have hexpiry : 0 ≤ expires := (h.live.1.trans_lt h.live.2).le
  refine (bind_of_ok (passed (sample_texts digit h.worker).1) _).trans
    ((bind_of_ok (passed hexpiry) _).trans (passed ?_))
  simp [h.token, h.expiry, h.transmission]

theorem Leased.update (h : Leased r digit now expires) (hfile : files sampleKey = some r)
    (update : SyncRecord → Except QueueError (Option SyncRecord)) :
    updateLiveLease sampleRequests files now ⟨leaseToken digit, expires, r⟩ update = update r := by
  have hmatches : leaseMatches now r ⟨leaseToken digit, expires, r⟩ = true := by
    simp [leaseMatches, h.receipt, h.token, h.expiry, h.live.2]
  refine (bind_of_ok h.handle _).trans ?_
  rw [h.key, readable_sample hfile h.stored]
  refine (bind_of_ok (passed h.live.1) _).trans ?_
  rw [if_pos hmatches]

/-- An approval for the transport is taken while it and that of the human are live. -/
theorem bind_sample (h : Leased r digit now expires) (hfile : files sampleKey = some r)
    (hhuman : r.humanApproval.any (now < ·.expiresAt) = true) {given : ℚ}
    (hgiven : 0 ≤ given ∧ given ≤ now ∧ now < given + 300) :
    (syncTurn digit now (.bind ⟨leaseToken digit, expires, r⟩ (transportOf digit given))).respond
        sampleRequests files =
      (some (r.bound (transportOf digit given)), .handle (some (.lease
        ⟨leaseToken digit, expires, r.bound (transportOf digit given)⟩))) := by
  have hadmissible : transportAdmissible ⟨leaseToken digit, expires, r⟩
      (transportOf digit given) = true := by
    have hid : isApprovalId (transportOf digit given).approvalId = true :=
      (sample_texts digit h.worker).2.2
    have hby : ¬ ("user_1" = "" ∨ 256 < "user_1".length ∨
        "user_1".toList.any (·.toNat < 32) = true) := by decide +kernel
    have hlong : ¬ (given + 300 ≤ given ∨ maxApprovalSeconds < given + 300 - given) := by
      have : maxApprovalSeconds = 600 := by decide +kernel
      rw [this, add_sub_cancel_left, not_or, not_le, not_lt]
      exact ⟨lt_add_of_pos_right given (by decide), by decide⟩
    have hkey : r.workspaceRef = sampleKey.workspaceRef ∧ r.projectRef = sampleKey.projectRef ∧
        r.requestDigest = sampleKey.requestDigest := by
      rw [← h.key]
      exact ⟨rfl, rfl, rfl⟩
    rw [transportAdmissible, hid, decide_eq_true_eq, hkey.1, hkey.2.1, hkey.2.2]
    rintro (h | h | h | h | h | h | h | h)
    · exact h rfl
    · exact h rfl
    · exact h rfl
    · cases h
    · exact hby (.inl h)
    · exact hby (.inr (.inl h))
    · exact hby (.inr (.inr h))
    · exact hlong h
  have hbind : bindTransportApproval sampleRequests files now ⟨leaseToken digit, expires, r⟩
      (transportOf digit given) = .ok ⟨some (r.bound (transportOf digit given)), some
        ⟨leaseToken digit, expires, r.bound (transportOf digit given)⟩⟩ := by
    refine (bind_of_ok h.handle _).trans ((bind_of_ok (passed hgiven.1) _).trans
      ((bind_of_ok (passed (hgiven.1.trans (le_add_of_nonneg_right (by decide)))) _).trans
      ((bind_of_ok (passed hadmissible) _).trans ?_)))
    exact (bind_of_ok ((h.update hfile _).trans ((bind_of_ok (passed hhuman) _).trans
      ((bind_of_ok (passed hgiven.2) _).trans rfl))) _).trans rfl
  simp only [SyncTurn.respond, syncTurn, hbind, reply, Option.map_some]

/-- The record whose transmission is begun, until the lease or an approval expires. -/
def SyncRecord.sending (r : SyncRecord) (digit : Char) (now effective : ℚ) : SyncRecord :=
  { r with
    transmission := some
      ⟨permitToken digit, leaseToken digit, sampleKey.requestDigest, now, effective⟩ }

theorem begin_sample (h : Leased r digit now expires) (hfile : files sampleKey = some r)
    {human : StoredHumanApproval} (hhuman : r.humanApproval = some human)
    (happroved : human.approvedAt ≤ now ∧ now < human.expiresAt) {given : ℚ}
    (htransport : r.transportApproval = some (transportOf digit given).stored)
    (hgiven : given ≤ now ∧ now < given + 300) {effective : ℚ}
    (heffective : min (min human.expiresAt (given + 300)) expires = effective) :
    (syncTurn digit now (.begin ⟨leaseToken digit, expires, r⟩)).respond sampleRequests files =
      (some (r.sending digit now effective), .handle (some (.permit
        ⟨permitToken digit, now, effective, r.sending digit now effective⟩))) := by
  have hlive : now < effective :=
    heffective ▸ lt_min (lt_min happroved.2 hgiven.2) h.live.2
  have hdigest : r.requestDigest = sampleKey.requestDigest := congrArg SyncKey.requestDigest h.key
  have hbegun : beginUpdate now (permitToken digit) ⟨leaseToken digit, expires, r⟩ r =
      .ok (some (r.sending digit now effective)) := by
    have hstored : (transportOf digit given).stored.approvedAt ≤ now ∧
        now < (transportOf digit given).stored.expiresAt := hgiven
    have hmin : min (min human.expiresAt (transportOf digit given).stored.expiresAt) expires =
        effective := heffective
    simp only [beginUpdate, hhuman, htransport, Option.filter_some, happroved, hstored, h.expiry,
      and_self, decide_true, if_true, hmin, hdigest]
    refine (bind_of_ok (passed hlive) _).trans ?_
    simp only [SyncRecord.sending, h.receipt, hhuman, htransport]
    rfl
  have hbegin : beginTransmission sampleRequests files now (permitToken digit)
      ⟨leaseToken digit, expires, r⟩ = .ok ⟨some (r.sending digit now effective),
        some ⟨permitToken digit, now, effective, r.sending digit now effective⟩⟩ :=
    (bind_of_ok ((h.update hfile _).trans hbegun) _).trans rfl
  simp only [SyncTurn.respond, syncTurn, hbegin, reply, Option.map_some]

/-- A record of the sample while it is sent. -/
structure Sending (r : SyncRecord) (digit : Char) (begun effective : ℚ) : Prop where
  stored : storedValid sampleRequests sampleKey r = true
  key : r.toSyncKey = sampleKey
  worker : digit ∈ ['a', 'b']
  token : r.retry.leaseToken = some (leaseToken digit)
  transmission : r.transmission =
    some ⟨permitToken digit, leaseToken digit, sampleKey.requestDigest, begun, effective⟩
  receipt : r.receipt = none
  times : 0 ≤ begun ∧ 0 ≤ effective

variable {begun effective : ℚ}

theorem Sending.permit (h : Sending r digit begun effective) :
    validatePermitHandle ⟨permitToken digit, begun, effective, r⟩ = .ok () := by
  have hdigest : r.requestDigest = sampleKey.requestDigest := congrArg SyncKey.requestDigest h.key
  refine (bind_of_ok (passed (sample_texts digit h.worker).2.1) _).trans
    ((bind_of_ok (passed h.times.1) _).trans ((bind_of_ok (passed h.times.2) _).trans (passed ?_)))
  simp [h.transmission, h.token, hdigest]

theorem Sending.update (h : Sending r digit begun effective) (hfile : files sampleKey = some r)
    (hnow : 0 ≤ now) (update : SyncRecord → Except QueueError (Option SyncRecord)) :
    updateCurrentPermit sampleRequests files now ⟨permitToken digit, begun, effective, r⟩ update =
      update r := by
  have hmatches : permitMatches r ⟨permitToken digit, begun, effective, r⟩ = true := by
    simp [permitMatches, h.receipt, h.transmission]
  refine (bind_of_ok h.permit _).trans ?_
  rw [h.key, readable_sample hfile h.stored]
  refine (bind_of_ok (passed hnow) _).trans ?_
  rw [if_pos hmatches]

theorem retried_sample (h : Sending r digit begun effective) (hfile : files sampleKey = some r)
    {due : ℚ} (hdue : 0 ≤ now ∧ now ≤ due) {code : String} (hcode : code ∈ retryErrorCodes) :
    (syncTurn digit now (.retry (.permit ⟨permitToken digit, begun, effective, r⟩) due
        code)).respond sampleRequests files = (some (r.retried due code), .flag true) := by
  have hretry : scheduleRetry sampleRequests files now
      (.permit ⟨permitToken digit, begun, effective, r⟩) due code =
        .ok ⟨some (r.retried due code), true⟩ := by
    refine (bind_of_ok (passed (hdue.1.trans hdue.2)) _).trans
      ((bind_of_ok (passed hcode) _).trans ?_)
    exact (bind_of_ok ((h.update hfile hdue.1 _).trans
      ((bind_of_ok (passed hdue.2) _).trans rfl)) _).trans rfl
  simp only [SyncTurn.respond, syncTurn, hretry, reply]

def sampleReceipt : Receipt :=
  ⟨"receipt_1", sampleKey.projectRef, sampleKey.requestDigest, "projection", "review_1", true,
    "2026-08-01T00:00:00Z"⟩

/-- The receipt is stored of the permit that stands for the record, and of no other. -/
theorem complete_sample {current : SyncRecord} (h : Sending r digit begun effective)
    (hhuman : r.humanApproval.isSome = true) {given : ℚ} {giver : Char}
    (htransport : r.transportApproval = some (transportOf giver given).stored)
    (hfile : files sampleKey = some current)
    (hvalid : storedValid sampleRequests sampleKey current = true) (hnow : 0 ≤ now)
    (giver' : Char) :
    (syncTurn giver' now (.complete ⟨permitToken digit, begun, effective, r⟩
        (some sampleReceipt))).respond sampleRequests files =
      if current = r then (some (r.completed sampleReceipt), .flag true)
      else (none, .flag false) := by
  have hkeys : r.projectRef = sampleKey.projectRef ∧ r.requestDigest = sampleKey.requestDigest := by
    rw [← h.key]
    exact ⟨rfl, rfl⟩
  have hreceipt : (some sampleReceipt).filter (fun c => r.receiptBound sampleRequests c ∧
      r.transportApproval.all (·.requestDigest = r.requestDigest)) = some sampleReceipt := by
    have hbound : r.receiptBound sampleRequests sampleReceipt = true := by
      simp [SyncRecord.receiptBound, sampleReceipt, sampleRequests, hkeys]
    rw [Option.filter_some, htransport]
    simp [hbound, TransportApproval.stored, transportOf, hkeys]
  have hbegun : r.humanApproval.isSome ∧ r.transportApproval.isSome ∧ r.transmission.isSome := by
    simp [hhuman, htransport, h.transmission]
  have hmatches : permitMatches current ⟨permitToken digit, begun, effective, r⟩ =
      decide (current = r) := by
    rw [permitMatches, decide_eq_decide]
    refine ⟨And.left, fun hsame => ?_⟩
    subst hsame
    simp [h.receipt, h.transmission]
  have hupdate : updateCurrentPermit sampleRequests files now
      ⟨permitToken digit, begun, effective, r⟩ (fun current => do
        require (current.transportApproval.isSome ∧ current.transmission.isSome)
          (.valueError "completion requires a begun transmission")
        return some (current.completed sampleReceipt)) =
      .ok (if current = r then some (r.completed sampleReceipt) else none) := by
    refine (bind_of_ok h.permit _).trans ?_
    rw [h.key, readable_sample hfile hvalid]
    refine (bind_of_ok (passed hnow) _).trans ?_
    rw [hmatches]
    by_cases hsame : current = r
    · subst hsame
      simp only [decide_true, if_true]
      exact (bind_of_ok (passed hbegun.2) _).trans rfl
    · simp [hsame, pure, Except.pure]
  have hcomplete : complete sampleRequests files now ⟨permitToken digit, begun, effective, r⟩
      (some sampleReceipt) = .ok
        ⟨if current = r then some (r.completed sampleReceipt) else none, decide (current = r)⟩ := by
    refine (bind_of_ok h.permit _).trans ((bind_of_ok (passed hbegun) _).trans ?_)
    rw [hreceipt]
    refine (bind_of_ok hupdate _).trans ?_
    by_cases hsame : current = r <;> simp [hsame, pure, Except.pure]
  simp only [SyncTurn.respond, syncTurn, hcomplete, reply]
  by_cases hsame : current = r <;> simp [hsame]

/-! The run of the sample. -/

/-- The queue after some turns: what the file of the sample holds, and which turns succeeded. -/
structure Ran (w : SyncWorld) (r : SyncRecord) (clock : ℚ) (flags : List Bool) : Prop where
  reachable : (syncQueue sampleRequests).Reachable w
  file : w.files sampleKey = some r
  clock : w.clock = clock
  flags : w.history.map (·.2.succeeds) = flags

variable {w : SyncWorld} {clock : ℚ} {flags flags' : List Bool} {turn : SyncTurn}
  {t : SyncRecord} {answer : SyncAnswer}

theorem Ran.wrote (h : Ran w r clock flags) (hclock : clock ≤ turn.now)
    (hrespond : turn.respond sampleRequests w.files = (some t, answer))
    (hkey : t.toSyncKey = sampleKey) (hflags : flags ++ [answer.succeeds] = flags') :
    Ran (w.take sampleRequests turn) t turn.now flags' where
  reachable := .step h.reachable ⟨h.clock ▸ hclock, rfl⟩
  file := by
    simp only [SyncWorld.take, hrespond, Files.write, hkey, if_true]
  clock := rfl
  flags := by
    simp only [SyncWorld.take, hrespond, List.map_append, h.flags, List.map_cons, List.map_nil,
      hflags]

theorem Ran.read (h : Ran w r clock flags) (hclock : clock ≤ turn.now)
    (hrespond : turn.respond sampleRequests w.files = (none, answer))
    (hflags : flags ++ [answer.succeeds] = flags') :
    Ran (w.take sampleRequests turn) r turn.now flags' where
  reachable := .step h.reachable ⟨h.clock ▸ hclock, rfl⟩
  file := by
    simp only [SyncWorld.take, hrespond, Files.write, h.file]
  clock := rfl
  flags := by
    simp only [SyncWorld.take, hrespond, List.map_append, h.flags, List.map_cons, List.map_nil,
      hflags]

def preparedRecord : SyncRecord := { toSyncKey := sampleKey, requestJson := "json" }

def approvedRecord : SyncRecord := preparedRecord.approve 1 ⟨1, 601⟩

def claimedRecord : SyncRecord := approvedRecord.claimed (leaseToken 'a') 32

def boundRecord : SyncRecord := claimedRecord.bound (transportOf 'a' 2)

def begunRecord : SyncRecord := boundRecord.sending 'a' 4 32

/-- The first transmission failed, and its permit was given back. -/
def retriedRecord : SyncRecord := begunRecord.retried 6 "transport_error"

def reclaimedRecord : SyncRecord := retriedRecord.claimed (leaseToken 'b') 37

def reboundRecord : SyncRecord := reclaimedRecord.bound (transportOf 'b' 8)

def resentRecord : SyncRecord := reboundRecord.sending 'b' 9 37

def firstPermit : SyncTransmissionPermit := ⟨permitToken 'a', 4, 32, begunRecord⟩

def secondPermit : SyncTransmissionPermit := ⟨permitToken 'b', 9, 37, resentRecord⟩

/-- The calls of two workers on one record. -/
def sampleTurns : List SyncTurn :=
  [syncTurn 'a' 0 (.prepare (.ok ⟨sampleKey.projectRef, "json", sampleKey.requestDigest⟩)
      sampleKey.workspaceRef),
    syncTurn 'a' 1 (.approve ⟨sampleKey, 1, 601⟩), syncTurn 'a' 2 (.claim sampleKey),
    syncTurn 'a' 3 (.bind ⟨leaseToken 'a', 32, claimedRecord⟩ (transportOf 'a' 2)),
    syncTurn 'a' 4 (.begin ⟨leaseToken 'a', 32, boundRecord⟩),
    syncTurn 'a' 5 (.retry (.permit firstPermit) 6 "transport_error"),
    syncTurn 'b' 7 (.claim sampleKey),
    syncTurn 'b' 8 (.bind ⟨leaseToken 'b', 37, reclaimedRecord⟩ (transportOf 'b' 8)),
    syncTurn 'b' 9 (.begin ⟨leaseToken 'b', 37, reboundRecord⟩),
    syncTurn 'a' 10 (.complete firstPermit (some sampleReceipt)),
    syncTurn 'b' 11 (.complete secondPermit (some sampleReceipt))]

def sampleWorld (count : ℕ) : SyncWorld :=
  (sampleTurns.take count).foldl (fun w turn => w.take sampleRequests turn) {}

example : preparedRecord.stageValid = true ∧ boundRecord.stageValid = true := by decide +kernel

theorem preparedRecord_stored : storedValid sampleRequests sampleKey preparedRecord = true :=
  stored_sample rfl rfl (fun _ h => by cases h) (fun _ h => by cases h) (by decide +kernel) rfl
    (by decide)

theorem approvedRecord_stored : storedValid sampleRequests sampleKey approvedRecord = true :=
  stored_sample rfl (by decide +kernel) (fun _ h => by cases h) (fun _ h => by cases h)
    (by decide +kernel) rfl (by decide)

/-- A record of the sample that is approved, and whose lease is of a worker. -/
structure Working (r : SyncRecord) (digit : Char) (expires : ℚ) : Prop where
  key : r.toSyncKey = sampleKey
  human : r.humanApproval = some ⟨1, 601⟩
  transport : r.transportApproval = none ∨
    ∃ given, 0 ≤ given ∧ r.transportApproval = some (transportOf digit given).stored
  worker : digit ∈ ['a', 'b']
  attempts : r.retry.attempts ≤ maxAttempts
  next : ∃ due, 0 ≤ due ∧ r.retry.nextAttemptAt = some due
  code : r.retry.lastErrorCode.all (retryErrorCodes.contains ·) = true
  token : r.retry.leaseToken = some (leaseToken digit)
  expiry : r.retry.leaseExpiresAt = some expires
  positive : 0 ≤ expires
  receipt : r.receipt = none

theorem Working.stored (h : Working r digit expires)
    (htransmission : ∀ t ∈ r.transmission, t.valid sampleKey.requestDigest = true ∧
      r.transmissionBound t = true) : storedValid sampleRequests sampleKey r = true := by
  obtain ⟨due, hdue, hnext⟩ := h.next
  have hretry : r.retry.valid = true := by
    refine retry_sample h.attempts (by simpa [hnext] using hdue) h.code
      (by simp [h.token, h.expiry]) (by simpa [h.expiry] using h.positive)
      fun token htoken => ⟨digit, h.worker, ?_⟩
    exact Option.some.inj (htoken.symm.trans h.token)
  refine stored_sample h.key (by rw [h.human]; decide +kernel) (fun t ht => ?_) htransmission hretry
    h.receipt (by simp [SyncRecord.stageValid, h.human, h.receipt, hnext])
  rcases h.transport with hnone | ⟨given, hgiven, hsome⟩
  · rw [hnone] at ht
    cases ht
  · exact ⟨digit, h.worker, given, hgiven, Option.some.inj (ht.symm.trans hsome)⟩

theorem Working.leased (h : Working r digit expires) (hnone : r.transmission = none)
    (hlive : 0 ≤ now ∧ now < expires) : Leased r digit now expires where
  stored := h.stored fun t ht => by
    rw [hnone] at ht
    cases ht
  key := h.key
  worker := h.worker
  token := h.token
  expiry := h.expiry
  transmission := hnone
  receipt := h.receipt
  live := hlive

/-- The record is sent from a time on at which its approvals and its lease are live. -/
theorem Working.sending (h : Working r digit expires) (given : ℚ)
    (htransport : r.transportApproval = some (transportOf digit given).stored)
    (hnow : 1 ≤ now ∧ given ≤ now ∧ now < effective)
    (heffective : min (min 601 (given + 300)) expires = effective) :
    Sending (r.sending digit now effective) digit now effective where
  stored := by
    have hworking : Working (r.sending digit now effective) digit expires := { h with }
    refine hworking.stored fun t ht => ?_
    obtain rfl := Option.some.inj ht
    obtain ⟨hlease, hpermit, -⟩ := sample_texts digit h.worker
    have hzero : 0 ≤ now := zero_le_one.trans hnow.1
    constructor
    · simp [StoredTransmission.valid, hlease, hpermit, hzero, hnow.2.2]
    · simp [SyncRecord.transmissionBound, SyncRecord.sending, h.human, htransport, h.token,
        h.expiry, TransportApproval.stored, transportOf, hnow, heffective]
  key := h.key
  worker := h.worker
  token := h.token
  transmission := rfl
  receipt := h.receipt
  times := ⟨zero_le_one.trans hnow.1, (zero_le_one.trans hnow.1).trans hnow.2.2.le⟩

example : claimable 2 approvedRecord = true := by decide +kernel

theorem claimedRecord_working : Working claimedRecord 'a' 32 where
  key := rfl
  human := rfl
  transport := .inl rfl
  worker := by decide
  attempts := by decide +kernel
  next := ⟨1, by decide, rfl⟩
  code := rfl
  token := rfl
  expiry := rfl
  positive := by decide
  receipt := rfl

theorem boundRecord_working : Working boundRecord 'a' 32 :=
  { claimedRecord_working with transport := .inr ⟨2, by decide, rfl⟩ }

theorem begunRecord_sending : Sending begunRecord 'a' 4 32 :=
  boundRecord_working.sending 2 rfl (by decide +kernel) (by decide +kernel)

example : claimable 3 claimedRecord = false := by decide +kernel

theorem retriedRecord_stored : storedValid sampleRequests sampleKey retriedRecord = true :=
  stored_sample rfl (by decide +kernel) (fun _ h => by cases h) (fun _ h => by cases h)
    (retry_sample (by decide +kernel) (by decide +kernel) rfl rfl rfl fun _ h => by cases h) rfl
    (by decide)

theorem reclaimedRecord_working : Working reclaimedRecord 'b' 37 where
  key := rfl
  human := rfl
  transport := .inl rfl
  worker := by decide
  attempts := by decide +kernel
  next := ⟨6, by decide, rfl⟩
  code := rfl
  token := rfl
  expiry := rfl
  positive := by decide
  receipt := rfl

theorem reboundRecord_working : Working reboundRecord 'b' 37 :=
  { reclaimedRecord_working with transport := .inr ⟨8, by decide, rfl⟩ }

theorem resentRecord_sending : Sending resentRecord 'b' 9 37 :=
  reboundRecord_working.sending 8 rfl (by decide +kernel) (by decide +kernel)

example : begunRecord.stageValid = true ∧ resentRecord.stageValid = true := by decide +kernel

theorem prepare_sample (h : files sampleKey = none) :
    (syncTurn 'a' 0 (.prepare (.ok ⟨sampleKey.projectRef, "json", sampleKey.requestDigest⟩)
      sampleKey.workspaceRef)).respond sampleRequests files =
        (some preparedRecord, .record preparedRecord) := by
  have hread : readRecord sampleRequests files preparedRecord.toSyncKey = .ok none := by
    rw [readRecord, preparedRecord, h]
  have hprepare : prepare sampleRequests files (.ok ⟨sampleKey.projectRef, "json",
      sampleKey.requestDigest⟩) sampleKey.workspaceRef =
      .ok ⟨some preparedRecord, preparedRecord⟩ :=
    (bind_of_ok (passed sampleKey_check.1) _).trans
      ((bind_of_ok rfl _).trans ((bind_of_ok hread _).trans rfl))
  simp only [SyncTurn.respond, syncTurn, hprepare, reply]

theorem approve_sample (h : files sampleKey = some preparedRecord) :
    (syncTurn 'a' 1 (.approve ⟨sampleKey, 1, 601⟩)).respond sampleRequests files =
      (some approvedRecord, .record approvedRecord) := by
  have hhuman : validateHumanApproval 1 ⟨sampleKey, 1, 601⟩ preparedRecord = .ok ⟨1, 601⟩ := by
    refine (bind_of_ok (passed (by decide)) _).trans ((bind_of_ok (passed (by decide)) _).trans
      ((bind_of_ok (passed ?_) _).trans rfl))
    simp only [preparedRecord, ne_eq, not_true_eq_false, false_or]
    decide +kernel
  have happrove : recordHumanApproval sampleRequests files 1 ⟨sampleKey, 1, 601⟩ =
      .ok ⟨some approvedRecord, approvedRecord⟩ :=
    (bind_of_ok sampleKey_check.2 _).trans
      ((bind_of_ok (read_sample h preparedRecord_stored) _).trans
        ((bind_of_ok (passed (by decide)) _).trans ((bind_of_ok hhuman _).trans rfl)))
  simp only [SyncTurn.respond, syncTurn, happrove, reply]

theorem ran_approved : Ran (sampleWorld 2) approvedRecord 1 [false, false] := by
  have hprepared : Ran (sampleWorld 1) preparedRecord 0 [false] := by
    have hrespond := @prepare_sample (fun _ => none) rfl
    refine ⟨.step (.init rfl) ⟨le_refl _, rfl⟩, ?_, rfl, ?_⟩
    · simp only [sampleWorld, sampleTurns, List.take, List.foldl, SyncWorld.take, hrespond,
        Files.write]
      exact if_pos rfl
    · simp only [sampleWorld, sampleTurns, List.take, List.foldl, SyncWorld.take, hrespond]
      rfl
  exact hprepared.wrote (by decide) (approve_sample hprepared.file) rfl rfl

theorem ran_retried :
    Ran (sampleWorld 6) retriedRecord 5 [false, false, true, true, true, true] := by
  have hclaim := claim_sample ran_approved.file approvedRecord_stored (by decide)
    (by decide : 'a' ∈ ['a', 'b']) (by decide +kernel) rfl (by decide +kernel : (2 : ℚ) + 30 = 32)
  have hclaimed : Ran (sampleWorld 3) claimedRecord 2 [false, false, true] :=
    ran_approved.wrote (by decide) hclaim rfl rfl
  have hbind := bind_sample (claimedRecord_working.leased rfl
    (by decide +kernel : (0 : ℚ) ≤ 3 ∧ (3 : ℚ) < 32)) hclaimed.file (by decide +kernel)
    (by decide +kernel : (0 : ℚ) ≤ 2 ∧ (2 : ℚ) ≤ 3 ∧ (3 : ℚ) < 2 + 300)
  have hbound : Ran (sampleWorld 4) boundRecord 3 [false, false, true, true] :=
    hclaimed.wrote (by decide) hbind rfl rfl
  have hbegin := begin_sample (boundRecord_working.leased rfl
    (by decide +kernel : (0 : ℚ) ≤ 4 ∧ (4 : ℚ) < 32)) hbound.file rfl (by decide +kernel) rfl
    (by decide +kernel : (2 : ℚ) ≤ 4 ∧ (4 : ℚ) < 2 + 300)
    (by decide +kernel : min (min (601 : ℚ) (2 + 300)) 32 = 32)
  have hbegun : Ran (sampleWorld 5) begunRecord 4 [false, false, true, true, true] :=
    hbound.wrote (by decide) hbegin rfl rfl
  have hretry := retried_sample begunRecord_sending hbegun.file
    (by decide +kernel : (0 : ℚ) ≤ 5 ∧ (5 : ℚ) ≤ 6)
    (by decide : "transport_error" ∈ retryErrorCodes)
  exact hbegun.wrote (by decide) hretry rfl rfl

example : claimable 7 retriedRecord = true := by decide +kernel

/-- The second worker begins, and its permit is the newest handle. -/
theorem ran_resent :
    Ran (sampleWorld 9) resentRecord 9 [false, false, true, true, true, true, true, true, true] ∧
      newestHandle (sampleWorld 9).history sampleKey = some (.permit secondPermit) := by
  have hclaim := claim_sample ran_retried.file retriedRecord_stored (by decide)
    (by decide : 'b' ∈ ['a', 'b']) (by decide +kernel) rfl (by decide +kernel : (7 : ℚ) + 30 = 37)
  have hclaimed : Ran (sampleWorld 7) reclaimedRecord 7
      [false, false, true, true, true, true, true] :=
    ran_retried.wrote (by decide) hclaim rfl rfl
  have hbind := bind_sample (reclaimedRecord_working.leased rfl
    (by decide +kernel : (0 : ℚ) ≤ 8 ∧ (8 : ℚ) < 37)) hclaimed.file (by decide +kernel)
    (by decide +kernel : (0 : ℚ) ≤ 8 ∧ (8 : ℚ) ≤ 8 ∧ (8 : ℚ) < 8 + 300)
  have hbound : Ran (sampleWorld 8) reboundRecord 8
      [false, false, true, true, true, true, true, true] :=
    hclaimed.wrote (by decide) hbind rfl rfl
  have hbegin := begin_sample (reboundRecord_working.leased rfl
    (by decide +kernel : (0 : ℚ) ≤ 9 ∧ (9 : ℚ) < 37)) hbound.file rfl (by decide +kernel) rfl
    (by decide +kernel : (8 : ℚ) ≤ 9 ∧ (9 : ℚ) < 8 + 300)
    (by decide +kernel : min (min (601 : ℚ) (8 + 300)) 37 = 37)
  refine ⟨hbound.wrote (by decide) hbegin rfl rfl, ?_⟩
  have hlast : (sampleWorld 9).history = (sampleWorld 8).history ++
      [(syncTurn 'b' 9 (.begin ⟨leaseToken 'b', 37, reboundRecord⟩),
        .handle (some (.permit secondPermit)))] := by
    have hanswer := congrArg Prod.snd hbegin
    exact congrArg (fun answer => (sampleWorld 8).history ++ [(_, answer)]) hanswer
  have hissued : SyncEntry.issues sampleKey
      (syncTurn 'b' 9 (.begin ⟨leaseToken 'b', 37, reboundRecord⟩),
        .handle (some (.permit secondPermit))) = some (.permit secondPermit) := by
    rw [SyncEntry.issues, SyncAnswer.yields, Option.filter_some]
    exact if_pos (decide_eq_true rfl)
  rw [newestHandle, hlast, History.newest_concat, hissued]
  rfl

example : claimable 9 resentRecord = false := by decide +kernel

/-- The first permit completes nothing any more, and the second one does. -/
theorem ran_completed : Ran (sampleWorld 11) (resentRecord.completed sampleReceipt) 11
    [false, false, true, true, true, true, true, true, true, false, true] := by
  have hresent := ran_resent.1
  have happart : resentRecord ≠ begunRecord := by
    intro hsame
    have hattempts := congrArg (fun r => r.retry.attempts) hsame
    exact absurd hattempts (by decide)
  have hstale := complete_sample begunRecord_sending rfl rfl hresent.file
    resentRecord_sending.stored (by decide : (0 : ℚ) ≤ 10) 'a'
  rw [if_neg happart] at hstale
  have hrefused : Ran (sampleWorld 10) resentRecord 10
      [false, false, true, true, true, true, true, true, true, false] :=
    hresent.read (by decide) hstale rfl
  have hcomplete := complete_sample resentRecord_sending rfl rfl hrefused.file
    resentRecord_sending.stored (by decide : (0 : ℚ) ≤ 11) 'b'
  rw [if_pos rfl] at hcomplete
  exact hrefused.wrote (by decide) hcomplete rfl rfl

/-- A worker gives its permit back, and another sends and completes: while it sends, its permit is
the one handle that works. -/
theorem transmission_is_fenced_sample :
    (sampleWorld 11).history.map (·.2.succeeds) =
        [false, false, true, true, true, true, true, true, true, false, true] ∧
    (∀ h, HandleWorks sampleRequests (sampleWorld 9) h → h.key = sampleKey →
      h = .permit secondPermit) ∧
    History.Each PermitFenced (sampleWorld 11).history ∧
    ∀ v, (syncQueue sampleRequests).Later (sampleWorld 11) v →
      v.files sampleKey = some (resentRecord.completed sampleReceipt) := by
  obtain ⟨hnewest, -⟩ := transmission_is_fenced ran_resent.1.reachable
  obtain ⟨-, -, hfenced, -, -, -, hlater⟩ := transmission_is_fenced ran_completed.reachable
  refine ⟨ran_completed.flags, fun h hworks hkey => ?_, hfenced, fun v hv => ?_⟩
  · have hone := hnewest h hworks
    rw [hkey, ran_resent.2] at hone
    exact (Option.some.inj hone).symm
  · obtain ⟨t, ht, -, hsame⟩ := hlater v hv sampleKey _ ran_completed.file
    rw [ht, hsame (Option.some_ne_none _)]

end Sample

end Heel.SyncQueue
