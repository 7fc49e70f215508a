import Heel.Contracts.Json

/-! Signed containment records of `heel/runner/containment.py`: the event, `_validate_event`
and `verify_containment_chain`. -/
namespace Heel.Containment
open Lib.Checks

def localEventSchema : String := "heel.local-containment-event.v1"
def localEventDomain : List Char := "heel.local-containment-event.v1\x00".toList
def zeroDigest : String := "0000000000000000000000000000000000000000000000000000000000000000"

/-- `LOCAL_EVENT_CODES`. -/
inductive EventCode where
  | grantVerified | runStarted | admitted | actionStarted | actionCompleted
  | actionRejected | budgetExhausted | dnsChanged | stopObserved
  | responseTruncated | redacted | runFinalized | localResultReady
  deriving DecidableEq, Repr

namespace EventCode

def name : EventCode → String
  | .grantVerified => "grant_verified"
  | .runStarted => "run_started"
  | .admitted => "admitted"
  | .actionStarted => "action_started"
  | .actionCompleted => "action_completed"
  | .actionRejected => "action_rejected"
  | .budgetExhausted => "budget_exhausted"
  | .dnsChanged => "dns_changed"
  | .stopObserved => "stop_observed"
  | .responseTruncated => "response_truncated"
  | .redacted => "redacted"
  | .runFinalized => "run_finalized"
  | .localResultReady => "local_result_ready"

def all : List EventCode :=
  [.grantVerified, .runStarted, .admitted, .actionStarted, .actionCompleted,
   .actionRejected, .budgetExhausted, .dnsChanged, .stopObserved,
   .responseTruncated, .redacted, .runFinalized, .localResultReady]

def ofName (s : String) : Option EventCode := all.find? (fun c => c.name == s)

/-- `OPERATIONAL_EVENT_CODES`: the codes a projection may disclose. -/
def operational : EventCode → Bool
  | .admitted | .actionStarted | .actionCompleted | .actionRejected | .budgetExhausted
  | .dnsChanged | .stopObserved | .responseTruncated | .redacted => true
  | .grantVerified | .runStarted | .runFinalized | .localResultReady => false

end EventCode

/-- `_COUNTER_FIELDS`. -/
inductive CounterField where
  | requestsStarted | requestsCompleted | responseBytesRead | actionsContained | retriesUsed
  deriving DecidableEq, Repr

namespace CounterField

def name : CounterField → String
  | .requestsStarted => "requests_started"
  | .requestsCompleted => "requests_completed"
  | .responseBytesRead => "response_bytes_read"
  | .actionsContained => "actions_contained"
  | .retriesUsed => "retries_used"

def all : List CounterField :=
  [.requestsStarted, .requestsCompleted, .responseBytesRead, .actionsContained, .retriesUsed]

def ofName (s : String) : Option CounterField := all.find? (fun f => f.name == s)

theorem mem_all (f : CounterField) : f ∈ all := by cases f <;> decide

/-- The ceiling `_validate_event` puts on a counter. -/
def ceiling : CounterField → Int
  | .retriesUsed => 1
  | .responseBytesRead => 2^53 - 1
  | .requestsStarted | .requestsCompleted | .actionsContained => 20

end CounterField

structure Counters where
  requestsStarted : Int := 0
  requestsCompleted : Int := 0
  responseBytesRead : Int := 0
  actionsContained : Int := 0
  retriesUsed : Int := 0
  deriving DecidableEq, Repr

namespace Counters

def get (c : Counters) : CounterField → Int
  | .requestsStarted => c.requestsStarted
  | .requestsCompleted => c.requestsCompleted
  | .responseBytesRead => c.responseBytesRead
  | .actionsContained => c.actionsContained
  | .retriesUsed => c.retriesUsed

def set (c : Counters) (f : CounterField) (v : Int) : Counters :=
  match f with
  | .requestsStarted => { c with requestsStarted := v }
  | .requestsCompleted => { c with requestsCompleted := v }
  | .responseBytesRead => { c with responseBytesRead := v }
  | .actionsContained => { c with actionsContained := v }
  | .retriesUsed => { c with retriesUsed := v }

theorem get_set (c : Counters) (f g : CounterField) (v : Int) :
    (c.set f v).get g = if g = f then v else c.get g := by
  cases f <;> cases g <;> rfl

/-- No counter of `a` is above the same counter of `b`. -/
def Le (a b : Counters) : Prop := ∀ f ∈ CounterField.all, a.get f ≤ b.get f

instance (a b : Counters) : Decidable (Le a b) :=
  inferInstanceAs (Decidable (∀ f ∈ CounterField.all, a.get f ≤ b.get f))

theorem Le.get {a b : Counters} (h : Le a b) (f : CounterField) : a.get f ≤ b.get f :=
  h f f.mem_all

theorem Le.refl (a : Counters) : Le a a := fun _ _ => le_refl _

theorem Le.trans {a b c : Counters} (hab : Le a b) (hbc : Le b c) : Le a c :=
  fun f hf => (hab f hf).trans (hbc f hf)

theorem le_iff {a b : Counters} : Le a b ↔
    a.requestsStarted ≤ b.requestsStarted ∧ a.requestsCompleted ≤ b.requestsCompleted ∧
      a.responseBytesRead ≤ b.responseBytesRead ∧ a.actionsContained ≤ b.actionsContained ∧
      a.retriesUsed ≤ b.retriesUsed := by
  simp [Le, CounterField.all, get]

def json (c : Counters) : Json :=
  .obj (CounterField.all.map fun f => (f.name, .int (c.get f)))

end Counters

structure Event where
  schemaVersion : String
  runId : String
  grantId : String
  manifestDigest : String
  sequence : Int
  occurredAtMs : Int
  eventCode : EventCode
  actionOrdinal : Option Int
  scenarioId : Option String
  semanticRole : Option String
  attempt : Option Int
  detailCode : String
  counters : Counters
  previousEventDigest : String
  eventDigest : String
  signingKeyId : String
  /-- The bytes that the canonical base64 text `signature_b64` encodes. -/
  signature : List UInt8
  deriving DecidableEq, Repr

namespace Event

/-- The members named by `_CORE_FIELDS`. -/
def coreFields (e : Event) : List (String × Json) :=
  [("schema_version", .str e.schemaVersion), ("run_id", .str e.runId),
   ("grant_id", .str e.grantId), ("manifest_digest", .str e.manifestDigest),
   ("sequence", .int e.sequence), ("occurred_at_ms", .int e.occurredAtMs),
   ("event_code", .str e.eventCode.name),
   ("action_ordinal", Json.optional .int e.actionOrdinal),
   ("scenario_id", Json.optional .str e.scenarioId),
   ("semantic_role", Json.optional .str e.semanticRole),
   ("attempt", Json.optional .int e.attempt), ("detail_code", .str e.detailCode),
   ("counters", e.counters.json), ("previous_event_digest", .str e.previousEventDigest)]

def core (e : Event) : Json := .obj e.coreFields

/-- The record the runner signs: the core with its digest and key. -/
def signed (e : Event) : Json :=
  .obj (e.coreFields ++
    [("event_digest", .str e.eventDigest), ("signing_key_id", .str e.signingKeyId)])

/-- Apply a function to every text member, as `_normalize` does. -/
def mapText (f : String → String) (e : Event) : Event :=
  { e with
    schemaVersion := f e.schemaVersion, runId := f e.runId, grantId := f e.grantId,
    manifestDigest := f e.manifestDigest, scenarioId := e.scenarioId.map f,
    semanticRole := e.semanticRole.map f, detailCode := f e.detailCode,
    previousEventDigest := f e.previousEventDigest, eventDigest := f e.eventDigest,
    signingKeyId := f e.signingKeyId }

end Event

def b64Char (n : Nat) : Char :=
  "ABCDEFGHIJKLMNOPQRSTUVWXYZabcdefghijklmnopqrstuvwxyz0123456789+/".toList.getD n 'A'

def b64encode : List UInt8 → List Char
  | [] => []
  | [a] => [b64Char (a.toNat / 4), b64Char (a.toNat % 4 * 16), '=', '=']
  | [a, b] => [b64Char (a.toNat / 4), b64Char (a.toNat % 4 * 16 + b.toNat / 16),
      b64Char (b.toNat % 16 * 4), '=']
  | a :: b :: c :: rest => b64Char (a.toNat / 4) :: b64Char (a.toNat % 4 * 16 + b.toNat / 16) ::
      b64Char (b.toNat % 16 * 4 + c.toNat / 64) :: b64Char (c.toNat % 64) :: b64encode rest

def containmentError (reason : String) : Refusal := ⟨.containmentError, reason⟩

def identifier (value label : String) : Except Refusal Unit :=
  require (value ≠ "" ∧ byteSize value.toList ≤ 128 ∧
      value.toList.all (fun c => !(c.toNat < 0x21 || c.toNat == 0x7f)))
    (containmentError ("invalid " ++ label))

def isHexDigit (c : Char) : Bool := "0123456789abcdef".toList.contains c

def digest (value label : String) : Except Refusal Unit :=
  require (value.length = 64 ∧ value.toList.all isHexDigit) (containmentError ("invalid " ++ label))

def integer (value : Int) (label : String) (maximum : Int := 2^53 - 1) : Except Refusal Unit :=
  require (0 ≤ value ∧ value ≤ maximum) (containmentError ("invalid " ++ label))

/-- The action binding is absent as a whole or present as a whole. -/
def validateBinding (e : Event) : Except Refusal Unit :=
  match e.actionOrdinal, e.scenarioId, e.semanticRole, e.attempt with
  | none, none, none, none => .ok ()
  | some ordinal, some scenario, some role, some attempt => do
    integer ordinal "action ordinal" 19
    identifier scenario "scenario ID"
    identifier role "semantic role"
    integer attempt "attempt" 2
    require (1 ≤ attempt) (containmentError "invalid attempt")
  | _, _, _, _ => .error (containmentError "incomplete containment action binding")

def validateCounters (c : Counters) : Except Refusal Unit := do
  CounterField.all.forM fun f => integer (c.get f) (f.name ++ " counter") f.ceiling
  require (c.requestsCompleted ≤ c.requestsStarted)
    (containmentError "invalid containment counters")

/-- `_validate_event`. The membership tests on the field names, on the event code and on the
base64 text are the types of `Event`. -/
def validateEvent (P : Platform) (e : Event) (expectedSequence : Nat) (previousDigest : String) :
    Except Refusal Unit := do
  require (e.schemaVersion = localEventSchema) (containmentError "invalid containment event schema")
  identifier e.runId "run ID"
  identifier e.grantId "grant ID"
  digest e.manifestDigest "manifest digest"
  integer e.sequence "event sequence" 99999
  require (e.sequence = expectedSequence) (containmentError "invalid containment event sequence")
  integer e.occurredAtMs "event timestamp"
  validateBinding e
  identifier e.detailCode "detail code"
  validateCounters e.counters
  require (e.previousEventDigest = previousDigest)
    (containmentError "containment chain link mismatch")
  let expected ← Json.canonicalDigest P e.core
  require (e.eventDigest = expected) (containmentError "containment event digest mismatch")
  identifier e.signingKeyId "signing key ID"
  require (e.signature.length = 64) (containmentError "invalid containment signature")

theorem validateEvent_time {P : Platform} {e : Event} {n : Nat} {previous : String}
    (h : validateEvent P e n previous = .ok ()) : 0 ≤ e.occurredAtMs := by
  simp only [validateEvent, integer, bind_ok, require_ok, exists_const] at h
  obtain ⟨_, _, _, _, _, _, _, _, _, ht, _⟩ := h
  exact ht.1

theorem validateEvent_sequence {P : Platform} {e : Event} {n : Nat} {previous : String}
    (h : validateEvent P e n previous = .ok ()) : e.sequence = n := by
  simp only [validateEvent, integer, bind_ok, require_ok, exists_const] at h
  obtain ⟨_, _, _, _, _, _, _, _, hseq, _⟩ := h
  exact hseq

structure ChainBinding where
  publicKey : List UInt8
  runnerKeyId : String
  runId : String
  grantId : String
  manifestDigest : String

/-- The loop variables of `verify_containment_chain`. -/
structure ChainHead where
  sequence : Nat := 0
  previous : String := zeroDigest
  previousCounters : Counters := {}
  previousTime : Int := 0
  deriving DecidableEq, Repr

def ChainHead.after (h : ChainHead) (e : Event) : ChainHead where
  sequence := h.sequence + 1
  previous := e.eventDigest
  previousCounters := e.counters
  previousTime := e.occurredAtMs

/-- One round of the loop of `verify_containment_chain`. -/
def verifyEvent (P : Platform) (B : ChainBinding) (h : ChainHead) (e : Event) :
    Except Refusal ChainHead := do
  validateEvent P e h.sequence h.previous
  require (e.runId = B.runId ∧ e.grantId = B.grantId ∧ e.manifestDigest = B.manifestDigest ∧
      e.signingKeyId = B.runnerKeyId ∧ h.previousTime ≤ e.occurredAtMs ∧
      Counters.Le h.previousCounters e.counters)
    (containmentError "containment event binding mismatch")
  let message ← Json.canonicalBytes P e.signed
  require (P.verify B.publicKey e.signature (localEventDomain ++ message))
    (containmentError "containment signature verification failed")
  require (h.sequence = 0 → e.eventCode = .grantVerified)
    (containmentError "containment chain must begin with grant verification")
  return h.after e

def verifyContainmentChain (P : Platform) (B : ChainBinding) (events : List Event) :
    Except Refusal (List Event) := do
  let _ ← events.foldlM (verifyEvent P B) {}
  return events

/-- Does `verify_containment_chain` accept the list? -/
def Accepted (P : Platform) (B : ChainBinding) (events : List Event) : Prop :=
  accepts (verifyContainmentChain P B events) = true

/-- The loop variables after a chain, read off its last event. -/
def headOf (events : List Event) : ChainHead :=
  match events.getLast? with
  | none => {}
  | some e => { sequence := events.length, previous := e.eventDigest,
                previousCounters := e.counters, previousTime := e.occurredAtMs }

theorem headOf_concat (events : List Event) (e : Event) :
    headOf (events ++ [e]) = (headOf events).after e := by
  cases events using List.reverseRecOn with
  | nil => simp [headOf, ChainHead.after]
  | append_singleton xs x => simp [headOf, ChainHead.after]

theorem verifyEvent_head {P : Platform} {B : ChainBinding} {h t : ChainHead} {e : Event}
    (hv : verifyEvent P B h e = .ok t) : t = h.after e := by
  simp only [verifyEvent, bind_ok, require_ok, exists_const, pure, Except.pure,
    Except.ok.injEq] at hv
  obtain ⟨_, _, _, _, _, _, _, ht⟩ := hv
  exact ht.symm

theorem verifyEvent_valid {P : Platform} {B : ChainBinding} {h t : ChainHead} {e : Event}
    (hv : verifyEvent P B h e = .ok t) : validateEvent P e h.sequence h.previous = .ok () := by
  simp only [verifyEvent, bind_ok] at hv
  obtain ⟨_, hvalid, _⟩ := hv
  exact hvalid

/-- An accepted chain leaves the loop with the variables of its last event. -/
theorem foldlM_head {P : Platform} {B : ChainBinding} {events : List Event} {t : ChainHead}
    (h : events.foldlM (verifyEvent P B) {} = .ok t) : t = headOf events := by
  refine foldlM_invariant (verifyEvent P B) (fun xs s => s = headOf xs) ?_ events {} t rfl h
  intro xs s x u hs hu
  rw [headOf_concat, ← hs]
  exact verifyEvent_head hu

theorem accepted_iff (P : Platform) (B : ChainBinding) (events : List Event) :
    Accepted P B events ↔ events.foldlM (verifyEvent P B) {} = .ok (headOf events) := by
  unfold Accepted verifyContainmentChain
  rw [accepts_iff]
  constructor
  · rintro ⟨a, ha⟩
    obtain ⟨t, ht, _⟩ := (bind_ok _ _ _).mp ha
    rw [ht, foldlM_head ht]
  · intro h
    exact ⟨events, (bind_ok _ _ _).mpr ⟨_, h, rfl⟩⟩

theorem accepted_nil (P : Platform) (B : ChainBinding) : Accepted P B [] := rfl

/-- One event more is accepted exactly when the loop's round accepts it. -/
theorem accepted_concat (P : Platform) (B : ChainBinding) (events : List Event) (e : Event) :
    Accepted P B (events ++ [e]) ↔ Accepted P B events ∧
      verifyEvent P B (headOf events) e = .ok ((headOf events).after e) := by
  rw [accepted_iff, accepted_iff, foldlM_concat_ok, headOf_concat]
  constructor
  · rintro ⟨m, hm, he⟩
    obtain rfl := foldlM_head hm
    exact ⟨hm, he⟩
  · rintro ⟨hm, he⟩
    exact ⟨_, hm, he⟩

end Heel.Containment
