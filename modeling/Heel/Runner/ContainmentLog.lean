import Heel.Lib.Transition
import Heel.Runner.Containment

/-! The writer of the signed chain, `ContainmentLog.append`, against its reader
`ContainmentLog.load`, over the events stored under one local run. -/
namespace Heel.Containment
open Lib Lib.Checks

def isAscii (s : String) : Bool := s.toList.all (fun c => c.toNat < 128)

/-- Documented behaviour of the platform primitives: form C leaves ASCII text alone and a
SHA-256 hex digest is 64 lower-case hex digits. -/
structure Lawful (P : Platform) : Prop where
  nfc_ascii : ∀ s, isAscii s = true → P.nfc s = s
  sha256_hex : ∀ text, (P.sha256 text).length = 64 ∧ (P.sha256 text).toList.all isHexDigit = true

structure SecureSigner where
  keyId : String
  publicKey : List UInt8
  sign : List Char → List UInt8

/-- A correct Ed25519 pair: every signature verifies under the signer's public key. -/
def SecureSigner.Correct (P : Platform) (S : SecureSigner) : Prop :=
  ∀ message, P.verify S.publicKey (S.sign message) message = true

/-- `ContainmentLog`; the checks of its constructor are fields. -/
structure ContainmentLog where
  signer : SecureSigner
  runId : String
  grantId : String
  manifestDigest : String
  keyId_ascii : isAscii signer.keyId = true
  runId_ok : identifier runId "run ID" = .ok ()
  grantId_ok : identifier grantId "grant ID" = .ok ()
  manifestDigest_ok : digest manifestDigest "manifest digest" = .ok ()

/-- A mapping argument `counters`; a mapping has each name once. -/
structure CounterOverrides where
  items : List (String × Int) := []
  nodup : (items.map Prod.fst).Nodup := by exact List.nodup_nil

structure AppendCall where
  eventCode : String
  detailCode : String
  actionOrdinal : Option Int := none
  scenarioId : Option String := none
  semanticRole : Option String := none
  attempt : Option Int := none
  counters : CounterOverrides := {}

/-- The loop over `counters.items()`. -/
def overrideCounters (c : Counters) : List (String × Int) → Except Refusal Counters
  | [] => .ok c
  | (name, value) :: rest =>
    match CounterField.ofName name with
    | none => .error ⟨.valueError, "invalid containment counter"⟩
    | some f => overrideCounters (c.set f value) rest

def maxMetadataBytes : Nat := 256 * 1024

def Event.record (e : Event) : Json :=
  .obj (e.coreFields ++
    [("event_digest", .str e.eventDigest), ("signing_key_id", .str e.signingKeyId),
     ("signature_b64", .str (String.ofList (b64encode e.signature)))])

/-- `RunnerStore.append_run_event`: the record is written as canonical JSON, so what is read
back is the event with its texts in form C. -/
def appendRunEvent (P : Platform) (store : List Event) (e : Event) : Except Refusal (List Event) :=
  do
  require (0 ≤ e.sequence ∧ e.sequence < 100000) ⟨.valueError, "invalid containment event sequence"⟩
  require (e.sequence = store.length)
    ⟨.runnerStoreError, "containment event sequence is not append-only"⟩
  let payload ← Json.canonicalBytes P e.record
  require (byteSize payload ≤ maxMetadataBytes)
    ⟨.runnerStoreError, "runner state exceeds size limit"⟩
  return store ++ [e.mapText P.nfc]

namespace ContainmentLog
variable (P : Platform) (L : ContainmentLog)

def binding : ChainBinding where
  publicKey := L.signer.publicKey
  runnerKeyId := L.signer.keyId
  runId := L.runId
  grantId := L.grantId
  manifestDigest := L.manifestDigest

def load (store : List Event) : Except Refusal (List Event) :=
  verifyContainmentChain P (L.binding) store

/-- The unsigned event of an append: digest and signature are filled in afterwards. -/
def draft (clockMs : Int) (events : List Event) (code : EventCode) (call : AppendCall)
    (counters : Counters) : Event where
  schemaVersion := localEventSchema
  runId := L.runId
  grantId := L.grantId
  manifestDigest := L.manifestDigest
  sequence := events.length
  occurredAtMs := clockMs
  eventCode := code
  actionOrdinal := call.actionOrdinal
  scenarioId := call.scenarioId
  semanticRole := call.semanticRole
  attempt := call.attempt
  detailCode := call.detailCode
  counters := counters
  previousEventDigest := (headOf events).previous
  eventDigest := ""
  signingKeyId := L.signer.keyId
  signature := []

/-- `ContainmentLog.append` on the stored events and one clock reading: the returned event and
the store after it. -/
def append (clockMs : Int) (store : List Event) (call : AppendCall) :
    Except Refusal (Event × List Event) :=
  match EventCode.ofName call.eventCode with
  | none => .error ⟨.valueError, "invalid containment event code"⟩
  | some code => do
    let events ← L.load P store
    let counters ← overrideCounters (headOf events).previousCounters call.counters.items
    let draft := L.draft clockMs events code call counters
    let digest ← Json.canonicalDigest P draft.core
    let signed := { draft with eventDigest := digest }
    let message ← Json.canonicalBytes P signed.signed
    let signature := L.signer.sign (localEventDomain ++ message)
    require (signature.length = 64)
      ⟨.valueError, "runner signer returned an invalid containment signature"⟩
    let event := { signed with signature := signature }
    validateEvent P event events.length (headOf events).previous
    let stored ← appendRunEvent P store event
    return (event, stored)

/-- What a normal return of `append` says about the event and the store. -/
structure Appended (clockMs : Int) (store : List Event) (call : AppendCall) (e : Event)
    (stored : List Event) : Prop where
  accepted : Accepted P L.binding store
  code : EventCode.ofName call.eventCode = some e.eventCode
  counters : overrideCounters (headOf store).previousCounters call.counters.items = .ok e.counters
  valid : validateEvent P e store.length (headOf store).previous = .ok ()
  signature : ∃ message, Json.canonicalBytes P e.signed = .ok message ∧
    e.signature = L.signer.sign (localEventDomain ++ message)
  runId : e.runId = L.runId
  grantId : e.grantId = L.grantId
  manifestDigest : e.manifestDigest = L.manifestDigest
  keyId : e.signingKeyId = L.signer.keyId
  time : e.occurredAtMs = clockMs
  schema : e.schemaVersion = localEventSchema
  detail : e.detailCode = call.detailCode
  scenario : e.scenarioId = call.scenarioId
  role : e.semanticRole = call.semanticRole
  previous : e.previousEventDigest = (headOf store).previous
  stored_eq : stored = store ++ [e.mapText P.nfc]

end ContainmentLog

variable {P : Platform} {L : ContainmentLog} {clockMs : Int} {store stored : List Event}
  {call : AppendCall} {e : Event}

theorem verifyContainmentChain_ok {B : ChainBinding} {events out : List Event}
    (h : verifyContainmentChain P B events = .ok out) : out = events ∧ Accepted P B events := by
  have hacc : Accepted P B events := (accepts_iff _).mpr ⟨out, h⟩
  obtain ⟨t, _, ht⟩ := (bind_ok _ _ _).mp h
  simp only [pure, Except.pure, Except.ok.injEq] at ht
  exact ⟨ht.symm, hacc⟩

theorem appendRunEvent_ok (h : appendRunEvent P store e = .ok stored) :
    stored = store ++ [e.mapText P.nfc] := by
  simp only [appendRunEvent, bind_ok, require_ok, exists_const, pure, Except.pure,
    Except.ok.injEq] at h
  obtain ⟨_, _, _, _, _, hs⟩ := h
  exact hs.symm

theorem ContainmentLog.append_ok (h : L.append P clockMs store call = .ok (e, stored)) :
    L.Appended P clockMs store call e stored := by
  unfold append at h
  split at h
  · cases h
  · rename_i code hcode
    simp only [bind_ok, require_ok, exists_const, pure, Except.pure, Except.ok.injEq,
      Prod.mk.injEq] at h
    obtain ⟨events, hload, counters, hcounters, digest, hdigest, message, hmessage, _, _, hvalid,
      stored', hstored, hevent, rfl⟩ := h
    obtain ⟨rfl, hacc⟩ := verifyContainmentChain_ok hload
    subst hevent
    exact
      { accepted := hacc, code := hcode, counters := hcounters, valid := hvalid
        signature := ⟨message, hmessage, rfl⟩
        runId := rfl, grantId := rfl, manifestDigest := rfl, keyId := rfl, time := rfl
        schema := rfl, detail := rfl, scenario := rfl, role := rfl, previous := rfl
        stored_eq := appendRunEvent_ok hstored }

theorem CounterField.ofName_some {name : String} {f : CounterField}
    (h : CounterField.ofName name = some f) : f.name = name := by
  have := List.find?_some h
  simpa using this

theorem CounterField.ofName_name (f : CounterField) : CounterField.ofName f.name = some f := by
  cases f <;> decide

/-- Counters no override names keep their value; a named one takes it. -/
theorem overrideCounters_get {c d : Counters} {items : List (String × Int)}
    (hnodup : (items.map Prod.fst).Nodup) (h : overrideCounters c items = .ok d)
    (f : CounterField) :
    (∀ v, (f.name, v) ∈ items → d.get f = v) ∧
      (f.name ∉ items.map Prod.fst → d.get f = c.get f) := by
  induction items generalizing c with
  | nil =>
    simp only [overrideCounters, Except.ok.injEq] at h
    simp [h]
  | cons item rest ih =>
    obtain ⟨name, value⟩ := item
    simp only [overrideCounters] at h
    split at h
    · cases h
    · rename_i g hg
      have hname := CounterField.ofName_some hg
      obtain ⟨hnot, hrest⟩ := List.nodup_cons.mp hnodup
      obtain ⟨hin, hout⟩ := ih hrest h
      constructor
      · intro v hv
        rcases List.mem_cons.mp hv with heq | hmem
        · obtain ⟨hfg, rfl⟩ := Prod.mk.inj heq
          have hgf : g = f := by
            have := CounterField.ofName_name f
            rw [hfg, hg] at this
            exact Option.some.inj this
          subst hgf
          rw [hout (by simpa [hname] using hnot), Counters.get_set]
          simp
        · exact hin v hmem
      · intro hf
        simp only [List.map_cons, List.mem_cons, not_or] at hf
        have hne : f ≠ g := by
          rintro rfl
          exact hf.1 hname
        rw [hout hf.2, Counters.get_set]
        simp [hne]

/-- An override lowers no counter exactly when no given value is below the current one. -/
theorem overrideCounters_le {c d : Counters} {o : CounterOverrides}
    (h : overrideCounters c o.items = .ok d) :
    Counters.Le c d ↔ ∀ f v, (CounterField.name f, v) ∈ o.items → c.get f ≤ v := by
  constructor
  · intro hle f v hmem
    rw [← (overrideCounters_get o.nodup h f).1 v hmem]
    exact hle.get f
  · intro hv f _
    obtain ⟨hin, hout⟩ := overrideCounters_get o.nodup h f
    by_cases hf : f.name ∈ o.items.map Prod.fst
    · obtain ⟨⟨name, v⟩, hmem, rfl⟩ := List.mem_map.mp hf
      rw [hin v (by simpa using hmem)]
      exact hv f v (by simpa using hmem)
    · exact le_of_eq (hout hf).symm

/-- The condition on one append: a chain starts with `grant_verified`, the clock is not behind
the last event and no counter is given below its last value. -/
structure KeepsChain (clockMs : Int) (store : List Event) (call : AppendCall) : Prop where
  first : store = [] → call.eventCode = EventCode.grantVerified.name
  time : (headOf store).previousTime ≤ clockMs
  counters : ∀ f v, (CounterField.name f, v) ∈ call.counters.items →
    (headOf store).previousCounters.get f ≤ v

theorem EventCode.ofName_grantVerified {name : String} {c : EventCode}
    (h : EventCode.ofName name = some c) :
    c = .grantVerified ↔ name = EventCode.grantVerified.name := by
  have hname : c.name = name := by simpa using List.find?_some h
  rw [← hname]
  cases c <;> decide

theorem headOf_sequence (events : List Event) : (headOf events).sequence = events.length := by
  unfold headOf
  split
  · rename_i h
    simp [List.getLast?_eq_none_iff.mp h]
  · rfl

/-- The verifier's round accepts an appended event exactly when the append keeps the chain. -/
theorem ContainmentLog.Appended.verifyEvent_iff (hsign : L.signer.Correct P)
    (h : L.Appended P clockMs store call e stored) :
    verifyEvent P L.binding (headOf store) e = .ok ((headOf store).after e) ↔
      KeepsChain clockMs store call := by
  obtain ⟨message, hmessage, hsignature⟩ := h.signature
  have hverify : P.verify L.binding.publicKey e.signature (localEventDomain ++ message) = true := by
    rw [hsignature]
    exact hsign _
  have hcode := EventCode.ofName_grantVerified h.code
  simp only [verifyEvent, bind_ok, require_ok, exists_const, pure, Except.pure, and_true]
  simp only [headOf_sequence, h.valid, hmessage, Except.ok.injEq, exists_eq_left', exists_const,
    binding] at hverify ⊢
  simp only [hverify, h.runId, h.grantId, h.manifestDigest, h.keyId, h.time, true_and,
    overrideCounters_le h.counters, List.length_eq_zero_iff]
  constructor
  · rintro ⟨⟨ht, hc⟩, hf⟩
    exact ⟨fun hs => hcode.mp (hf hs), ht, hc⟩
  · rintro ⟨hf, ht, hc⟩
    exact ⟨⟨ht, hc⟩, fun hs => hcode.mpr (hf hs)⟩

theorem ContainmentLog.Appended.accepted_iff (hsign : L.signer.Correct P)
    (h : L.Appended P clockMs store call e stored) :
    Accepted P L.binding (store ++ [e]) ↔ KeepsChain clockMs store call := by
  rw [accepted_concat, h.verifyEvent_iff hsign]
  exact ⟨And.right, fun hk => ⟨h.accepted, hk⟩⟩

end Heel.Containment
