import Heel.Runner.AppendTotal

/-! Runs of appends under one local run: which of them leave a chain that loads. -/
namespace Heel.Containment
open Lib Lib.Checks

variable {P : Platform} {L : ContainmentLog} {clockMs : Int} {store stored : List Event}
  {call : AppendCall} {e : Event}

/-- The caller's texts are in form C, so that storing them does not change them. -/
structure NormalTexts (P : Platform) (L : ContainmentLog) (call : AppendCall) : Prop where
  runId : P.nfc L.runId = L.runId
  grantId : P.nfc L.grantId = L.grantId
  detail : P.nfc call.detailCode = call.detailCode
  scenario : ∀ s, call.scenarioId = some s → P.nfc s = s
  role : ∀ s, call.semanticRole = some s → P.nfc s = s

/-- With its texts in form C an event is stored as it was returned. -/
theorem ContainmentLog.Appended.mapText_eq (hP : Lawful P)
    (h : L.Appended P clockMs store call e stored) (hn : NormalTexts P L call) :
    e.mapText P.nfc = e := by
  obtain ⟨bytes, _, hdigest⟩ := validateEvent_digest h.valid
  have hmanifest : P.nfc e.manifestDigest = e.manifestDigest := by
    rw [h.manifestDigest]
    exact hP.nfc_ascii _ (digest_ascii L.manifestDigest_ok)
  have hkey : P.nfc e.signingKeyId = e.signingKeyId := by
    rw [h.keyId]
    exact hP.nfc_ascii _ L.keyId_ascii
  have hprevious : P.nfc e.previousEventDigest = e.previousEventDigest := by
    rw [h.previous]
    exact hP.nfc_ascii _ (hex_ascii (h.accepted.previous_isDigest hP).2)
  have hown : P.nfc e.eventDigest = e.eventDigest := by
    rw [hdigest]
    exact hP.nfc_ascii _ (hP.sha256_ascii bytes)
  have hschema : P.nfc e.schemaVersion = e.schemaVersion := by
    rw [h.schema]
    exact hP.nfc_ascii _ (by decide)
  have hscenario : e.scenarioId.map P.nfc = e.scenarioId := by
    rw [h.scenario]
    cases hs : call.scenarioId with
    | none => rfl
    | some s => simp [hn.scenario s hs]
  have hrole : e.semanticRole.map P.nfc = e.semanticRole := by
    rw [h.role]
    cases hs : call.semanticRole with
    | none => rfl
    | some s => simp [hn.role s hs]
  have hrun : P.nfc e.runId = e.runId := by rw [h.runId, hn.runId]
  have hgrant : P.nfc e.grantId = e.grantId := by rw [h.grantId, hn.grantId]
  have hdetail : P.nfc e.detailCode = e.detailCode := by rw [h.detail, hn.detail]
  simp only [Event.mapText, hmanifest, hkey, hprevious, hown, hschema, hscenario, hrole, hrun,
    hgrant, hdetail]

/-- The store after one call: a call that raises stores nothing. -/
def ContainmentLog.afterCall (P : Platform) (L : ContainmentLog) (store : List Event)
    (a : Int × AppendCall) : List Event :=
  match L.append P a.1 store a.2 with
  | .ok (_, stored) => stored
  | .error _ => store

/-- Every sequence of appends of one log, each with its own clock reading. -/
def ContainmentLog.appends (P : Platform) (L : ContainmentLog) :
    Transition (List Event) (Int × AppendCall) where
  init store := store = []
  step store a stored := stored = L.afterCall P store a

/-- A call that raises, or one that keeps the chain with texts in form C. -/
def ContainmentLog.Orderly (P : Platform) (L : ContainmentLog) (store : List Event)
    (a : Int × AppendCall) : Prop :=
  accepts (L.append P a.1 store a.2) = true →
    KeepsChain a.1 store a.2 ∧ NormalTexts P L a.2

theorem ContainmentLog.accepted_afterCall (hP : Lawful P) (hsign : L.signer.Correct P)
    {a : Int × AppendCall} (hacc : Accepted P L.binding store) (ha : L.Orderly P store a) :
    Accepted P L.binding (L.afterCall P store a) := by
  unfold afterCall
  cases h : L.append P a.1 store a.2 with
  | error r => exact hacc
  | ok out =>
    obtain ⟨e, stored⟩ := out
    obtain ⟨hkeeps, hnormal⟩ := ha (by rw [h]; rfl)
    have happ := ContainmentLog.append_ok h
    simp only [happ.stored_eq, happ.mapText_eq hP hnormal]
    exact (happ.accepted_iff hsign).mpr hkeeps

/-- A safe call that keeps the chain: the store gains exactly the returned event. -/
theorem ContainmentLog.append_keeps (hP : Lawful P) (hL : L.Safe P) (hsign : L.signer.Correct P)
    {code : EventCode} {c : Counters} (hacc : Accepted P L.binding store)
    (hlen : store.length < 100000)
    (hcounters : overrideCounters (headOf store).previousCounters call.counters.items = .ok c)
    (hcall : SafeCall P clockMs call code c) :
    ∃ e, L.append P clockMs store call = .ok (e, store ++ [e]) ∧
      e.counters = c ∧ e.occurredAtMs = clockMs ∧ e.eventCode = code ∧
      (Accepted P L.binding (store ++ [e]) ↔ KeepsChain clockMs store call) := by
  obtain ⟨e, stored, happ, hc⟩ := L.append_succeeds hP hL hacc hlen hcounters hcall
  have h := append_ok happ
  have hnormal : NormalTexts P L call :=
    { runId := hL.runId.nfc, grantId := hL.grantId.nfc, detail := hcall.detail.nfc
      scenario := fun s hs => (hcall.scenario s hs).nfc
      role := fun s hs => (hcall.role s hs).nfc }
  have hcode : e.eventCode = code := Option.some.inj (h.code.symm.trans hcall.code)
  refine ⟨e, ?_, hc, h.time, hcode, h.accepted_iff hsign⟩
  rw [happ, h.stored_eq, h.mapText_eq hP hnormal]

/-- A stored chain extended by the event an append returned is accepted exactly when the append
keeps the chain; and a log written by orderly appends alone loads after each of them. -/
theorem appended_chain_accepted_iff (hP : Lawful P) (hsign : L.signer.Correct P) :
    (∀ clockMs store call e stored, Accepted P L.binding store →
      L.append P clockMs store call = .ok (e, stored) →
      (Accepted P L.binding (store ++ [e]) ↔ KeepsChain clockMs store call)) ∧
    ∀ store, ((L.appends P).restrict (L.Orderly P)).Reachable store →
      L.load P store = .ok store := by
  constructor
  · intro clockMs store call e stored _ h
    exact (ContainmentLog.append_ok h).accepted_iff hsign
  · intro store hreach
    have hacc : Accepted P L.binding store := by
      refine ((L.appends P).restrict (L.Orderly P)).invariant
        (P := fun s => Accepted P L.binding s) ?_ ?_ hreach
      · rintro s rfl
        exact accepted_nil P L.binding
      · rintro s a t hs ⟨rfl, ha⟩
        exact L.accepted_afterCall hP hsign hs ha
    obtain ⟨out, hout⟩ := (accepts_iff _).mp hacc
    obtain ⟨rfl, _⟩ := verifyContainmentChain_ok hout
    exact hout

/-- A keyless checksum written as 64 hex digits, in the place of SHA-256. -/
def checksum (text : List Char) : Nat :=
  text.foldl (fun h c => (h * 1000003 + c.toNat) % 2^256) 7

def checksumHex (text : List Char) : String :=
  String.ofList ((List.range 64).map fun i => Json.hexDigit (checksum text / 16^i % 16))

def checksumSign (text : List Char) : List UInt8 :=
  (List.range 64).map fun i => UInt8.ofNat (checksum text / 2^i)

def samplePlatform : Platform where
  nfc := id
  sha256 := checksumHex
  verify _ signature text := signature == checksumSign text

def sampleLog : ContainmentLog where
  signer := { keyId := "ed25519:0011223344556677", publicKey := List.replicate 32 1,
              sign := checksumSign }
  runId := "run_1"
  grantId := "grant_1"
  manifestDigest := zeroDigest
  keyId_ascii := by decide
  runId_ok := by decide
  grantId_ok := by decide
  manifestDigest_ok := by decide

theorem hexDigit_isHexDigit (n : Nat) : isHexDigit (Json.hexDigit n) = true := by
  have hall : ∀ m < 16, isHexDigit (Json.hexDigit m) = true := by decide
  rcases Nat.lt_or_ge n 16 with h | h
  · exact hall n h
  · have hlen : "0123456789abcdef".toList.length = 16 := by decide
    rw [Json.hexDigit, List.getD_eq_getElem?_getD, List.getElem?_eq_none (by rw [hlen]; exact h)]
    decide

theorem samplePlatform_lawful : Lawful samplePlatform where
  nfc_ascii _ _ := rfl
  sha256_hex text := by
    simp only [samplePlatform, checksumHex, String.length_ofList, String.toList_ofList,
      List.length_map, List.length_range, List.all_map, true_and]
    exact List.all_eq_true.mpr fun i _ => hexDigit_isHexDigit _

theorem sampleLog_correct : sampleLog.signer.Correct samplePlatform := by
  intro message
  simp [samplePlatform, sampleLog]

theorem sampleLog_safe : sampleLog.Safe samplePlatform where
  runId := ⟨by decide, by decide, by decide, by decide, rfl⟩
  grantId := ⟨by decide, by decide, by decide, by decide, rfl⟩
  keyId := ⟨by decide, by decide, by decide, by decide, rfl⟩
  signature message := by simp [sampleLog, checksumSign]

def verifiedCall : AppendCall := { eventCode := "grant_verified", detailCode := "grant_exact" }
def startedCall : AppendCall := { eventCode := "run_started", detailCode := "locally_activated" }

theorem verifiedCall_safe {clockMs : Int} (h : 0 ≤ clockMs ∧ clockMs ≤ Json.safeInt) :
    SafeCall samplePlatform clockMs verifiedCall .grantVerified {} where
  code := by decide
  time := h
  ordinal _ hn := nomatch hn
  scenario _ hs := nomatch hs
  role _ hs := nomatch hs
  attempt _ hn := nomatch hn
  binding := by decide
  detail := ⟨by decide, by decide, by decide, by decide, rfl⟩
  counters f := by cases f <;> decide
  completed := by decide

theorem startedCall_safe {clockMs : Int} (h : 0 ≤ clockMs ∧ clockMs ≤ Json.safeInt) :
    SafeCall samplePlatform clockMs startedCall .runStarted {} where
  code := by decide
  time := h
  ordinal _ hn := nomatch hn
  scenario _ hs := nomatch hs
  role _ hs := nomatch hs
  attempt _ hn := nomatch hn
  binding := by decide
  detail := ⟨by decide, by decide, by decide, by decide, rfl⟩
  counters f := by cases f <;> decide
  completed := by decide

theorem verified_then_started (t : Int) (ht : 0 ≤ t ∧ t ≤ Json.safeInt) :
    ∃ e f, sampleLog.append samplePlatform 1000 [] verifiedCall = .ok (e, [e]) ∧
      Accepted samplePlatform sampleLog.binding [e] ∧
      sampleLog.append samplePlatform t [e] startedCall = .ok (f, [e, f]) ∧
      (Accepted samplePlatform sampleLog.binding [e, f] ↔ 1000 ≤ t) := by
  obtain ⟨e, happ, hc, htime, -, hiff⟩ :=
    sampleLog.append_keeps samplePlatform_lawful sampleLog_safe
    sampleLog_correct (accepted_nil _ _) (by decide) rfl
    (verifiedCall_safe (by decide : (0 : Int) ≤ 1000 ∧ (1000 : Int) ≤ Json.safeInt))
  have hacc : Accepted samplePlatform sampleLog.binding [e] :=
    hiff.mpr ⟨fun _ => rfl, by decide, by simp [verifiedCall]⟩
  have hhead : headOf [e] = ChainHead.after {} e := headOf_concat [] e
  obtain ⟨f, hfapp, -, -, -, hfiff⟩ := sampleLog.append_keeps samplePlatform_lawful sampleLog_safe
    sampleLog_correct hacc (by simp) (c := {}) (by rw [hhead]; simp [ChainHead.after, hc]; rfl)
    (startedCall_safe ht)
  refine ⟨e, f, happ, hacc, hfapp, ?_⟩
  refine Iff.trans hfiff ⟨fun h => ?_, fun h => ⟨by simp, ?_, by simp [startedCall]⟩⟩
  · have := h.time
    rwa [hhead, ChainHead.after, htime] at this
  · rwa [hhead, ChainHead.after, htime]

theorem appended_chain_accepted_sample :
    ∃ e f, sampleLog.append samplePlatform 1000 [] verifiedCall = .ok (e, [e]) ∧
      sampleLog.append samplePlatform 2000 [e] startedCall = .ok (f, [e, f]) ∧
      KeepsChain 2000 [e] startedCall := by
  obtain ⟨e, f, he, hacc, hf, hiff⟩ := verified_then_started 2000 (by decide)
  refine ⟨e, f, he, hf, ?_⟩
  exact ((appended_chain_accepted_iff samplePlatform_lawful sampleLog_correct).1 2000
    [e] startedCall
    f [e, f] hacc hf).mp (hiff.mpr (by decide))

/-- A wall clock that steps back between two appends leaves a log that no longer loads. -/
theorem clock_step_back_breaks_chain :
    ∃ e f, sampleLog.append samplePlatform 1000 [] verifiedCall = .ok (e, [e]) ∧
      Accepted samplePlatform sampleLog.binding [e] ∧
      sampleLog.append samplePlatform 900 [e] startedCall = .ok (f, [e, f]) ∧
      ¬ Accepted samplePlatform sampleLog.binding [e, f] ∧
      accepts (sampleLog.load samplePlatform [e, f]) = false := by
  obtain ⟨e, f, he, hacc, hf, hiff⟩ := verified_then_started 900 (by decide)
  have hnot : ¬ Accepted samplePlatform sampleLog.binding [e, f] := fun h =>
    absurd (hiff.mp h) (by decide)
  exact ⟨e, f, he, hacc, hf, hnot, Bool.eq_false_iff.mpr hnot⟩

end Heel.Containment
