import Heel.Contracts.Portable
import Heel.Lib.Literal
import Heel.Runner.ContainmentLog

/-! `ContainmentLog.append` returns normally on every well-formed call against a chain that
loads: neither the canonical encoding nor the store refuses such an event. -/
namespace Heel.Containment
open Lib Lib.Checks
open Literal (chars toList_eq)

variable {P : Platform}

theorem validateEvent_digest {e : Event} {n : Nat} {previous : String} {u : Unit}
    (h : validateEvent P e n previous = .ok u) :
    ∃ bytes, Json.canonicalBytes P e.core = .ok bytes ∧ e.eventDigest = P.sha256 bytes := by
  simp only [validateEvent, Json.canonicalDigest, bind_ok, require_ok, exists_const, pure,
    Except.pure, Except.ok.injEq] at h
  obtain ⟨_, _, _, _, _, _, _, _, _, _, _, _, _, _, _, _, _, _, _, d, ⟨bytes, hb, rfl⟩, hd, _⟩ := h
  exact ⟨bytes, hb, hd⟩

theorem isHexDigit_lt {c : Char} (h : isHexDigit c = true) : c.toNat < 128 := by
  have hall : "0123456789abcdef".toList.all (fun d => decide (d.toNat < 128)) = true := by
    simp only [toList_eq]
    decide +kernel
  exact of_decide_eq_true (List.all_eq_true.mp hall c (by simpa [isHexDigit] using h))

theorem hex_ascii {value : String} (h : value.toList.all isHexDigit = true) :
    isAscii value = true := by
  refine List.all_eq_true.mpr fun c hc => ?_
  exact decide_eq_true (isHexDigit_lt (List.all_eq_true.mp h c hc))

theorem digest_ascii {value label : String} {u : Unit} (h : digest value label = .ok u) :
    isAscii value = true := by
  simp only [digest, require_ok] at h
  exact hex_ascii h.2

theorem Lawful.sha256_ascii (hP : Lawful P) (text : List Char) : isAscii (P.sha256 text) = true :=
  hex_ascii (hP.sha256_hex text).2

/-- An identifier that canonical JSON leaves as it is. -/
structure SafeText (P : Platform) (s : String) : Prop where
  nonempty : s ≠ ""
  size : byteSize s.toList ≤ 128
  printable : s.toList.all (fun c => !(c.toNat < 0x21 || c.toNat == 0x7f)) = true
  noControl : s.toList.all (fun c => !Json.isControl c) = true
  nfc : P.nfc s = s

theorem SafeText.plain {s : String} (h : SafeText P s) : PlainText P s :=
  ⟨h.noControl, h.nfc, h.size.trans (by decide)⟩

theorem SafeText.identifier {s : String} (h : SafeText P s) (label : String) :
    identifier s label = .ok () := by
  rw [Containment.identifier, require_ok]
  exact ⟨h.nonempty, h.size, h.printable⟩

/-- ASCII text with no control character: every constant of the protocol is such a text. -/
def isPlainAscii (s : String) : Bool :=
  isAscii s && s.toList.all (fun c => !Json.isControl c) && decide (byteSize s.toList ≤ 128)

theorem isPlainAscii_chars (s : String) : isPlainAscii s =
    ((chars s).all (fun c => c.toNat < 128) && (chars s).all (fun c => !Json.isControl c) &&
      decide (byteSize (chars s) ≤ 128)) := by
  rw [isPlainAscii, isAscii, toList_eq]

theorem plain_of_ascii (hP : Lawful P) {s : String} (h : isPlainAscii s = true) :
    PlainText P s := by
  simp only [isPlainAscii, Bool.and_eq_true, decide_eq_true_eq] at h
  exact ⟨h.1.2, hP.nfc_ascii s h.1.1, h.2.trans (by decide)⟩

theorem hex_noControl {s : String} (h : s.toList.all isHexDigit = true) :
    s.toList.all (fun c => !Json.isControl c) = true := by
  have hall : "0123456789abcdef".toList.all (fun d => !Json.isControl d) = true := by
    simp only [toList_eq]
    decide +kernel
  refine List.all_eq_true.mpr fun c hc => List.all_eq_true.mp hall c ?_
  simpa [isHexDigit] using List.all_eq_true.mp h c hc

def IsDigest (s : String) : Prop := s.length = 64 ∧ s.toList.all isHexDigit = true

theorem IsDigest.plain (hP : Lawful P) {s : String} (h : IsDigest s) : PlainText P s where
  noControl := hex_noControl h.2
  nfc := hP.nfc_ascii s (hex_ascii h.2)
  size := by
    have := byteSize_le_length s.toList
    rw [String.length_toList, h.1] at this
    omega

def isPlainChar (c : Char) : Bool := decide (c.toNat < 128) && !Json.isControl c

theorem b64Char_plain (n : Nat) : isPlainChar (b64Char n) = true := by
  have hall : ∀ m < 64, isPlainChar (b64Char m) = true := by
    simp only [b64Char, toList_eq]
    decide +kernel
  rcases Nat.lt_or_ge n 64 with h | h
  · exact hall n h
  · have hlen : "ABCDEFGHIJKLMNOPQRSTUVWXYZabcdefghijklmnopqrstuvwxyz0123456789+/".toList.length
        = 64 := by
      rw [toList_eq]
      decide +kernel
    rw [b64Char, List.getD_eq_getElem?_getD, List.getElem?_eq_none (by rw [hlen]; exact h)]
    decide

theorem b64encode_plain (bytes : List UInt8) : ∀ c ∈ b64encode bytes, isPlainChar c = true := by
  have heq : isPlainChar '=' = true := by decide
  fun_induction b64encode bytes with
  | case1 => simp
  | case2 a => simp [b64Char_plain, heq]
  | case3 a b => simp [b64Char_plain, heq]
  | case4 a b c rest ih =>
    intro d hd
    simp only [List.mem_cons] at hd
    rcases hd with rfl | rfl | rfl | rfl | hd
    · exact b64Char_plain _
    · exact b64Char_plain _
    · exact b64Char_plain _
    · exact b64Char_plain _
    · exact ih d hd

theorem b64encode_length (bytes : List UInt8) :
    (b64encode bytes).length ≤ 4 * (bytes.length / 3 + 1) := by
  fun_induction b64encode bytes with
  | case1 => simp
  | case2 a => simp
  | case3 a b => simp
  | case4 a b c rest ih =>
    simp only [List.length_cons] at ih ⊢
    omega

/-- The members of an event that depend on the call are safe. -/
structure Event.Safe (P : Platform) (e : Event) : Prop where
  schema : e.schemaVersion = localEventSchema
  runId : SafeText P e.runId
  grantId : SafeText P e.grantId
  manifest : IsDigest e.manifestDigest
  sequence : 0 ≤ e.sequence ∧ e.sequence ≤ 99999
  time : 0 ≤ e.occurredAtMs ∧ e.occurredAtMs ≤ Json.safeInt
  ordinal : ∀ n, e.actionOrdinal = some n → 0 ≤ n ∧ n ≤ 19
  scenario : ∀ s, e.scenarioId = some s → SafeText P s
  role : ∀ s, e.semanticRole = some s → SafeText P s
  attempt : ∀ n, e.attempt = some n → 1 ≤ n ∧ n ≤ 2
  detail : SafeText P e.detailCode
  counters : ∀ f, 0 ≤ e.counters.get f ∧ e.counters.get f ≤ f.ceiling
  previous : IsDigest e.previousEventDigest
  keyId : SafeText P e.signingKeyId

theorem CounterField.ceiling_le (f : CounterField) : f.ceiling ≤ Json.safeInt := by
  cases f <;> decide

theorem normalize_counters (hP : Lawful P) {c : Counters}
    (h : ∀ f, 0 ≤ c.get f ∧ c.get f ≤ f.ceiling) : Json.normalize P 1 c.json = .ok c.json := by
  have hkeys : ∀ f ∈ CounterField.all, isPlainAscii f.name = true := by
    simp only [isPlainAscii_chars]
    decide +kernel
  have hnodup : (CounterField.all.map CounterField.name).Nodup := by decide
  refine Json.normalize_obj (by omega) ?_ ?_ (by rw [List.map_map]; exact hnodup)
  · intro p hp
    obtain ⟨f, hf, rfl⟩ := List.mem_map.mp hp
    exact plain_of_ascii hP (hkeys f hf)
  · intro p hp
    obtain ⟨f, hf, rfl⟩ := List.mem_map.mp hp
    exact Json.normalize_int (by omega) (h f).1 ((h f).2.trans f.ceiling_le)

def coreKeys : List String :=
  ["schema_version", "run_id", "grant_id", "manifest_digest", "sequence", "occurred_at_ms",
   "event_code", "action_ordinal", "scenario_id", "semantic_role", "attempt", "detail_code",
   "counters", "previous_event_digest"]

def recordKeys : List String := coreKeys ++ ["event_digest", "signing_key_id", "signature_b64"]

theorem coreFields_keys (e : Event) : e.coreFields.map Prod.fst = coreKeys := rfl

theorem recordKeys_plain (hP : Lawful P) {k : String} (hk : k ∈ recordKeys) : PlainText P k := by
  have hall : ∀ k ∈ recordKeys, isPlainAscii k = true := by
    simp only [isPlainAscii_chars]
    decide +kernel
  exact plain_of_ascii hP (hall k hk)

theorem EventCode.name_plain (c : EventCode) : isPlainAscii c.name = true := by
  rw [isPlainAscii_chars]
  cases c <;> decide +kernel

/-- Every value of the core is one that `_normalize` returns unchanged. -/
theorem Event.Safe.coreFields (hP : Lawful P) {e : Event} (h : e.Safe P) :
    ∀ p ∈ e.coreFields, Json.normalize P 1 p.2 = .ok p.2 := by
  have hint {n : Int} (h0 : 0 ≤ n) (h1 : n ≤ 99999) : Json.normalize P 1 (.int n) = .ok (.int n) :=
    Json.normalize_int (by omega) h0 (h1.trans (by decide))
  intro p hp
  simp only [Event.coreFields, List.mem_cons, List.not_mem_nil, or_false] at hp
  rcases hp with rfl | rfl | rfl | rfl | rfl | rfl | rfl | rfl | rfl | rfl | rfl | rfl | rfl | rfl
  · exact Json.normalize_str (by omega) (plain_of_ascii hP (by rw [h.schema]; decide))
  · exact Json.normalize_str (by omega) h.runId.plain
  · exact Json.normalize_str (by omega) h.grantId.plain
  · exact Json.normalize_str (by omega) (h.manifest.plain hP)
  · exact hint h.sequence.1 h.sequence.2
  · exact Json.normalize_int (by omega) h.time.1 h.time.2
  · exact Json.normalize_str (by omega) (plain_of_ascii hP e.eventCode.name_plain)
  · refine Json.normalize_optional (by omega) fun n hn => ?_
    have := h.ordinal n hn
    exact hint this.1 (by omega)
  · exact Json.normalize_optional (by omega) fun s hs =>
      Json.normalize_str (by omega) (h.scenario s hs).plain
  · exact Json.normalize_optional (by omega) fun s hs =>
      Json.normalize_str (by omega) (h.role s hs).plain
  · refine Json.normalize_optional (by omega) fun n hn => ?_
    have := h.attempt n hn
    exact hint (by omega) (by omega)
  · exact Json.normalize_str (by omega) h.detail.plain
  · exact normalize_counters hP h.counters
  · exact Json.normalize_str (by omega) (h.previous.plain hP)

/-- The core extended by further members of the record normalises to itself. -/
theorem Event.Safe.normalize_obj (hP : Lawful P) {e : Event} (h : e.Safe P)
    {extra : List (String × Json)} (hkeys : coreKeys ++ extra.map Prod.fst <+: recordKeys)
    (hvalues : ∀ p ∈ extra, Json.normalize P 1 p.2 = .ok p.2) :
    Json.normalize P 0 (.obj (e.coreFields ++ extra)) = .ok (.obj (e.coreFields ++ extra)) := by
  have hmap : (e.coreFields ++ extra).map Prod.fst = coreKeys ++ extra.map Prod.fst := by
    rw [List.map_append, coreFields_keys]
  have hnodup : recordKeys.Nodup := by decide
  refine Json.normalize_obj (by omega) ?_ ?_ (by rw [hmap]; exact hkeys.sublist.nodup hnodup)
  · intro p hp
    apply recordKeys_plain hP
    apply hkeys.subset
    rw [← hmap]
    exact List.mem_map_of_mem hp
  · intro p hp
    rcases List.mem_append.mp hp with hc | hc
    · exact h.coreFields hP p hc
    · exact hvalues p hc

theorem Event.Safe.core (hP : Lawful P) {e : Event} (h : e.Safe P) :
    Json.normalize P 0 e.core = .ok e.core := by
  have hcore : Json.normalize P 0 (.obj (e.coreFields ++ [])) = .ok (.obj (e.coreFields ++ [])) :=
    h.normalize_obj hP (by decide) (by simp)
  simpa [Event.core] using hcore

theorem Event.Safe.signed (hP : Lawful P) {e : Event} (h : e.Safe P) (hd : IsDigest e.eventDigest) :
    Json.normalize P 0 e.signed = .ok e.signed := by
  refine h.normalize_obj hP ⟨["signature_b64"], rfl⟩ ?_
  intro p hp
  simp only [List.mem_cons, List.not_mem_nil, or_false] at hp
  rcases hp with rfl | rfl
  · exact Json.normalize_str (by omega) (hd.plain hP)
  · exact Json.normalize_str (by omega) h.keyId.plain

theorem signature_plain (hP : Lawful P) {bytes : List UInt8} (hlen : bytes.length = 64) :
    PlainText P (String.ofList (b64encode bytes)) where
  noControl := by
    rw [String.toList_ofList]
    refine List.all_eq_true.mpr fun c hc => ?_
    have := b64encode_plain bytes c hc
    simp only [isPlainChar, Bool.and_eq_true] at this
    exact this.2
  nfc := by
    refine hP.nfc_ascii _ ?_
    rw [isAscii, String.toList_ofList]
    refine List.all_eq_true.mpr fun c hc => ?_
    have := b64encode_plain bytes c hc
    simp only [isPlainChar, Bool.and_eq_true] at this
    exact this.1
  size := by
    rw [String.toList_ofList]
    have h1 := byteSize_le_length (b64encode bytes)
    have h2 := b64encode_length bytes
    omega

theorem Event.Safe.record (hP : Lawful P) {e : Event} (h : e.Safe P) (hd : IsDigest e.eventDigest)
    (hs : e.signature.length = 64) : Json.normalize P 0 e.record = .ok e.record := by
  refine h.normalize_obj hP (List.prefix_refl _) ?_
  intro p hp
  simp only [List.mem_cons, List.not_mem_nil, or_false] at hp
  rcases hp with rfl | rfl | rfl
  · exact Json.normalize_str (by omega) (hd.plain hP)
  · exact Json.normalize_str (by omega) h.keyId.plain
  · exact Json.normalize_str (by omega) (signature_plain hP hs)

theorem IsDigest.byteSize_le {s : String} (h : IsDigest s) : byteSize s.toList ≤ 400 := by
  have := byteSize_le_length s.toList
  rw [String.length_toList, h.1] at this
  omega

theorem byteSize_str {s : String} (h : byteSize s.toList ≤ 400) :
    byteSize (Json.dumps (.str s)) ≤ 2500 := by
  have := Json.byteSize_quote s
  rw [Json.dumps]
  omega

theorem byteSize_dumps_int {n : Int} (h0 : 0 ≤ n) (h1 : n ≤ Json.safeInt) :
    byteSize (Json.dumps (.int n)) ≤ 2500 := by
  have := Json.byteSize_int h0 h1
  rw [Json.dumps]
  omega

theorem byteSize_optional {α : Type} {f : α → Json} {o : Option α}
    (h : ∀ a, o = some a → byteSize (Json.dumps (f a)) ≤ 2500) :
    byteSize (Json.dumps (Json.optional f o)) ≤ 2500 := by
  cases o with
  | none =>
    have hnull : byteSize (Json.dumps .null) ≤ 2500 := by decide
    exact hnull
  | some a => exact h a rfl

theorem byteSize_counters {c : Counters} (h : ∀ f, 0 ≤ c.get f ∧ c.get f ≤ f.ceiling) :
    byteSize (Json.dumps c.json) ≤ 2500 := by
  have hkeys : ∀ f ∈ CounterField.all, byteSize f.name.toList ≤ 20 := by
    simp only [toList_eq]
    decide +kernel
  refine (Json.byteSize_obj_le (k := 20) (m := 64) ?_ ?_).trans (by simp [CounterField.all])
  · intro p hp
    obtain ⟨f, hf, rfl⟩ := List.mem_map.mp hp
    exact hkeys f hf
  · intro p hp
    obtain ⟨f, hf, rfl⟩ := List.mem_map.mp hp
    rw [Json.dumps]
    exact Json.byteSize_int (h f).1 ((h f).2.trans f.ceiling_le)

theorem Event.Safe.byteSize_record {e : Event} (h : e.Safe P) (hd : IsDigest e.eventDigest)
    (hs : e.signature.length = 64) : byteSize (Json.dumps e.record) ≤ maxMetadataBytes := by
  have hkeys : ∀ k ∈ recordKeys, byteSize k.toList ≤ 30 := by
    simp only [toList_eq]
    decide +kernel
  have hnames : ∀ c : EventCode, byteSize c.name.toList ≤ 400 := by
    intro c
    rw [toList_eq]
    cases c <;> decide +kernel
  have hsmall {n : Int} (h0 : 0 ≤ n) (h1 : n ≤ 99999) : byteSize (Json.dumps (.int n)) ≤ 2500 :=
    byteSize_dumps_int h0 (h1.trans (by decide))
  have hsafe {s : String} (hs : SafeText P s) : byteSize (Json.dumps (.str s)) ≤ 2500 :=
    byteSize_str (hs.size.trans (by decide))
  have hsignature : byteSize (String.ofList (b64encode e.signature)).toList ≤ 400 := by
    rw [String.toList_ofList]
    have h1 := byteSize_le_length (b64encode e.signature)
    have h2 := b64encode_length e.signature
    omega
  refine (Json.byteSize_obj_le (k := 30) (m := 2500) ?_ ?_).trans
    (by simp [Event.coreFields, maxMetadataBytes])
  · intro p hp
    exact hkeys p.1 (List.mem_map_of_mem (f := Prod.fst) hp)
  · intro p hp
    simp only [Event.coreFields, List.cons_append, List.nil_append, List.mem_cons,
      List.not_mem_nil, or_false] at hp
    rcases hp with rfl | rfl | rfl | rfl | rfl | rfl | rfl | rfl | rfl | rfl | rfl | rfl | rfl |
      rfl | rfl | rfl | rfl
    · exact byteSize_str (by rw [h.schema]; decide)
    · exact hsafe h.runId
    · exact hsafe h.grantId
    · exact byteSize_str h.manifest.byteSize_le
    · exact hsmall h.sequence.1 h.sequence.2
    · exact byteSize_dumps_int h.time.1 h.time.2
    · exact byteSize_str (hnames e.eventCode)
    · refine byteSize_optional fun n hn => ?_
      have := h.ordinal n hn
      exact hsmall this.1 (by omega)
    · exact byteSize_optional fun t ht => hsafe (h.scenario t ht)
    · exact byteSize_optional fun t ht => hsafe (h.role t ht)
    · refine byteSize_optional fun n hn => ?_
      have := h.attempt n hn
      exact hsmall (by omega) (by omega)
    · exact hsafe h.detail
    · exact byteSize_counters h.counters
    · exact byteSize_str h.previous.byteSize_le
    · exact byteSize_str hd.byteSize_le
    · exact hsafe h.keyId
    · exact byteSize_str hsignature

/-- The texts of the log are safe and its signer returns 64 bytes. -/
structure ContainmentLog.Safe (P : Platform) (L : ContainmentLog) : Prop where
  runId : SafeText P L.runId
  grantId : SafeText P L.grantId
  keyId : SafeText P L.signer.keyId
  signature : ∀ message, (L.signer.sign message).length = 64

/-- A call whose arguments are in the ranges of `_validate_event`; `c` is what the last counters
become under the override. -/
structure SafeCall (P : Platform) (clockMs : Int) (call : AppendCall) (code : EventCode)
    (c : Counters) : Prop where
  code : EventCode.ofName call.eventCode = some code
  time : 0 ≤ clockMs ∧ clockMs ≤ Json.safeInt
  ordinal : ∀ n, call.actionOrdinal = some n → 0 ≤ n ∧ n ≤ 19
  scenario : ∀ s, call.scenarioId = some s → SafeText P s
  role : ∀ s, call.semanticRole = some s → SafeText P s
  attempt : ∀ n, call.attempt = some n → 1 ≤ n ∧ n ≤ 2
  binding : call.actionOrdinal.isSome = call.scenarioId.isSome ∧
    call.scenarioId.isSome = call.semanticRole.isSome ∧
    call.semanticRole.isSome = call.attempt.isSome
  detail : SafeText P call.detailCode
  counters : ∀ f, 0 ≤ c.get f ∧ c.get f ≤ f.ceiling
  completed : c.requestsCompleted ≤ c.requestsStarted

theorem integer_ok {value maximum : Int} {label : String} (h : 0 ≤ value ∧ value ≤ maximum) :
    integer value label maximum = .ok () := by
  rw [integer, require_ok]
  exact h

theorem validateCounters_ok {c : Counters} (h : ∀ f, 0 ≤ c.get f ∧ c.get f ≤ f.ceiling)
    (hc : c.requestsCompleted ≤ c.requestsStarted) : validateCounters c = .ok () := by
  simp [validateCounters, CounterField.all, integer_ok (h _), hc, pure, Except.pure]

theorem Event.Safe.validateBinding {e : Event} (h : e.Safe P)
    (hb : e.actionOrdinal.isSome = e.scenarioId.isSome ∧
      e.scenarioId.isSome = e.semanticRole.isSome ∧ e.semanticRole.isSome = e.attempt.isSome) :
    validateBinding e = .ok () := by
  unfold Containment.validateBinding
  split
  · rfl
  · rename_i n s r a hn hs hr ha
    have hattempt := h.attempt a ha
    have hrange : 0 ≤ a ∧ a ≤ 2 := ⟨by omega, hattempt.2⟩
    simp [integer_ok (h.ordinal n hn), (h.scenario s hs).identifier, (h.role r hr).identifier,
      integer_ok hrange, hattempt.1]
  · rename_i hnone hsome
    exfalso
    cases h1 : e.actionOrdinal with
    | none => cases h2 : e.scenarioId <;> cases h3 : e.semanticRole <;> cases h4 : e.attempt <;>
        simp_all
    | some n =>
      cases h2 : e.scenarioId with
      | none => simp_all
      | some s =>
        cases h3 : e.semanticRole with
        | none => simp_all
        | some r =>
          cases h4 : e.attempt with
          | none => simp_all
          | some a => exact hsome n s r a h1 h2 h3 h4

/-- A safe event in its place of the chain passes `_validate_event`. -/
theorem Event.Safe.validateEvent (hP : Lawful P) {e : Event} (h : e.Safe P) {n : Nat}
    (hb : e.actionOrdinal.isSome = e.scenarioId.isSome ∧
      e.scenarioId.isSome = e.semanticRole.isSome ∧ e.semanticRole.isSome = e.attempt.isSome)
    (hc : e.counters.requestsCompleted ≤ e.counters.requestsStarted) (hn : e.sequence = n)
    (hd : e.eventDigest = P.sha256 (Json.dumps e.core)) (hs : e.signature.length = 64) :
    validateEvent P e n e.previousEventDigest = .ok () := by
  have hdigest : Json.canonicalDigest P e.core = .ok (P.sha256 (Json.dumps e.core)) := by
    simp [Json.canonicalDigest, Json.canonicalBytes_fixed (h.core hP), pure, Except.pure]
  have hmanifest : digest e.manifestDigest "manifest digest" = .ok () := by
    rw [digest, require_ok]
    exact h.manifest
  have htime : integer e.occurredAtMs "event timestamp" 9007199254740991 = .ok () :=
    integer_ok h.time
  have hseq : integer n "event sequence" 99999 = .ok () := by
    rw [← hn]
    exact integer_ok h.sequence
  simp [Containment.validateEvent, h.runId.identifier, h.grantId.identifier, h.detail.identifier,
    h.keyId.identifier, hmanifest, hseq, htime, h.validateBinding hb,
    validateCounters_ok h.counters hc, hdigest, h.schema, hn, ← hd, hs]

theorem Accepted.previous_isDigest (hP : Lawful P) {B : ChainBinding} {events : List Event}
    (h : Accepted P B events) : IsDigest (headOf events).previous := by
  cases events using List.reverseRecOn with
  | nil => exact ⟨by decide, by decide⟩
  | append_singleton xs x =>
    obtain ⟨_, hx⟩ := (accepted_concat P B xs x).mp h
    obtain ⟨u, hvalid, _⟩ := (bind_ok _ _ _).mp hx
    obtain ⟨bytes, _, hdigest⟩ := validateEvent_digest hvalid
    rw [headOf_concat]
    simpa [ChainHead.after, hdigest, IsDigest] using hP.sha256_hex bytes

/-- Appending a safe call to a chain that loads returns normally. -/
theorem ContainmentLog.append_succeeds (hP : Lawful P) {L : ContainmentLog} (hL : L.Safe P)
    {clockMs : Int} {store : List Event} {call : AppendCall} {code : EventCode}
    {counters : Counters} (hacc : Accepted P L.binding store) (hlen : store.length < 100000)
    (hcounters : overrideCounters (headOf store).previousCounters
      call.counters.items = .ok counters)
    (hcall : SafeCall P clockMs call code counters) :
    ∃ e stored, L.append P clockMs store call = .ok (e, stored) ∧ e.counters = counters := by
  obtain ⟨out, hload⟩ := (accepts_iff _).mp hacc
  obtain ⟨rfl, _⟩ := verifyContainmentChain_ok hload
  have hsafe (d : String) (g : List UInt8) : Event.Safe P
      { L.draft clockMs out code call counters with eventDigest := d, signature := g } :=
    { schema := rfl, runId := hL.runId, grantId := hL.grantId
      manifest := by
        have := L.manifestDigest_ok
        rwa [digest, require_ok] at this
      sequence := by
        show (0 : Int) ≤ (out.length : Int) ∧ (out.length : Int) ≤ 99999
        omega
      time := hcall.time, ordinal := hcall.ordinal, scenario := hcall.scenario
      role := hcall.role, attempt := hcall.attempt, detail := hcall.detail
      counters := hcall.counters, previous := hacc.previous_isDigest hP, keyId := hL.keyId }
  -- the digest and the signature are the ones `append` computes
  set draft := L.draft clockMs out code call counters with hdraft
  set d := P.sha256 (Json.dumps draft.core) with hd
  have hdd : IsDigest d := hP.sha256_hex _
  set g := L.signer.sign (localEventDomain ++ Json.dumps { draft with eventDigest := d }.signed)
  have hg : g.length = 64 := hL.signature _
  have hdigest : Json.canonicalDigest P draft.core = .ok d := by
    have := (hsafe "" []).core hP
    simp only [Json.canonicalDigest, pure, Except.pure]
    rw [show draft.core = { draft with eventDigest := "", signature := [] }.core from rfl,
      Json.canonicalBytes_fixed this]
    rfl
  have hmessage : Json.canonicalBytes P { draft with eventDigest := d }.signed =
      .ok (Json.dumps { draft with eventDigest := d }.signed) :=
    Json.canonicalBytes_fixed ((hsafe d []).signed hP hdd)
  have hvalid := (hsafe d g).validateEvent hP (n := out.length) hcall.binding hcall.completed rfl
    rfl hg
  have hstored : appendRunEvent P out { draft with eventDigest := d, signature := g } =
      .ok (out ++ [{ draft with eventDigest := d, signature := g }.mapText P.nfc]) := by
    simp only [appendRunEvent, bind_ok, require_ok, exists_const, pure, Except.pure, and_true]
    refine ⟨?_, rfl, _, Json.canonicalBytes_fixed ((hsafe d g).record hP hdd hg),
      (hsafe d g).byteSize_record hdd hg⟩
    show (0 : Int) ≤ (out.length : Int) ∧ (out.length : Int) < 100000
    omega
  refine ⟨{ draft with eventDigest := d, signature := g },
    out ++ [{ draft with eventDigest := d, signature := g }.mapText P.nfc], ?_, rfl⟩
  unfold append
  rw [hcall.code]
  simp only [bind_ok, require_ok, exists_const, pure, Except.pure, load, hload, hcounters,
    Except.ok.injEq, exists_eq_left']
  exact ⟨d, hdigest, _, hmessage, hg, (), hvalid, _, hstored, rfl⟩

end Heel.Containment
