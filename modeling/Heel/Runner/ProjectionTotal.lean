import Mathlib.Data.List.ReduceOption
import Heel.Runner.AppendTotal
import Heel.Runner.Executor

/-! Signing an operational projection whose members are in range returns normally. -/
namespace Heel
open Lib Lib.Checks Containment
open Literal (toList_eq)

namespace Json
variable {P : Platform} {depth : Nat}

theorem normalizeItems_fixed {items : List Json}
    (h : ∀ item ∈ items, normalize P depth item = .ok item) :
    normalizeItems P depth items = .ok items := by
  induction items with
  | nil => simp [normalizeItems, pure, Except.pure]
  | cons item rest ih =>
    have hrest := ih fun x hx => h x (List.mem_cons_of_mem _ hx)
    simp only [normalizeItems, bind_ok, h item (by simp), hrest, pure, Except.pure,
      Except.ok.injEq, exists_eq_left']

theorem normalize_arr {items : List Json} (hd : depth ≤ 16)
    (h : ∀ item ∈ items, normalize P (depth+1) item = .ok item) :
    normalize P depth (.arr items) = .ok (.arr items) := by
  simp [normalize, hd, normalizeItems_fixed h, pure, Except.pure]

theorem byteSize_arr_le {items : List Json} {m : Nat}
    (h : ∀ item ∈ items, byteSize (dumps item) ≤ m) :
    byteSize (dumps (.arr items)) ≤ 2 + items.length * (m + 1) := by
  have hopen : '['.utf8Size = 1 ∧ byteSize [']'] = 1 := by decide
  have hinter := byteSize_intercalate (dumpsItems items)
  have hitem : ∀ x ∈ (dumpsItems items).map (fun x => byteSize x + 1), x ≤ m + 1 := by
    intro x hx
    rw [dumpsItems_map, List.map_map] at hx
    obtain ⟨item, hitem, rfl⟩ := List.mem_map.mp hx
    exact Nat.succ_le_succ (h item hitem)
  have hsum := List.sum_le_card_nsmul _ _ hitem
  rw [List.length_map, dumpsItems_map, List.length_map, smul_eq_mul] at hsum
  rw [dumpsItems_map] at hinter
  rw [dumps, dumpsItems_map, byteSize_cons, byteSize_append]
  omega

end Json

namespace OperationalRun
variable {P : Platform} {v : OperationalRun}

def versionsJson (v : OperationalRun) : Json :=
  .obj [("runner_version", .str v.runnerVersion), ("engine_version", .str v.engineVersion),
    ("adapter_versions", .arr (v.adapterVersions.map .str))]

/-- The members of a projection are in the ranges of `validate_operational_run`. -/
structure Safe (P : Platform) (v : OperationalRun) : Prop where
  ids : ∀ s ∈ [v.runId, v.grantId, v.workspaceId, v.projectId, v.runnerVersion, v.engineVersion,
    v.signingKeyId], SafeText P s
  digests : ∀ s ∈ [v.manifestDigest, v.approvalProjectionDigest, v.grantDigest], IsDigest s
  sequence : 0 ≤ v.eventSequence ∧ v.eventSequence ≤ Json.safeInt
  disposition : (v.lifecyclePhase = .terminal) ↔ v.executionDisposition ≠ none
  times : ∀ m ∈ v.timestamps.updatedAtMs :: (v.timestamps.events ++
    [v.timestamps.terminalAtMs]).reduceOption, 0 ≤ m ∧ m ≤ Json.safeInt
  timestamps : validateTimestamps v.lifecyclePhase v.timestamps = .ok ()
  values : ∀ n ∈ v.counters.values, 0 ≤ n ∧ n ≤ Json.safeInt
  counters : validateRunCounters v.counters = .ok ()
  adapters : ∀ s ∈ v.adapterVersions, SafeText P s
  adaptersSorted : contractSortedUnique v.adapterVersions = .ok ()
  versions : byteSize (Json.dumps v.versionsJson) ≤ 1300
  codes : validateContainmentCodes v.containmentCodes = .ok ()
  codesLength : v.containmentCodes.length ≤ 9
  redaction : 0 ≤ v.redactionCount ∧ v.redactionCount ≤ Json.safeInt

/-- The names a projection writes are plain ASCII of at most 32 characters. -/
def ShortName (s : String) : Prop := isPlainAscii s = true ∧ byteSize s.toList ≤ 32

theorem shortNames :
    (∀ x : Phase, ShortName x.name) ∧ (∀ x : Disposition, ShortName x.name) ∧
      (∀ x : ErrorCategory, ShortName x.name) ∧ (∀ x : StopReason, ShortName x.name) ∧
      (∀ x : EventCode, ShortName x.name) := by
  simp only [ShortName, isPlainAscii_chars, toList_eq]
  refine ⟨?_, ?_, ?_, ?_, ?_⟩ <;> intro x <;> cases x <;> decide +kernel

theorem ShortName.plain (hP : Lawful P) {s : String} (h : ShortName s) : PlainText P s :=
  plain_of_ascii hP h.1

def fieldKeys : List String :=
  ["schema_version", "run_id", "grant_id", "workspace_id", "project_id", "manifest_digest",
   "approval_projection_digest", "grant_digest", "event_sequence", "lifecycle_phase",
   "execution_disposition", "timestamps", "counters", "versions", "error_category", "stop_reason",
   "containment_codes", "redaction_count"]

def allKeys : List String := fieldKeys ++ ["projection_digest", "signing_key_id", "signature_b64"]

example : allKeys.Nodup := by decide +kernel

theorem unsignedFields_keys (v : OperationalRun) : v.unsignedFields.map Prod.fst = fieldKeys := rfl

theorem normalize_times (hP : Lawful P) (h : Safe P v) :
    Json.normalize P 1 (timestampsJson v.timestamps) = .ok (timestampsJson v.timestamps) := by
  have hkeys : ∀ p ∈ ["claimed_at_ms", "started_at_ms", "updated_at_ms", "stop_requested_at_ms",
      "stop_acknowledged_at_ms", "terminal_at_ms"], isPlainAscii p = true := by
    simp only [isPlainAscii_chars]
    decide +kernel
  have hopt : ∀ o ∈ v.timestamps.events ++ [v.timestamps.terminalAtMs],
      Json.normalize P 2 (Json.optional .int o) = .ok (Json.optional .int o) := by
    intro o ho
    refine Json.normalize_optional (by omega) fun m hm => ?_
    have hr := h.times m (List.mem_cons_of_mem _ (List.reduceOption_mem_iff.mpr (hm ▸ ho)))
    exact Json.normalize_int (by omega) hr.1 hr.2
  have hupdated := h.times v.timestamps.updatedAtMs (by simp)
  refine Json.normalize_obj (by omega) ?_ ?_ (by simp)
  · intro p hp
    exact plain_of_ascii hP (hkeys p.1 (List.mem_map_of_mem (f := Prod.fst) hp))
  · intro p hp
    simp only [List.mem_cons, List.not_mem_nil, or_false] at hp
    rcases hp with rfl | rfl | rfl | rfl | rfl | rfl
    · exact hopt _ (by simp [Timestamps.events])
    · exact hopt _ (by simp [Timestamps.events])
    · exact Json.normalize_int (by omega) hupdated.1 hupdated.2
    · exact hopt _ (by simp [Timestamps.events])
    · exact hopt _ (by simp [Timestamps.events])
    · exact hopt _ (by simp)

theorem countersJson_values (c : RunCounters) : ∀ p ∈ (CounterField.all.map fun f =>
      (f.name, Json.int (c.toCounters.get f))) ++
    [("remaining_requests", .int c.remainingRequests),
      ("remaining_wall_ms", .int c.remainingWallMs)],
    ∃ n ∈ c.values, p.2 = .int n := by
  intro p hp
  cases List.mem_append.mp hp with
  | inl hp =>
    obtain ⟨f, hf, rfl⟩ := List.mem_map.mp hp
    exact ⟨_, List.mem_append_left _ (List.mem_map_of_mem hf), rfl⟩
  | inr hp =>
    simp only [List.mem_cons, List.not_mem_nil, or_false] at hp
    cases hp with
    | inl hp => exact ⟨c.remainingRequests, List.mem_append_right _ (by simp), by rw [hp]⟩
    | inr hp => exact ⟨c.remainingWallMs, List.mem_append_right _ (by simp), by rw [hp]⟩

def counterKeys : List String :=
  CounterField.all.map CounterField.name ++ ["remaining_requests", "remaining_wall_ms"]

example : counterKeys.Nodup := by decide +kernel

theorem normalize_runCounters (hP : Lawful P) (h : Safe P v) :
    Json.normalize P 1 (countersJson v.counters) = .ok (countersJson v.counters) := by
  have hkeys : ∀ k ∈ counterKeys, isPlainAscii k = true := by
    simp only [isPlainAscii_chars]
    decide +kernel
  have hnodup : counterKeys.Nodup := by decide
  refine Json.normalize_obj (by omega) ?_ ?_ hnodup
  · intro p hp
    exact plain_of_ascii hP (hkeys p.1 (List.mem_map_of_mem (f := Prod.fst) hp))
  · intro p hp
    obtain ⟨n, hn, hp⟩ := countersJson_values v.counters p hp
    rw [hp]
    exact Json.normalize_int (by omega) (h.values n hn).1 (h.values n hn).2

theorem normalize_versions (hP : Lawful P) (h : Safe P v) :
    Json.normalize P 1 v.versionsJson = .ok v.versionsJson := by
  have hkeys : ∀ k ∈ ["runner_version", "engine_version", "adapter_versions"],
      isPlainAscii k = true := by
    simp only [isPlainAscii_chars]
    decide +kernel
  refine Json.normalize_obj (by omega) ?_ ?_ (by simp)
  · intro p hp
    exact plain_of_ascii hP (hkeys p.1 (List.mem_map_of_mem (f := Prod.fst) hp))
  · intro p hp
    simp only [List.mem_cons, List.not_mem_nil, or_false] at hp
    rcases hp with rfl | rfl | rfl
    · exact Json.normalize_str (by omega) (h.ids _ (by simp)).plain
    · exact Json.normalize_str (by omega) (h.ids _ (by simp)).plain
    · refine Json.normalize_arr (by omega) ?_
      intro item hitem
      obtain ⟨s, hs, rfl⟩ := List.mem_map.mp hitem
      exact Json.normalize_str (by omega) (h.adapters s hs).plain

theorem normalize_codes (hP : Lawful P) (codes : List EventCode) :
    Json.normalize P 1 (.arr (codes.map fun c => .str c.name)) =
      .ok (.arr (codes.map fun c => .str c.name)) := by
  refine Json.normalize_arr (by omega) ?_
  intro item hitem
  obtain ⟨c, _, rfl⟩ := List.mem_map.mp hitem
  exact Json.normalize_str (by omega) ((shortNames.2.2.2.2 c).plain hP)

/-- Every member under the signature is one that `_normalize` returns unchanged. -/
theorem Safe.unsignedFields (hP : Lawful P) (h : Safe P v) :
    ∀ p ∈ v.unsignedFields, Json.normalize P 1 p.2 = .ok p.2 := by
  have hschema : isPlainAscii schema = true := by
    simp only [isPlainAscii_chars]
    decide +kernel
  have htext : ∀ {s : String}, PlainText P s → Json.normalize P 1 (.str s) = .ok (.str s) :=
    fun hs => Json.normalize_str (by omega) hs
  have hint : ∀ {n : Int}, 0 ≤ n ∧ n ≤ Json.safeInt → Json.normalize P 1 (.int n) = .ok (.int n) :=
    fun hn => Json.normalize_int (by omega) hn.1 hn.2
  obtain ⟨hphase, hdisposition, herror, hstop, _⟩ := shortNames
  intro p hp
  simp only [OperationalRun.unsignedFields, List.mem_cons, List.not_mem_nil, or_false] at hp
  rcases hp with rfl | rfl | rfl | rfl | rfl | rfl | rfl | rfl | rfl | rfl | rfl | rfl | rfl |
    rfl | rfl | rfl | rfl | rfl
  · exact htext (plain_of_ascii hP hschema)
  · exact htext (h.ids _ (by simp)).plain
  · exact htext (h.ids _ (by simp)).plain
  · exact htext (h.ids _ (by simp)).plain
  · exact htext (h.ids _ (by simp)).plain
  · exact htext ((h.digests _ (by simp)).plain hP)
  · exact htext ((h.digests _ (by simp)).plain hP)
  · exact htext ((h.digests _ (by simp)).plain hP)
  · exact hint h.sequence
  · exact htext ((hphase _).plain hP)
  · exact Json.normalize_optional (by omega) fun d _ => htext ((hdisposition d).plain hP)
  · exact normalize_times hP h
  · exact normalize_runCounters hP h
  · exact normalize_versions hP h
  · exact htext ((herror _).plain hP)
  · exact htext ((hstop _).plain hP)
  · exact normalize_codes hP v.containmentCodes
  · exact hint h.redaction

theorem allKeys_plain (hP : Lawful P) {k : String} (hk : k ∈ allKeys) : PlainText P k := by
  have hall : ∀ k ∈ allKeys, isPlainAscii k = true := by
    simp only [isPlainAscii_chars]
    decide +kernel
  exact plain_of_ascii hP (hall k hk)

theorem Safe.unsigned (hP : Lawful P) (h : Safe P v) :
    Json.normalize P 0 v.unsigned = .ok v.unsigned := by
  have hnodup : fieldKeys.Nodup := by decide
  refine Json.normalize_obj (by omega) ?_ (h.unsignedFields hP) hnodup
  intro p hp
  refine allKeys_plain hP (List.mem_append_left _ ?_)
  rw [← unsignedFields_keys v]
  exact List.mem_map_of_mem hp

theorem Safe.record (hP : Lawful P) (h : Safe P v) (hd : IsDigest v.projectionDigest)
    (hs : v.signature.length = 64) : Json.normalize P 0 v.record = .ok v.record := by
  have hnodup : allKeys.Nodup := by decide
  have hmap : v.record = .obj (v.unsignedFields ++ [("projection_digest", .str v.projectionDigest),
    ("signing_key_id", .str v.signingKeyId),
    ("signature_b64", .str (String.ofList (b64encode v.signature)))]) := rfl
  rw [hmap]
  refine Json.normalize_obj (by omega) ?_ ?_
    (by rw [List.map_append, unsignedFields_keys]; exact hnodup)
  · intro p hp
    refine allKeys_plain hP ?_
    have := List.mem_map_of_mem (f := Prod.fst) hp
    rw [List.map_append, unsignedFields_keys] at this
    exact this
  · intro p hp
    cases List.mem_append.mp hp with
    | inl hp => exact h.unsignedFields hP p hp
    | inr hp =>
      simp only [List.mem_cons, List.not_mem_nil, or_false] at hp
      rcases hp with rfl | rfl | rfl
      · exact Json.normalize_str (by omega) (hd.plain hP)
      · exact Json.normalize_str (by omega) (h.ids _ (by simp)).plain
      · exact Json.normalize_str (by omega) (signature_plain hP hs)

theorem byteSize_text {s : String} (h : byteSize s.toList ≤ 128) :
    byteSize (Json.dumps (.str s)) ≤ 1300 := by
  have := Json.byteSize_quote s
  rw [Json.dumps]
  omega

example : byteSize (Json.dumps .null) = 4 := by decide +kernel

theorem byteSize_plain {text : List Char} (h : ∀ c ∈ text, isPlainChar c = true) :
    byteSize text = text.length := by
  induction text with
  | nil => rfl
  | cons c rest ih =>
    have hc := h c (by simp)
    simp only [isPlainChar, Bool.and_eq_true, decide_eq_true_eq] at hc
    have hsize : c.utf8Size = 1 := by
      have : c.val ≤ 127 := by
        have := hc.1
        simp only [Char.toNat] at this
        exact UInt32.le_iff_toNat_le.mpr (by simpa using Nat.lt_succ_iff.mp this)
      simp [Char.utf8Size, this]
    rw [byteSize_cons, hsize, ih fun d hd => h d (List.mem_cons_of_mem _ hd), List.length_cons]
    omega

theorem byteSize_hex {s : String} (h : IsDigest s) : byteSize s.toList ≤ 128 := by
  have hall : "0123456789abcdef".toList.all isPlainChar = true := by
    simp only [toList_eq]
    decide +kernel
  have hplain : ∀ c ∈ s.toList, isPlainChar c = true := by
    intro c hc
    refine List.all_eq_true.mp hall c ?_
    simpa [isHexDigit] using List.all_eq_true.mp h.2 c hc
  rw [byteSize_plain hplain, String.length_toList, h.1]
  omega

theorem byteSize_signature {bytes : List UInt8} (h : bytes.length = 64) :
    byteSize (String.ofList (b64encode bytes)).toList ≤ 128 := by
  have hlen := b64encode_length bytes
  rw [String.toList_ofList, byteSize_plain (b64encode_plain bytes)]
  omega

theorem byteSize_number {n : Int} (h : 0 ≤ n ∧ n ≤ Json.safeInt) :
    byteSize (Json.dumps (.int n)) ≤ 64 := by
  rw [Json.dumps]
  exact Json.byteSize_int h.1 h.2

theorem byteSize_times (h : Safe P v) :
    byteSize (Json.dumps (timestampsJson v.timestamps)) ≤ 1300 := by
  have hkeys : ∀ k ∈ ["claimed_at_ms", "started_at_ms", "updated_at_ms", "stop_requested_at_ms",
      "stop_acknowledged_at_ms", "terminal_at_ms"], byteSize k.toList ≤ 23 := by
    simp only [toList_eq]
    decide +kernel
  have hnull : byteSize (Json.dumps .null) ≤ 64 := by decide
  have hopt : ∀ o ∈ v.timestamps.events ++ [v.timestamps.terminalAtMs],
      byteSize (Json.dumps (Json.optional .int o)) ≤ 64 := by
    intro o ho
    cases o with
    | none => exact hnull
    | some m =>
      exact byteSize_number (h.times m (List.mem_cons_of_mem _ (List.reduceOption_mem_iff.mpr ho)))
  refine (Json.byteSize_obj_le (k := 23) (m := 64) ?_ ?_).trans (by simp)
  · intro p hp
    exact hkeys p.1 (List.mem_map_of_mem (f := Prod.fst) hp)
  · intro p hp
    simp only [List.mem_cons, List.not_mem_nil, or_false] at hp
    rcases hp with rfl | rfl | rfl | rfl | rfl | rfl
    · exact hopt _ (by simp [Timestamps.events])
    · exact hopt _ (by simp [Timestamps.events])
    · exact byteSize_number (h.times _ (by simp))
    · exact hopt _ (by simp [Timestamps.events])
    · exact hopt _ (by simp [Timestamps.events])
    · exact hopt _ (by simp)

theorem byteSize_runCounters (h : Safe P v) :
    byteSize (Json.dumps (countersJson v.counters)) ≤ 1300 := by
  have hkeys : ∀ k ∈ counterKeys, byteSize k.toList ≤ 19 := by
    simp only [toList_eq]
    decide +kernel
  refine (Json.byteSize_obj_le (k := 19) (m := 64) ?_ ?_).trans (by simp [CounterField.all])
  · intro p hp
    exact hkeys p.1 (List.mem_map_of_mem (f := Prod.fst) hp)
  · intro p hp
    obtain ⟨n, hn, hp⟩ := countersJson_values v.counters p hp
    rw [hp]
    exact byteSize_number (h.values n hn)

theorem byteSize_codes (h : Safe P v) :
    byteSize (Json.dumps (.arr (v.containmentCodes.map fun c => .str c.name))) ≤ 1300 := by
  have hname : ∀ c : EventCode, byteSize c.name.toList ≤ 20 := by
    intro c
    rw [toList_eq]
    cases c <;> decide +kernel
  have hitem : ∀ item ∈ v.containmentCodes.map (fun c => Json.str c.name),
      byteSize (Json.dumps item) ≤ 122 := by
    intro item hitem
    obtain ⟨c, _, rfl⟩ := List.mem_map.mp hitem
    have h1 := Json.byteSize_quote c.name
    have h2 := hname c
    rw [Json.dumps]
    omega
  have hlen := h.codesLength
  refine (Json.byteSize_arr_le hitem).trans ?_
  rw [List.length_map]
  omega

theorem Safe.byteSize_record (h : Safe P v) (hd : IsDigest v.projectionDigest)
    (hs : v.signature.length = 64) : byteSize (Json.dumps v.record) ≤ 32 * 1024 := by
  have hkeys : ∀ k ∈ allKeys, byteSize k.toList ≤ 26 := by
    simp only [toList_eq]
    decide +kernel
  have hschema : byteSize schema.toList ≤ 128 := by
    simp only [toList_eq]
    decide +kernel
  have hid : ∀ s ∈ [v.runId, v.grantId, v.workspaceId, v.projectId, v.runnerVersion,
      v.engineVersion, v.signingKeyId], byteSize (Json.dumps (.str s)) ≤ 1300 :=
    fun s hs => byteSize_text (h.ids s hs).size
  have hdigest : ∀ s ∈ [v.manifestDigest, v.approvalProjectionDigest, v.grantDigest],
      byteSize (Json.dumps (.str s)) ≤ 1300 :=
      fun s hs => byteSize_text (byteSize_hex (h.digests s hs))
  have hname : ∀ {s : String}, ShortName s → byteSize (Json.dumps (.str s)) ≤ 1300 :=
    fun hs => byteSize_text (hs.2.trans (by decide))
  have hint : ∀ {n : Int}, 0 ≤ n ∧ n ≤ Json.safeInt → byteSize (Json.dumps (.int n)) ≤ 1300 :=
    fun hn => (byteSize_number hn).trans (by decide)
  have hnull : byteSize (Json.dumps .null) ≤ 1300 := by decide
  obtain ⟨hphase, hdisposition, herror, hstop, _⟩ := shortNames
  refine (Json.byteSize_obj_le (k := 26) (m := 1300) ?_ ?_).trans
    (by simp [OperationalRun.unsignedFields])
  · intro p hp
    have := List.mem_map_of_mem (f := Prod.fst) hp
    rw [List.map_append, unsignedFields_keys] at this
    exact hkeys p.1 this
  · intro p hp
    simp only [OperationalRun.unsignedFields, List.cons_append, List.nil_append, List.mem_cons,
      List.not_mem_nil, or_false] at hp
    rcases hp with rfl | rfl | rfl | rfl | rfl | rfl | rfl | rfl | rfl | rfl | rfl | rfl | rfl |
      rfl | rfl | rfl | rfl | rfl | rfl | rfl | rfl
    · exact byteSize_text hschema
    · exact hid _ (by simp)
    · exact hid _ (by simp)
    · exact hid _ (by simp)
    · exact hid _ (by simp)
    · exact hdigest _ (by simp)
    · exact hdigest _ (by simp)
    · exact hdigest _ (by simp)
    · exact hint h.sequence
    · exact hname (hphase _)
    · cases hd : v.executionDisposition with
      | none => exact hnull
      | some d => exact hname (hdisposition d)
    · exact byteSize_times h
    · exact byteSize_runCounters h
    · exact h.versions
    · exact hname (herror _)
    · exact hname (hstop _)
    · exact byteSize_codes h
    · exact hint h.redaction
    · exact byteSize_text (byteSize_hex hd)
    · exact hid _ (by simp)
    · exact byteSize_text (byteSize_signature hs)

theorem contractIdentifier_ok {s : String} (h : SafeText P s) : contractIdentifier s = .ok () := by
  simp only [contractIdentifier, bind_ok, require_ok, exists_const]
  exact ⟨h.size, h.nonempty⟩

theorem contractHash_ok {s : String} (h : IsDigest s) : contractHash s = .ok () := by
  have hne : s ≠ "" := by
    intro he
    have := h.1
    simp [he] at this
  simp only [contractHash, contractIdentifier, bind_ok, require_ok, exists_const]
  exact ⟨⟨byteSize_hex h, hne⟩, h⟩

theorem contractInteger_ok {n : Int} (h : 0 ≤ n ∧ n ≤ Json.safeInt) :
    contractInteger n = .ok () := by
  rw [contractInteger, require_ok]
  exact h

/-- A safe projection under its own digest and a signature of 64 bytes is valid. -/
theorem Safe.validate (hP : Lawful P) (h : Safe P v) (hs : v.signature.length = 64)
    (hd : v.projectionDigest = P.sha256 (Json.dumps v.unsigned)) :
    OperationalRun.validate P v = .ok () := by
  have hdigest : IsDigest v.projectionDigest := by
    rw [hd]
    exact hP.sha256_hex _
  have hids : ∀ s ∈ [v.runId, v.grantId, v.workspaceId, v.projectId],
      contractIdentifier s = .ok () := by
    have hsub : [v.runId, v.grantId, v.workspaceId, v.projectId] ⊆ [v.runId, v.grantId,
        v.workspaceId, v.projectId, v.runnerVersion, v.engineVersion, v.signingKeyId] := by simp
    exact fun s hs => contractIdentifier_ok (h.ids s (hsub hs))
  have hversions : ∀ s ∈ [v.runnerVersion, v.engineVersion], contractIdentifier s = .ok () := by
    have hsub : [v.runnerVersion, v.engineVersion] ⊆ [v.runId, v.grantId, v.workspaceId,
        v.projectId, v.runnerVersion, v.engineVersion, v.signingKeyId] := by simp
    exact fun s hs => contractIdentifier_ok (h.ids s (hsub hs))
  have hrecord := Json.canonicalBytes_fixed (h.record hP hdigest hs)
  have hunsigned := Json.canonicalBytes_fixed (h.unsigned hP)
  simp only [OperationalRun.validate, Json.canonicalDigest, bind_ok, require_ok, exists_const, pure,
    Except.pure, hrecord, hunsigned, Except.ok.injEq, exists_eq_left', forM_ok.mpr hids,
    forM_ok.mpr fun s hs => contractHash_ok (h.digests s hs), contractInteger_ok h.sequence,
    h.timestamps, h.counters, forM_ok.mpr hversions, h.adaptersSorted,
    forM_ok.mpr fun s hs => contractIdentifier_ok (h.adapters s hs), h.codes,
    contractInteger_ok h.redaction, contractHash_ok hdigest,
    contractIdentifier_ok (h.ids v.signingKeyId (by simp)), true_and]
  exact ⟨h.byteSize_record hdigest hs, h.disposition, hs, hd⟩

end OperationalRun

namespace Executor
variable {P : Platform} {B : Bundle P}

/-- What `_sign_projection` returns of a safe projection. -/
def signed (B : Bundle P) (v : OperationalRun) : OperationalRun :=
  { v with
    projectionDigest := P.sha256 (Json.dumps v.unsigned)
    signature := B.log.signer.sign (Json.dumps v.unsigned) }

theorem signed_safe {v : OperationalRun} (h : v.Safe P) : (signed B v).Safe P := { h with }

theorem signed_valid (hP : Lawful P) (hB : B.log.Safe P) {v : OperationalRun} (h : v.Safe P) :
    (signed B v).validate P = .ok () :=
  (signed_safe h).validate hP (hB.signature _) rfl

theorem signed_bytes (hP : Lawful P) {v : OperationalRun} (h : v.Safe P) :
    Json.canonicalBytes P (signed B v).unsigned = .ok (Json.dumps v.unsigned) :=
  Json.canonicalBytes_fixed ((signed_safe h).unsigned hP)

theorem signProjection_succeeds (hP : Lawful P) (hB : B.log.Safe P) {v : OperationalRun}
    (h : v.Safe P) : signProjection B v = .ok (signed B v) := by
  have hunsigned := Json.canonicalBytes_fixed (h.unsigned hP)
  simp only [signProjection, bind_ok, require_ok, exists_const, pure, Except.pure, hunsigned,
    Except.ok.injEq, exists_eq_left']
  exact ⟨hB.signature _, (), signed_valid hP hB h, rfl⟩

/-- A safe projection fits a receipt policy that allows its codes. -/
theorem withinPolicy_signed (hP : Lawful P) (hB : B.log.Safe P) {v : OperationalRun} (h : v.Safe P)
    (hbytes : 32 * 1024 ≤ B.receiptPolicy.maximumBytes)
    (herror : B.receiptPolicy.allowedErrorCategories.contains v.errorCategory = true)
    (hstop : B.receiptPolicy.allowedStopReasons.contains v.stopReason = true)
    (hcodes : v.containmentCodes.all (B.receiptPolicy.allowedContainmentCodes.contains ·) = true) :
    withinPolicy B (signed B v) = true := by
  have hlen := hB.signature (Json.dumps v.unsigned)
  have hsafe : (signed B v).Safe P := { h with }
  have hdigest : IsDigest (signed B v).projectionDigest := hP.sha256_hex _
  have hrecord := Json.canonicalBytes_fixed (hsafe.record hP hdigest hlen)
  have hsize := hsafe.byteSize_record hdigest hlen
  simp only [withinPolicy, hrecord, Bool.and_eq_true, decide_eq_true_eq]
  exact ⟨⟨⟨hsize.trans hbytes, herror⟩, hstop⟩, hcodes⟩

end Executor
end Heel
