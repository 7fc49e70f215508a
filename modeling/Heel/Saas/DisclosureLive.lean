import Heel.Runner.ChainRuns
import Heel.Runner.ProjectionTotal
import Heel.Saas.DisclosureRuns
import Heel.Saas.Lifecycle

/-! A request that waits for a choice can be permitted: the permit that is minted for it passes its
own contract. -/
namespace Heel.Cloud
open Lib Lib.Checks Containment

variable {P : Platform}

/-- A text that the contracts take as an identifier and leave as it is. -/
structure PortableText (P : Platform) (s : String) : Prop where
  nonempty : s ≠ ""
  size : byteSize s.toList ≤ 128
  noControl : s.toList.all (fun c => !Json.isControl c) = true
  nfc : P.nfc s = s

theorem PortableText.plain {s : String} (h : PortableText P s) : PlainText P s :=
  ⟨h.noControl, h.nfc, h.size.trans (by decide)⟩

theorem PortableText.identifier {s : String} (h : PortableText P s) :
    contractIdentifier s = .ok () := by
  simp only [contractIdentifier, bind_ok, require_ok, exists_const]
  exact ⟨h.size, h.nonempty⟩

theorem PortableText.noNul {s : String} (h : PortableText P s) : Char.ofNat 0 ∉ s.toList := by
  intro hnul
  have hcontrol := List.all_eq_true.mp h.noControl _ hnul
  simp [Json.isControl] at hcontrol

namespace DisclosurePermit
variable {p : DisclosurePermit}

/-- The texts of a permit that its contract checks as identifiers. -/
def texts (p : DisclosurePermit) : List String :=
  [p.permitId, p.workspaceId, p.projectId, p.runId, p.grantId, p.approvedBy, p.permitNonce,
    p.runnerId, p.runnerKeyId]

structure Safe (P : Platform) (p : DisclosurePermit) : Prop where
  texts : ∀ s ∈ p.texts, PortableText P s
  projection : IsDigest p.projection.projectionDigest
  byteCount : 1 ≤ p.projection.byteCount ∧ p.projection.byteCount ≤ 262144
  counts : ∀ n ∈ [p.projection.scenarioCount, p.projection.findingCount], 0 ≤ n ∧ n ≤ 4
  times : ∀ n ∈ [p.approvedAtMs, p.issuedAtMs, p.expiresAtMs], 0 ≤ n ∧ n ≤ Json.safeInt
  expiry : p.issuedAtMs < p.expiresAtMs ∧ p.expiresAtMs ≤ p.issuedAtMs + 600000

def fieldKeys : List String :=
  ["schema_version", "permit_id", "workspace_id", "project_id", "run_id", "grant_id",
   "runner_binding", "projection", "approved_by", "approved_at_ms", "issued_at_ms",
   "expires_at_ms", "permit_nonce"]

def allKeys : List String := fieldKeys ++ ["permit_digest", "signing_key_id", "signature_b64"]

def bindingKeys : List String := ["runner_id", "runner_key_id"]

def offerKeys : List String :=
  ["schema_version", "projection_digest", "maximum_bytes", "scenario_count", "finding_count"]

theorem unsignedFields_keys (p : DisclosurePermit) : p.unsignedFields.map Prod.fst = fieldKeys :=
  rfl

theorem keys_plain (hP : Lawful P) {k : String}
    (hk : k ∈ allKeys ++ bindingKeys ++ offerKeys) : PlainText P k := by
  have hall : ∀ k ∈ allKeys ++ bindingKeys ++ offerKeys, isPlainAscii k = true := by
    simp only [isPlainAscii_chars]
    decide +kernel
  exact plain_of_ascii hP (hall k hk)

/-- Every member under the signature is one that `_normalize` returns unchanged. -/
theorem Safe.unsignedFields (hP : Lawful P) (h : Safe P p) :
    ∀ f ∈ p.unsignedFields, Json.normalize P 1 f.2 = .ok f.2 := by
  have hschema : isPlainAscii permitSchema = true ∧ isPlainAscii findingsSchema = true := by
    simp only [isPlainAscii_chars]
    decide +kernel
  have htext : ∀ {depth : Nat} {s : String}, depth ≤ 2 → s ∈ p.texts →
      Json.normalize P depth (.str s) = .ok (.str s) :=
    fun hd hs => Json.normalize_str (by omega) (h.texts _ hs).plain
  have hint : ∀ {n : Int}, n ∈ [p.approvedAtMs, p.issuedAtMs, p.expiresAtMs] →
      Json.normalize P 1 (.int n) = .ok (.int n) :=
    fun hn => Json.normalize_int (by omega) (h.times _ hn).1 (h.times _ hn).2
  have hcount : ∀ {n : Int}, 0 ≤ n → n ≤ 262144 → Json.normalize P 2 (.int n) = .ok (.int n) :=
    fun h0 h1 => Json.normalize_int (by omega) h0 (h1.trans (by decide))
  have hsmall : ∀ {n : Int}, n ∈ [p.projection.scenarioCount, p.projection.findingCount] →
      Json.normalize P 2 (.int n) = .ok (.int n) := by
    intro n hn
    have := h.counts n hn
    exact hcount this.1 (by omega)
  intro f hf
  simp only [DisclosurePermit.unsignedFields, List.mem_cons, List.not_mem_nil, or_false] at hf
  rcases hf with rfl | rfl | rfl | rfl | rfl | rfl | rfl | rfl | rfl | rfl | rfl | rfl | rfl
  · exact Json.normalize_str (by omega) (plain_of_ascii hP hschema.1)
  · exact htext (by omega) (by simp [DisclosurePermit.texts])
  · exact htext (by omega) (by simp [DisclosurePermit.texts])
  · exact htext (by omega) (by simp [DisclosurePermit.texts])
  · exact htext (by omega) (by simp [DisclosurePermit.texts])
  · exact htext (by omega) (by simp [DisclosurePermit.texts])
  · refine Json.normalize_obj (by omega) ?_ ?_ (by simp)
    · intro q hq
      refine keys_plain hP (List.mem_append_left _ (List.mem_append_right _ ?_))
      exact List.mem_map_of_mem (f := Prod.fst) hq
    · intro q hq
      simp only [List.mem_cons, List.not_mem_nil, or_false] at hq
      rcases hq with rfl | rfl
      · exact htext (by omega) (by simp [DisclosurePermit.texts])
      · exact htext (by omega) (by simp [DisclosurePermit.texts])
  · refine Json.normalize_obj (by omega) ?_ ?_ (by simp)
    · intro q hq
      refine keys_plain hP (List.mem_append_right _ ?_)
      exact List.mem_map_of_mem (f := Prod.fst) hq
    · intro q hq
      simp only [List.mem_cons, List.not_mem_nil, or_false] at hq
      rcases hq with rfl | rfl | rfl | rfl | rfl
      · exact Json.normalize_str (by omega) (plain_of_ascii hP hschema.2)
      · exact Json.normalize_str (by omega) (h.projection.plain hP)
      · exact hcount (by have := h.byteCount; omega) h.byteCount.2
      · exact hsmall (by simp)
      · exact hsmall (by simp)
  · exact htext (by omega) (by simp [DisclosurePermit.texts])
  · exact hint (by simp)
  · exact hint (by simp)
  · exact hint (by simp)
  · exact htext (by omega) (by simp [DisclosurePermit.texts])

theorem Safe.unsigned (hP : Lawful P) (h : Safe P p) :
    Json.normalize P 0 p.unsigned = .ok p.unsigned := by
  have hnodup : fieldKeys.Nodup := by decide
  refine Json.normalize_obj (by omega) ?_ (h.unsignedFields hP) hnodup
  intro f hf
  refine keys_plain hP (List.mem_append_left _ (List.mem_append_left _ (List.mem_append_left _ ?_)))
  rw [← unsignedFields_keys p]
  exact List.mem_map_of_mem hf

/-- The signature of a permit over its canonical bytes. -/
structure Signed (P : Platform) (p : DisclosurePermit) : Prop where
  digest : p.permitDigest = P.sha256 (Json.dumps p.unsigned)
  keyId : PortableText P p.signingKeyId
  length : p.signature.length = 64

theorem Signed.isDigest (hP : Lawful P) (hs : Signed P p) : IsDigest p.permitDigest := by
  rw [hs.digest]
  exact hP.sha256_hex _

theorem Safe.record (hP : Lawful P) (h : Safe P p) (hs : Signed P p) :
    Json.normalize P 0 p.record = .ok p.record := by
  have hnodup : allKeys.Nodup := by decide
  refine Json.normalize_obj (by omega) ?_ ?_
    (by rw [List.map_append, unsignedFields_keys]; exact hnodup)
  · intro f hf
    refine keys_plain hP (List.mem_append_left _ (List.mem_append_left _ ?_))
    have hmem := List.mem_map_of_mem (f := Prod.fst) hf
    rw [List.map_append, unsignedFields_keys] at hmem
    exact hmem
  · intro f hf
    rcases List.mem_append.mp hf with hf | hf
    · exact h.unsignedFields hP f hf
    · simp only [List.mem_cons, List.not_mem_nil, or_false] at hf
      rcases hf with rfl | rfl | rfl
      · exact Json.normalize_str (by omega) ((hs.isDigest hP).plain hP)
      · exact Json.normalize_str (by omega) hs.keyId.plain
      · exact Json.normalize_str (by omega) (signature_plain hP hs.length)

/-! ### Size -/

theorem byteSize_portable {s : String} (h : byteSize s.toList ≤ 128) :
    byteSize (Json.dumps (.str s)) ≤ 770 := by
  have := Json.byteSize_quote s
  rw [Json.dumps]
  omega

theorem Safe.byteSize_record (hP : Lawful P) (h : Safe P p) (hs : Signed P p) :
    byteSize (Json.dumps p.record) ≤ 16 * 1024 := by
  have hkeys : ∀ k ∈ allKeys ++ bindingKeys ++ offerKeys, byteSize k.toList ≤ 17 := by
    simp only [Literal.toList_eq]
    decide +kernel
  have hschema : byteSize permitSchema.toList ≤ 128 ∧ byteSize findingsSchema.toList ≤ 128 := by
    simp only [Literal.toList_eq]
    decide +kernel
  have htext : ∀ {s : String}, s ∈ p.texts → byteSize (Json.dumps (.str s)) ≤ 770 :=
    fun hs => byteSize_portable (h.texts _ hs).size
  have hint : ∀ {n : Int}, n ∈ [p.approvedAtMs, p.issuedAtMs, p.expiresAtMs] →
      byteSize (Json.dumps (.int n)) ≤ 64 := fun hn => OperationalRun.byteSize_number (h.times _ hn)
  have hcount : ∀ {n : Int}, 0 ≤ n → n ≤ 262144 → byteSize (Json.dumps (.int n)) ≤ 64 :=
    fun h0 h1 => OperationalRun.byteSize_number ⟨h0, h1.trans (by decide)⟩
  have hsmall : ∀ {n : Int}, n ∈ [p.projection.scenarioCount, p.projection.findingCount] →
      byteSize (Json.dumps (.int n)) ≤ 64 := by
    intro n hn
    have := h.counts n hn
    exact hcount this.1 (by omega)
  have hbinding : byteSize (Json.dumps (.obj [("runner_id", .str p.runnerId),
      ("runner_key_id", .str p.runnerKeyId)])) ≤ 1800 := by
    refine (Json.byteSize_members 17 [770, 770] ?_ ?_).trans (by decide)
    · intro q hq
      exact hkeys q.1 (List.mem_append_left _
        (List.mem_append_right _ (List.mem_map_of_mem (f := Prod.fst) hq)))
    · exact .cons (htext (by simp [DisclosurePermit.texts]))
        (.cons (htext (by simp [DisclosurePermit.texts])) .nil)
  have hprojection : byteSize (Json.dumps (.obj [("schema_version", .str findingsSchema),
      ("projection_digest", .str p.projection.projectionDigest),
      ("maximum_bytes", .int p.projection.byteCount),
      ("scenario_count", .int p.projection.scenarioCount),
      ("finding_count", .int p.projection.findingCount)])) ≤ 2400 := by
    refine (Json.byteSize_members 17 [770, 770, 64, 64, 64] ?_ ?_).trans
      (by decide)
    · intro q hq
      exact hkeys q.1 (List.mem_append_right _ (List.mem_map_of_mem (f := Prod.fst) hq))
    · exact .cons (byteSize_portable hschema.2) (.cons
        (byteSize_portable (OperationalRun.byteSize_hex h.projection)) (.cons
        (hcount (by have := h.byteCount; omega) h.byteCount.2) (.cons (hsmall (by simp)) (.cons
        (hsmall (by simp)) .nil))))
  refine (Json.byteSize_members 17 [770, 770, 770, 770, 770, 770, 1800, 2400, 770, 64, 64, 64,
    770, 770, 770, 770] ?_ ?_).trans (by decide)
  · intro q hq
    have hmem := List.mem_map_of_mem (f := Prod.fst) hq
    rw [List.map_append, unsignedFields_keys] at hmem
    exact hkeys q.1 (List.mem_append_left _ (List.mem_append_left _ hmem))
  · have htexts : ∀ s ∈ p.texts, byteSize (Json.dumps (.str s)) ≤ 770 := fun s hs => htext hs
    simp only [DisclosurePermit.texts, List.forall_mem_cons] at htexts
    obtain ⟨hpermit, hworkspace, hproject, hrun, hgrant, happrover, hnonce, -⟩ := htexts
    exact .cons (byteSize_portable hschema.1) (.cons hpermit (.cons hworkspace (.cons hproject
      (.cons hrun (.cons hgrant (.cons hbinding (.cons hprojection (.cons happrover
      (.cons (hint (by simp)) (.cons (hint (by simp)) (.cons (hint (by simp)) (.cons hnonce
      (.cons (byteSize_portable (OperationalRun.byteSize_hex (hs.isDigest hP)))
      (.cons (byteSize_portable hs.keyId.size)
      (.cons (byteSize_portable (OperationalRun.byteSize_signature hs.length))
        .nil)))))))))))))))

/-! ### Validation -/

/-- A safe permit under its own digest and a signature of 64 bytes is valid. -/
theorem Safe.validate (hP : Lawful P) (h : Safe P p) (hs : Signed P p) :
    p.validate P = .ok () := by
  have hrecord := Json.canonicalBytes_fixed (h.record hP hs)
  have hunsigned := Json.canonicalBytes_fixed (h.unsigned hP)
  have hids : ∀ s ∈ [p.permitId, p.workspaceId, p.projectId, p.runId, p.grantId, p.approvedBy,
      p.permitNonce], contractIdentifier s = .ok () := by
    have hsub : [p.permitId, p.workspaceId, p.projectId, p.runId, p.grantId, p.approvedBy,
        p.permitNonce] ⊆ p.texts := by simp [DisclosurePermit.texts]
    exact fun s hs => (h.texts s (hsub hs)).identifier
  have hbinding : ∀ s ∈ [p.runnerId, p.runnerKeyId], contractIdentifier s = .ok () := by
    have hsub : [p.runnerId, p.runnerKeyId] ⊆ p.texts := by simp [DisclosurePermit.texts]
    exact fun s hs => (h.texts s (hsub hs)).identifier
  have hcount : ∀ n ∈ [p.projection.scenarioCount, p.projection.findingCount],
      contractInteger n 0 4 = .ok () := by
    intro n hn
    rw [contractInteger, require_ok]
    exact h.counts n hn
  have hbytes : contractInteger p.projection.byteCount 1 262144 = .ok () := by
    rw [contractInteger, require_ok]
    exact h.byteCount
  have htime : ∀ n ∈ [p.approvedAtMs, p.issuedAtMs, p.expiresAtMs], contractInteger n = .ok () :=
    fun n hn => OperationalRun.contractInteger_ok (h.times n hn)
  simp only [DisclosurePermit.validate, Json.canonicalDigest, bind_ok, require_ok, exists_const,
    pure, Except.pure, hrecord, hunsigned, Except.ok.injEq, exists_eq_left', forM_ok.mpr hids,
    forM_ok.mpr hbinding, OperationalRun.contractHash_ok h.projection, hbytes,
    hcount p.projection.scenarioCount (by simp), hcount p.projection.findingCount (by simp),
    htime p.approvedAtMs (by simp), htime p.issuedAtMs (by simp), htime p.expiresAtMs (by simp),
    OperationalRun.contractHash_ok (hs.isDigest hP), hs.keyId.identifier, true_and]
  exact ⟨h.byteSize_record hP hs, h.expiry, hs.length, hs.digest⟩

end DisclosurePermit

/-! ### A request that waits can be permitted -/

variable {identity : RunKey → RunIdentity} {env : DisclosureEnv} {db t : DisclosureDb}
  {r : DisclosureRequest} {c : PermitCall} {row : RunContext}

/-- A human owner or admin of the workspace, freshly signed in, asks for a permit on a request whose
run is still terminal under a live runner; the texts are those of documents and the names
are new. -/
structure MayPermit (P : Platform) (env : DisclosureEnv) (db : DisclosureDb)
    (r : DisclosureRequest) (c : PermitCall) (row : RunContext) : Prop where
  call : c.run = r.run ∧ c.requestId = r.requestId ∧ c.offer = r.offer ∧
    c.schemaVersion = findingsSchema
  human : isHuman (some c.role) = true ∧ env.membership c.run.workspaceId c.actor = some c.role
  recent : c.recentAuthAtMs ≤ env.now + 30000 ∧ env.now - c.recentAuthAtMs ≤ recentAuthMs
  context : env.context c.run = some row
  terminal : requireTerminalResult row = .ok ()
  authority : requireActiveAuthority row = .ok ()
  texts : ∀ s ∈ [c.run.workspaceId, c.run.projectRef, c.run.runId, c.requestId, c.actor],
    PortableText P s ∧ env.stripped s = true
  names : ∀ s ∈ [row.grantId, row.runnerId, row.runnerKeyId, env.freshPermit, env.freshNonce],
    PortableText P s
  clock : 0 ≤ env.now ∧ env.now + disclosurePermitTtlMs ≤ Json.safeInt
  signer : ∀ message, PortableText P (env.sign message).1 ∧ (env.sign message).2.length = 64
  fresh : ∀ o ∈ db.permits, o.permitId ≠ env.freshPermit ∧
    o.permitDigest ≠ P.sha256 (Json.dumps (unsignedPermit env c row).unsigned) ∧
    o.nonceHash ≠ P.sha256 env.freshNonce.toList

def mintedPermit (P : Platform) (env : DisclosureEnv) (c : PermitCall) (row : RunContext) :
    DisclosurePermit :=
  let bytes := Json.dumps (unsignedPermit env c row).unsigned
  { unsignedPermit env c row with
    permitDigest := P.sha256 bytes
    signingKeyId := (env.sign bytes).1
    signature := (env.sign bytes).2 }

theorem offer_isDigest (h : offerMetadata findingsSchema r.offer = .ok ()) :
    IsDigest r.offer.projectionDigest ∧ (1 ≤ r.offer.byteCount ∧ r.offer.byteCount ≤ 262144) ∧
      (0 ≤ r.offer.scenarioCount ∧ r.offer.scenarioCount ≤ 4) ∧
      (0 ≤ r.offer.findingCount ∧ r.offer.findingCount ≤ r.offer.scenarioCount) := by
  simp only [offerMetadata, require_ok] at h
  obtain ⟨-, hdigest, h1, h2, h3, h4, h5, h6⟩ := h
  exact ⟨hdigest, ⟨h1, h2⟩, ⟨h3, h4⟩, ⟨h5, h6⟩⟩

theorem MayPermit.safe (h : MayPermit P env db r c row)
    (hoffer : offerMetadata findingsSchema r.offer = .ok ()) :
    (mintedPermit P env c row).Safe P := by
  obtain ⟨hdigest, hbytes, hscenarios, hfindings⟩ := offer_isDigest hoffer
  obtain ⟨-, -, hcall, -⟩ := h.call
  have hnow := h.clock.1
  have hlater := h.clock.2
  simp only [disclosurePermitTtlMs] at hlater
  refine ⟨fun s hs => ?_, ?_, ?_, fun n hn => ?_, fun n hn => ?_, ?_⟩
  · have htexts := fun s hs => (h.texts s hs).1
    have hnames := h.names
    simp only [DisclosurePermit.texts, mintedPermit, unsignedPermit, List.mem_cons,
      List.not_mem_nil, or_false] at hs htexts hnames
    rcases hs with hs | hs | hs | hs | hs | hs | hs | hs | hs
    · exact hnames s (by simp [hs])
    · exact htexts s (by simp [hs])
    · exact htexts s (by simp [hs])
    · exact htexts s (by simp [hs])
    · exact hnames s (by simp [hs])
    · exact htexts s (by simp [hs])
    · exact hnames s (by simp [hs])
    · exact hnames s (by simp [hs])
    · exact hnames s (by simp [hs])
  · simp only [mintedPermit, unsignedPermit, hcall]
    exact hdigest
  · simp only [mintedPermit, unsignedPermit, hcall]
    exact hbytes
  · simp only [mintedPermit, unsignedPermit, hcall, List.mem_cons, List.not_mem_nil, or_false] at hn
    rcases hn with rfl | rfl <;> omega
  · simp only [mintedPermit, unsignedPermit, disclosurePermitTtlMs, List.mem_cons,
      List.not_mem_nil, or_false] at hn
    rcases hn with rfl | rfl | rfl <;> omega
  · simp only [mintedPermit, unsignedPermit, disclosurePermitTtlMs]
    omega

theorem MayPermit.signed (h : MayPermit P env db r c row) :
    DisclosurePermit.Signed P (mintedPermit P env c row) :=
  ⟨rfl, (h.signer _).1, (h.signer _).2⟩

theorem mintPermit_minted (hP : Lawful P) (h : MayPermit P env db r c row)
    (hoffer : offerMetadata findingsSchema r.offer = .ok ()) :
    mintPermit P env c row = .ok (mintedPermit P env c row) := by
  have hsafe := h.safe hoffer
  have hunsigned := Json.canonicalBytes_fixed (hsafe.unsigned hP)
  have hbytes : Json.canonicalBytes P (unsignedPermit env c row).unsigned =
      .ok (Json.dumps (unsignedPermit env c row).unsigned) := hunsigned
  have hvalid := hsafe.validate hP h.signed
  simp only [mintPermit, hbytes, bind_ok, require_ok, exists_const]
  exact ⟨(accepts_iff _).mpr ⟨(), hvalid⟩, rfl⟩

theorem disclosureIdentifier_ok {s : String} {code : DisclosureCode}
    (h : PortableText P s ∧ env.stripped s = true) : disclosureIdentifier env s code = .ok () := by
  rw [disclosureIdentifier, require_ok]
  exact ⟨h.1.nonempty, h.2, h.1.size, h.1.noNul⟩

theorem findRequest_find (h : DisclosureInv P db) (hr : r ∈ db.requests) (code : DisclosureCode) :
    findRequest db r.run r.requestId code = .ok r := by
  unfold findRequest
  cases hfind : db.requests.find? fun o => o.run = r.run ∧ o.requestId = r.requestId with
  | none =>
    have hnone := List.find?_eq_none.mp hfind r hr
    simp at hnone
  | some o =>
    have hkeys := List.find?_some hfind
    simp only [decide_eq_true_eq] at hkeys
    rw [h.eq_of_id (List.mem_of_find?_eq_some hfind) hr hkeys.2]

/-- Once its last permit has run out, a request is settled to one that waits. -/
theorem settledRequest_waits (env : DisclosureEnv) (h : DisclosureInv P db) (hr : r ∈ db.requests)
    (hopen : r.pending ∨ r.status = .permitted)
    (hout : ∀ p ∈ db.permits, p.liveOf r.requestId = true → p.expiresAt ≤ env.now) :
    (settledRequest r env.now db).2.pending := by
  by_cases hs : r.status = .permitted
  · have hexpires := expireUnusedPermits_expires h hr env.now
    obtain ⟨sel, hrequests, hsel⟩ := hexpires.requests
    -- a permit that is still live would be one that the expiry has selected
    have hnone : ∀ p ∈ (expireUnusedPermits r env.now db).permits,
        p.liveOf r.requestId = false := by
      intro p hp
      by_contra hlive
      rw [Bool.not_eq_false] at hlive
      obtain ⟨o, ho, hpo⟩ := Table.mem_update.mp hp
      by_cases hdue : decide (o.ofRequest r = true ∧ o.due env.now = true) = true
      · rw [hpo, if_pos hdue, liveOf_expire] at hlive
        cases hlive
      · rw [if_neg hdue] at hpo
        subst hpo
        have hout := hout p ho hlive
        simp only [PermitRow.liveOf, decide_eq_true_eq] at hlive
        refine hdue (decide_eq_true ⟨decide_eq_true ?_, decide_eq_true ⟨hlive.2, hout⟩⟩)
        exact ⟨h.ofRequest hr ho hlive.1, hlive.1⟩
    have hchosen : sel r = true := (hsel r hr).mpr ⟨hs, hnone⟩
    have hmem : r.moved .awaitingDisclosureApproval env.now ∈
        (expireUnusedPermits r env.now db).requests := by
      rw [hrequests]
      exact Table.mem_update.mpr ⟨r, hr, by rw [if_pos hchosen]⟩
    have hfind := Table.find_key (hexpires.inv h).ids hmem
    simp only [moved_requestId] at hfind
    have hsettled : (settledRequest r env.now db).2 =
        r.moved .awaitingDisclosureApproval env.now := by
      rw [settledRequest, if_pos hs]
      exact congrArg (Option.getD · r) hfind
    rw [hsettled]
    exact .inr rfl
  · rw [settledRequest, if_neg hs]
    exact hopen.resolve_right hs

theorem settledRequest_permits (h : DisclosureInv P db) (hr : r ∈ db.requests) :
    ∀ o ∈ (settledRequest r env.now db).1.permits, ∃ p ∈ db.permits, p.Kept o := by
  intro o ho
  have htraced := (settledRequest_ok env .purge h hr).1.traced
  rcases htraced.permits o ho with hkept | ⟨c, r, hcall, -⟩
  · exact hkept
  · cases hcall

theorem grantPermit_minted (hP : Lawful P) (h : MayPermit P env db r c row)
    (hoffer : offerMetadata findingsSchema r.offer = .ok ()) {o : DisclosureRequest}
    (hpermits : ∀ p ∈ t.permits, ∃ p' ∈ db.permits, p'.Kept p) :
    ∃ t', grantPermit P env c row o t = .ok (t', mintedPermit P env c row) ∧
      permitRow P env c row (mintedPermit P env c row) ∈ t'.permits := by
  have hfresh : ∀ p ∈ t.permits, p.permitId ≠ env.freshPermit ∧
      p.permitDigest ≠ (mintedPermit P env c row).permitDigest ∧
      p.nonceHash ≠ P.sha256 env.freshNonce.toList := by
    intro p hp
    obtain ⟨p', hp', hk⟩ := hpermits p hp
    rw [hk.same]
    exact h.fresh p' hp'
  simp only [grantPermit, DisclosureDb.insertPermit, mintPermit_minted hP h hoffer, bind_ok,
    require_ok, exists_const]
  exact ⟨_, ⟨_, rfl, _, ⟨hfresh, rfl⟩, rfl⟩, List.mem_append_right _ (by simp)⟩

/-- A permit can be minted for every request that is neither local only nor synchronized, once its
last permit has run out. -/
theorem permit_again (hP : Lawful P) (hs : (disclosure P identity).Reachable db)
    (hr : r ∈ db.requests) (hopen : r.status ≠ .localOnly ∧ r.status ≠ .synchronized)
    (hunexpired : env.now < r.expiresAt)
    (hout : ∀ p ∈ db.permits, p.requestId = r.requestId → p.status = .permitted →
      p.expiresAt ≤ env.now)
    (hidentity : row.identity = identity r.run) (h : MayPermit P env db r c row) :
    ∃ t, permit P env c db = .ok (t, mintedPermit P env c row) ∧
      permitRow P env c row (mintedPermit P env c row) ∈ t.permits := by
  have hinv := disclosure_inv hs
  obtain ⟨hdeclared, hexpired⟩ := requests_declared hs hr
  obtain ⟨hid, hoffer⟩ := hdeclared.metadata
  have hopen' : r.pending ∨ r.status = .permitted := by
    unfold DisclosureRequest.pending
    cases hstatus : r.status <;> simp_all
  have hwaits := settledRequest_waits env hinv hr hopen' fun p hp hlive => by
    simp only [PermitRow.liveOf, decide_eq_true_eq] at hlive
    exact hout p hp hlive.1 hlive.2
  obtain ⟨-, -, ho, hsame⟩ := settledRequest_ok env (.permit c) hinv hr
  obtain ⟨t, hgrant, hmem⟩ := grantPermit_minted hP h hoffer (o := (settledRequest r env.now db).2)
    (settledRequest_permits hinv hr)
  obtain ⟨hrun, hrequest, hcoffer, hschema⟩ := h.call
  refine ⟨t, ?_, hmem⟩
  have hstatus : permitStatus P env c row (settledRequest r env.now db).2
      (settledRequest r env.now db).1 = .ok (t, mintedPermit P env c row) := by
    have hlive : (settledRequest r env.now db).2.expiresAt = r.expiresAt := by rw [hsame]
    simp only [permitStatus, bind_ok, require_ok, exists_const, hlive]
    rcases hwaits with hwaits | hwaits
    · rw [hwaits]
      exact ⟨⟨Int.not_le.mpr hunexpired, by decide⟩, hgrant⟩
    · rw [hwaits]
      exact ⟨⟨Int.not_le.mpr hunexpired, by decide⟩, hgrant⟩
  have htexts : ∀ s ∈ [c.run.workspaceId, c.run.projectRef, c.run.runId],
      disclosureIdentifier env s .invalidCanaryProjection = .ok () := by
    have hsub : [c.run.workspaceId, c.run.projectRef, c.run.runId] ⊆
        [c.run.workspaceId, c.run.projectRef, c.run.runId, c.requestId, c.actor] := by simp
    exact fun s hs => disclosureIdentifier_ok (h.texts s (hsub hs))
  have hnames : ∀ s ∈ [c.requestId, c.actor],
      disclosureIdentifier env s .disclosurePermitRequired = .ok () := by
    have hsub : [c.requestId, c.actor] ⊆
        [c.run.workspaceId, c.run.projectRef, c.run.runId, c.requestId, c.actor] := by simp
    exact fun s hs => disclosureIdentifier_ok (h.texts s (hsub hs))
  have hrow : runContext env c.run none = .ok row := by
    simp [runContext, h.context, require, bind, Except.bind, pure, Except.pure]
  have hfind : findRequest db c.run c.requestId .disclosurePermitRequired = .ok r := by
    rw [hrun, hrequest]
    exact findRequest_find hinv hr _
  have hmetadata : offerMetadata c.schemaVersion c.offer = .ok () := by
    rw [hschema, hcoffer]
    exact hoffer
  have hsettled : (settledRequest r env.now db).2.offer = c.offer ∧
      (settledRequest r env.now db).2.grantId = row.grantId ∧
      (settledRequest r env.now db).2.runnerId = row.runnerId ∧
      (settledRequest r env.now db).2.runnerKeyId = row.runnerKeyId := by
    rw [hid, RunContext.identity, RunIdentity.mk.injEq] at hidentity
    obtain ⟨h1, h2, h3⟩ := hidentity
    rw [hsame]
    exact ⟨hcoffer.symm, h1.symm, h2.symm, h3.symm⟩
  have hrecent := h.recent
  simp only [permit, bind_ok, require_ok, exists_const]
  refine ⟨(), forM_ok.mpr htexts, (), forM_ok.mpr hnames, (), hmetadata, ⟨h.human.1, ?_, ?_⟩, row,
    hrow, (), h.terminal, (), h.authority, ⟨?_, h.human.2⟩, r, hfind, hsettled, hstatus⟩
  · omega
  · omega
  · rw [h.human.2]
    exact h.human.1

/-! ### One use of one approval -/

/-- What the rows of a reachable state say of each other. -/
structure OneUse (P : Platform) (identity : RunKey → RunIdentity) (db : DisclosureDb) : Prop where
  oneRequest : (db.requests.map (·.run)).Nodup
  permitted : ∀ r ∈ db.requests, (db.permits.filter (·.liveOf r.requestId)).length =
    if r.status = .permitted then 1 else 0
  oneFindings : (db.findings.map (·.run)).Nodup
  synchronized : ∀ r ∈ db.requests, r.status = .synchronized ↔ ∃ f ∈ db.findings, f.run = r.run
  stored : ∀ f ∈ db.findings, f.Exact P ∧ ∃ p ∈ db.permits, ∃ r ∈ db.requests, f.Under p ∧
    r.requestId = p.requestId ∧ r.run = f.run ∧ r.offer = f.offer ∧
    HumanApproved P identity db p ∧ RunnerDeclared P identity db r

theorem RequestInv.permitted {permits : List PermitRow} {findings : List FindingsRow}
    (h : RequestInv permits findings r) : (permits.filter (·.liveOf r.requestId)).length =
      if r.status = .permitted then 1 else 0 := by
  split
  · rename_i hs
    obtain ⟨p, hp, hlive⟩ := h.live.mp hs
    have hpos := List.length_pos_of_mem (List.mem_filter.mpr ⟨hp, hlive⟩)
    exact Nat.le_antisymm h.one hpos
  · rename_i hs
    rw [List.length_eq_zero_iff, List.filter_eq_nil_iff]
    intro p hp hlive
    exact hs (h.live.mpr ⟨p, hp, hlive⟩)

theorem disclosure_oneUse (hs : (disclosure P identity).Reachable db) : OneUse P identity db := by
  have hinv := disclosure_inv hs
  refine ⟨hinv.runs, fun r hr => (hinv.each r hr).permitted, hinv.findingRuns,
    fun r hr => (hinv.each r hr).synced, fun f hf => ⟨hinv.exact_ f hf, ?_⟩⟩
  obtain ⟨p, hp, hunder⟩ := hinv.under f hf
  obtain ⟨r, hr, hid, hrun, hoffer⟩ := hinv.owned p hp
  exact ⟨p, hp, r, hr, hunder, hid, hrun.trans hunder.2.1, hoffer.trans hunder.2.2.2.1,
    permits_approved hs hp, (requests_declared hs hr).1⟩

/-- Disclosure is used once, under one approval, and stays open to an approval until it is used or
declined. -/
theorem disclosure_once (hP : Lawful P) (hs : (disclosure P identity).Reachable db) :
    OneUse P identity db ∧
    (∀ t, (disclosure P identity).Later db t → DisclosureKept db t) ∧
    ∀ env c row, ∀ r ∈ db.requests, r.status ≠ .localOnly → r.status ≠ .synchronized →
      env.now < r.expiresAt →
      (∀ p ∈ db.permits, p.requestId = r.requestId → p.status = .permitted →
        p.expiresAt ≤ env.now) →
      row.identity = identity r.run → MayPermit P env db r c row →
      ∃ t value, permit P env c db = .ok (t, value) ∧
        ∃ o ∈ t.requests, o.requestId = r.requestId ∧ o.status = .permitted := by
  refine ⟨disclosure_oneUse hs, fun t => disclosure_kept hs, ?_⟩
  intro env c row r hr hlocal hsynchronized hunexpired hout hidentity h
  obtain ⟨t, hpermit, hmem⟩ :=
    permit_again hP hs hr ⟨hlocal, hsynchronized⟩ hunexpired hout hidentity h
  have hinv := (permit_edits (disclosure_inv hs) hpermit).inv (disclosure_inv hs)
  obtain ⟨o, ho, hid, -⟩ := hinv.owned _ hmem
  refine ⟨t, _, hpermit, o, ho, hid.trans h.call.2.1, hinv.permitted ho hmem ?_⟩
  exact decide_eq_true ⟨hid.symm, rfl⟩

section Sample

def disclosedRun : RunKey := ⟨"workspace_1", "project_1", "run_1"⟩

def disclosedIdentity : RunIdentity := ⟨"grant_1", "runner_1", sampleKeyId⟩

/-- The projection of a run that made no attempt. -/
def terminalRun : OperationalRun where
  runId := "run_1"
  grantId := "grant_1"
  workspaceId := "workspace_1"
  projectId := "project_1"
  manifestDigest := sampleDigest
  approvalProjectionDigest := sampleDigest
  grantDigest := sampleDigest
  eventSequence := 3
  lifecyclePhase := .terminal
  executionDisposition := some .completed
  timestamps := ⟨some 50, some 100, 900, none, none, some 900⟩
  counters := ⟨{}, 20, 60000⟩
  runnerVersion := "1.0.0"
  engineVersion := "1.0.0"
  adapterVersions := []
  errorCategory := .none
  stopReason := .none
  containmentCodes := []
  redactionCount := 0
  projectionDigest := sampleDigest
  signingKeyId := sampleKeyId
  signature := []

def terminalContext : RunContext where
  grantId := "grant_1"
  environmentId := "environment_1"
  runnerId := "runner_1"
  runnerKeyId := sampleKeyId
  runStatus := .terminal
  executionDisposition := some .completed
  grantDigest := sampleDigest
  grant := some sampleGrant
  approvalProjectionDigest := sampleDigest
  manifestDigest := sampleDigest
  approval := some ⟨[], [], []⟩
  publicKey := []
  keyActive := true
  keyRevoked := false
  runnerStatus := .active
  receiptPhase := some .terminal
  receiptDigest := some terminalRun.projectionDigest
  receipt := some terminalRun
  receiptRunnerId := some "runner_1"
  receiptRunnerKeyId := some sampleKeyId

def disclosureEnv (now : Int) (name : String) : DisclosureEnv where
  now := now
  stripped _ := true
  membership _ user := if user = "user_1" then some .owner else none
  context run := if run = disclosedRun then some terminalContext else none
  signingKeyId := sampleKeyId
  signingPublicKey := []
  sign bytes := (sampleKeyId, checksumSign bytes)
  freshRequest := "request_" ++ name
  freshPermit := "permit_" ++ name
  freshNonce := "nonce_" ++ name
  freshReceipt := "receipt_" ++ name

def emptyOffer : Offer := ⟨sampleDigest, 1200, 0, 0⟩

def samplePreview : PreviewCall :=
  ⟨disclosedRun, "runner_1", sampleKeyId, findingsSchema, emptyOffer⟩

def samplePermitCall : PermitCall :=
  ⟨disclosedRun, "request_1", findingsSchema, emptyOffer, "user_1", .owner, 1000⟩

def previewedDb : DisclosureDb :=
  disclosureTransact samplePlatform (disclosureEnv 1000 "1") {} (.preview samplePreview)

def permittedDb : DisclosureDb :=
  disclosureTransact samplePlatform (disclosureEnv 2000 "2") previewedDb (.permit samplePermitCall)

def previewedSample : DisclosureRequest :=
  previewedRequest (disclosureEnv 1000 "1") samplePreview terminalContext

theorem sampleKeyId_portable : PortableText samplePlatform sampleKeyId :=
  ⟨by decide, by decide, by decide, rfl⟩

example : previewedDb.requests.length = 1 := by decide +kernel

theorem samplePermitCall_may : MayPermit samplePlatform (disclosureEnv 2000 "2") previewedDb
    previewedSample samplePermitCall terminalContext where
  call := ⟨rfl, rfl, rfl, rfl⟩
  human := ⟨rfl, rfl⟩
  recent := by decide
  context := rfl
  terminal := by decide +kernel
  authority := by decide +kernel
  texts s hs := by
    simp only [List.mem_cons, List.not_mem_nil, or_false] at hs
    rcases hs with rfl | rfl | rfl | rfl | rfl <;>
      exact ⟨⟨by decide, by decide, by decide, rfl⟩, rfl⟩
  names s hs := by
    simp only [List.mem_cons, List.not_mem_nil, or_false] at hs
    rcases hs with rfl | rfl | rfl | rfl | rfl <;>
      exact ⟨by decide, by decide, by decide, rfl⟩
  clock := by decide
  signer message := ⟨sampleKeyId_portable, by simp [disclosureEnv, checksumSign]⟩
  fresh := by decide +kernel

theorem reachable_disclosure {now : Int} {name : String} (call : DisclosureCall)
    (hs : (disclosure samplePlatform fun _ => disclosedIdentity).Reachable db) :
    (disclosure samplePlatform fun _ => disclosedIdentity).Reachable
      (disclosureTransact samplePlatform (disclosureEnv now name) db call) := by
  refine hs.step (a := (disclosureEnv now name, call)) ⟨fun run row hrow => ?_, rfl⟩
  simp only [disclosureEnv] at hrow
  split at hrow
  · cases hrow
    rfl
  · cases hrow

theorem previewedDb_reachable :
    (disclosure samplePlatform fun _ => disclosedIdentity).Reachable previewedDb :=
  reachable_disclosure _ (.init rfl)

theorem permittedDb_reachable :
    (disclosure samplePlatform fun _ => disclosedIdentity).Reachable permittedDb :=
  reachable_disclosure _ previewedDb_reachable

theorem disclosure_once_sample :
    OneUse samplePlatform (fun _ => disclosedIdentity) permittedDb ∧
    ∃ t value, permit samplePlatform (disclosureEnv 2000 "2") samplePermitCall previewedDb =
      .ok (t, value) ∧ ∃ o ∈ t.requests, o.requestId = previewedSample.requestId ∧
        o.status = .permitted := by
  have hmem : previewedSample ∈ previewedDb.requests := by decide +kernel
  refine ⟨(disclosure_once samplePlatform_lawful permittedDb_reachable).1, ?_⟩
  exact (disclosure_once samplePlatform_lawful previewedDb_reachable).2.2 (disclosureEnv 2000 "2")
    samplePermitCall terminalContext previewedSample hmem (by decide) (by decide) (by decide)
    (by decide +kernel) rfl samplePermitCall_may

end Sample

end Heel.Cloud
