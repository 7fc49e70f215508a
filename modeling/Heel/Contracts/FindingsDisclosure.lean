import Heel.Contracts.FindingsRequest
import Heel.Contracts.ReviewAgreement

/-! The producer of findings requests against its validator, and what a request depends on. -/
namespace Heel.Findings
open Lib Lib.JsonText Lib.Checks
open Literal (points_codes)
open Review (Fields Raised within refuse field Sha256 validateReviewEnvelope isDigest portable
  blockText warnText)

variable {H : Sha256} {M : Hmac} {float : Binary64 → Text} {key : List UInt8}

/-! ### The producer -/

/-- The request of the findings that are read of a review, and of the HMAC of its hash. -/
def requestOf (H : Sha256) (M : Hmac) (float : Binary64 → Text) (key : List UInt8)
    (projectRef engineVersion executionMode source : Text) (es : List Exposure) : Value :=
  let findings := sortBy Disclosure.findingId (es.map (disclosureOf M float key))
  .obj (requestFields projectRef (.str engineVersion) (.str executionMode) (sourceMark ++ source)
    findings (H.digest (dumps float (projectionMaterial findings))))

def sourceHmacOf (M : Hmac) (float : Binary64 → Text) (key : List UInt8) (review : Value) : Text :=
  M.digest key (sourceMaterial float (textAt review "result_hash"))

/-- What the producer asks of the findings. -/
structure Projectable (M : Hmac) (float : Binary64 → Text) (key : List UInt8)
    (es : List Exposure) : Prop where
  few : es.length ≤ maxFindings
  catalogued : ∀ e ∈ es, Catalogued e
  distinct : (es.map (findingIdOf M float key)).Nodup

theorem disclosure_ids (es : List Exposure) :
    (es.map (disclosureOf M float key)).map Disclosure.findingId =
    es.map (findingIdOf M float key) := by
  rw [List.map_map]
  rfl

theorem Projectable.proper (resultHash : Text) {projectRef engineVersion executionMode : Text}
    {es : List Exposure} (h : Projectable M float key es)
    (hproject : isMarked projectMark 32 projectRef = true)
    (hengine : engineVersion ∈ supportedEngineVersions)
    (hmode : executionMode ∈ supportedExecutionModes) :
    ProperRequest M float key projectRef engineVersion executionMode
      (sourceMark ++ M.digest key (sourceMaterial float resultHash))
      (sortBy Disclosure.findingId (es.map (disclosureOf M float key))) where
  projectRef := hproject
  engineVersion := hengine
  executionMode := hmode
  resultRef := isMarked_iff.mpr ⟨_, rfl, M.length _ _, M.lowerHex _ _⟩
  few := by
    rw [length_sortBy, List.length_map]
    exact h.few
  each := by
    intro d hd
    rw [mem_sortBy] at hd
    obtain ⟨e, he, rfl⟩ := List.mem_map.mp hd
    exact disclosure_proper (h.catalogued e he)
  sorted := (sortBy_sortBy _ _).symm
  distinct := by
    have hperm := (sortBy_perm Disclosure.findingId (es.map (disclosureOf M float key))).map
      Disclosure.findingId
    rw [hperm.nodup_iff, disclosure_ids]
    exact h.distinct

theorem requireKey_ok {u : Unit} : requireNamespaceKey key = .ok u ↔ key.length = 32 := by
  rw [requireNamespaceKey, require_ok]

theorem requirePattern_ok {pattern : Text → Bool} {v : Value} {t : Text} :
    requirePattern pattern v = .ok t ↔ v = .str t ∧ pattern t = true := by
  cases v with
  | str s =>
    simp only [requirePattern, bind_ok, require_ok, exists_const, pure, Except.pure,
      Except.ok.injEq,
      Value.str.injEq]
    constructor
    · rintro ⟨h, rfl⟩
      exact ⟨rfl, h⟩
    · rintro ⟨rfl, h⟩
      exact ⟨h, rfl⟩
  | _ => simp [requirePattern]

theorem sourceHmac {resultHash : Text} (h : isDigest resultHash = true) {digest : Text} :
    taggedHmac M float key "source" [.str resultHash] = .ok digest ↔
      digest = M.digest key (sourceMaterial float resultHash) := by
  apply taggedHmac_texts "source" [resultHash]
  · exact tags_portable "source" (by simp)
  · simp [(digest_short h).portable]

/-- The producer answers the request of what is read of the review, or raises. -/
theorem project_ok {review projectRef request : Value}
    (haccepted : validateReviewEnvelope H float review = .ok review) :
    projectFindingsSync H M float review projectRef key = .ok request ↔
      key.length = 32 ∧ (∃ t, projectRef = .str t ∧ isMarked projectMark 32 t = true ∧
        request = requestOf H M float key t (textAt review "engine_version")
          (textAt review "execution_mode") (sourceHmacOf M float key review) (exposures review)) ∧
      Projectable M float key (exposures review) := by
  obtain ⟨-, hreview⟩ := review_read haccepted
  have hlength : (exposures review).length = (itemsAt review "findings").length := by
    rw [exposures, List.length_map]
  have hsource : ∀ digest, taggedHmac M float key "source" [.str (textAt review "result_hash")] =
      .ok digest ↔ digest = M.digest key (sourceMaterial float (textAt review "result_hash")) :=
    fun _ => sourceHmac hreview.hashDigest
  simp only [projectFindingsSync, bind_ok, requireKey_ok, Review.within_ok, requirePattern_ok,
    haccepted, Except.ok.injEq, exists_eq_left', hreview.findings,
    itemsOf, require_ok, exists_const,
    disclosed_ok hreview.each, hreview.engineVersion, hreview.executionMode, hreview.resultHash,
    hsource]
  constructor
  · rintro ⟨hkey, t, ⟨rfl, ht⟩, hfew, _, ⟨hall, rfl, hnodup⟩, _, rfl, projectionHash, hhash,
    hrequest⟩
    have hprojectable : Projectable M float key (exposures review) :=
      ⟨hlength.trans_le hfew, hall, hnodup⟩
    have hproper := hprojectable.proper (textAt review "result_hash") ht
      hreview.engineSupported hreview.modeSupported
    obtain rfl := (materialHash hproper.few hproper.each).mp hhash
    have haccept := request_accepted (H := H) hkey hproper
    refine ⟨hkey, ⟨t, rfl, ht, ?_⟩, hprojectable⟩
    exact Except.ok.inj (hrequest.symm.trans haccept)
  · rintro ⟨hkey, ⟨t, rfl, ht, rfl⟩, h⟩
    have hproper := h.proper (textAt review "result_hash") ht
      hreview.engineSupported hreview.modeSupported
    exact ⟨hkey, t, ⟨rfl, ht⟩, hlength.symm.trans_le h.few,
      _, ⟨h.catalogued, rfl, h.distinct⟩, _, rfl,
      _, (materialHash hproper.few hproper.each).mpr rfl, request_accepted hkey hproper⟩

theorem projected_accepted {review projectRef request : Value}
    (haccepted : validateReviewEnvelope H float review = .ok review)
    (h : projectFindingsSync H M float review projectRef key = .ok request) :
    validateFindingsSyncRequest H M float request key = .ok request := by
  obtain ⟨-, hreview⟩ := review_read haccepted
  obtain ⟨hkey, ⟨t, -, ht, rfl⟩, hprojectable⟩ := (project_ok haccepted).mp h
  exact request_accepted hkey
    (hprojectable.proper _ ht hreview.engineSupported hreview.modeSupported)

/-! ### When the producer raises -/

/-- The inputs of the HMAC for the findings of a review. -/
def hmacInputs (M : Hmac) (float : Binary64 → Text) (key : List UInt8) (es : List Exposure) :
    List Text :=
  es.map (surfaceMaterial float) ++
    es.map fun e => findingMaterial float (surfaceRefOf M float key e) e.risk

def NoCollision (M : Hmac) (key : List UInt8) (inputs : List Text) : Prop :=
  ∀ s ∈ inputs, ∀ t ∈ inputs, M.digest key s = M.digest key t → s = t

def surfaceAndRisk (e : Exposure) : Text × Text × Text := (e.surfaceType, e.surfaceId, e.risk)

theorem identity_inj {es : List Exposure} (h : NoCollision M key (hmacInputs M float key es))
    {e e' : Exposure} (he : e ∈ es) (he' : e' ∈ es)
    (hsame : findingIdOf M float key e = findingIdOf M float key e') :
    surfaceAndRisk e = surfaceAndRisk e' := by
  have hfinding : ∀ {e}, e ∈ es → findingMaterial float (surfaceRefOf M float key e) e.risk ∈
      hmacInputs M float key es := fun he => List.mem_append_right _ (List.mem_map_of_mem he)
  have hsurface : ∀ {e}, e ∈ es → surfaceMaterial float e ∈ hmacInputs M float key es :=
    fun he => List.mem_append_left _ (List.mem_map_of_mem he)
  have hdigest := List.append_cancel_left hsame
  have hparts := texts_unique (h _ (hfinding he) _ (hfinding he') hdigest)
  simp only [List.cons.injEq, and_true, true_and] at hparts
  have hsurfaces := texts_unique (h _ (hsurface he) _ (hsurface he')
    (List.append_cancel_left hparts.1))
  simp only [List.cons.injEq, and_true, true_and] at hsurfaces
  rw [surfaceAndRisk, surfaceAndRisk, hsurfaces.1, hsurfaces.2, hparts.2]

theorem identities_distinct {es : List Exposure} (h : NoCollision M key (hmacInputs M float key es))
    (hdistinct : (es.map surfaceAndRisk).Nodup) : (es.map (findingIdOf M float key)).Nodup := by
  have hes : es.Nodup := hdistinct.of_map _
  rw [List.nodup_map_iff_inj_on hes]
  intro e he e' he' hsame
  exact List.inj_on_of_nodup_map hdistinct he he' (identity_inj h he he' hsame)

/-! ### What a request depends on -/

theorem Projectable.perm {es es' : List Exposure} (h : Projectable M float key es)
    (hperm : es.Perm es') : Projectable M float key es' where
  few := hperm.length_eq ▸ h.few
  catalogued := fun e he => h.catalogued e (hperm.mem_iff.mpr he)
  distinct := (hperm.map _).nodup_iff.mp h.distinct

theorem requestOf_perm {es es' : List Exposure} (h : Projectable M float key es)
    (hperm : es.Perm es') (projectRef engineVersion executionMode source : Text) :
    requestOf H M float key projectRef engineVersion executionMode source es' =
      requestOf H M float key projectRef engineVersion executionMode source es := by
  have hsorted : sortBy Disclosure.findingId (es.map (disclosureOf M float key)) =
      sortBy Disclosure.findingId (es'.map (disclosureOf M float key)) := by
    apply sortBy_eq_of_perm _ (hperm.map _)
    intro d hd d' hd' hsame
    have hdistinct := h.distinct
    rw [← disclosure_ids] at hdistinct
    exact List.inj_on_of_nodup_map hdistinct hd hd' hsame
  simp only [requestOf, hsorted]

/-- Reviews of one engine and one mode with the same values of their findings. -/
structure SameValues (review review' : Value) : Prop where
  engineVersion : textAt review "engine_version" = textAt review' "engine_version"
  executionMode : textAt review "execution_mode" = textAt review' "execution_mode"
  exposures : (exposures review).Perm (exposures review')

theorem SameValues.symm {review review' : Value} (h : SameValues review review') :
    SameValues review' review :=
  ⟨h.engineVersion.symm, h.executionMode.symm, h.exposures.symm⟩

/-- Such reviews are projected alike, but for the HMAC of their hashes. -/
theorem project_same {review review' projectRef request : Value}
    (haccepted : validateReviewEnvelope H float review = .ok review)
    (haccepted' : validateReviewEnvelope H float review' = .ok review')
    (hsame : SameValues review review')
    (h : projectFindingsSync H M float review projectRef key = .ok request) :
    ∃ f : Text → Value, request = f (sourceHmacOf M float key review) ∧
      projectFindingsSync H M float review' projectRef key =
        .ok (f (sourceHmacOf M float key review')) := by
  rw [project_ok haccepted] at h
  obtain ⟨hkey, ⟨t, rfl, ht, rfl⟩, hprojectable⟩ := h
  refine ⟨fun source => requestOf H M float key t (textAt review "engine_version")
    (textAt review "execution_mode") source (exposures review), rfl, ?_⟩
  rw [project_ok haccepted', ← hsame.engineVersion, ← hsame.executionMode]
  refine ⟨hkey, ⟨t, rfl, ht, ?_⟩, hprojectable.perm hsame.exposures⟩
  exact (requestOf_perm hprojectable hsame.exposures _ _ _ _).symm

/-! ### Producer and validator -/

/-- The review is accepted by its validator. -/
def Accepted (H : Sha256) (float : Binary64 → Text) (review : Value) : Prop :=
  ∃ v, validateReviewEnvelope H float review = .ok v

def IsProjectRef (v : Value) : Prop := ∃ t, v = .str t ∧ isMarked projectMark 32 t = true

/-- Why the producer raises: a key or a reference without the syntax, a finding outside the closed
catalog, or two findings of one surface and one risk. -/
def Refused (key : List UInt8) (projectRef : Value) (es : List Exposure) : Prop :=
  key.length ≠ 32 ∨ ¬ IsProjectRef projectRef ∨ (∃ e ∈ es, ¬ Catalogued e) ∨
    ¬ (es.map surfaceAndRisk).Nodup

theorem Accepted.self {review : Value} (h : Accepted H float review) :
    validateReviewEnvelope H float review = .ok review := by
  obtain ⟨v, hv⟩ := h
  obtain ⟨rfl, -⟩ := review_read hv
  exact hv

/-- The producer answers exactly where there is no reason to raise. -/
theorem project_refused (projectRef : Value) {review : Value} (haccepted : Accepted H float review)
    (hfew : (itemsAt review "findings").length ≤ maxFindings)
    (hcollision : NoCollision M key (hmacInputs M float key (exposures review))) :
    (∃ request, projectFindingsSync H M float review projectRef key = .ok request) ↔
      ¬ Refused key projectRef (exposures review) := by
  have hlength : (exposures review).length ≤ maxFindings := by
    rw [exposures, List.length_map]
    exact hfew
  simp only [project_ok haccepted.self, Refused, not_or, not_not, not_exists, not_and]
  constructor
  · rintro ⟨_, hkey, ⟨t, ht, hmark, rfl⟩, hprojectable⟩
    refine ⟨hkey, ⟨t, ht, hmark⟩, hprojectable.catalogued, ?_⟩
    have hes : (exposures review).Nodup := hprojectable.distinct.of_map _
    rw [List.nodup_map_iff_inj_on hes]
    intro e he e' he' hsame
    -- one surface and one risk give one identity
    rw [surfaceAndRisk, surfaceAndRisk, Prod.mk.injEq, Prod.mk.injEq] at hsame
    apply List.inj_on_of_nodup_map hprojectable.distinct he he'
    simp only [findingIdOf, surfaceRefOf, surfaceMaterial, hsame.1, hsame.2.1, hsame.2.2]
  · rintro ⟨hkey, ⟨t, ht, hmark⟩, hall, hdistinct⟩
    exact ⟨_, hkey, ⟨t, ht, hmark, rfl⟩, hlength, hall, identities_distinct hcollision hdistinct⟩

/-- The results of such reviews are one function of the HMAC of their hashes. -/
theorem depends_on_hmac (key : List UInt8) (projectRef : Value) {review review' : Value}
    (haccepted : Accepted H float review) (haccepted' : Accepted H float review')
    (hsame : SameValues review review') : ∃ f : Text → Option Value,
      (projectFindingsSync H M float review projectRef key).toOption =
        f (sourceHmacOf M float key review) ∧
      (projectFindingsSync H M float review' projectRef key).toOption =
        f (sourceHmacOf M float key review') := by
  cases hproject : projectFindingsSync H M float review projectRef key with
  | ok request =>
    obtain ⟨f, rfl, hok⟩ := project_same haccepted.self haccepted'.self hsame hproject
    refine ⟨fun source => some (f source), rfl, ?_⟩
    rw [hok]
    rfl
  | error e =>
    refine ⟨fun _ => none, rfl, ?_⟩
    cases hproject' : projectFindingsSync H M float review' projectRef key with
    | ok request =>
      obtain ⟨f, -, hok⟩ := project_same haccepted'.self haccepted.self hsame.symm hproject'
      rw [hproject] at hok
      cases hok
    | error e' => rfl

/-- The producer and the validator of findings requests agree, and a request tells nothing else of a
review: what is produced is accepted as it is, the producer raises for a finding outside the catalog
or two of one surface and risk, and two reviews of one engine and one mode with the same values of
their findings give results that differ by the HMAC of their hashes only. -/
theorem findings_projected (H : Sha256) (M : Hmac) (float : Binary64 → Text) (key : List UInt8)
    (projectRef : Value) :
    (∀ review, Accepted H float review → (itemsAt review "findings").length ≤ maxFindings →
      NoCollision M key (hmacInputs M float key (exposures review)) →
      ((∃ request, projectFindingsSync H M float review projectRef key = .ok request ∧
          validateFindingsSyncRequest H M float request key = .ok request) ∧
        ¬ Refused key projectRef (exposures review)) ∨
      ((∃ e, projectFindingsSync H M float review projectRef key = .error e) ∧
        Refused key projectRef (exposures review))) ∧
    ∀ review review', Accepted H float review → Accepted H float review' →
      textAt review "engine_version" = textAt review' "engine_version" →
      textAt review "execution_mode" = textAt review' "execution_mode" →
      (exposures review).Perm (exposures review') →
      (textAt review "result_hash" = textAt review' "result_hash" →
        (projectFindingsSync H M float review projectRef key).toOption =
          (projectFindingsSync H M float review' projectRef key).toOption) ∧
      ∃ f : Text → Option Value,
        (projectFindingsSync H M float review projectRef key).toOption =
          f (sourceHmacOf M float key review) ∧
        (projectFindingsSync H M float review' projectRef key).toOption =
          f (sourceHmacOf M float key review') := by
  constructor
  · intro review haccepted hfew hcollision
    have hrefused := project_refused projectRef haccepted hfew hcollision
    cases hproject : projectFindingsSync H M float review projectRef key with
    | ok request =>
      exact .inl ⟨⟨request, rfl, projected_accepted haccepted.self hproject⟩,
        hrefused.mp ⟨request, hproject⟩⟩
    | error e =>
      refine .inr ⟨⟨e, rfl⟩, not_not.mp fun hnot => ?_⟩
      obtain ⟨request, hok⟩ := hrefused.mpr hnot
      rw [hproject] at hok
      cases hok
  · intro review review' haccepted haccepted' hengine hmode hperm
    have hsame : SameValues review review' := ⟨hengine, hmode, hperm⟩
    have hdepends := depends_on_hmac (M := M) key projectRef haccepted haccepted' hsame
    refine ⟨fun hhash => ?_, hdepends⟩
    obtain ⟨f, hf, hf'⟩ := hdepends
    rw [hf, hf', sourceHmacOf, sourceHmacOf, hhash]

/-! ### Two reviews of the same findings -/

def noFloat : Binary64 → Text := fun _ => []

def findingRecord (surfaceType surfaceId risk severity control reason : String) : Flat :=
  [("surface_type", surfaceType), ("surface_id", surfaceId), ("risk", risk),
    ("severity", severity), ("control", control), ("reason", reason)].map
      (fun p => (points p.1, .text (points p.2))) ++ [(Review.reachableKey, .flag true)]

/-- A finding that blocks and one that warns. -/
def sampleRecords (reason : String) : List Flat :=
  [findingRecord "endpoints_routes" "/orders" "endpoint_without_tenant_filter" "block"
      "tenant filter" reason,
    findingRecord "meters" "calls" "unmetered_billable_resource" "warn"
      "server-side meter accounting and cost ceiling" "no meter"]

def sampleFields (productId : String) (records : List Flat) : Fields :=
  [(points "product_id", .str (points productId)), (points "launch_gate_status", .str blockText),
    (points "new_abuse_affordances", .arr (records.map Flat.value)),
    (points "recommended_controls", .arr []), (points "suggested_regression_tests", .arr []),
    (points "safety", Flat.value Review.staticSafety)]

def sampleReviewed (productId : String) (records : List Flat) : Review.ReviewInput where
  review := .obj (sampleFields productId records)
  sourceHash := .str (List.replicate 64 zero)
  modelHash := .str (List.replicate 64 (zero + 1))
  baselineHash := .null
  executionMode := .str (points "machine_local")
  questions := .arr []

def sampleBodyOf (productId reason : String) : Fields :=
  Review.envelopeBody ⟨sampleRecords reason, [], [], []⟩ (points productId)
    (List.replicate 64 zero) (List.replicate 64 (zero + 1)) .null (points "machine_local") blockText
    Review.staticSafety

def firstBody : Fields := sampleBodyOf "shop" "no tenant filter"
def secondBody : Fields := sampleBodyOf "store" "filter is missing"

def firstHash : Text :=
  points "ee487d47d87e176cbbf6f44f52b77ee50c510bd306e4de63f561e3a610a033e2"
def secondHash : Text :=
  points "3125bd3418c536abfbd4bb7b69998ca7850815af5f0434257f7ed0aac2e42732"
def projectedHash : Text :=
  points "fe4fc4342de5d3c7793f75fece13328454377d774058e24c73ddcc93db7800d7"

theorem sample_hashes : ∀ t ∈ [firstHash, secondHash, projectedHash],
    t.length = 64 ∧ ∀ c ∈ t, isDigit c ∨ 0x61 ≤ c ∧ c ≤ 0x66 := by
  simp only [firstHash, secondHash, projectedHash, points_codes]
  decide +kernel

/-- The SHA-256 of the two bodies, and of the projection they share. -/
def shaDigest (t : Text) : Text :=
  if t = dumps noFloat (.obj firstBody) then firstHash
  else if t = dumps noFloat (.obj secondBody) then secondHash
  else projectedHash

theorem shaDigest_mem (t : Text) : shaDigest t ∈ [firstHash, secondHash, projectedHash] := by
  unfold shaDigest
  split_ifs <;> simp

def sampleSha : Sha256 where
  digest := shaDigest
  length t := (sample_hashes _ (shaDigest_mem t)).1
  lowerHex t := (sample_hashes _ (shaDigest_mem t)).2

def ordersExposure : Exposure where
  surfaceType := points "endpoints_routes"
  surfaceId := points "/orders"
  risk := points "endpoint_without_tenant_filter"
  severity := blockText
  control := points "tenant filter"
  reachable := true

def callsExposure : Exposure where
  surfaceType := points "meters"
  surfaceId := points "calls"
  risk := points "unmetered_billable_resource"
  severity := warnText
  control := points "server-side meter accounting and cost ceiling"
  reachable := true

def ordersSurface : Text :=
  points "89971ec8cad73c97aa115f7858121eba4f87b84d200ab2a669d88f7996798921"
def ordersIdentity : Text :=
  points "229fb408f4ec1209705768660eb8e9e1dcb523a24a4101adc3eeef9b3c3f03e7"
def callsSurface : Text :=
  points "b940a1cf0b925d77c4f74e9ee451d3a90c6a865e356ec8ce8cbc468e9c9421f1"
def callsIdentity : Text :=
  points "98a4b5568d1f0cfa35464a12fc9410f34a26816318ad05840876f251ba23bca3"
def firstDigest : Text :=
  points "1c67f7fc564c6294324fbfc5fa09ad6cef5682a131fa64f7aeb67f635670a359"
def secondDigest : Text :=
  points "598448f8aaa22ad5796f402b36c089d3504c8a955815b55425ce15912df2589c"

/-- The HMAC-SHA-256 under the key of zeros of the surfaces, the identities and the first hash. -/
def sampleDigests : List (Text × Text) :=
  [(surfaceMaterial noFloat ordersExposure, ordersSurface),
    (surfaceMaterial noFloat callsExposure, callsSurface),
    (findingMaterial noFloat (surfaceMark ++ ordersSurface) ordersExposure.risk, ordersIdentity),
    (findingMaterial noFloat (surfaceMark ++ callsSurface) callsExposure.risk, callsIdentity),
    (sourceMaterial noFloat firstHash, firstDigest)]

/-- The digest of a listed text, and for any other text that of the second hash. -/
def hmacDigest (t : Text) : Text :=
  ((sampleDigests.find? fun p => p.1 = t).map Prod.snd).getD secondDigest

theorem hmacDigest_mem (t : Text) : hmacDigest t ∈ secondDigest :: sampleDigests.map Prod.snd := by
  unfold hmacDigest
  cases hfind : sampleDigests.find? fun p => p.1 = t with
  | none => exact List.mem_cons_self
  | some p =>
    exact List.mem_cons_of_mem _ (List.mem_map_of_mem (List.mem_of_find?_eq_some hfind))

theorem sample_digests : (∀ t ∈ secondDigest :: sampleDigests.map Prod.snd,
      t.length = 64 ∧ t.all isLowerHex = true) ∧ (sampleDigests.map Prod.snd).Nodup := by
  simp only [sampleDigests, List.map_cons, List.map_nil, ordersSurface, callsSurface,
    ordersIdentity, callsIdentity, firstDigest, secondDigest, points_codes]
  decide +kernel

def sampleHmac : Hmac where
  digest _ := hmacDigest
  length _ t := (sample_digests.1 _ (hmacDigest_mem t)).1
  lowerHex _ t := (sample_digests.1 _ (hmacDigest_mem t)).2

def sampleKey : List UInt8 := List.replicate 32 0
def sampleRef : Value := .str (projectMark ++ List.replicate 32 zero)

def sampleReview (body : Fields) : Value := .obj (Review.sealed sampleSha noFloat body)

/-- What of a sample is checked by evaluation. -/
structure Evaluated (productId reason : String) (records : List Flat) : Prop where
  product : (points productId).all isWhitespace = false
  perm : records.Perm (sampleRecords reason)
  sorted : (sampleRecords reason).Pairwise fun a b =>
    Review.isBlocker a = true ∧ Review.isBlocker b = false
  gate : blockText = Review.expectedGate records
  findings : Review.validateRecords Review.validateFinding (.arr (records.map Flat.value)) =
    .ok records
  exposed : (sampleRecords reason).map (fun r => exposureOf (Flat.value r)) =
    [ordersExposure, callsExposure]

section
open Review

theorem sample_sorted {productId reason : String} {records : List Flat}
    (h : Evaluated productId reason records) :
    (ReviewRecords.mk records [] [] []).sorted noFloat = ⟨sampleRecords reason, [], [], []⟩ := by
  have hlt : ((sampleRecords reason).map (findingSortKey noFloat)).Pairwise (· < ·) := by
    refine List.pairwise_map.mpr (h.sorted.imp fun {a b} hab => ?_)
    simp only [isBlocker, decide_eq_true_eq, decide_eq_false_iff_not] at hab
    apply Prod.Lex.left
    rw [if_pos hab.1, if_neg hab.2]
    exact Nat.zero_lt_one
  have hkey : ∀ a ∈ records, ∀ b ∈ records,
      findingSortKey noFloat a = findingSortKey noFloat b → a = b := fun a ha b hb =>
    List.inj_on_of_nodup_map (hlt.imp ne_of_lt) (h.perm.mem_iff.mp ha) (h.perm.mem_iff.mp hb)
  have hsorted := sortBy_of_pairwise ((List.pairwise_map.mp hlt).imp le_of_lt)
  have hnone : sortBy (recordText noFloat) [] = [] := sortBy_of_pairwise .nil
  rw [ReviewRecords.sorted, sortBy_eq_of_perm hkey h.perm, hsorted, hnone]

theorem sampleRecords_portable {reason : String} : ∀ r ∈ sampleRecords reason,
    portable (Flat.value r) = true := by
  simp [sampleRecords, findingRecord, Flat.value, portable, portableFields, points_unicode,
    Scalar.value, reachableKey]

theorem sampleFields_portable {productId : String} {records : List Flat}
    (h : ∀ r ∈ records, portable (Flat.value r) = true) :
    portable (.obj (sampleFields productId records)) = true := by
  have hitems : portableItems (records.map Flat.value) = true :=
    portableItems_iff.mpr (List.forall_mem_map.mpr h)
  simp [sampleFields, portable, portableFields, portableItems, points_unicode, hitems,
    staticSafety_portable, blockText]

theorem sampleBody_portable (productId reason : String) :
    portable (.obj (sampleBodyOf productId reason)) = true := by
  have hzeros : isSurrogate zero = false ∧ isSurrogate (zero + 1) = false := by decide
  have hblockers : Review.blockersOf (sampleRecords reason) ≤ 2 := List.length_filter_le _ _
  have hcount : (Review.blockersOf (sampleRecords reason) : ℤ) ≤ jsSafeInteger ∧
      -jsSafeInteger ≤ (Review.blockersOf (sampleRecords reason) : ℤ) ∧ (2 : ℤ) ≤ jsSafeInteger ∧
        -jsSafeInteger ≤ 2 ∧ (0 : ℤ) ≤ jsSafeInteger := by
    rw [jsSafeInteger]
    omega
  have hitems : portableItems ((sampleRecords reason).map Flat.value) = true :=
    portableItems_iff.mpr (List.forall_mem_map.mpr sampleRecords_portable)
  have hlength : (sampleRecords reason).length = 2 := rfl
  simp [sampleBodyOf, envelopeBody, portable, portableFields, portableItems, points_unicode,
    hitems, hlength, staticSafety_portable, expectedPrivacy_portable, reviewSchemaVersion,
    engineVersion, blockText, expectedSummary, hzeros, hcount]

end

theorem shop_evaluated :
    Evaluated "shop" "no tenant filter" (sampleRecords "no tenant filter") where
  product := by decide +kernel
  perm := .refl _
  sorted := by decide +kernel
  gate := by decide +kernel
  findings := by decide +kernel
  exposed := by decide +kernel

theorem store_evaluated :
    Evaluated "store" "filter is missing" (sampleRecords "filter is missing").reverse where
  product := by decide +kernel
  perm := List.reverse_perm _
  sorted := by decide +kernel
  gate := by decide +kernel
  findings := by decide +kernel
  exposed := by decide +kernel

theorem sample_constants : points "machine_local" ∈ Review.executionModes ∧
    blockText ∈ Review.gateStatuses ∧ isDigest (List.replicate 64 zero) = true ∧
    isDigest (List.replicate 64 (zero + 1)) = true ∧ Review.envelopeFields.Nodup := by
  decide +kernel

example : (sampleRecords "no tenant filter").length = 2 := by decide +kernel

theorem sample_accepted {productId reason : String} {records : List Flat}
    (h : Evaluated productId reason records) :
    Accepted sampleSha noFloat (sampleReview (sampleBodyOf productId reason)) := by
  obtain ⟨hmode, hgate, hzeros, hones, -⟩ := sample_constants
  have hreview : portable (.obj (sampleFields productId records)) = true :=
    sampleFields_portable fun r hr => sampleRecords_portable r (h.perm.mem_iff.mp hr)
  have hchecked : Review.Checked (sampleReviewed productId records)
      (sampleFields productId records) ⟨records, [], [], []⟩ (points productId)
      (List.replicate 64 zero) (List.replicate 64 (zero + 1)) .null (points "machine_local")
      blockText := by
    exact {
      isMode := ⟨rfl, hmode⟩
      isReview := ⟨rfl, hreview⟩
      isProduct := ⟨rfl, h.product⟩
      isGate := ⟨rfl, hgate, h.gate⟩
      findings := h.findings
      controls := by rfl
      regressions := by rfl
      safety := Review.safety_value
      questions := ⟨rfl, rfl⟩
      isSource := ⟨rfl, hzeros⟩
      isModel := ⟨rfl, hones⟩
      isBaseline := rfl }
  have hbuilt := Review.build_ok (H := sampleSha).mpr
    ⟨_, _, _, _, _, _, _, _, hchecked, by
      rw [sample_sorted h]
      exact sampleBody_portable productId reason, rfl⟩
  rw [sample_sorted h] at hbuilt
  exact ⟨_, Review.built_accepted hbuilt⟩

theorem sample_distinct (productId reason : String) :
    Review.Distinct (Review.sealed sampleSha noFloat (sampleBodyOf productId reason)) := by
  exact sample_constants.2.2.2.2

theorem sample_findings (productId reason : String) :
    itemsAt (sampleReview (sampleBodyOf productId reason)) "findings" =
      (sampleRecords reason).map Flat.value := by
  rw [itemsAt, sampleReview, subscript, Review.member_at (sample_distinct _ _) 11 rfl]

theorem sample_engine (productId reason : String) :
    textAt (sampleReview (sampleBodyOf productId reason)) "engine_version" =
      Review.engineVersion := by
  rw [textAt, sampleReview, subscript, Review.member_at (sample_distinct _ _) 3 rfl]

theorem sample_mode (productId reason : String) :
    textAt (sampleReview (sampleBodyOf productId reason)) "execution_mode" =
      points "machine_local" := by
  rw [textAt, sampleReview, subscript, Review.member_at (sample_distinct _ _) 8 rfl]

theorem sample_exposures {productId reason : String} {records : List Flat}
    (h : Evaluated productId reason records) :
    exposures (sampleReview (sampleBodyOf productId reason)) = [ordersExposure, callsExposure] := by
  rw [exposures, sample_findings, List.map_map]
  exact h.exposed

theorem first_exposures : exposures (sampleReview firstBody) = [ordersExposure, callsExposure] :=
  sample_exposures shop_evaluated

theorem second_exposures : exposures (sampleReview secondBody) = [ordersExposure, callsExposure] :=
  sample_exposures store_evaluated

theorem first_accepted : Accepted sampleSha noFloat (sampleReview firstBody) :=
  sample_accepted shop_evaluated

theorem second_accepted : Accepted sampleSha noFloat (sampleReview secondBody) :=
  sample_accepted store_evaluated

theorem hmacDigest_listed {t : Text} (h : t ∈ sampleDigests.map Prod.fst) :
    ∃ p ∈ sampleDigests, p.1 = t ∧ hmacDigest t = p.2 := by
  obtain ⟨q, hq, rfl⟩ := List.mem_map.mp h
  cases hfind : sampleDigests.find? fun p => p.1 = q.1 with
  | none => exact absurd (decide_eq_true rfl) (List.find?_eq_none.mp hfind q hq)
  | some p =>
    refine ⟨p, List.mem_of_find?_eq_some hfind, by simpa using List.find?_some hfind, ?_⟩
    rw [hmacDigest, hfind]
    rfl

example : exposures (.obj []) = [] := by decide +kernel

theorem sample_surfaces :
    hmacDigest (surfaceMaterial noFloat ordersExposure) = ordersSurface ∧
      hmacDigest (surfaceMaterial noFloat callsExposure) = callsSurface := by
  have htypes : ordersExposure.surfaceType ≠ callsExposure.surfaceType := by decide +kernel
  have hapart : surfaceMaterial noFloat ordersExposure ≠ surfaceMaterial noFloat callsExposure := by
    intro hsame
    have htexts := texts_unique hsame
    simp only [List.cons.injEq] at htexts
    exact htypes htexts.2.2.1
  constructor
  · rw [hmacDigest, sampleDigests, List.find?_cons_of_pos (by simp)]
    rfl
  · rw [hmacDigest, sampleDigests, List.find?_cons_of_neg (by simpa using hapart),
      List.find?_cons_of_pos (by simp)]
    rfl

theorem sample_hmacs : NoCollision sampleHmac sampleKey
    (hmacInputs sampleHmac noFloat sampleKey [ordersExposure, callsExposure]) := by
  have hdigest : ∀ t, sampleHmac.digest sampleKey t = hmacDigest t := fun _ => rfl
  have hinputs : hmacInputs sampleHmac noFloat sampleKey [ordersExposure, callsExposure] =
      (sampleDigests.map Prod.fst).take 4 := by
    simp only [hmacInputs, List.map_cons, List.map_nil, surfaceRefOf, hdigest, sample_surfaces,
      sampleDigests]
    rfl
  rw [hinputs]
  intro s hs t ht hsame
  obtain ⟨p, hp, rfl, hpdigest⟩ := hmacDigest_listed (List.mem_of_mem_take hs)
  obtain ⟨q, hq, rfl, hqdigest⟩ := hmacDigest_listed (List.mem_of_mem_take ht)
  rw [hdigest, hdigest, hpdigest, hqdigest] at hsame
  rw [List.inj_on_of_nodup_map sample_digests.2 hp hq hsame]

theorem sample_checks : sampleKey.length = 32 ∧
    isMarked projectMark 32 (projectMark ++ List.replicate 32 zero) = true ∧
    (¬ ∃ e ∈ [ordersExposure, callsExposure], ¬ Catalogued e) ∧
    ([ordersExposure, callsExposure].map surfaceAndRisk).Nodup := by
  decide +kernel

theorem sample_unrefused : ¬ Refused sampleKey sampleRef [ordersExposure, callsExposure] := by
  obtain ⟨hkey, href, hcatalogued, hdistinct⟩ := sample_checks
  simp only [Refused, not_or, not_not]
  exact ⟨hkey, ⟨_, rfl, href⟩, hcatalogued, hdistinct⟩

theorem findings_projected_sample :
    (∃ request, projectFindingsSync sampleSha sampleHmac noFloat (sampleReview firstBody) sampleRef
        sampleKey = .ok request ∧
      validateFindingsSyncRequest sampleSha sampleHmac noFloat request sampleKey = .ok request) ∧
    ∃ f : Text → Option Value,
      (projectFindingsSync sampleSha sampleHmac noFloat (sampleReview firstBody) sampleRef
        sampleKey).toOption = f
        (sourceHmacOf sampleHmac noFloat sampleKey (sampleReview firstBody)) ∧
      (projectFindingsSync sampleSha sampleHmac noFloat (sampleReview secondBody) sampleRef
        sampleKey).toOption =
          f (sourceHmacOf sampleHmac noFloat sampleKey (sampleReview secondBody)) := by
  have hprojected := findings_projected sampleSha sampleHmac noFloat sampleKey sampleRef
  have hfew : (itemsAt (sampleReview firstBody) "findings").length ≤ maxFindings := by
    rw [firstBody, sample_findings]
    decide
  have hcollision : NoCollision sampleHmac sampleKey
      (hmacInputs sampleHmac noFloat sampleKey (exposures (sampleReview firstBody))) := by
    rw [first_exposures]
    exact sample_hmacs
  have hperm : (exposures (sampleReview firstBody)).Perm (exposures (sampleReview secondBody)) := by
    rw [first_exposures, second_exposures]
  have hengine : textAt (sampleReview firstBody) "engine_version" =
      textAt (sampleReview secondBody) "engine_version" := by
    rw [firstBody, secondBody, sample_engine, sample_engine]
  have hmode : textAt (sampleReview firstBody) "execution_mode" =
      textAt (sampleReview secondBody) "execution_mode" := by
    rw [firstBody, secondBody, sample_mode, sample_mode]
  constructor
  · cases hprojected.1 (sampleReview firstBody) first_accepted hfew hcollision with
    | inl h => exact h.1
    | inr h => exact absurd (first_exposures ▸ h.2) sample_unrefused
  · exact (hprojected.2 _ _ first_accepted second_accepted hengine hmode hperm).2

end Heel.Findings
