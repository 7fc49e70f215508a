import Heel.Contracts.ReviewValidation

/-! The builder and the validator of a review agree: an envelope that was built is accepted as it
is. -/
namespace Heel.Review
open Lib Lib.JsonText Lib.Checks

variable {H : Sha256} {float : Binary64 → Text}

/-- A body under its hash and its identifier. -/
def sealed (H : Sha256) (float : Binary64 → Text) (body : Fields) : Fields :=
  (reviewIdKey, .str (reviewMark ++ (stableJsonHash H float (.obj body)).take 20)) ::
    (resultHashKey, .str (stableJsonHash H float (.obj body))) :: body

/-- What the builder has checked: the fields of the review, and the texts and records it took. -/
structure Checked (input : ReviewInput) (review : Fields) (records : ReviewRecords)
    (productId sourceHash modelHash : Text) (baselineHash : Value)
    (executionMode gateStatus : Text) : Prop where
  isMode : input.executionMode = .str executionMode ∧ executionMode ∈ executionModes
  isReview : input.review = .obj review ∧ portable input.review = true
  isProduct : get review (points "product_id") = .str productId ∧
    productId.all isWhitespace = false
  isGate : get review (points "launch_gate_status") = .str gateStatus ∧
    gateStatus ∈ gateStatuses ∧ gateStatus = expectedGate records.findings
  findings : validateRecords validateFinding (get review (points "new_abuse_affordances")) =
    .ok records.findings
  controls : validateRecords validateFinding (get review (points "recommended_controls")) =
    .ok records.controls
  regressions : validateRecords validateRegression
    (get review (points "suggested_regression_tests")) = .ok records.regressions
  safety : validateSafety (get review (points "safety")) = .ok staticSafety
  questions : portable input.questions = true ∧
    validateRecords validateQuestion input.questions = .ok records.questions
  isSource : input.sourceHash = .str sourceHash ∧ isDigest sourceHash = true
  isModel : input.modelHash = .str modelHash ∧ isDigest modelHash = true
  isBaseline : validateOptionalHash input.baselineHash = .ok baselineHash

theorem validateOptionalHash_ok {value w : Value} : validateOptionalHash value = .ok w ↔
    w = value ∧ (value = .null ∨ ∃ s, value = .str s ∧ isDigest s = true) := by
  cases value with
  | null =>
    rw [validateOptionalHash, Except.ok.injEq]
    exact ⟨fun h => ⟨h.symm, .inl rfl⟩, fun h => h.1.symm⟩
  | str t =>
    simp only [validateOptionalHash, bind_ok, validateHash_ok, pure, Except.pure, Except.ok.injEq,
      Value.str.injEq, reduceCtorEq, false_or]
    constructor
    · rintro ⟨_, ⟨rfl, h⟩, rfl⟩
      exact ⟨rfl, _, rfl, h⟩
    · rintro ⟨rfl, _, rfl, h⟩
      exact ⟨_, ⟨rfl, h⟩, rfl⟩
  | bool | int | float | arr | obj =>
    constructor
    · intro h
      cases h
    · rintro ⟨-, h | ⟨_, h, -⟩⟩ <;> cases h

theorem safety_ok {value : Value} {safety : Flat} (h : validateSafety value = .ok safety) :
    safety = staticSafety := by
  simp only [validateSafety, bind_ok, pure, Except.pure, Except.ok.injEq] at h
  obtain ⟨_, _, _, _, _, _, _, _, _, _, h⟩ := h
  exact h.symm

/-- The keys of an envelope and of its summary, and the two keys that are not of its body. -/
theorem envelope_keys : summaryFields.Nodup ∧ envelopeFields.Nodup ∧
    ∀ name ∈ bodyFields, name ∉ [reviewIdKey, resultHashKey] := by
  decide +kernel

theorem marks_unicode : ∀ s ∈ [reviewIdKey, resultHashKey, reviewMark],
    s.any isSurrogate = false := by
  decide +kernel

theorem staticSafety_portable : portable (Flat.value staticSafety) = true := by
  simp [Flat.value, staticSafety, modeKey, portable, portableFields, points_unicode, Scalar.value]

theorem expectedPrivacy_portable (mode : String) :
    portable (Flat.value (expectedPrivacy (points mode))) = true := by
  have hintent : (if points mode = cloudIsolated then points "sanitized_model"
      else points "none").any isSurrogate = false := by
    split_ifs <;> exact points_unicode _
  simp [Flat.value, expectedPrivacy, portable, portableFields, points_unicode, Scalar.value,
    hintent]

theorem safety_value : validateSafety (Flat.value staticSafety) = .ok staticSafety := by
  decide +kernel

/-- The builder answers the sealed body of what it has checked, and nothing else. -/
theorem build_ok {input : ReviewInput} {envelope : Value} :
    buildReviewEnvelope H float input = .ok envelope ↔
      ∃ review records productId sourceHash modelHash baselineHash executionMode gateStatus,
        Checked input review records productId sourceHash modelHash baselineHash executionMode
          gateStatus ∧
        portable (.obj (envelopeBody (records.sorted float) productId sourceHash modelHash
          baselineHash executionMode gateStatus staticSafety)) = true ∧
        envelope = .obj (sealed H float (envelopeBody (records.sorted float) productId sourceHash
          modelHash baselineHash executionMode gateStatus staticSafety)) := by
  simp only [buildReviewEnvelope, bind_ok, within_ok, require_ok, exists_const, requireOneOf_ok,
    requireObject_ok, normalizeJson_ok, requireNonemptyString_ok, validateHash_ok, pure,
    Except.pure, Except.ok.injEq]
  constructor
  · rintro ⟨mode, hmode, review, ⟨_, ⟨hportable, rfl⟩, hreview⟩, productId, hproduct, gate, hgate,
      findings, hfindings, controls, hcontrols, regressions, hregressions, safety, hsafety,
      questions, ⟨_, ⟨hquestions, rfl⟩, hquestions'⟩, hexpected, sourceHash, hsource, modelHash,
      hmodel, baselineHash, hbaseline, _, ⟨_, ⟨hbody, rfl⟩, hobj⟩, rfl⟩
    obtain rfl := safety_ok hsafety
    rw [Value.obj.injEq] at hobj
    subst hobj
    exact ⟨review, ⟨findings, controls, regressions, questions⟩, productId, sourceHash, modelHash,
      baselineHash, mode, gate,
        ⟨hmode, ⟨hreview, hportable⟩, hproduct, ⟨hgate.1, hgate.2, hexpected⟩,
        hfindings, hcontrols, hregressions, hsafety, ⟨hquestions, hquestions'⟩, hsource, hmodel,
        hbaseline⟩, hbody, rfl⟩
  · rintro ⟨review, records, productId, sourceHash, modelHash, baselineHash, mode, gate, h, hbody,
      rfl⟩
    exact ⟨mode, h.isMode, review, ⟨_, ⟨h.isReview.2, rfl⟩, h.isReview.1⟩, productId, h.isProduct,
      gate, ⟨h.isGate.1, h.isGate.2.1⟩, records.findings, h.findings, records.controls,
      h.controls, records.regressions, h.regressions, staticSafety, h.safety, records.questions,
      ⟨_, ⟨h.questions.1, rfl⟩, h.questions.2⟩, h.isGate.2.2, sourceHash, h.isSource,
      modelHash, h.isModel, baselineHash, h.isBaseline, _, ⟨_, ⟨hbody, rfl⟩, rfl⟩, rfl⟩

theorem reviewId_ok {s : Text} (h : isDigest s = true) :
    validateReviewId (.str (reviewMark ++ s.take 20)) = .ok (reviewMark ++ s.take 20) := by
  obtain ⟨hlength, hhex⟩ := isDigest_iff.mp h
  simp only [validateReviewId, bind_ok, require_ok, exists_const, pure, Except.pure, and_true,
    List.take_left', List.drop_left']
  refine ⟨trivial, ?_, ?_⟩
  · rw [List.length_take, hlength]
    rfl
  · rw [List.all_eq_true] at hhex ⊢
    exact fun c hc => hhex c (List.mem_of_mem_take hc)

theorem blockersOf_perm {findings findings' : List Flat} (h : findings.Perm findings') :
    blockersOf findings = blockersOf findings' := (h.filter _).length_eq

theorem expectedGate_perm {findings findings' : List Flat} (h : findings.Perm findings') :
    expectedGate findings = expectedGate findings' := by
  have hempty : findings = [] ↔ findings' = [] := by
    rw [← List.length_eq_zero_iff, h.length_eq, List.length_eq_zero_iff]
  simp only [expectedGate, blockersOf_perm h, ne_eq, hempty]

example : expectedGate [] = passText := by decide +kernel

theorem privacy_value : ∀ mode ∈ executionModes,
    validatePrivacy (Flat.value (expectedPrivacy mode)) = .ok (expectedPrivacy mode) := by
  decide +kernel

theorem privacy_calls : ∀ mode ∈ executionModes,
    staticSafety.find? (fun p => p.1 = points "network_calls") =
      (expectedPrivacy mode).find? fun p => p.1 = points "network_calls" := by
  decide +kernel

theorem summary_value {findings questions : List Flat} (hfindings : findings.length ≤ jsSafeInteger)
    (hblockers : blockersOf findings ≤ jsSafeInteger)
    (hquestions : questions.length ≤ jsSafeInteger) :
    validateSummary (.obj ((expectedSummary findings questions).map fun p => (p.1, .int p.2))) =
      .ok (expectedSummary findings questions) := by
  have hcount : ∀ n : ℕ, n ≤ jsSafeInteger → requireNonnegativeInteger (.int n) = .ok (n : ℤ) := by
    intro n hn
    simp only [requireNonnegativeInteger, bind_ok, require_ok, exists_const, pure, Except.pure,
      and_true]
    omega
  have hd : Distinct ((expectedSummary findings questions).map fun p => (p.1, .int p.2)) := by
    show summaryFields.Nodup
    exact envelope_keys.1
  simp only [validateSummary, bind_ok, requireObject_ok]
  refine ⟨_, rfl, (), exact_of_keys rfl, ?_⟩
  rw [mapM_ok]
  simp only [bind_ok, within_ok, pure, Except.pure, Except.ok.injEq]
  refine .cons ⟨_, member_at hd 0 rfl, _, hcount _ hfindings, rfl⟩
    (.cons ⟨_, member_at hd 1 rfl, _, hcount _ hblockers, rfl⟩
      (.cons ⟨_, member_at hd 2 rfl, _, hcount _ hquestions, rfl⟩ .nil))

theorem bodyOf_sealed {body : Fields} (h : body.map Prod.fst = bodyFields) :
    bodyOf (sealed H float body) = body := by
  have hkeys : ∀ p ∈ body, p.1 ∉ [reviewIdKey, resultHashKey] := by
    intro p hp
    have hin : p.1 ∈ bodyFields := h ▸ List.mem_map_of_mem hp
    exact envelope_keys.2.2 _ hin
  rw [bodyOf, sealed, List.filter_cons_of_neg (by simp), List.filter_cons_of_neg (by simp)]
  rw [List.filter_eq_self]
  exact fun p hp => decide_eq_true (hkeys p hp)

theorem sealed_portable {body : Fields} (h : portable (.obj body) = true) :
    portable (.obj (sealed H float body)) = true := by
  have hhex := (isDigest_iff.mp (digest_isDigest (H := H) (dumps float (.obj body)))).2
  have htake : ((stableJsonHash H float (.obj body)).take 20).all isLowerHex = true := by
    rw [List.all_eq_true] at hhex ⊢
    exact fun c hc => hhex c (List.mem_of_mem_take hc)
  have hid :
      portable (.str (reviewMark ++ (stableJsonHash H float (.obj body)).take 20)) = true := by
    rw [portable, List.any_append, lowerHex_unicode htake, marks_unicode reviewMark (by simp)]
    rfl
  have hhash : portable (.str (stableJsonHash H float (.obj body))) = true := by
    rw [portable, stableJsonHash, lowerHex_unicode hhex]
    rfl
  rw [portable, portableFields_iff] at h ⊢
  rw [sealed, List.forall_mem_cons, List.forall_mem_cons]
  exact ⟨⟨marks_unicode reviewIdKey (by simp), hid⟩,
    ⟨marks_unicode resultHashKey (by simp), hhash⟩, h⟩

theorem built_accepted {input : ReviewInput} {envelope : Value}
    (hbuilt : buildReviewEnvelope H float input = .ok envelope) :
    validateReviewEnvelope H float envelope = .ok envelope := by
  obtain ⟨review, records, productId, sourceHash, modelHash, baselineHash, mode, gate, h, hbody,
    rfl⟩ := build_ok.mp hbuilt
  set sorted := records.sorted float with hsorted
  set body := envelopeBody sorted productId sourceHash modelHash baselineHash mode gate
    staticSafety with hbodyDef
  have hkeys : (sealed H float body).map Prod.fst = envelopeFields := rfl
  have hd : Distinct (sealed H float body) := by
    rw [Distinct, hkeys]
    exact envelope_keys.2.1
  have hportable := portableFields_iff.mp hbody
  -- what the builder has validated is validated again
  have hfindings : validateRecords validateFinding (.arr (sorted.findings.map Flat.value)) =
      .ok sorted.findings :=
    records_value fun r hr => records_again finding_again h.findings r (mem_sortBy.mp hr)
  have hcontrols : validateRecords validateFinding (.arr (sorted.controls.map Flat.value)) =
      .ok sorted.controls :=
    records_value fun r hr => records_again finding_again h.controls r (mem_sortBy.mp hr)
  have hregressions : validateRecords validateRegression
      (.arr (sorted.regressions.map Flat.value)) = .ok sorted.regressions :=
    records_value fun r hr => records_again regression_again h.regressions r (mem_sortBy.mp hr)
  have hquestions : validateRecords validateQuestion (.arr (sorted.questions.map Flat.value)) =
      .ok sorted.questions :=
    records_value fun r hr => records_again question_again h.questions.2 r (mem_sortBy.mp hr)
  -- the counts are safe integers, the summary being portable
  have hsummary : validateSummary (.obj ((expectedSummary sorted.findings sorted.questions).map
      fun p => (p.1, .int p.2))) = .ok (expectedSummary sorted.findings sorted.questions) := by
    have hcounts := (hportable _ (List.mem_of_getElem? (show body[8]? = some _ from rfl))).2
    simp only [portable, portableFields, expectedSummary, List.map_cons, List.map_nil,
      Bool.and_eq_true, decide_eq_true_eq] at hcounts
    exact summary_value hcounts.1.2.2 hcounts.2.1.2.2 hcounts.2.2.1.2.2
  have hbaseline : validateOptionalHash baselineHash = .ok baselineHash := by
    obtain ⟨rfl, hnull⟩ := validateOptionalHash_ok.mp h.isBaseline
    exact validateOptionalHash_ok.mpr ⟨rfl, hnull⟩
  have hgate : gate = expectedGate sorted.findings :=
    h.isGate.2.2.trans (expectedGate_perm (sortBy_perm _ _).symm)
  have hdigest := digest_isDigest (H := H) (dumps float (.obj body))
  have hown : bodyOf (sealed H float body) = body := bodyOf_sealed rfl
  simp only [validateReviewEnvelope, bind_ok, within_ok, require_ok, exists_const, requireOneOf_ok,
    requireObject_ok, normalizeJson_ok, requireNonemptyString_ok, validateHash_ok, pure,
    Except.pure, Except.ok.injEq]
  refine ⟨_, ⟨sealed_portable hbody, rfl⟩, _, rfl, (), exact_of_keys hkeys,
    _, member_at hd 0 rfl, _,
    reviewId_ok hdigest, _, member_at hd 1 rfl, _, ⟨rfl, hdigest⟩, _, member_at hd 2 rfl, ?_, _,
    member_at hd 3 rfl, _, ⟨rfl, ?_⟩, _, member_at hd 4 rfl, _, ⟨rfl, h.isProduct.2⟩, _,
    member_at hd 5 rfl, _, ⟨rfl, h.isSource.2⟩, _, member_at hd 6 rfl, _, ⟨rfl, h.isModel.2⟩, _,
    member_at hd 7 rfl, _, hbaseline, _, member_at hd 8 rfl, _, ⟨rfl, h.isMode.2⟩, _,
    member_at hd 9 rfl, _, ⟨rfl, h.isGate.2.1⟩, _, member_at hd 11 rfl, _, hfindings, _,
    member_at hd 12 rfl, _, hcontrols, _, member_at hd 13 rfl, _, hregressions, _,
    member_at hd 14 rfl, _, hquestions, _, member_at hd 15 rfl, _, safety_value,
    (sortBy_sortBy _ _).symm, (sortBy_sortBy _ _).symm, (sortBy_sortBy _ _).symm,
    (sortBy_sortBy _ _).symm, hgate, _, member_at hd 10 rfl, _, hsummary, rfl, _,
    member_at hd 16 rfl, _, privacy_value mode h.isMode.2, rfl,
      privacy_calls mode h.isMode.2, ?_, ?_,
    rfl⟩
  · simp [isText]
  · decide +kernel
  · rw [hown]
  · rw [hown]

end Heel.Review
