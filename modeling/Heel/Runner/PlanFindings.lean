import Heel.Runner.PlanPaths

/-! Soundness of the verdict "finding": what the two observations of a pair have shown when one is
stored. Both readers of bodies are asked, and agree. -/
namespace Heel.PlanDifferential
open Lib Lib.JsonText Lib.Checks Heel.Content
variable {W : Words}

theorem uniquePairs_ok {ps fields : List (Text × Value)}
    (h : uniquePairs Raised.duplicateKey ps = .ok fields) : ps = fields := by
  unfold uniquePairs at h
  split at h
  · exact Except.ok.inj h
  · cases h

theorem hooks_agree {h h' : Hooks Raised} (hh : h = strictHooks ∨ h = lenientHooks)
    (hh' : h' = strictHooks ∨ h' = lenientHooks) : h.Agree h' := by
  constructor
  · intro name v w hv hw
    rcases hh with rfl | rfl
    · cases hv
    · rcases hh' with rfl | rfl
      · cases hw
      · exact Except.ok.inj (hv.symm.trans hw)
  · intro ps v w hv hw
    have hv : uniquePairs Raised.duplicateKey ps = .ok v := by rcases hh with rfl | rfl <;> exact hv
    have hw : uniquePairs Raised.duplicateKey ps = .ok w := by
      rcases hh' with rfl | rfl <;> exact hw
    exact (uniquePairs_ok hv).symm.trans (uniquePairs_ok hw)

/-- A body is parsed to a value by `_parsed` or by `protected_content`, at some depth of
the stack. -/
inductive Parses (body : List UInt8) : Value → Prop where
  | strict {depth text value} (htext : utf8Decode false body = some text)
    (h : loads strictHooks depth text = .ok value) : Parses body value
  | lenient {depth value} (h : loadsBytes lenientHooks depth body = .ok value) : Parses body value

theorem Parses.unique {body : List UInt8} {v w : Value} (hv : Parses body v) (hw : Parses body w) :
    v = w := by
  have agree := @hooks_agree
  cases hv with
  | strict htext h =>
    cases hw with
    | strict htext' h' =>
      rw [htext, Option.some.injEq] at htext'
      exact loads_agree (agree (.inl rfl) (.inl rfl)) h (htext' ▸ h')
    | lenient h' => exact loadsBytes_agree (agree (.inl rfl) (.inr rfl)) htext h h'
  | lenient h =>
    cases hw with
    | strict htext h' => exact (loadsBytes_agree (agree (.inl rfl) (.inr rfl)) htext h' h).symm
    | lenient h' =>
      unfold loadsBytes at h h'
      cases htext : decodeDetected body with
      | none => simp [htext] at h
      | some text =>
        simp only [htext] at h h'
        exact loads_agree (agree (.inr rfl) (.inr rfl)) h h'

theorem parsed_parses {depth : ℕ} {body : List UInt8}
    (h : isObject (parsed depth body) = true) : Parses body (parsed depth body) := by
  unfold parsed at h ⊢
  split at h
  · cases h
  next hbody =>
    rw [if_neg hbody]
    cases htext : utf8Decode false body with
    | none => simp [htext, isObject] at h
    | some text =>
      simp only [htext] at h ⊢
      cases hread : loads strictHooks depth text with
      | error e => simp [hread, isObject] at h
      | ok value => exact .strict htext hread

/-- No reading of the body is a denial envelope. -/
def NoDenial (W : Words) (body : List UInt8) : Prop :=
  ∀ value, Parses body value → isDenialEnvelope W value = false

theorem Parses.noDenial {body : List UInt8} {value : Value} (h : Parses body value)
    (hvalue : isDenialEnvelope W value = false) : NoDenial W body := by
  intro other hother
  rw [hother.unique h]
  exact hvalue

/-- The body is an object whose protected field is the marker. -/
def Discloses (body : List UInt8) (marker : Text) : Prop :=
  ∃ fields, Parses body (.obj fields) ∧ field protectedCanary fields = some (.str marker)

theorem isText_iff {expected : Text} {value : Option Value} (h : isText expected value = true) :
    value = some (.str expected) := by
  unfold isText at h
  split at h
  · simpa using h
  · cases h

theorem protectedFields_true {marker : Text} {status : ℤ} {fields : List (Text × Value)}
    (h : protectedFields W marker status fields = .ok (some true)) :
    isDenialEnvelope W (.obj fields) = false ∧
      field protectedCanary fields = some (.str marker) := by
  unfold protectedFields at h
  dsimp only at h
  split at h
  · cases h
  next henvelope =>
    have henvelope : isDenialEnvelope W (.obj fields) = false := by
      simp only [Bool.or_eq_true, not_or, Bool.not_eq_true] at henvelope
      exact henvelope.1
    by_cases htext : isText marker (field protectedCanary fields) = true
    · exact ⟨henvelope, isText_iff htext⟩
    rw [if_neg htext] at h
    by_cases hstatus : status ∈ denialStatuses
    · rw [if_pos hstatus] at h
      cases h
    rw [if_neg hstatus] at h
    split at h
    · simp only [bind_ok] at h
      obtain ⟨_, -, h⟩ := h
      split at h <;> cases h
    · cases h

/-- The local predicate is true of a body that discloses the marker and is no denial. -/
theorem protectedContent_true {depth : ℕ} {body : List UInt8} {marker : Option Text} {status : ℤ}
    {method : Text} (h : protectedContent W depth body marker status method = .ok (some true)) :
    ∃ m, marker = some m ∧ Discloses body m ∧ NoDenial W body := by
  cases marker with
  | none => cases h
  | some m =>
    simp only [protectedContent] at h
    split at h
    · cases h
    split at h
    · simp only [Except.ok.injEq] at h
      split at h <;> cases h
    · next fields hread =>
      obtain ⟨hdenial, hfield⟩ := protectedFields_true h
      have hparse : Parses body (.obj fields) := .lenient hread
      exact ⟨m, rfl, ⟨fields, hparse, hfield⟩, hparse.noDenial hdenial⟩
    · cases h

/-- Both bodies are objects that the walks finish, and what the higher one has, the lower
one has. -/
def Superset (W : Words) (lower higher : List UInt8) : Prop :=
  ∃ l h, Parses lower l ∧ Parses higher h ∧ isObject l = true ∧ isObject h = true ∧
    WithinBounds W l ∧ WithinBounds W h ∧
    (∀ p, KeyPath W h p → KeyPath W l p) ∧ ∀ p, TruthyPath W h p → TruthyPath W l p

theorem objectPaths_ok {paths : Value → Except Raised (List Text)} {value : Value}
    {found : List Text} (hobject : isObject value = true)
    (h : objectPaths paths value = .ok found) : paths value = .ok found := by
  unfold objectPaths at h
  rwa [if_pos hobject] at h

theorem compareBodies_true {lowerStatus : ℤ} {lowerDenial : Bool} {l h : Value}
    (hcompare : (compareBodies W lowerStatus lowerDenial l h).1 = some true) :
    lowerDenial = false ∧ is2xx lowerStatus = true ∧ isObject l = true ∧
      WithinBounds W l ∧ WithinBounds W h ∧
      (∀ p, KeyPath W h p → KeyPath W l p) ∧ ∀ p, TruthyPath W h p → TruthyPath W l p := by
  unfold compareBodies at hcompare
  cases hsets : pathSets W l h with
  | error e => simp [hsets] at hcompare
  | ok sets =>
    simp only [hsets] at hcompare
    split at hcompare
    · next hguard =>
      simp only [Bool.and_eq_true, Bool.not_eq_true'] at hguard hcompare
      split at hcompare
      · cases hcompare
      next hhollow =>
        simp only [Option.some.injEq, Bool.and_eq_true] at hcompare
        obtain ⟨⟨hstatus, hobject⟩, hkeys⟩ := hcompare
        have hmaterial : covers sets.lowerMaterial sets.higherMaterial = true := by
          simpa [hstatus, hobject, hkeys] using hhollow
        unfold pathSets at hsets
        simp only [bind_ok, pure, Except.pure, Except.ok.injEq] at hsets
        obtain ⟨hp, hhp, lp, hlp, hm, hhm, lm, hlm, rfl⟩ := hsets
        have hlp := objectPaths_ok hobject hlp
        have hlm := objectPaths_ok hobject hlm
        exact ⟨hguard.2, hstatus, hobject, (keyPaths_ok_iff l).mp ⟨lp, hlp⟩,
          (keyPaths_ok_iff h).mp ⟨hp, hhp⟩,
          (covers_iff (keyPaths_mem hlp) (keyPaths_mem hhp)).mp hkeys,
          (covers_iff (materialPaths_mem hlm) (materialPaths_mem hhm)).mp hmaterial⟩
    · cases hcompare

section Evaluate
variable {R : Allowance} {lower higher : PlanObservation} {method : Text} {marker : Option Text}
  {assessmentOutcome : String}

/-- What stands behind each flag that a finding rests on. -/
structure Grounds (W : Words) (R : Allowance) (lower higher : PlanObservation) (method : Text)
    (marker : Option Text) (assessmentOutcome : String) (flags : Flags) : Prop where
  control : flags.positiveControl = true → is2xx higher.status = true ∧
    isDenialEnvelope W (parsed R.higherParse higher.body) = false ∧
    (given marker = true → higher.status = 200 ∧
      protectedContent W R.higherMarker higher.body marker higher.status method = .ok (some true))
  superset : flags.bodySuperset = some true → isHead method = false ∧
    isObject (parsed R.higherParse higher.body) = true ∧
    (compareBodies W lower.status (isDenialEnvelope W (parsed R.lowerParse lower.body))
      (parsed R.lowerParse lower.body) (parsed R.higherParse higher.body)).1 = some true
  leak : flags.markerLeak = some true → given marker = true ∧ assessmentOutcome = "observed" ∧
    protectedContent W R.lowerMarker lower.body marker lower.status method = .ok (some true)

theorem leakOf_true {lowerMarker : Option Bool}
    (h : leakOf assessmentOutcome lowerMarker = some true) :
    lowerMarker = some true ∧ assessmentOutcome = "observed" := by
  unfold leakOf at h
  split at h
  · next hobserved => exact hobserved
  split at h
  · cases h
  · cases h

theorem lowerLeak_true {positiveControl : Bool}
    (h : lowerLeak W R lower method marker assessmentOutcome positiveControl = .ok (some true)) :
    given marker = true ∧ assessmentOutcome = "observed" ∧
      protectedContent W R.lowerMarker lower.body marker lower.status method = .ok (some true) := by
  unfold lowerLeak at h
  split at h
  · next hguard =>
    simp only [Bool.and_eq_true] at hguard
    cases hcontent : protectedContent W R.lowerMarker lower.body marker lower.status method with
    | error e => simp [hcontent] at h
    | ok lowerMarker =>
      simp only [hcontent, Except.map_ok, Except.ok.injEq] at h
      obtain ⟨rfl, hobserved⟩ := leakOf_true h
      exact ⟨hguard.1.1, hobserved, rfl⟩
  · cases h

theorem assess_grounds {a : Assessed}
    (h : assess W R lower higher method marker assessmentOutcome = .ok a) :
    Grounds W R lower higher method marker assessmentOutcome a.flags := by
  unfold assess at h
  simp only [bind_ok, pure, Except.pure, Except.ok.injEq] at h
  obtain ⟨higherMarker, hmarker, leak, hleak, rfl⟩ := h
  constructor
  · intro hcontrol
    simp only [Bool.and_eq_true, Bool.not_eq_true', Bool.or_eq_true, decide_eq_true_eq] at hcontrol
    obtain ⟨⟨⟨hstatus, hdenial⟩, -⟩, hgiven⟩ := hcontrol
    refine ⟨hstatus, hdenial, fun hm => ?_⟩
    unfold higherContent at hmarker
    rw [if_pos hm] at hmarker
    rcases hgiven with hnot | hgiven
    · rw [hm] at hnot
      cases hnot
    · exact ⟨hgiven.1, hgiven.2 ▸ hmarker⟩
  · intro hsuperset
    dsimp only at hsuperset
    split at hsuperset
    · next hguard =>
      simp only [Bool.and_eq_true, Bool.not_eq_true'] at hguard
      exact ⟨hguard.1.2, hguard.2, hsuperset⟩
    · cases hsuperset
  · intro hflag
    dsimp only at hflag
    subst hflag
    exact lowerLeak_true hleak

theorem rows_finding {lowerStatus : ℤ} {a : Assessed}
    (h : (rows lowerStatus method marker a).verdict = .finding) :
    a.flags.positiveControl = true ∧
      ((rows lowerStatus method marker a).predicate = .markerLeak ∧
          a.flags.markerLeak = some true ∨
        (rows lowerStatus method marker a).predicate = .bodySuperset ∧ given marker = false ∧
          a.flags.bodySuperset = some true) := by
  unfold rows at h ⊢
  by_cases hcontrol : (!a.flags.positiveControl) = true
  · rw [if_pos hcontrol] at h
    cases h
  rw [if_neg hcontrol] at h ⊢
  refine ⟨by simpa using hcontrol, ?_⟩
  by_cases hleak : a.flags.markerLeak = some true
  · rw [if_pos hleak]
    exact Or.inl ⟨rfl, hleak⟩
  rw [if_neg hleak] at h ⊢
  by_cases hheld : a.flags.markerLeak = some false
  · rw [if_pos hheld] at h
    cases h
  rw [if_neg hheld] at h ⊢
  by_cases hgiven : given marker = true
  · rw [if_pos hgiven] at h
    cases h
  rw [if_neg hgiven] at h ⊢
  by_cases hsuperset : a.flags.bodySuperset = some true
  · rw [if_pos hsuperset]
    exact Or.inr ⟨rfl, by simpa using hgiven, hsuperset⟩
  rw [if_neg hsuperset] at h
  split at h
  · split at h <;> cases h
  · split at h <;> cases h

end Evaluate

/-- The first kind of finding: the lower plan was sent what the higher plan was sent. -/
structure SupersetFinding (W : Words) (lower higher : PlanObservation) (method : Text)
    (marker : Option Text) : Prop where
  unmarked : given marker = false
  method : method ≠ points "HEAD"
  status : 200 ≤ lower.status ∧ lower.status ≤ 299
  bodies : Superset W lower.body higher.body

/-- The second kind: both plans were sent the marker, and the executor saw it. -/
structure LeakFinding (lower higher : PlanObservation) (marker : Option Text)
    (assessmentOutcome : String) : Prop where
  status : higher.status = 200
  disclosed : ∃ m, marker = some m ∧ m ≠ [] ∧ Discloses lower.body m ∧ Discloses higher.body m
  observed : assessmentOutcome = "observed"

theorem is2xx_iff (status : ℤ) : is2xx status = true ↔ 200 ≤ status ∧ status ≤ 299 := by
  simp [is2xx]

theorem evaluatePlanPair_finding {R : Allowance} {lower higher : Option PlanObservation}
    {method : Text} {marker : Option Text} {outcome : ExecutorOutcome}
    (h : (evaluatePlanPair W R lower higher method marker outcome).verdict = .finding) :
    ∃ l g a, lower = some l ∧ higher = some g ∧ outcome.executionDisposition = "completed" ∧
      assess W R l g method marker outcome.assessmentOutcome = .ok a ∧
      evaluatePlanPair W R lower higher method marker outcome = rows l.status method marker a := by
  unfold evaluatePlanPair at h ⊢
  split at h
  · next l g =>
    split at h
    · next hcompleted =>
      unfold evaluate at h ⊢
      cases hassess : assess W R l g method marker outcome.assessmentOutcome with
      | error e => simp [hassess, bind, Except.bind, inconclusive] at h
      | ok a =>
        refine ⟨l, g, a, rfl, rfl, hcompleted, hassess, ?_⟩
        simp only [if_pos hcompleted]
        rfl
    · cases h
  · cases h

/-- Every finding is backed: the run completed, the higher plan was served, no body says no, and the
lower body either covers the higher one or carries the marker. -/
theorem finding_backed (W : Words) (R : Allowance) (lower higher : Option PlanObservation)
    (method : Text) (marker : Option Text) (outcome : ExecutorOutcome)
    (h : (evaluatePlanPair W R lower higher method marker outcome).verdict = .finding) :
    ∃ l g, lower = some l ∧ higher = some g ∧ outcome.executionDisposition = "completed" ∧
      (200 ≤ g.status ∧ g.status ≤ 299) ∧ NoDenial W l.body ∧ NoDenial W g.body ∧
      ((evaluatePlanPair W R lower higher method marker outcome).predicate = .bodySuperset ∧
          SupersetFinding W l g method marker ∨
        (evaluatePlanPair W R lower higher method marker outcome).predicate = .markerLeak ∧
          LeakFinding l g marker outcome.assessmentOutcome) := by
  obtain ⟨l, g, a, hl, hg, hcompleted, hassess, heq⟩ := evaluatePlanPair_finding h
  rw [heq] at h ⊢
  obtain ⟨hcontrol, hkind⟩ := rows_finding h
  have grounds := assess_grounds hassess
  obtain ⟨hstatus, hdenial, hmarker⟩ := grounds.control hcontrol
  refine ⟨l, g, hl, hg, hcompleted, (is2xx_iff _).mp hstatus, ?_⟩
  rcases hkind with ⟨hpredicate, hleak⟩ | ⟨hpredicate, hgiven, hsuperset⟩
  · obtain ⟨hgiven, hobserved, hlower⟩ := grounds.leak hleak
    obtain ⟨hok, hhigher⟩ := hmarker hgiven
    obtain ⟨m, rfl, hl, hlno⟩ := protectedContent_true hlower
    obtain ⟨m', hm', hg, hgno⟩ := protectedContent_true hhigher
    cases hm'
    have hne : m ≠ [] := by simpa [given] using hgiven
    exact ⟨hlno, hgno, Or.inr ⟨hpredicate, hok, ⟨m, rfl, hne, hl, hg⟩, hobserved⟩⟩
  · obtain ⟨hhead, hobject, hcompare⟩ := grounds.superset hsuperset
    obtain ⟨hldenial, hlstatus, hlobject, hlb, hgb, hkeys, htruthy⟩ := compareBodies_true hcompare
    have hlparse := parsed_parses hlobject
    have hgparse := parsed_parses hobject
    refine ⟨hlparse.noDenial hldenial, hgparse.noDenial hdenial, Or.inl ⟨hpredicate, hgiven, ?_,
      (is2xx_iff _).mp hlstatus, _, _, hlparse, hgparse, hlobject, hobject, hlb,
      hgb, hkeys, htruthy⟩⟩
    simpa [isHead] using hhead

section Sample

/-- Case folding of Latin letters; a join keeps the order. -/
def latin : Words := ⟨List.map fun c => if isUpper c then c + 0x20 else c, id⟩

def shallow : Allowance := ⟨8, 8, 8, 8⟩

/-- The lower plan reads an invoice of its own, with every field of the higher plan's. -/
def lowerInvoice : PlanObservation :=
  ⟨200, (points "\x7b\"seats\":7,\"notes\":[\"a\"],\"id\":1\x7d").map UInt8.ofNat⟩

def higherInvoice : PlanObservation :=
  ⟨200, (points "\x7b\"seats\":9,\"notes\":[\"b\"]\x7d").map UInt8.ofNat⟩

def readInvoices : PairVerdict :=
  evaluatePlanPair latin shallow (some lowerInvoice) (some higherInvoice) (points "GET") none
    ⟨"completed", "observed", none⟩

theorem finding_backed_sample :
    ∃ l g, some lowerInvoice = some l ∧ some higherInvoice = some g ∧ "completed" = "completed" ∧
      (200 ≤ g.status ∧ g.status ≤ 299) ∧ NoDenial latin l.body ∧ NoDenial latin g.body ∧
      (readInvoices.predicate = .bodySuperset ∧
          SupersetFinding latin l g (points "GET") none ∨
        readInvoices.predicate = .markerLeak ∧ LeakFinding l g none "observed") :=
  finding_backed latin shallow (some lowerInvoice) (some higherInvoice) (points "GET") none
    ⟨"completed", "observed", none⟩ (by decide +kernel)

end Sample

end Heel.PlanDifferential
