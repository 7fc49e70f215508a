import Heel.Runner.PlanFindings

/-! Soundness of the verdict "held": what the two observations of a pair have shown when a
regression is reported as passed. -/
namespace Heel.PlanDifferential
open Lib Lib.JsonText Lib.Checks Heel.Content
variable {W : Words}

/-- No reading of the body is an object that is only a message. -/
def NoMessage (W : Words) (body : List UInt8) : Prop :=
  ∀ value, Parses body value → isAmbiguousMessage W value = false

theorem Parses.noMessage {body : List UInt8} {value : Value} (h : Parses body value)
    (hvalue : isAmbiguousMessage W value = false) : NoMessage W body := by
  intro other hother
  rw [hother.unique h]
  exact hvalue

theorem loads_nil (h : Hooks Raised) (depth : ℕ) : loads h depth [] = .error .malformed := rfl

theorem not_parses_nil (value : Value) : ¬ Parses [] value := by
  intro h
  cases h with
  | strict htext h =>
    cases htext
    rw [loads_nil] at h
    cases h
  | lenient h => cases h

/-- A decision on the fields of a body is made only of a body that says something. -/
theorem protectedFields_decided {marker : Text} {status : ℤ} {fields : List (Text × Value)}
    {b : Bool}
    (h : protectedFields W marker status fields = .ok (some b)) :
    isDenialEnvelope W (.obj fields) = false ∧ isAmbiguousMessage W (.obj fields) = false ∧
      (b = false → field protectedCanary fields ≠ some (.str marker)) := by
  unfold protectedFields at h
  dsimp only at h
  split at h
  · cases h
  next henvelope =>
    simp only [Bool.or_eq_true, not_or, Bool.not_eq_true] at henvelope
    refine ⟨henvelope.1, henvelope.2, ?_⟩
    rintro rfl hfield
    have htext : isText marker (field protectedCanary fields) = true := by
      simp [hfield, isText]
    rw [if_pos htext] at h
    cases h

theorem protectedContent_true_message {depth : ℕ} {body : List UInt8} {marker : Option Text}
    {status : ℤ} {method : Text}
    (h : protectedContent W depth body marker status method = .ok (some true)) :
    NoMessage W body := by
  cases marker with
  | none => cases h
  | some m =>
    simp only [protectedContent] at h
    split at h
    · cases h
    split at h
    · simp only [Except.ok.injEq] at h
      split at h <;> cases h
    · next fields hread =>
      have hparse : Parses body (.obj fields) := .lenient hread
      exact hparse.noMessage (protectedFields_decided h).2.1
    · cases h

/-- The local predicate is false of a body that does not carry the marker. -/
theorem protectedContent_false {depth : ℕ} {body : List UInt8} {marker : Option Text} {status : ℤ}
    {method : Text} (h : protectedContent W depth body marker status method = .ok (some false)) :
    ∃ m, marker = some m ∧ ¬ Discloses body m ∧ NoDenial W body ∧ NoMessage W body := by
  cases marker with
  | none => cases h
  | some m =>
    simp only [protectedContent] at h
    split at h
    · cases h
    split at h
    · simp only [Except.ok.injEq] at h
      split at h
      · next hempty =>
        obtain ⟨rfl, -⟩ := hempty
        refine ⟨m, rfl, ?_, ?_, ?_⟩
        · rintro ⟨fields, hparse, -⟩
          exact not_parses_nil _ hparse
        · intro value hparse
          exact absurd hparse (not_parses_nil value)
        · intro value hparse
          exact absurd hparse (not_parses_nil value)
      · cases h
    · next fields hread =>
      have hparse : Parses body (.obj fields) := .lenient hread
      obtain ⟨hdenial, hmessage, hfield⟩ := protectedFields_decided h
      refine ⟨m, rfl, ?_, hparse.noDenial hdenial, hparse.noMessage hmessage⟩
      rintro ⟨others, hother, hcanary⟩
      cases hparse.unique hother
      exact hfield rfl hcanary
    · cases h

/-- The lower body has nothing, or is an object without something that the higher body has. -/
def LacksContent (W : Words) (lower higher : List UInt8) : Prop :=
  ∃ h, Parses higher h ∧ isObject h = true ∧ WithinBounds W h ∧ (∃ p, TruthyPath W h p) ∧
    (lower = [] ∨ ∃ l, Parses lower l ∧ isObject l = true ∧ WithinBounds W l ∧
      ¬ ∀ p, TruthyPath W h p → TruthyPath W l p)

theorem objectPaths_found {value : Value}
    (h : (objectPaths (materialPaths W) value).toOption.getD [] ≠ []) :
    isObject value = true ∧
      materialPaths W value = .ok ((objectPaths (materialPaths W) value).toOption.getD []) := by
  unfold objectPaths at h ⊢
  by_cases hobject : isObject value = true
  · rw [if_pos hobject] at h ⊢
    refine ⟨hobject, ?_⟩
    cases hpaths : materialPaths W value with
    | ok paths => rfl
    | error e => simp [hpaths, Except.toOption] at h
  · rw [if_neg hobject] at h
    exact absurd rfl h

theorem denialUndecided_none {lower : PlanObservation} {depth depth' : ℕ} {higher : List UInt8}
    (h : denialUndecided W lower (parsed depth lower.body) (parsed depth' higher) = none) :
    isObject (parsed depth' higher) = true ∧ LacksContent W lower.body higher ∧
      NoDenial W lower.body ∧ NoMessage W lower.body := by
  unfold denialUndecided at h
  dsimp only at h
  split at h
  · cases h
  next hfound =>
    obtain ⟨hobject, hmaterial⟩ := objectPaths_found hfound
    have hnames := materialPaths_mem hmaterial
    have hsome : ∃ p, TruthyPath W (parsed depth' higher) p := by
      obtain ⟨name, hname⟩ := List.exists_mem_of_ne_nil _ hfound
      obtain ⟨p, hp, -⟩ := (hnames name).mp hname
      exact ⟨p, hp⟩
    have hhigher := parsed_parses hobject
    have hbounds := (materialPaths_ok_iff _).mp ⟨_, hmaterial⟩
    split at h
    · next hempty =>
      rw [hempty]
      refine ⟨hobject, ⟨_, hhigher, hobject, hbounds, hsome, Or.inl rfl⟩, ?_, ?_⟩
      · intro value hparse
        exact absurd hparse (not_parses_nil value)
      · intro value hparse
        exact absurd hparse (not_parses_nil value)
    split at h
    · cases h
    next hlobject =>
      have hlobject : isObject (parsed depth lower.body) = true := by simpa using hlobject
      have hlower := parsed_parses hlobject
      split at h
      · cases h
      next lowerMaterial hlmaterial =>
        split at h
        · cases h
        next hcovers =>
          rw [covers_iff (materialPaths_mem hlmaterial) hnames] at hcovers
          split at h
          · cases h
          next hdenial =>
            split at h
            · cases h
            next hmessage =>
              exact ⟨hobject, ⟨_, hhigher, hobject, hbounds, hsome, Or.inr ⟨_, hlower, hlobject,
                  (materialPaths_ok_iff _).mp ⟨_, hlmaterial⟩, hcovers⟩⟩,
                hlower.noDenial (by simpa using hdenial),
                hlower.noMessage (by simpa using hmessage)⟩

section Evaluate
variable {R : Allowance} {lower higher : PlanObservation} {method : Text} {marker : Option Text}
  {assessmentOutcome : String}

/-- What stands behind each flag that a verdict "held" rests on. -/
structure HeldGrounds (W : Words) (R : Allowance) (lower higher : PlanObservation) (method : Text)
    (marker : Option Text) (assessmentOutcome : String) (a : Assessed) : Prop where
  message : a.flags.positiveControl = true →
    isAmbiguousMessage W (parsed R.higherParse higher.body) = false
  parity : a.flags.statusParity = some false → lower.status ∈ [401, 402, 403, 404]
  undecided : a.flags.statusParity = some false → given marker = false → a.denialUndecided = none →
    isDenialEnvelope W (parsed R.lowerParse lower.body) = false ∧
      isAmbiguousMessage W (parsed R.lowerParse lower.body) = false ∧
      (isHead method = false → isObject (parsed R.higherParse higher.body) = true ∧
        LacksContent W lower.body higher.body ∧ NoDenial W lower.body ∧ NoMessage W lower.body)
  absent : a.flags.markerLeak = some false → given marker = true ∧ assessmentOutcome = "blocked" ∧
    protectedContent W R.lowerMarker lower.body marker lower.status method = .ok (some false)

theorem leakOf_false {lowerMarker : Option Bool}
    (h : leakOf assessmentOutcome lowerMarker = some false) :
    lowerMarker = some false ∧ assessmentOutcome = "blocked" := by
  unfold leakOf at h
  split at h
  · cases h
  split at h
  · next hblocked => exact hblocked
  · cases h

theorem lowerLeak_false {positiveControl : Bool}
    (h : lowerLeak W R lower method marker assessmentOutcome positiveControl = .ok (some false)) :
    given marker = true ∧ assessmentOutcome = "blocked" ∧
      protectedContent W R.lowerMarker lower.body marker lower.status method =
      .ok (some false) := by
  unfold lowerLeak at h
  split at h
  · next hguard =>
    simp only [Bool.and_eq_true] at hguard
    cases hcontent : protectedContent W R.lowerMarker lower.body marker lower.status method with
    | error e => simp [hcontent] at h
    | ok lowerMarker =>
      simp only [hcontent, Except.map_ok, Except.ok.injEq] at h
      obtain ⟨rfl, hblocked⟩ := leakOf_false h
      exact ⟨hguard.1.1, hblocked, rfl⟩
  · cases h

theorem not_object {value : Value} (h : isObject value = false) :
    isDenialEnvelope W value = false ∧ isAmbiguousMessage W value = false := by
  cases value with
  | obj fields => cases h
  | _ => exact ⟨rfl, rfl⟩

theorem parsed_no {depth : ℕ} {body : List UInt8} (hdenial : NoDenial W body)
    (hmessage : NoMessage W body) : isDenialEnvelope W (parsed depth body) = false ∧
      isAmbiguousMessage W (parsed depth body) = false := by
  cases hobject : isObject (parsed depth body) with
  | true =>
    have hparse := parsed_parses hobject
    exact ⟨hdenial _ hparse, hmessage _ hparse⟩
  | false => exact not_object hobject

theorem parity_false {control served blurred : Bool} {status : ℤ}
    (h : (if !control then none else if served then if blurred then none else some true
      else if status ∈ [401, 402, 403, 404] then some false else none) = some false) :
    status ∈ [401, 402, 403, 404] := by
  by_contra hstatus
  rw [if_neg hstatus] at h
  cases control <;> cases served <;> cases blurred <;> cases h

theorem assess_held {a : Assessed}
    (h : assess W R lower higher method marker assessmentOutcome = .ok a) :
    HeldGrounds W R lower higher method marker assessmentOutcome a := by
  unfold assess at h
  simp only [bind_ok, pure, Except.pure, Except.ok.injEq] at h
  obtain ⟨higherMarker, hmarker, leak, hleak, rfl⟩ := h
  constructor
  · intro hcontrol
    simp only [Bool.and_eq_true, Bool.not_eq_true'] at hcontrol
    exact hcontrol.1.2
  · intro hparity
    exact parity_false hparity
  · intro hparity hgiven hnone
    dsimp only at hparity hnone
    rw [hparity, hgiven] at hnone
    simp only [decide_true, Bool.not_false, Bool.and_self, if_true] at hnone
    cases hhead : isHead method with
    | false =>
      rw [hhead, if_pos (by rfl)] at hnone
      have hlacks := denialUndecided_none hnone
      obtain ⟨hdenial, hmessage⟩ : isDenialEnvelope W (parsed R.lowerParse lower.body) = false ∧
          isAmbiguousMessage W (parsed R.lowerParse lower.body) = false :=
        parsed_no hlacks.2.2.1 hlacks.2.2.2
      exact ⟨hdenial, hmessage, fun _ => hlacks⟩
    | true =>
      rw [hhead, if_neg (by decide)] at hnone
      split at hnone
      · cases hnone
      next hdenial =>
        split at hnone
        · cases hnone
        next hmessage =>
          refine ⟨by simpa using hdenial, by simpa using hmessage, fun h => ?_⟩
          cases h
  · intro hflag
    dsimp only at hflag
    subst hflag
    exact lowerLeak_false hleak

theorem rows_held {lowerStatus : ℤ} {a : Assessed}
    (h : (rows lowerStatus method marker a).verdict = .held) :
    a.flags.positiveControl = true ∧
      (a.flags.markerLeak = some false ∨
        given marker = false ∧ a.flags.statusParity = some false ∧ a.denialUndecided = none) := by
  unfold rows at h
  by_cases hcontrol : (!a.flags.positiveControl) = true
  · rw [if_pos hcontrol] at h
    cases h
  rw [if_neg hcontrol] at h
  refine ⟨by simpa using hcontrol, ?_⟩
  by_cases hleak : a.flags.markerLeak = some true
  · rw [if_pos hleak] at h
    cases h
  rw [if_neg hleak] at h
  by_cases hheld : a.flags.markerLeak = some false
  · exact Or.inl hheld
  rw [if_neg hheld] at h
  by_cases hgiven : given marker = true
  · rw [if_pos hgiven] at h
    cases h
  rw [if_neg hgiven] at h
  by_cases hsuperset : a.flags.bodySuperset = some true
  · rw [if_pos hsuperset] at h
    cases h
  rw [if_neg hsuperset] at h
  by_cases hparity : a.flags.statusParity = some false
  · rw [if_pos hparity] at h
    split at h
    · cases h
    · next hnone => exact Or.inr ⟨by simpa using hgiven, hparity, hnone⟩
  · rw [if_neg hparity] at h
    split at h <;> cases h

end Evaluate

/-- The higher observation is a control: it was served, and says neither no nor only a message. -/
structure PositiveControl (W : Words) (R : Allowance) (higher : PlanObservation)
    (marker : Option Text) : Prop where
  status : 200 ≤ higher.status ∧ higher.status ≤ 299
  denial : isDenialEnvelope W (parsed R.higherParse higher.body) = false
  message : isAmbiguousMessage W (parsed R.higherParse higher.body) = false
  marked : given marker = true → higher.status = 200 ∧ NoDenial W higher.body ∧
    NoMessage W higher.body ∧ ∃ m, marker = some m ∧ Discloses higher.body m

/-- The lower body was seen without the marker, and the executor saw the request blocked. -/
structure MarkerHeld (W : Words) (lower : PlanObservation) (marker : Option Text)
    (assessmentOutcome : String) : Prop where
  blocked : assessmentOutcome = "blocked"
  absent : ∃ m, marker = some m ∧ m ≠ [] ∧ ¬ Discloses lower.body m
  denial : NoDenial W lower.body
  message : NoMessage W lower.body

/-- The lower request was denied; where a body is read, it lacks content of the higher one. -/
structure DenialHeld (W : Words) (R : Allowance) (lower higher : PlanObservation) (method : Text) :
    Prop where
  status : lower.status ∈ [401, 402, 403, 404]
  denial : isDenialEnvelope W (parsed R.lowerParse lower.body) = false
  message : isAmbiguousMessage W (parsed R.lowerParse lower.body) = false
  read : method ≠ points "HEAD" → LacksContent W lower.body higher.body ∧
    NoDenial W lower.body ∧ NoMessage W lower.body ∧
    NoDenial W higher.body ∧ NoMessage W higher.body

theorem evaluatePlanPair_held {R : Allowance} {lower higher : Option PlanObservation}
    {method : Text} {marker : Option Text} {outcome : ExecutorOutcome}
    (h : (evaluatePlanPair W R lower higher method marker outcome).verdict = .held) :
    ∃ l g a, lower = some l ∧ higher = some g ∧ outcome.executionDisposition = "completed" ∧
      assess W R l g method marker outcome.assessmentOutcome = .ok a ∧
      (rows l.status method marker a).verdict = .held := by
  unfold evaluatePlanPair at h
  split at h
  · next l g =>
    split at h
    · next hcompleted =>
      unfold evaluate at h
      cases hassess : assess W R l g method marker outcome.assessmentOutcome with
      | error e => simp [hassess, bind, Except.bind, inconclusive] at h
      | ok a =>
        simp only [hassess, bind, Except.bind, pure, Except.pure] at h
        exact ⟨l, g, a, rfl, rfl, hcompleted, hassess, h⟩
    · cases h
  · cases h

/-- Every pass is backed: the run completed, the higher plan was served, and the lower plan was
either seen without the marker or denied without the content. -/
theorem held_backed (W : Words) (R : Allowance) (lower higher : Option PlanObservation)
    (method : Text) (marker : Option Text) (outcome : ExecutorOutcome)
    (h : (evaluatePlanPair W R lower higher method marker outcome).verdict = .held) :
    ∃ l g, lower = some l ∧ higher = some g ∧ outcome.executionDisposition = "completed" ∧
      PositiveControl W R g marker ∧
      (given marker = true ∧ MarkerHeld W l marker outcome.assessmentOutcome ∨
        given marker = false ∧ DenialHeld W R l g method) := by
  obtain ⟨l, g, a, hl, hg, hcompleted, hassess, hrows⟩ := evaluatePlanPair_held h
  obtain ⟨hcontrol, hkind⟩ := rows_held hrows
  have grounds := assess_grounds hassess
  have held := assess_held hassess
  obtain ⟨hstatus, hdenial, hmarker⟩ := grounds.control hcontrol
  have hmessage := held.message hcontrol
  refine ⟨l, g, hl, hg, hcompleted, ⟨(is2xx_iff _).mp hstatus, hdenial, hmessage, ?_⟩, ?_⟩
  · intro hgiven
    obtain ⟨hok, hhigher⟩ := hmarker hgiven
    obtain ⟨m, hm, hdiscloses, hno⟩ := protectedContent_true hhigher
    exact ⟨hok, hno, protectedContent_true_message hhigher, m, hm, hdiscloses⟩
  cases hkind with
  | inl hleak =>
    obtain ⟨hgiven, hblocked, hlower⟩ := held.absent hleak
    obtain ⟨m, rfl, hnot, hno, hnomessage⟩ := protectedContent_false hlower
    have hne : m ≠ [] := by simpa [given] using hgiven
    exact Or.inl ⟨hgiven, hblocked, ⟨m, rfl, hne, hnot⟩, hno, hnomessage⟩
  | inr hparity =>
    obtain ⟨hgiven, hparity, hnone⟩ := hparity
    obtain ⟨hldenial, hlmessage, hread⟩ := held.undecided hparity hgiven hnone
    refine Or.inr ⟨hgiven, held.parity hparity, hldenial, hlmessage, fun hhead => ?_⟩
    obtain ⟨hobject, hlacks, hno, hnomessage⟩ := hread (by simpa [isHead] using hhead)
    have hparse := parsed_parses hobject
    exact ⟨hlacks, hno, hnomessage, hparse.noDenial hdenial, hparse.noMessage hmessage⟩

section Sample

/-- The lower plan is told that the invoice is not there. -/
def hiddenInvoice : PlanObservation := ⟨404, []⟩

theorem held_backed_sample :
    ∃ l g, some hiddenInvoice = some l ∧ some higherInvoice = some g ∧ "completed" = "completed" ∧
      PositiveControl latin shallow g none ∧
      (given none = true ∧ MarkerHeld latin l none "blocked" ∨
        given none = false ∧ DenialHeld latin shallow l g (points "GET")) :=
  held_backed latin shallow (some hiddenInvoice) (some higherInvoice) (points "GET") none
    ⟨"completed", "blocked", none⟩ (by decide +kernel)

end Sample

end Heel.PlanDifferential
