import Heel.Contracts.FindingsSync
import Heel.Contracts.ReviewValidation
import Heel.Lib.Literal

/-! What the producer reads of a review: of each finding six values, and three texts of the
envelope. -/
namespace Heel.Findings
open Lib Lib.JsonText Lib.Checks
open Literal (points_codes)
open Review (Fields Raised within refuse field Sha256 normalizeJson
  normalizeJson_ok portable portableFields
  portableFields_iff portableItems_iff validateReviewEnvelope member member_mem isText
  isDigest requireOneOf blockText warnText passText)

variable {H : Sha256} {M : Hmac} {float : Binary64 → Text} {key : List UInt8}

structure Exposure where
  surfaceType : Text
  surfaceId : Text
  risk : Text
  severity : Text
  control : Text
  reachable : Bool
  deriving DecidableEq, Repr

def textAt (v : Value) (name : String) : Text :=
  match subscript v (points name) with
  | .ok (.str s) => s
  | _ => []

def flagAt (v : Value) (name : String) : Bool :=
  match subscript v (points name) with
  | .ok (.bool b) => b
  | _ => false

def itemsAt (v : Value) (name : String) : List Value :=
  match subscript v (points name) with
  | .ok (.arr items) => items
  | _ => []

def exposureOf (finding : Value) : Exposure where
  surfaceType := textAt finding "surface_type"
  surfaceId := textAt finding "surface_id"
  risk := textAt finding "risk"
  severity := textAt finding "severity"
  control := textAt finding "control"
  reachable := flagAt finding "reachable"

/-- What is read of the findings of a review. -/
def exposures (review : Value) : List Exposure := (itemsAt review "findings").map exposureOf

/-- An object with the members that are read of a finding. -/
structure IsFinding (finding : Value) : Prop where
  portable : portable finding = true
  surfaceType : subscript finding (points "surface_type") =
    .ok (.str (exposureOf finding).surfaceType)
  surfaceId : subscript finding (points "surface_id") = .ok (.str (exposureOf finding).surfaceId)
  risk : subscript finding (points "risk") = .ok (.str (exposureOf finding).risk)
  severity : subscript finding (points "severity") = .ok (.str (exposureOf finding).severity)
  control : subscript finding (points "control") = .ok (.str (exposureOf finding).control)
  reachable : subscript finding (points "reachable") = .ok (.bool (exposureOf finding).reachable)

/-- What a validated review gives to the producer. -/
structure IsReview (review : Value) : Prop where
  findings : subscript review (points "findings") = .ok (.arr (itemsAt review "findings"))
  each : ∀ finding ∈ itemsAt review "findings", IsFinding finding
  engineVersion : subscript review (points "engine_version") =
    .ok (.str (textAt review "engine_version"))
  engineSupported : textAt review "engine_version" ∈ Review.supportedEngineVersions
  executionMode : subscript review (points "execution_mode") =
    .ok (.str (textAt review "execution_mode"))
  modeSupported : textAt review "execution_mode" ∈ Review.executionModes
  resultHash : subscript review (points "result_hash") = .ok (.str (textAt review "result_hash"))
  hashDigest : isDigest (textAt review "result_hash") = true

theorem textAt_eq {v : Value} {name : String} {s : Text}
    (h : subscript v (points name) = .ok (.str s)) :
    subscript v (points name) = .ok (.str (textAt v name)) := by
  rw [textAt, h]

theorem flagAt_eq {v : Value} {name : String} {b : Bool}
    (h : subscript v (points name) = .ok (.bool b)) :
    subscript v (points name) = .ok (.bool (flagAt v name)) := by
  rw [flagAt, h]

theorem finding_read {finding : Value} {record : Flat} (hp : portable finding = true)
    (h : Review.validateFinding finding = .ok record) : IsFinding finding := by
  simp only [Review.validateFinding, bind_ok, Review.requireObject_ok, Review.flagField_ok] at h
  obtain ⟨fields, rfl, -, -, texts, htexts, -, -, flag, ⟨b, -, hb⟩, -⟩ := h
  have hread : ∀ name ∈ Review.findingTextFields, ∃ s, member fields name = .ok (.str s) :=
    fun name hname => ⟨_, Review.textFields_read htexts hname⟩
  have htext : ∀ name ∈ ["surface_type", "surface_id", "risk", "severity", "control", "reason"],
      subscript (.obj fields) (points name) = .ok (.str (textAt (.obj fields) name)) := by
    intro name hname
    obtain ⟨s, hs⟩ := hread _ (List.mem_map_of_mem hname)
    exact textAt_eq hs
  exact ⟨hp, htext _ (by simp), htext _ (by simp), htext _ (by simp), htext _ (by simp),
    htext _ (by simp), flagAt_eq hb⟩

/-- The last of a sequence of checks answers, whatever the checks before it have read. -/
theorem answer_of_bind {ε α β : Type} {x : Except ε α} {f : α → Except ε β} {r b : β}
    (hf : ∀ a, f a = .ok b → b = r) (h : (x >>= f) = .ok b) : b = r := by
  obtain ⟨a, -, h⟩ := (bind_ok _ _ _).mp h
  exact hf a h

/-- The validator answers the review, and lets through what the producer reads. -/
theorem review_read {review v : Value} (h : validateReviewEnvelope H float review = .ok v) :
    v = review ∧ IsReview review := by
  rw [validateReviewEnvelope, bind_ok] at h
  obtain ⟨_, hnormal, h⟩ := h
  obtain ⟨hportable, rfl⟩ := normalizeJson_ok.mp (Review.within_ok.mp hnormal)
  rw [bind_ok] at h
  obtain ⟨fields, hobj, h⟩ := h
  obtain rfl := Review.requireObject_ok.mp (Review.within_ok.mp hobj)
  iterate 3
    rw [bind_ok] at h
    obtain ⟨_, -, h⟩ := h
  rw [bind_ok] at h
  obtain ⟨_, hhash, h⟩ := h
  rw [bind_ok] at h
  obtain ⟨_, hvalid, h⟩ := h
  obtain ⟨rfl, hdigest⟩ := Review.validateHash_ok.mp (Review.within_ok.mp hvalid)
  iterate 2
    rw [bind_ok] at h
    obtain ⟨_, -, h⟩ := h
  rw [bind_ok] at h
  obtain ⟨_, hengine, h⟩ := h
  rw [bind_ok] at h
  obtain ⟨engine, hvalid, h⟩ := h
  obtain ⟨rfl, hsupported⟩ := Review.requireOneOf_ok.mp hvalid
  iterate 8
    rw [bind_ok] at h
    obtain ⟨_, -, h⟩ := h
  rw [bind_ok] at h
  obtain ⟨_, hmode, h⟩ := h
  rw [bind_ok] at h
  obtain ⟨mode, hvalid, h⟩ := h
  obtain ⟨rfl, hmodes⟩ := Review.requireOneOf_ok.mp hvalid
  iterate 2
    rw [bind_ok] at h
    obtain ⟨_, -, h⟩ := h
  rw [bind_ok] at h
  obtain ⟨_, hfindings, h⟩ := h
  rw [bind_ok] at h
  obtain ⟨records, hrecords, h⟩ := h
  obtain ⟨items, rfl, hitems⟩ := Review.records_ok.mp (Review.within_ok.mp hrecords)
  -- the other checks, up to the answer
  have hanswer : v = .obj fields := by
    revert h
    repeat refine answer_of_bind fun _ => ?_
    intro h
    exact (Except.ok.inj h).symm
  have htext : ∀ {name : String} {s : Text}, member fields (points name) = .ok (.str s) →
      textAt (.obj fields) name = s := by
    intro name s h
    rw [textAt, subscript, h]
  have hlist : itemsAt (.obj fields) "findings" = items := by
    rw [itemsAt, subscript, hfindings]
  have hfields : portableFields fields = true := hportable
  have hportables : ∀ item ∈ items, portable item = true :=
    portableItems_iff.mp (portableFields_iff.mp hfields _ (member_mem hfindings)).2
  refine ⟨hanswer, ?_, ?_, textAt_eq hengine, ?_, textAt_eq hmode, ?_, textAt_eq hhash, ?_⟩
  · rw [hlist]
    exact hfindings
  · rw [hlist]
    intro item hitem
    obtain ⟨record, -, hrecord⟩ := Table.exists_right hitems hitem
    exact finding_read (hportables item hitem) hrecord
  · rw [htext hengine]
    exact hsupported
  · rw [htext hmode]
    exact hmodes
  · have hdigest' : textAt (.obj fields) "result_hash" = _ := htext hhash
    rw [hdigest']
    exact hdigest

def Catalogued (e : Exposure) : Prop := ∃ row ∈ riskCatalog, row.risk = e.risk ∧
  e.surfaceType ∈ row.surfaces ∧ (e.severity, e.reachable) ∈ row.states ∧ e.control = row.control

instance (e : Exposure) : Decidable (Catalogued e) :=
  inferInstanceAs (Decidable (∃ row ∈ riskCatalog, _))

example : ¬ Catalogued ⟨[], [], [], [], [], true⟩ := by decide +kernel

theorem catalog_risks : (riskCatalog.map CatalogRow.risk).Nodup := by
  simp only [riskCatalog, catalogRow, points_codes]
  decide +kernel

/-- The catalog lets a finding through in the one row of its risk. -/
theorem catalogEntry_ok {risk surfaceType severity rawControl controlCode : Value}
    {reachable : Bool}
    {c : Classified} :
    catalogEntry risk surfaceType severity reachable rawControl controlCode = .ok c ↔
      ∃ row ∈ riskCatalog, risk = .str row.risk ∧ (∃ s ∈ row.surfaces, surfaceType = .str s ∧
        ∃ t, (t, reachable) ∈ row.states ∧ severity = .str t ∧
        c = ⟨row.risk, s, t, row.controlCode⟩) ∧
        isTextOrNone row.control rawControl = true ∧
        isTextOrNone row.controlCode controlCode = true := by
  have hfind : ∀ row ∈ riskCatalog, riskCatalog.find? (fun o => o.risk = row.risk) = some row :=
    fun row hrow => Table.find_key (g := CatalogRow.risk) catalog_risks hrow
  have hstate : ∀ (row : CatalogRow) (t : Text),
      t ∈ (row.states.filter fun state => state.2 = reachable).map Prod.fst ↔
        (t, reachable) ∈ row.states := by
    intro row t
    simp [List.mem_map, List.mem_filter]
  simp only [catalogEntry, bind_ok, Review.requireOneOf_ok]
  constructor
  · rintro ⟨_, ⟨rfl, hrisk⟩, h⟩
    obtain ⟨row, hrow, rfl⟩ := List.mem_map.mp hrisk
    rw [hfind row hrow] at h
    simp only [bind_ok, Review.requireOneOf_ok, require_ok, exists_const, hstate, pure, Except.pure,
      Except.ok.injEq] at h
    obtain ⟨s, ⟨rfl, hs⟩, t, ⟨rfl, ht⟩, hcontrol, hcode, rfl⟩ := h
    exact ⟨row, hrow, rfl, ⟨s, hs, rfl, t, ht, rfl, rfl⟩, hcontrol, hcode⟩
  · rintro ⟨row, hrow, rfl, ⟨s, hs, rfl, t, ht, rfl, rfl⟩, hcontrol, hcode⟩
    refine ⟨row.risk, ⟨rfl, List.mem_map_of_mem hrow⟩, ?_⟩
    rw [hfind row hrow]
    simp only [bind_ok, Review.requireOneOf_ok, require_ok, exists_const, hstate, pure, Except.pure,
      Except.ok.injEq]
    exact ⟨s, ⟨rfl, hs⟩, t, ⟨rfl, ht⟩, hcontrol, hcode, rfl⟩

def surfaceMaterial (float : Binary64 → Text) (e : Exposure) : Text :=
  dumps float (.arr ([schemaVersion, points "surface", e.surfaceType, e.surfaceId].map .str))

def surfaceRefOf (M : Hmac) (float : Binary64 → Text) (key : List UInt8) (e : Exposure) : Text :=
  surfaceMark ++ M.digest key (surfaceMaterial float e)

def findingMaterial (float : Binary64 → Text) (surfaceRef risk : Text) : Text :=
  dumps float (.arr ([schemaVersion, points "finding", surfaceRef, risk].map .str))

def findingIdOf (M : Hmac) (float : Binary64 → Text) (key : List UInt8) (e : Exposure) : Text :=
  findingMark ++ M.digest key (findingMaterial float (surfaceRefOf M float key e) e.risk)

def sourceMaterial (float : Binary64 → Text) (resultHash : Text) : Text :=
  dumps float (.arr ([schemaVersion, points "source", resultHash].map .str))

def controlCodeOf (risk : Text) : Text :=
  ((riskCatalog.find? fun row => row.risk = risk).map CatalogRow.controlCode).getD []

def disclosureOf (M : Hmac) (float : Binary64 → Text) (key : List UInt8) (e : Exposure) :
    Disclosure where
  findingId := findingIdOf M float key e
  surfaceRef := surfaceRefOf M float key e
  surfaceType := e.surfaceType
  riskCode := e.risk
  controlCode := controlCodeOf e.risk
  severity := e.severity
  reachable := e.reachable

theorem controlCode_row {row : CatalogRow} (h : row ∈ riskCatalog) :
    controlCodeOf row.risk = row.controlCode := by
  have hfind := Table.find_key (g := CatalogRow.risk) catalog_risks h
  rw [controlCodeOf, hfind]
  rfl

theorem stableJson_ok {value : Value} {t : Text} :
    stableJson float value = .ok t ↔ portable value = true ∧ t = dumps float value := by
  simp only [stableJson, bind_ok, Review.within_ok, normalizeJson_ok, pure, Except.pure,
    Except.ok.injEq]
  constructor
  · rintro ⟨_, ⟨h, rfl⟩, rfl⟩
    exact ⟨h, rfl⟩
  · rintro ⟨h, rfl⟩
    exact ⟨_, ⟨h, rfl⟩, rfl⟩

theorem schema_portable : portable (.str schemaVersion) = true := by
  decide +kernel

theorem tags_portable : ∀ tag ∈ ["surface", "finding", "source"],
    portable (.str (points tag)) = true := by
  decide +kernel

theorem taggedHmac_texts (tag : String) (ts : List Text)
    (htag : portable (.str (points tag)) = true)
    (h : ∀ t ∈ ts, portable (.str t) = true) {digest : Text} :
    taggedHmac M float key tag (ts.map .str) = .ok digest ↔
      digest = M.digest key
      (dumps float (.arr ((schemaVersion :: points tag :: ts).map .str))) := by
  have hportable : portable (.arr ((schemaVersion :: points tag :: ts).map .str)) = true := by
    rw [portable, portableItems_iff, List.forall_mem_map, List.forall_mem_cons,
      List.forall_mem_cons]
    exact ⟨schema_portable, htag, h⟩
  simp only [taggedHmac, bind_ok, stableJson_ok, pure, Except.pure, Except.ok.injEq]
  constructor
  · rintro ⟨_, ⟨-, rfl⟩, rfl⟩
    rfl
  · rintro rfl
    exact ⟨_, ⟨hportable, rfl⟩, rfl⟩

theorem subscript_portable {v w : Value} {name : Text} (hv : portable v = true)
    (h : subscript v name = .ok w) : portable w = true := by
  cases v with
  | obj fields => exact (portableFields_iff.mp hv _ (member_mem h)).2
  | _ => cases h

theorem lowerHex_portable {mark digits : Text} (hmark : mark.any isSurrogate = false)
    (h : digits.all isLowerHex = true) : portable (.str (mark ++ digits)) = true := by
  rw [portable, List.any_append, hmark, Review.lowerHex_unicode h]
  rfl

theorem surfaceRef_portable (e : Exposure) : portable (.str (surfaceRefOf M float key e)) = true :=
  lowerHex_portable (by decide +kernel) (M.lowerHex _ _)

theorem surfaceHmac {e : Exposure} (htype : portable (.str e.surfaceType) = true)
    (hid : portable (.str e.surfaceId) = true) {digest : Text} :
    taggedHmac M float key "surface" [.str e.surfaceType, .str e.surfaceId] = .ok digest ↔
      digest = M.digest key (surfaceMaterial float e) := by
  apply taggedHmac_texts "surface" [e.surfaceType, e.surfaceId]
  · exact tags_portable "surface" (by simp)
  · simp [htype, hid]

theorem findingHmac {surfaceRef risk : Text} (href : portable (.str surfaceRef) = true)
    (hrisk : portable (.str risk) = true) {digest : Text} :
    taggedHmac M float key "finding" [.str surfaceRef, .str risk] = .ok digest ↔
      digest = M.digest key (findingMaterial float surfaceRef risk) := by
  apply taggedHmac_texts "finding" [surfaceRef, risk]
  · exact tags_portable "finding" (by simp)
  · simp [href, hrisk]

/-- A finding is disclosed when it is in the catalog, as what is read of it says. -/
theorem discloseFinding_ok {finding : Value} (h : IsFinding finding) {d : Disclosure} :
    discloseFinding M float key finding = .ok d ↔
      Catalogued (exposureOf finding) ∧ d = disclosureOf M float key (exposureOf finding) := by
  have hsurface : ∀ digest, taggedHmac M float key "surface" _ = .ok digest ↔ _ := fun _ =>
    surfaceHmac (subscript_portable h.portable h.surfaceType)
      (subscript_portable h.portable h.surfaceId)
  have hidentity : ∀ digest, taggedHmac M float key "finding"
      [.str (surfaceMark ++ M.digest key (surfaceMaterial float (exposureOf finding))),
        .str (exposureOf finding).risk] = .ok digest ↔
      digest = M.digest key (findingMaterial float
        (surfaceRefOf M float key (exposureOf finding)) (exposureOf finding).risk) :=
    fun _ => findingHmac (surfaceRef_portable _) (subscript_portable h.portable h.risk)
  simp only [discloseFinding, bind_ok, h.risk, h.surfaceType, h.reachable, h.severity, h.control,
    h.surfaceId, Except.ok.injEq, exists_eq_left', Review.requireBoolean_ok, catalogEntry_ok,
    hsurface, Value.str.injEq, Value.bool.injEq, exists_eq_left, hidentity, pure, Except.pure]
  constructor
  · rintro ⟨c, ⟨row, hrow, hrisk, ⟨s, hs, htype, t, ht, hseverity, rfl⟩, hcontrol, -⟩, rfl⟩
    simp only [isTextOrNone, isText, decide_eq_true_eq] at hcontrol
    subst htype hseverity
    refine ⟨⟨row, hrow, hrisk.symm, hs, ht, hcontrol⟩, ?_⟩
    rw [disclosureOf, hrisk, controlCode_row hrow, findingIdOf, surfaceRefOf, hrisk]
  · rintro ⟨⟨row, hrow, hrisk, hs, ht, hcontrol⟩, rfl⟩
    refine ⟨_, ⟨row, hrow, hrisk.symm, ⟨_, hs, rfl, _, ht, rfl, rfl⟩, ?_, rfl⟩, ?_⟩
    · simp only [isTextOrNone, isText, decide_eq_true_eq]
      exact hcontrol
    · rw [disclosureOf, ← hrisk, controlCode_row hrow, findingIdOf, surfaceRefOf, ← hrisk]

/-- The loop answers each finding's disclosure, where no identity comes twice. -/
theorem discloseFindings_ok {identities : List Text} {items : List Value} {ds : List Disclosure} :
    discloseFindings M float key identities items = .ok ds ↔
      List.Forall₂ (fun v d => discloseFinding M float key v = .ok d) items ds ∧
      (ds.map Disclosure.findingId).Nodup ∧ ∀ d ∈ ds, d.findingId ∉ identities := by
  induction items generalizing identities ds with
  | nil =>
    simp only [discloseFindings, Except.ok.injEq, List.forall₂_nil_left_iff]
    constructor
    · rintro rfl
      simp
    · exact fun h => h.1.symm
  | cons v rest ih =>
    simp only [discloseFindings, bind_ok, require_ok, exists_const, pure, Except.pure,
      Except.ok.injEq, ih, List.forall₂_cons_left_iff]
    constructor
    · rintro ⟨d, hd, hfresh, tail, ⟨htail, hnodup, hout⟩, rfl⟩
      refine ⟨⟨d, tail, hd, htail, rfl⟩, ?_, ?_⟩
      · rw [List.map_cons, List.nodup_cons, List.mem_map]
        refine ⟨?_, hnodup⟩
        rintro ⟨o, ho, hsame⟩
        exact hout o ho (hsame ▸ List.mem_cons_self)
      · rw [List.forall_mem_cons]
        exact ⟨hfresh, fun o ho hin => hout o ho (List.mem_cons_of_mem _ hin)⟩
    · rintro ⟨⟨d, tail, hd, htail, rfl⟩, hnodup, hout⟩
      rw [List.map_cons, List.nodup_cons, List.mem_map] at hnodup
      rw [List.forall_mem_cons] at hout
      refine ⟨d, hd, hout.1, tail, ⟨htail, hnodup.2, fun o ho hin => ?_⟩, rfl⟩
      rw [List.mem_cons] at hin
      cases hin with
      | inl hsame => exact hnodup.1 ⟨o, ho, hsame⟩
      | inr hin => exact hout.2 o ho hin

/-- Findings are disclosed when all are in the catalog and their identities are distinct. -/
theorem disclosed_ok {items : List Value} (h : ∀ v ∈ items, IsFinding v) {ds : List Disclosure} :
    discloseFindings M float key [] items = .ok ds ↔
      (∀ e ∈ items.map exposureOf, Catalogued e) ∧
      ds = (items.map exposureOf).map (disclosureOf M float key) ∧
      ((items.map exposureOf).map (findingIdOf M float key)).Nodup := by
  rw [discloseFindings_ok]
  have hsame : List.Forall₂ (fun v d => discloseFinding M float key v = .ok d) items ds ↔
      (∀ e ∈ items.map exposureOf, Catalogued e) ∧
        ds = (items.map exposureOf).map (disclosureOf M float key) := by
    induction items generalizing ds with
    | nil => simp
    | cons v rest ih =>
      rw [List.forall_mem_cons] at h
      simp only [List.forall₂_cons_left_iff, discloseFinding_ok h.1, ih h.2, List.map_cons,
        List.forall_mem_cons]
      constructor
      · rintro ⟨d, tail, ⟨hv, rfl⟩, ⟨hrest, rfl⟩, rfl⟩
        exact ⟨⟨hv, hrest⟩, rfl⟩
      · rintro ⟨⟨hv, hrest⟩, rfl⟩
        exact ⟨_, _, ⟨hv, rfl⟩, ⟨hrest, rfl⟩, rfl⟩
  have hids : ∀ es : List Exposure,
      (es.map (disclosureOf M float key)).map Disclosure.findingId =
      es.map (findingIdOf M float key) := by
    intro es
    rw [List.map_map]
    rfl
  rw [hsame]
  constructor
  · rintro ⟨⟨hall, rfl⟩, hnodup, -⟩
    rw [hids] at hnodup
    exact ⟨hall, rfl, hnodup⟩
  · rintro ⟨hall, rfl, hnodup⟩
    rw [hids]
    exact ⟨⟨hall, rfl⟩, hnodup, fun d _ => List.not_mem_nil⟩

end Heel.Findings
