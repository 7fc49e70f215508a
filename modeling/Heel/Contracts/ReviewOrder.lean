import Mathlib.Data.List.Perm.Basic
import Heel.Contracts.ReviewAgreement
import Heel.Lib.JsonOrder
import Heel.Lib.Literal

/-! The order of the records and of the keys of what a review is built from does not matter. -/
namespace Heel.Review
open Lib Lib.JsonText Lib.Checks

variable {H : Sha256} {float : Binary64 → Text}

/-! ### Rearranged dictionaries -/

mutual
theorem portable_arranged : ∀ v : Value, portable (arranged v) = portable v
  | .null => rfl
  | .bool _ => rfl
  | .int _ => rfl
  | .float _ => by rw [arranged]
  | .str _ => rfl
  | .arr items => by rw [arranged, portable, portable, portableItems_arranged items]
  | .obj fields => by
    rw [arranged, portable, portable, ← portableFields_arranged fields, Bool.eq_iff_iff,
      portableFields_iff, portableFields_iff]
    simp only [mem_sortBy]

theorem portableItems_arranged : ∀ items : List Value,
    portableItems (arrangedItems items) = portableItems items
  | [] => rfl
  | item :: rest => by
    rw [arrangedItems, portableItems, portableItems, portable_arranged item,
      portableItems_arranged rest]

theorem portableFields_arranged : ∀ fields : Fields,
    portableFields (arrangedFields fields) = portableFields fields
  | [] => rfl
  | (key, item) :: rest => by
    rw [arrangedFields, portableFields, portableFields, portable_arranged item,
      portableFields_arranged rest]
end

/-- Two dictionaries with the same members, up to the order of keys at any depth. -/
structure Rearranged (fields fields' : Fields) : Prop where
  left : Distinct fields
  right : Distinct fields'
  perm : (fields.map arrangedField).Perm (fields'.map arrangedField)

theorem Rearranged.of_arranged {v : Value} {fields : Fields} (hleft : Keyed (.obj fields))
    (hright : Keyed v) (h : arranged (.obj fields) = arranged v) :
    ∃ fields', v = .obj fields' ∧ Rearranged fields fields' := by
  obtain ⟨fields', rfl⟩ := obj_of_arranged h
  exact ⟨fields', rfl, hleft.1, hright.1, arranged_obj h⟩

theorem Rearranged.keys {fields fields' : Fields} (h : Rearranged fields fields') :
    (fields.map Prod.fst).Perm (fields'.map Prod.fst) := by
  have hkeys := h.perm.map Prod.fst
  rwa [arranged_keys, arranged_keys] at hkeys

theorem Rearranged.exact {fields fields' : Fields} (h : Rearranged fields fields')
    {names : List Text} (hexact : requireExactFields fields names = .ok ()) :
    requireExactFields fields' names = .ok () := by
  have hkey : ∀ name, (∃ p ∈ fields, p.1 = name) ↔ ∃ p ∈ fields', p.1 = name := by
    intro name
    have hmem := h.keys.mem_iff (a := name)
    rwa [List.mem_map, List.mem_map] at hmem
  rw [exact_ok] at hexact ⊢
  refine ⟨fun p hp => ?_, fun name hname => (hkey name).mp (hexact.2 name hname)⟩
  obtain ⟨q, hq, hqp⟩ := (hkey p.1).mpr ⟨p, hp, rfl⟩
  exact hqp ▸ hexact.1 q hq

theorem Rearranged.any_key {fields fields' : Fields} (h : Rearranged fields fields') (name : Text) :
    (fields.any fun p => p.1 = name) = fields'.any fun p => p.1 = name := by
  have hmem := h.keys.mem_iff (a := name)
  rw [List.mem_map, List.mem_map] at hmem
  rw [Bool.eq_iff_iff, List.any_eq_true, List.any_eq_true]
  simpa only [decide_eq_true_eq] using hmem

theorem Rearranged.member {fields fields' : Fields} (h : Rearranged fields fields') {v : Value}
    (hv : IsLeaf v) {name : Text} (hm : member fields name = .ok v) :
    Review.member fields' name = .ok v := by
  rw [member_iff h.left] at hm
  rw [member_iff h.right]
  have hin : (name, v) ∈ fields.map arrangedField :=
    List.mem_map.mpr ⟨_, hm, Prod.ext rfl ((hv v).mpr rfl)⟩
  obtain ⟨⟨name', w⟩, hw, hsame⟩ := List.mem_map.mp (h.perm.subset hin)
  rw [arrangedField, Prod.mk.injEq, hv w] at hsame
  obtain ⟨rfl, rfl⟩ := hsame
  exact hw

theorem Rearranged.textFields {fields fields' : Fields} (h : Rearranged fields fields')
    {names : List Text} {record : Flat} (hread : textFields fields names = .ok record) :
    Review.textFields fields' names = .ok record := by
  rw [textFields_ok] at hread ⊢
  exact hread.imp fun name p ⟨hname, s, hs, hblank, hm⟩ =>
    ⟨hname, s, hs, hblank, h.member (str_leaf s) hm⟩

theorem Rearranged.flagField {fields fields' : Fields} (h : Rearranged fields fields')
    {name : Text} {p : Text × Scalar} (hread : flagField fields name = .ok p) :
    Review.flagField fields' name = .ok p := by
  rw [flagField_ok] at hread ⊢
  obtain ⟨b, rfl, hm⟩ := hread
  exact ⟨b, rfl, h.member (bool_leaf b) hm⟩

/-! ### Validators and the order of keys -/

/-- A validator that does not see the order of keys. -/
def KeyBlind {α : Type} (f : Value → Except Raised α) : Prop :=
  ∀ v w a, Keyed v → Keyed w → arranged v = arranged w → f v = .ok a → f w = .ok a

theorem finding_blind : KeyBlind validateFinding := by
  intro v w r hv hw hsame h
  simp only [validateFinding, bind_ok, require_ok, exists_const, requireObject_ok, pure,
    Except.pure, Except.ok.injEq] at h ⊢
  obtain ⟨fields, rfl, _, hexact, texts, htexts, hseverity, flag, hflag, tail, htail, rfl⟩ := h
  obtain ⟨fields', rfl, hre⟩ := Rearranged.of_arranged hv hw hsame
  rw [hre.any_key] at hexact htail
  refine ⟨fields', rfl, (), hre.exact hexact, texts, hre.textFields htexts, hseverity, flag,
    hre.flagField hflag, tail, ?_, rfl⟩
  rw [evidenceOf] at htail ⊢
  split at htail
  · rename_i hevident
    obtain ⟨hread, hvalid⟩ := evidence_ok.mp htail
    rw [if_pos hevident]
    exact evidence_ok.mpr ⟨hre.textFields hread, hvalid⟩
  · rename_i hevident
    rw [if_neg hevident]
    exact htail

theorem regression_blind : KeyBlind validateRegression := by
  intro v w r hv hw hsame h
  simp only [validateRegression, bind_ok, requireObject_ok] at h ⊢
  obtain ⟨fields, rfl, _, hexact, htexts⟩ := h
  obtain ⟨fields', rfl, hre⟩ := Rearranged.of_arranged hv hw hsame
  exact ⟨fields', rfl, (), hre.exact hexact, hre.textFields htexts⟩

theorem question_blind : KeyBlind validateQuestion := by
  intro v w r hv hw hsame h
  simp only [validateQuestion, bind_ok, requireObject_ok, pure, Except.pure, Except.ok.injEq] at h ⊢
  obtain ⟨fields, rfl, _, hexact, texts, htexts, flag, hflag, rfl⟩ := h
  obtain ⟨fields', rfl, hre⟩ := Rearranged.of_arranged hv hw hsame
  exact ⟨fields', rfl, (), hre.exact hexact, texts, hre.textFields htexts, flag,
    hre.flagField hflag, rfl⟩

theorem safety_blind : KeyBlind validateSafety := by
  intro v w r hv hw hsame h
  simp only [validateSafety, bind_ok, requireObject_ok, mapM_ok, pure, Except.pure,
    Except.ok.injEq] at h ⊢
  obtain ⟨fields, rfl, _, hexact, mode, hmode, flags, hflags, _, hstatic, rfl⟩ := h
  obtain ⟨fields', rfl, hre⟩ := Rearranged.of_arranged hv hw hsame
  exact ⟨fields', rfl, (), hre.exact hexact, mode, hre.textFields hmode, flags,
    hflags.imp fun _ _ hflag => hre.flagField hflag, (), hstatic, rfl⟩

/-! ### Rearranged records -/

/-- Two arrays with the same items, in any order and up to the order of keys. -/
def SameItems : Value → Value → Prop
  | .arr items, .arr items' => (items.map arranged).Perm (items'.map arranged)
  | v, w => arranged v = arranged w

theorem SameItems.cases {v w : Value} (h : SameItems v w) :
    (∃ items items', v = .arr items ∧ w = .arr items' ∧
      (items.map arranged).Perm (items'.map arranged)) ∨ arranged v = arranged w := by
  cases v with
  | arr items =>
    cases w with
    | arr items' => exact .inl ⟨items, items', rfl, rfl, h⟩
    | _ => exact .inr h
  | _ => exact .inr (by cases w <;> exact h)

theorem items_of_arranged {items : List Value} {w : Value}
    (h : arranged (.arr items) = arranged w) :
    ∃ items', w = .arr items' ∧ (items.map arranged).Perm (items'.map arranged) := by
  cases w <;> simp only [arranged, reduceCtorEq, Value.arr.injEq, arrangedItems_map] at h
  exact ⟨_, rfl, h ▸ .refl _⟩

theorem SameItems.portable {v w : Value} (h : SameItems v w) :
    Review.portable v = Review.portable w := by
  have hitems : ∀ items : List Value, Review.portable (.arr items) = true ↔
      ∀ a ∈ items.map arranged, Review.portable a = true := by
    intro items
    rw [Review.portable, portableItems_iff, List.forall_mem_map]
    simp only [portable_arranged]
  cases h.cases with
  | inl h =>
    obtain ⟨items, items', rfl, rfl, hperm⟩ := h
    rw [Bool.eq_iff_iff, hitems, hitems]
    simp only [hperm.mem_iff]
  | inr h => rw [← portable_arranged v, h, portable_arranged]

/-- The records that a validator answers for the same items are the same, in any order. -/
theorem records_same {f : Value → Except Raised Flat} (hf : KeyBlind f) {v w : Value}
    {out : List Flat} (hv : Keyed v) (hw : Keyed w) (h : SameItems v w)
    (hout : validateRecords f v = .ok out) :
    ∃ out', validateRecords f w = .ok out' ∧ out.Perm out' := by
  obtain ⟨items, rfl, hitems⟩ := records_ok.mp hout
  have hsame : ∃ items', w = .arr items' ∧ (items.map arranged).Perm (items'.map arranged) := by
    cases h.cases with
    | inl h =>
      obtain ⟨_, items', heq, rfl, hperm⟩ := h
      rw [Value.arr.injEq] at heq
      exact ⟨items', rfl, heq ▸ hperm⟩
    | inr h => exact items_of_arranged h
  obtain ⟨items', rfl, hperm⟩ := hsame
  rw [Keyed, keyedItems_iff] at hv hw
  -- what an arranged item is answered with
  have harranged : List.Forall₂ (fun a r => ∃ v, Keyed v ∧ arranged v = a ∧ f v = .ok r)
      (items.map arranged) out := by
    rw [List.forall₂_map_left_iff]
    have hboth := (List.forall₂_and_left _ _).mpr ⟨hv, hitems⟩
    exact hboth.imp fun v r ⟨hkeyed, hr⟩ => ⟨v, hkeyed, rfl, hr⟩
  obtain ⟨out', hout', hperm'⟩ := List.perm_comp_forall₂ hperm.symm harranged
  refine ⟨out', records_ok.mpr ⟨items', rfl, ?_⟩, hperm'.symm⟩
  rw [List.forall₂_map_left_iff] at hout'
  have hboth := (List.forall₂_and_left _ _).mpr ⟨hw, hout'⟩
  exact hboth.imp fun w r ⟨hkeyed, v, hv, hsame, hr⟩ => hf v w r hv hkeyed hsame hr

/-! ### The sorted records -/

/-- Records with the same keys, each once, that have the same members are one record. -/
theorem eq_of_members {r r' : Flat} (hkeys : r.map Prod.fst = r'.map Prod.fst)
    (hd : (r.map Prod.fst).Nodup) (h : r.Perm r') : r = r' := by
  apply List.ext_getElem h.length_eq
  intro i hi hi'
  have hmem : r[i] ∈ r' := h.subset (List.getElem_mem hi)
  have hd' : (r'.map Prod.fst).Nodup := hkeys ▸ hd
  apply List.inj_on_of_nodup_map hd' hmem (List.getElem_mem hi')
  have hkey := congrArg (fun l => l[i]?) hkeys
  simpa [hi, hi'] using hkey

theorem eq_of_text {names : List Text} (hd : names.Nodup) {r r' : Flat}
    (hr : r.map Prod.fst <+: names) (hr' : r'.map Prod.fst <+: names)
    (h : recordText float r = recordText float r') : r = r' := by
  have hperm := flat_perm h
  have hlength : (r.map Prod.fst).length = (r'.map Prod.fst).length := by
    rw [List.length_map, List.length_map, hperm.length_eq]
  have hkeys : r.map Prod.fst = r'.map Prod.fst := by
    rw [List.prefix_iff_eq_take] at hr hr'
    rw [hr, hr', hlength]
  exact eq_of_members hkeys (hd.sublist hr.sublist) hperm

theorem regression_names {v : Value} {r : Flat} (h : validateRegression v = .ok r) :
    r.map Prod.fst <+: regressionFields := (regression_ok h).keys ▸ List.prefix_refl _

theorem question_names {v : Value} {r : Flat} (h : validateQuestion v = .ok r) :
    r.map Prod.fst <+: questionTextFields ++ [requiredKey] := by
  obtain ⟨front, required, h⟩ := question_ok h
  rw [h.parts, List.map_append, h.texts.keys]
  exact List.prefix_refl _

theorem finding_names {v : Value} {r : Flat} (h : validateFinding v = .ok r) :
    r.map Prod.fst <+: findingFields ++ findingEvidenceFields := by
  obtain ⟨front, tail, reachable, h⟩ := finding_ok h
  rw [h.parts, List.map_append, List.map_append, h.texts.keys]
  cases h.evidence with
  | inl h =>
    rw [h, List.map_nil, List.append_nil]
    exact List.prefix_append _ _
  | inr h =>
    rw [h.texts.keys]
    exact List.prefix_refl _

/-- Records of one shape sort to one list under a key that tells the text. -/
theorem sorted_same {κ : Type} [LinearOrder κ] {key : Flat → κ} {f : Value → Except Raised Flat}
    {names : List Text} (hd : names.Nodup)
    (hnames : ∀ v r, f v = .ok r → r.map Prod.fst <+: names)
    (hkey : ∀ r r', key r = key r' → recordText float r = recordText float r') {v : Value}
    {out out' : List Flat} (hout : validateRecords f v = .ok out) (h : out.Perm out') :
    sortBy key out = sortBy key out' := by
  have hshape : ∀ r ∈ out, r.map Prod.fst <+: names := by
    intro r hr
    obtain ⟨items, -, hitems⟩ := records_ok.mp hout
    obtain ⟨item, -, hitem⟩ := Table.exists_left hitems hr
    exact hnames item r hitem
  apply sortBy_eq_of_perm _ h
  intro r hr r' hr' hsame
  exact eq_of_text hd (hshape r hr) (hshape r' hr') (hkey r r' hsame)

theorem findingSortKey_text {r r' : Flat} (h : findingSortKey float r = findingSortKey float r') :
    recordText float r = recordText float r' := by
  simp only [findingSortKey, toLex_inj, Prod.mk.injEq] at h
  exact h.2.2.2.2

/-! ### The same review -/

def recordKeys : List Text :=
  ["new_abuse_affordances", "recommended_controls", "suggested_regression_tests"].map points

/-- Two fields of a review that say the same. -/
def SameField (p q : Text × Value) : Prop :=
  p.1 = q.1 ∧ if p.1 ∈ recordKeys then SameItems p.2 q.2 else arranged p.2 = arranged q.2

/-- Two reviews that are the same but for the order of their records and of the keys of their
objects. -/
def SameReview : Value → Value → Prop
  | .obj fields, .obj fields' =>
    ∃ reordered, List.Forall₂ SameField fields reordered ∧ reordered.Perm fields'
  | v, w => arranged v = arranged w

/-- Two inputs that are the same but for the order of records and of keys. -/
structure SameInput (input input' : ReviewInput) : Prop where
  review : SameReview input.review input'.review
  questions : SameItems input.questions input'.questions
  sourceHash : input.sourceHash = input'.sourceHash
  modelHash : input.modelHash = input'.modelHash
  baselineHash : input.baselineHash = input'.baselineHash
  executionMode : input.executionMode = input'.executionMode

/-- An input of dictionaries: their keys are distinct. -/
structure KeyedInput (input : ReviewInput) : Prop where
  review : Keyed input.review
  questions : Keyed input.questions

theorem SameField.portable {p q : Text × Value} (h : SameField p q) :
    (p.1.any isSurrogate = false ∧ Review.portable p.2 = true) ↔
      (q.1.any isSurrogate = false ∧ Review.portable q.2 = true) := by
  have hvalue : Review.portable p.2 = Review.portable q.2 := by
    have h' := h.2
    split at h'
    · exact SameItems.portable h'
    · rw [← portable_arranged, h', portable_arranged]
  rw [h.1, hvalue]

theorem portableFields_same {fields fields' reordered : Fields}
    (h : List.Forall₂ SameField fields reordered) (hperm : reordered.Perm fields') :
    portable (.obj fields) = portable (.obj fields') := by
  rw [portable, portable, Bool.eq_iff_iff, portableFields_iff, portableFields_iff]
  constructor
  · intro hall q hq
    obtain ⟨p, hp, hsame⟩ := Table.exists_left h (hperm.mem_iff.mpr hq)
    exact hsame.portable.mp (hall p hp)
  · intro hall p hp
    obtain ⟨q, hq, hsame⟩ := Table.exists_right h hp
    exact hsame.portable.mpr (hall q (hperm.mem_iff.mp hq))

theorem get_of_mem {fields : Fields} (hd : Distinct fields) {p : Text × Value} (h : p ∈ fields) :
    get fields p.1 = p.2 := by
  rw [get, find_of_mem hd h]
  rfl

/-- A field of the one review and the field of that name of the other. -/
theorem get_same {fields fields' reordered : Fields} (hd : Distinct fields) (hd' : Distinct fields')
    (h : List.Forall₂ SameField fields reordered) (hperm : reordered.Perm fields') (name : Text) :
    SameField (name, get fields name) (name, get fields' name) := by
  by_cases hin : ∃ p ∈ fields, p.1 = name
  · obtain ⟨p, hp, rfl⟩ := hin
    obtain ⟨q, hq, hsame⟩ := Table.exists_right h hp
    rw [get_of_mem hd hp, hsame.1, get_of_mem hd' (hperm.mem_iff.mp hq), ← hsame.1]
    exact ⟨rfl, hsame.2⟩
  · have hout : ¬ ∃ q ∈ fields', q.1 = name := by
      rintro ⟨q, hq, hname⟩
      obtain ⟨p, hp, hsame⟩ := Table.exists_left h (hperm.mem_iff.mpr hq)
      exact hin ⟨p, hp, hsame.1.trans hname⟩
    have hnull : ∀ fields : Fields, (¬ ∃ p ∈ fields, p.1 = name) → get fields name = .null := by
      intro fields hno
      have hfind : fields.find? (fun p => p.1 = name) = none := by
        rw [List.find?_eq_none]
        intro p hp heq
        exact hno ⟨p, hp, of_decide_eq_true heq⟩
      rw [get, hfind]
      rfl
    rw [hnull fields hin, hnull fields' hout]
    refine ⟨rfl, ?_⟩
    split <;> exact rfl

theorem SameReview.obj {review : Fields} {w : Value}
    (h : SameReview (.obj review) w) : ∃ review' reordered, w = .obj review' ∧
      List.Forall₂ SameField review reordered ∧ reordered.Perm review' := by
  cases w with
  | obj review' =>
    obtain ⟨reordered, hsame, hperm⟩ := h
    exact ⟨review', reordered, rfl, hsame, hperm⟩
  | _ => simp [SameReview, arranged] at h

/-- The lists of records of a review, and the fields that hold no list. -/
theorem review_keys :
    (∀ name ∈ ["new_abuse_affordances", "recommended_controls", "suggested_regression_tests"],
      points name ∈ recordKeys) ∧
    ∀ name ∈ ["product_id", "launch_gate_status", "safety"], points name ∉ recordKeys := by
  decide +kernel

/-- What is checked of the one input is checked of the other, with the same sorted records. -/
theorem checked_same (float : Binary64 → Text) {input input' : ReviewInput}
    (hk : KeyedInput input) (hk' : KeyedInput input') (hsame : SameInput input input')
    {review : Fields} {records : ReviewRecords} {productId sourceHash modelHash : Text}
      {baselineHash : Value} {executionMode gateStatus : Text}
    (h : Checked input review records productId sourceHash modelHash baselineHash executionMode
      gateStatus) :
    ∃ review' records', Checked input' review' records' productId sourceHash modelHash baselineHash
        executionMode gateStatus ∧ records.sorted float = records'.sorted float := by
  obtain ⟨hobj, hportable⟩ := h.isReview
  have hkeyed := hk.review
  have hreview := hsame.review
  rw [hobj] at hkeyed hreview hportable
  obtain ⟨review', reordered, hobj', hfields, hperm⟩ := SameReview.obj hreview
  have hkeyed' := hk'.review
  rw [hobj'] at hkeyed'
  have hget := get_same hkeyed.1 hkeyed'.1 hfields hperm
  -- a field that holds records, and one that does not
  have hitems : ∀ name ∈ recordKeys, SameItems (get review name) (get review' name) := by
    intro name hname
    have h := (hget name).2
    rwa [if_pos hname] at h
  have hvalue : ∀ name ∉ recordKeys, arranged (get review name) = arranged (get review' name) := by
    intro name hname
    have h := (hget name).2
    rwa [if_neg hname] at h
  have hleaf : ∀ name ∉ recordKeys, ∀ s, get review name = .str s → get review' name = .str s := by
    intro name hname s hs
    have h := hvalue name hname
    rw [hs] at h
    exact (str_leaf s _).mp h.symm
  have hget_keyed : ∀ {fields : Fields}, Keyed (.obj fields) → ∀ name, Keyed (get fields name) := by
    intro fields hfields name
    rw [get]
    cases hfind : fields.find? fun p => p.1 = name with
    | none => exact trivial
    | some p => exact keyedFields_iff.mp hfields.2 p (List.mem_of_find?_eq_some hfind)
  have hk1 := hget_keyed hkeyed
  have hk2 := hget_keyed hkeyed'
  obtain ⟨findings, hfindings, hfindingsPerm⟩ := records_same finding_blind (hk1 _) (hk2 _)
    (hitems (points "new_abuse_affordances") (review_keys.1 _ (by simp))) h.findings
  obtain ⟨controls, hcontrols, hcontrolsPerm⟩ := records_same finding_blind (hk1 _) (hk2 _)
    (hitems (points "recommended_controls") (review_keys.1 _ (by simp))) h.controls
  obtain ⟨regressions, hregressions, hregressionsPerm⟩ := records_same regression_blind (hk1 _)
    (hk2 _) (hitems (points "suggested_regression_tests") (review_keys.1 _ (by simp))) h.regressions
  obtain ⟨questions, hquestions, hquestionsPerm⟩ := records_same question_blind hk.questions
    hk'.questions hsame.questions h.questions.2
  refine ⟨review', ⟨findings, controls, regressions, questions⟩, ?_, ?_⟩
  · refine ⟨hsame.executionMode ▸ h.isMode, ⟨hobj', ?_⟩, ?_, ?_, hfindings, hcontrols, hregressions,
      ?_, ⟨hsame.questions.portable ▸ h.questions.1, hquestions⟩, hsame.sourceHash ▸ h.isSource,
      hsame.modelHash ▸ h.isModel, hsame.baselineHash ▸ h.isBaseline⟩
    · rw [hobj', ← portableFields_same hfields hperm]
      exact hportable
    · exact ⟨hleaf _ (review_keys.2 "product_id" (by simp)) _ h.isProduct.1, h.isProduct.2⟩
    · refine ⟨hleaf _ (review_keys.2 "launch_gate_status" (by simp)) _ h.isGate.1, h.isGate.2.1, ?_⟩
      rw [h.isGate.2.2, expectedGate_perm hfindingsPerm]
    · exact safety_blind _ _ _ (hk1 _) (hk2 _) (hvalue _ (review_keys.2 "safety" (by simp)))
        h.safety
  · rw [ReviewRecords.sorted, ReviewRecords.sorted, ReviewRecords.mk.injEq]
    refine ⟨?_, ?_, ?_, ?_⟩
    · exact sorted_same (names_distinct _ (by simp)) (fun _ _ => finding_names)
        (fun _ _ => findingSortKey_text) h.findings hfindingsPerm
    · exact sorted_same (names_distinct _ (by simp)) (fun _ _ => finding_names)
        (fun _ _ => id) h.controls
        hcontrolsPerm
    · exact sorted_same (names_distinct _ (by simp)) (fun _ _ => regression_names) (fun _ _ => id)
        h.regressions hregressionsPerm
    · exact sorted_same (names_distinct _ (by simp)) (fun _ _ => question_names)
        (fun _ _ => id) h.questions.2
        hquestionsPerm

/-- Inputs that are the same but for the order of records and of keys build one envelope. -/
theorem built_same {input input' : ReviewInput} {envelope : Value} (hk : KeyedInput input)
    (hk' : KeyedInput input') (hsame : SameInput input input')
    (h : buildReviewEnvelope H float input = .ok envelope) :
    buildReviewEnvelope H float input' = .ok envelope := by
  obtain ⟨review, records, productId, sourceHash, modelHash, baselineHash, mode, gate, hchecked,
    hbody, rfl⟩ := build_ok.mp h
  obtain ⟨review', records', hchecked', hsorted⟩ := checked_same float hk hk' hsame hchecked
  rw [hsorted] at hbody ⊢
  exact build_ok.mpr ⟨review', records', productId, sourceHash, modelHash, baselineHash, mode, gate,
    hchecked', hbody, rfl⟩

theorem SameItems.symm {v w : Value} (h : SameItems v w) : SameItems w v := by
  cases v with
  | arr items =>
    cases w with
    | arr items' => exact List.Perm.symm h
    | _ => exact Eq.symm h
  | _ => cases w <;> exact Eq.symm h

theorem SameField.symm {p q : Text × Value} (h : SameField p q) : SameField q p := by
  refine ⟨h.1.symm, ?_⟩
  rw [← h.1]
  have hvalue := h.2
  split at hvalue
  · rename_i hin
    rw [if_pos hin]
    exact hvalue.symm
  · rename_i hin
    rw [if_neg hin]
    exact hvalue.symm

theorem SameReview.symm {v w : Value} (h : SameReview v w) : SameReview w v := by
  cases v with
  | obj fields =>
    cases w with
    | obj fields' =>
      obtain ⟨reordered, hsame, hperm⟩ := h
      have hflip : List.Forall₂ SameField reordered fields :=
        (List.Forall₂.flip hsame).imp fun _ _ h => SameField.symm h
      exact List.perm_comp_forall₂ hperm.symm hflip
    | _ => exact Eq.symm h
  | _ => cases w <;> exact Eq.symm h

theorem SameInput.symm {input input' : ReviewInput} (h : SameInput input input') :
    SameInput input' input where
  review := h.review.symm
  questions := h.questions.symm
  sourceHash := h.sourceHash.symm
  modelHash := h.modelHash.symm
  baselineHash := h.baselineHash.symm
  executionMode := h.executionMode.symm

/-- The builder and the validator agree: what was built is accepted as it is, and inputs that are
the same but for the order of records and of keys build the same envelope. -/
theorem review_agreement (H : Sha256) (float : Binary64 → Text) :
    (∀ input envelope, buildReviewEnvelope H float input = .ok envelope →
      validateReviewEnvelope H float envelope = .ok envelope) ∧
    ∀ input input', KeyedInput input → KeyedInput input' → SameInput input input' → ∀ envelope,
      buildReviewEnvelope H float input = .ok envelope ↔
        buildReviewEnvelope H float input' = .ok envelope :=
  ⟨fun _ _ h => built_accepted h, fun _ _ hk hk' hsame _ =>
    ⟨built_same hk hk' hsame, built_same hk' hk hsame.symm⟩⟩

/-! ### A review in two orders -/

def sampleFinding (surfaceId severity : String) : Flat :=
  [("surface_type", "route"), ("surface_id", surfaceId), ("risk", "bola"), ("severity", severity),
    ("control", "owner check"), ("reason", "no owner check")].map
      (fun p => (points p.1, .text (points p.2))) ++ [(reachableKey, .flag true)]

def sampleReview (findings : List Flat) : Fields :=
  [(points "product_id", .str (points "shop")), (points "launch_gate_status", .str blockText),
    (points "new_abuse_affordances", .arr (findings.map Flat.value)),
    (points "recommended_controls", .arr []), (points "suggested_regression_tests", .arr []),
    (points "safety", Flat.value staticSafety)]

def sampleInput (review : Fields) : ReviewInput where
  review := .obj review
  sourceHash := .str (List.replicate 64 zero)
  modelHash := .str (List.replicate 64 (zero + 1))
  baselineHash := .null
  executionMode := .str (points "machine_local")
  questions := .arr []

def sampleFindings : List Flat := [sampleFinding "/orders" "block", sampleFinding "/search" "warn"]

/-- The SHA-256 of the body that is built of the sample. -/
def sampleSha : Sha256 where
  digest _ := points "512261410b90d0014a9ed5bcfb73991de4bc0c9d861337b240964f0a5517441c"
  length _ := by
    rw [Literal.points_eq]
    decide +kernel
  lowerHex _ := by
    rw [Literal.points_eq]
    decide +kernel

def sampleBody : Fields :=
  envelopeBody ((ReviewRecords.mk sampleFindings [] [] []).sorted fun _ => []) (points "shop")
    (List.replicate 64 zero) (List.replicate 64 (zero + 1)) .null (points "machine_local") blockText
    staticSafety

theorem sample_texts : points "machine_local" ∈ executionModes ∧
    (points "shop").all isWhitespace = false ∧ blockText ∈ gateStatuses ∧
    isDigest (List.replicate 64 zero) = true ∧ isDigest (List.replicate 64 (zero + 1)) = true := by
  decide +kernel

/-- The sample is portable and its records are valid, with the gate that they give. -/
theorem sample_records : portable (.obj (sampleReview sampleFindings)) = true ∧
    blockText = expectedGate sampleFindings ∧
    validateRecords validateFinding (.arr (sampleFindings.map Flat.value)) =
        .ok sampleFindings := by
  refine ⟨?_, by decide +kernel, by decide +kernel⟩
  simp [sampleReview, sampleFindings, sampleFinding, Flat.value, Scalar.value, portable,
    portableFields, portableItems, points_unicode, blockText, reachableKey, staticSafety, modeKey]

/-- The keys of the sample's records, in either order, and of its review. -/
theorem sample_keys :
    (∀ findings ∈ [sampleFindings, sampleFindings.reverse], ∀ r ∈ findings,
      (r.map Prod.fst).Nodup) ∧
    ((sampleReview []).map Prod.fst).Nodup ∧ (staticSafety.map Prod.fst).Nodup ∧
    points "new_abuse_affordances" ∈ recordKeys := by
  decide +kernel

theorem sample_checked : Checked (sampleInput (sampleReview sampleFindings))
    (sampleReview sampleFindings) ⟨sampleFindings, [], [], []⟩ (points "shop")
    (List.replicate 64 zero) (List.replicate 64 (zero + 1)) .null (points "machine_local")
    blockText where
  isMode := ⟨rfl, sample_texts.1⟩
  isReview := ⟨rfl, sample_records.1⟩
  isProduct := ⟨rfl, sample_texts.2.1⟩
  isGate := ⟨rfl, sample_texts.2.2.1, sample_records.2.1⟩
  findings := sample_records.2.2
  controls := rfl
  regressions := rfl
  safety := safety_value
  questions := ⟨rfl, rfl⟩
  isSource := ⟨rfl, sample_texts.2.2.2.1⟩
  isModel := ⟨rfl, sample_texts.2.2.2.2⟩
  isBaseline := rfl

theorem sample_sorted : (ReviewRecords.mk sampleFindings [] [] []).sorted (fun _ => []) =
    ⟨sampleFindings, [], [], []⟩ := by
  have hfindings : sortBy (findingSortKey fun _ => []) sampleFindings = sampleFindings := by
    apply sortBy_of_pairwise
    rw [sampleFindings, List.pairwise_pair]
    apply Prod.Lex.left
    decide +kernel
  have hnone : sortBy (recordText fun _ => []) [] = [] := sortBy_of_pairwise .nil
  rw [ReviewRecords.sorted, hfindings, hnone]

theorem sample_built : buildReviewEnvelope sampleSha (fun _ => [])
    (sampleInput (sampleReview sampleFindings)) =
      .ok (.obj (sealed sampleSha (fun _ => []) sampleBody)) := by
  refine build_ok.mpr ⟨_, _, _, _, _, _, _, _, sample_checked, ?_, rfl⟩
  rw [sample_sorted]
  decide +kernel

theorem SameItems.refl (v : Value) : SameItems v v := by
  cases v with
  | arr items => exact List.Perm.refl _
  | _ => rfl

theorem SameField.refl (p : Text × Value) : SameField p p := by
  refine ⟨rfl, ?_⟩
  split
  · exact .refl _
  · rfl

/-- The findings the other way round, and the keys of the review. -/
theorem sample_same : SameInput (sampleInput (sampleReview sampleFindings))
    (sampleInput (sampleReview sampleFindings.reverse).reverse) where
  review := by
    refine ⟨sampleReview sampleFindings.reverse, ?_, (List.reverse_perm _).symm⟩
    have hfindings : SameItems (.arr (sampleFindings.map Flat.value))
        (.arr (sampleFindings.reverse.map Flat.value)) :=
      (((List.reverse_perm _).symm.map _).map _)
    refine .cons (.refl _) (.cons (.refl _) (.cons ⟨rfl, ?_⟩ (.cons (.refl _) (.cons (.refl _)
      (.cons (.refl _) .nil)))))
    rw [if_pos sample_keys.2.2.2]
    exact hfindings
  questions := .refl _
  sourceHash := rfl
  modelHash := rfl
  baselineHash := rfl
  executionMode := rfl

theorem flat_keyed {r : Flat} (h : (r.map Prod.fst).Nodup) : Keyed (Flat.value r) := by
  refine ⟨flatFields_keys r ▸ h, keyedFields_iff.mpr ?_⟩
  rw [List.forall_mem_map]
  rintro ⟨_, s⟩ _
  cases s <;> exact trivial

theorem sampleReview_keyed {findings : List Flat}
    (h : ∀ r ∈ findings, (r.map Prod.fst).Nodup) : Keyed (.obj (sampleReview findings)) := by
  have hkeys : (sampleReview findings).map Prod.fst = (sampleReview []).map Prod.fst := rfl
  have hfindings : Keyed (.arr (findings.map Flat.value)) := by
    rw [Keyed, keyedItems_iff, List.forall_mem_map]
    exact fun r hr => flat_keyed (h r hr)
  refine ⟨?_, trivial, trivial, hfindings, trivial, trivial, flat_keyed ?_, trivial⟩
  · rw [hkeys]
    exact sample_keys.2.1
  · exact sample_keys.2.2.1

theorem reverse_keyed {fields : Fields} (h : Keyed (.obj fields)) :
    Keyed (.obj fields.reverse) := by
  refine ⟨?_, keyedFields_iff.mpr fun p hp => ?_⟩
  · rw [List.map_reverse, List.nodup_reverse]
    exact h.1
  · exact keyedFields_iff.mp h.2 p (List.mem_reverse.mp hp)

theorem review_agreement_sample :
    validateReviewEnvelope sampleSha (fun _ => [])
        (.obj (sealed sampleSha (fun _ => []) sampleBody)) =
        .ok (.obj (sealed sampleSha (fun _ => []) sampleBody)) ∧
      buildReviewEnvelope sampleSha (fun _ => [])
        (sampleInput (sampleReview sampleFindings.reverse).reverse) =
          .ok (.obj (sealed sampleSha (fun _ => []) sampleBody)) := by
  have hagree := review_agreement sampleSha fun _ => []
  have hkeys := sample_keys.1 sampleFindings (by simp)
  have hkeys' := sample_keys.1 sampleFindings.reverse (by simp)
  have hkeyed : KeyedInput (sampleInput (sampleReview sampleFindings)) :=
    ⟨sampleReview_keyed hkeys, trivial⟩
  have hkeyed' : KeyedInput (sampleInput (sampleReview sampleFindings.reverse).reverse) :=
    ⟨reverse_keyed (sampleReview_keyed hkeys'), trivial⟩
  exact ⟨hagree.1 _ _ sample_built, (hagree.2 _ _ hkeyed hkeyed' sample_same _).mp sample_built⟩

end Heel.Review
