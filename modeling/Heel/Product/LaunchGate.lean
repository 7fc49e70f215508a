import Heel.Lib.Literal
import Heel.Product.StaticReview

/-! The launch gate against the findings of the surfaces: of several findings at one location and
risk the last is kept, so the gate is sound exactly where no warning comes last after a block. -/
namespace Heel.Product
open Lib Lib.JsonText Lib.Checks

variable {B : Builtins} {before after : Fields} {review : LaunchReview}

/-- A surface yields a finding, at the location of the surface. -/
def Yields (B : Builtins) (changed : List ChangedSurface) (key : Key) (f : RiskFinding) : Prop :=
  ∃ surface ∈ changed, ∃ risks, riskFindings B surface = .ok risks ∧ f ∈ risks ∧
    ∃ location, locationOf surface = .ok location ∧ key = (location, f.risk)

/-- What the review owes to the findings of its surfaces. -/
structure GateSound (B : Builtins) (review : LaunchReview) : Prop where
  block : review.launchGateStatus = .block ↔
    ∃ key f, Yields B review.changedSurfaces key f ∧ f.severity = .block
  warn : review.launchGateStatus = .warn ↔
    (∃ key f, Yields B review.changedSurfaces key f) ∧
      ∀ key f, Yields B review.changedSurfaces key f → f.severity ≠ .block
  pass : review.launchGateStatus = .pass ↔ ∀ key f, ¬ Yields B review.changedSurfaces key f
  keeps : ∀ key f, Yields B review.changedSurfaces key f →
    ∃ kept ∈ review.newAbuseAffordances, Yields B review.changedSurfaces key kept ∧
      ∀ g, Yields B review.changedSurfaces key g → g.severity = .block → kept.severity = .block

/-- Whatever blocks at a location and risk, the last finding there blocks too. -/
def BlocksLast (entries : List (Key × RiskFinding)) : Prop :=
  ∀ earlier e later, entries = earlier ++ e :: later → (∀ p ∈ later, p.1 ≠ e.1) →
    ∀ p ∈ earlier, p.1 = e.1 → p.2.severity = .block → e.2.severity = .block

/-- The models' surfaces, in order, end no location and risk with a warning after a block. -/
def NoLaterWarning (B : Builtins) (before after : Fields) : Prop :=
  ∀ changed entries, changedSurfaces B before after = .ok changed →
    keyedFindings B changed = .ok entries → BlocksLast entries

theorem review_ok (h : reviewProductModels B before after = .ok review) :
    ∃ entries, changedSurfaces B before after = .ok review.changedSurfaces ∧
      keyedFindings B review.changedSurfaces = .ok entries ∧
      review.newAbuseAffordances = (Dict.ofList entries).map Prod.snd ∧
      review.launchGateStatus = gateOf review.newAbuseAffordances := by
  simp only [reviewProductModels, bind_ok, require_ok, exists_const, pure, Except.pure,
    Except.ok.injEq] at h
  obtain ⟨-, -, changed, hchanged, entries, hentries, rfl⟩ := h
  exact ⟨entries, hchanged, hentries, rfl, rfl⟩

theorem mem_surfaceFindings {changed : List ChangedSurface}
    {parts : List (List (ChangedSurface × RiskFinding))}
    (h : (changed.mapM fun surface => do
      return (← riskFindings B surface).map fun risk => (surface, risk)) = .ok parts)
    {p : ChangedSurface × RiskFinding} :
    p ∈ parts.flatten ↔ p.1 ∈ changed ∧ ∃ risks, riskFindings B p.1 = .ok risks ∧ p.2 ∈ risks := by
  rw [mapM_ok] at h
  rw [List.mem_flatten]
  constructor
  · rintro ⟨part, hpart, hp⟩
    obtain ⟨surface, hsurface, hof⟩ := Table.exists_left h hpart
    simp only [bind_ok, pure, Except.pure, Except.ok.injEq] at hof
    obtain ⟨risks, hrisks, rfl⟩ := hof
    obtain ⟨risk, hrisk, rfl⟩ := List.mem_map.mp hp
    exact ⟨hsurface, risks, hrisks, hrisk⟩
  · rintro ⟨hsurface, risks, hrisks, hrisk⟩
    obtain ⟨part, hpart, hof⟩ := Table.exists_right h hsurface
    simp only [bind_ok, pure, Except.pure, Except.ok.injEq] at hof
    obtain ⟨risks', hrisks', rfl⟩ := hof
    rw [hrisks, Except.ok.injEq] at hrisks'
    exact ⟨_, hpart, List.mem_map.mpr ⟨p.2, hrisks' ▸ hrisk, rfl⟩⟩

theorem mem_keyedFindings {changed : List ChangedSurface} {entries : List (Key × RiskFinding)}
    (h : keyedFindings B changed = .ok entries) {e : Key × RiskFinding} :
    e ∈ entries ↔ Yields B changed e.1 e.2 := by
  simp only [keyedFindings, bind_ok] at h
  obtain ⟨parts, hparts, hkeyed⟩ := h
  rw [mapM_ok] at hkeyed
  constructor
  · intro he
    obtain ⟨p, hp, hof⟩ := Table.exists_left hkeyed he
    simp only [bind_ok, pure, Except.pure, Except.ok.injEq] at hof
    obtain ⟨location, hlocation, rfl⟩ := hof
    obtain ⟨hsurface, risks, hrisks, hrisk⟩ := (mem_surfaceFindings hparts).mp hp
    exact ⟨p.1, hsurface, risks, hrisks, hrisk, location, hlocation, rfl⟩
  · rintro ⟨surface, hsurface, risks, hrisks, hrisk, location, hlocation, hkey⟩
    have hp := (mem_surfaceFindings hparts (p := (surface, e.2))).mpr
      ⟨hsurface, risks, hrisks, hrisk⟩
    obtain ⟨entry, hentry, hof⟩ := Table.exists_right hkeyed hp
    simp only [bind_ok, pure, Except.pure, Except.ok.injEq] at hof
    obtain ⟨location', hlocation', rfl⟩ := hof
    rw [hlocation, Except.ok.injEq] at hlocation'
    subst hlocation'
    rwa [← hkey] at hentry

def RiskFinding.Of (f : RiskFinding) (surface : ChangedSurface) : Prop :=
  f.surfaceType = surface.surfaceType ∧ f.surfaceId = surface.surfaceId

section Naming
variable {surface : ChangedSurface}

theorem finding_of {risk control : String} {severity : Severity} {reason : Text} {reached : Bool} :
    ∀ f ∈ [finding B surface risk severity control reason reached], f.Of surface := by
  intro f hf
  rw [List.mem_singleton] at hf
  exact hf ▸ ⟨rfl, rfl⟩

theorem either_of {xs ys : List RiskFinding} {p : Prop} [Decidable p]
    (hxs : ∀ f ∈ xs, f.Of surface) (hys : ∀ f ∈ ys, f.Of surface) :
    ∀ f ∈ if p then xs else ys, f.Of surface := by
  split
  · exact hxs
  · exact hys

theorem none_of : ∀ f ∈ ([] : List RiskFinding), f.Of surface := by simp

theorem append_of {xs ys : List RiskFinding} (hxs : ∀ f ∈ xs, f.Of surface)
    (hys : ∀ f ∈ ys, f.Of surface) : ∀ f ∈ xs ++ ys, f.Of surface := by
  intro f hf
  rw [List.mem_append] at hf
  exact hf.elim (hxs f) (hys f)

theorem exportRisks_of : ∀ f ∈ exportRisks B surface, f.Of surface :=
  either_of none_of (append_of (either_of finding_of none_of) (either_of finding_of none_of))

theorem endpointRisks_of : ∀ f ∈ endpointRisks B surface, f.Of surface := by
  apply append_of
  · exact either_of none_of (either_of none_of finding_of)
  · exact either_of exportRisks_of (either_of finding_of none_of)

theorem couponRisks_of {risks : List RiskFinding} (h : couponRisks B surface = .ok risks) :
    ∀ f ∈ risks, f.Of surface := by
  unfold couponRisks at h
  dsimp only at h
  split at h
  · cases h
    exact none_of
  · split at h
    · cases h
      exact none_of
    · simp only [bind_ok, pure, Except.pure, Except.ok.injEq] at h
      obtain ⟨discount, -, rfl⟩ := h
      exact finding_of

theorem riskFindings_of {risks : List RiskFinding} (h : riskFindings B surface = .ok risks) :
    ∀ f ∈ risks, f.Of surface := by
  have branch : ∀ {c : Prop} [Decidable c] {x y : Except Raised (List RiskFinding)},
      (x = .ok risks → ∀ f ∈ risks, f.Of surface) → (y = .ok risks → ∀ f ∈ risks, f.Of surface) →
      (if c then x else y) = .ok risks → ∀ f ∈ risks, f.Of surface := by
    intro c _ x y hx hy
    split
    · exact hx
    · exact hy
  unfold riskFindings at h
  revert h
  refine branch (fun h => ?_) (branch (fun h => ?_) (branch (fun h => ?_) (branch (fun h => ?_)
    (branch (fun h => ?_) (branch (fun h => ?_) (branch (fun h => ?_) (branch (fun h => ?_)
      (branch (fun h => ?_) fun h => ?_))))))))
  · cases h
    exact exportRisks_of
  · cases h
    exact endpointRisks_of
  · cases h
    exact either_of none_of (either_of none_of finding_of)
  · exact couponRisks_of h
  · cases h
    exact either_of none_of finding_of
  · cases h
    exact either_of none_of (either_of none_of finding_of)
  · cases h
    exact either_of none_of finding_of
  · cases h
    exact either_of none_of finding_of
  · cases h
    exact either_of none_of finding_of
  · cases h
    exact none_of

end Naming

theorem changedSurfaces_named {changed : List ChangedSurface}
    (h : changedSurfaces B before after = .ok changed) {s t : ChangedSurface} (hs : s ∈ changed)
    (ht : t ∈ changed) (htype : s.surfaceType = t.surfaceType) (hid : s.surfaceId = t.surfaceId) :
    s = t := by
  simp only [changedSurfaces, bind_ok, pure, Except.pure, Except.ok.injEq] at h
  obtain ⟨parts, hparts, rfl⟩ := h
  rw [mapM_ok] at hparts
  have hof : ∀ u ∈ parts.flatten, ∃ olds items,
      itemsById B (get before (points u.surfaceType)) = .ok olds ∧
      itemsById B (get after (points u.surfaceType)) = .ok items ∧
      ∃ item ∈ items, item.1 = u.surfaceId ∧ compareItem B u.surfaceType olds item = some u := by
    intro u hu
    rw [List.mem_flatten] at hu
    obtain ⟨part, hpart, hu⟩ := hu
    obtain ⟨field, -, hfield⟩ := Table.exists_left hparts hpart
    simp only [bind_ok, Except.ok.injEq] at hfield
    obtain ⟨olds, holds, items, hitems, rfl⟩ := hfield
    rw [List.mem_filterMap] at hu
    obtain ⟨item, hitem, hcompare⟩ := hu
    rw [List.mem_insertionSort] at hitem
    have hnamed : u.surfaceType = field ∧ item.1 = u.surfaceId := by
      unfold compareItem at hcompare
      split at hcompare
      · cases hcompare
        exact ⟨rfl, rfl⟩
      · split at hcompare
        · cases hcompare
          exact ⟨rfl, rfl⟩
        · cases hcompare
    rw [hnamed.1]
    exact ⟨olds, items, holds, hitems, item, hitem, hnamed.2, hcompare⟩
  obtain ⟨olds, items, holds, hitems, item, hitem, hitemId, hcompare⟩ := hof s hs
  obtain ⟨olds', items', holds', hitems', item', hitem', hitemId', hcompare'⟩ := hof t ht
  rw [← htype, holds, Except.ok.injEq] at holds'
  rw [← htype, hitems, Except.ok.injEq] at hitems'
  subst holds' hitems'
  have hnodup : (items.map Prod.fst).Nodup := by
    unfold itemsById at hitems
    split at hitems
    · simp only [bind_ok, require_ok, exists_const, pure, Except.pure, Except.ok.injEq] at hitems
      exact hitems.2 ▸ hitems.1
    · cases hitems
      exact List.nodup_nil
  have hsame : item = item' :=
    List.inj_on_of_nodup_map hnodup hitem hitem' (hitemId.trans (hid.trans hitemId'.symm))
  rw [hsame, htype, hcompare', Option.some.injEq] at hcompare
  exact hcompare.symm

theorem Yields.key_eq {changed : List ChangedSurface}
    (h : changedSurfaces B before after = .ok changed) {key key' : Key} {f : RiskFinding}
    (hf : Yields B changed key f) (hf' : Yields B changed key' f) : key = key' := by
  obtain ⟨s, hs, risks, hrisks, hrisk, location, hlocation, rfl⟩ := hf
  obtain ⟨t, ht, risks', hrisks', hrisk', location', hlocation', rfl⟩ := hf'
  have hsOf := riskFindings_of hrisks f hrisk
  have htOf := riskFindings_of hrisks' f hrisk'
  have hsame : s = t :=
    changedSurfaces_named h hs ht (hsOf.1.symm.trans htOf.1) (hsOf.2.symm.trans htOf.2)
  rw [← hsame, hlocation, Except.ok.injEq] at hlocation'
  rw [hlocation']

theorem gateOf_block {risks : List RiskFinding} :
    gateOf risks = .block ↔ ∃ f ∈ risks, f.severity = .block := by
  unfold gateOf
  split
  · next h => simpa using h
  · next h =>
    have hnone : ¬ ∃ f ∈ risks, f.severity = .block := by simpa using h
    split <;> simpa using hnone

theorem gateOf_pass {risks : List RiskFinding} : gateOf risks = .pass ↔ risks = [] := by
  unfold gateOf
  split
  · next h =>
    have hne : risks ≠ [] := by
      rintro rfl
      simp at h
    simpa using hne
  · split
    · next h => simpa using h
    · next h => simpa using h

theorem gateOf_warn {risks : List RiskFinding} :
    gateOf risks = .warn ↔ risks ≠ [] ∧ ∀ f ∈ risks, f.severity ≠ .block := by
  have hpass := @gateOf_pass risks
  have hblock := @gateOf_block risks
  cases hgate : gateOf risks with
  | pass =>
    rw [hgate] at hpass
    simp [hpass.mp rfl]
  | warn =>
    rw [hgate] at hpass hblock
    simp only [reduceCtorEq, false_iff, not_exists, not_and] at hpass hblock
    exact ⟨fun _ => ⟨hpass, hblock⟩, fun _ => rfl⟩
  | block =>
    rw [hgate] at hblock
    obtain ⟨f, hf, hsevere⟩ := hblock.mp rfl
    simp only [reduceCtorEq, false_iff, not_and]
    exact fun _ h => h f hf hsevere

/-- The kept finding of a key is the last one, so it blocks when any blocks. -/
theorem blocksLast_iff {entries : List (Key × RiskFinding)} :
    BlocksLast entries ↔ ∀ kept ∈ Dict.ofList entries, ∀ p ∈ entries, p.1 = kept.1 →
      p.2.severity = .block → kept.2.severity = .block := by
  constructor
  · intro h kept hkept p hp hkey hblock
    obtain ⟨earlier, later, rfl, hlast⟩ := Dict.mem_ofList.mp hkept
    rw [List.mem_append, List.mem_cons] at hp
    rcases hp with hp | rfl | hp
    · exact h earlier kept later rfl hlast p hp hkey hblock
    · exact hblock
    · exact absurd hkey (hlast p hp)
  · rintro h earlier e later rfl hlast p hp hkey hblock
    have hkept : e ∈ Dict.ofList (earlier ++ e :: later) :=
      Dict.mem_ofList.mpr ⟨earlier, later, rfl, hlast⟩
    exact h e hkept p (List.mem_append_left _ hp) hkey hblock

/-- The launch gate and the kept findings are those of the highest severities exactly where no
warning is the last finding of a location and risk at which another blocks. -/
theorem launch_gate_iff (h : reviewProductModels B before after = .ok review) :
    GateSound B review ↔ NoLaterWarning B before after := by
  obtain ⟨entries, hchanged, hentries, hkept, hgate⟩ := review_ok h
  have hyields : ∀ key f, Yields B review.changedSurfaces key f ↔ (key, f) ∈ entries :=
    fun key f => (mem_keyedFindings hentries (e := (key, f))).symm
  have hmem : ∀ f, f ∈ review.newAbuseAffordances ↔ ∃ key, (key, f) ∈ Dict.ofList entries := by
    intro f
    rw [hkept, List.mem_map]
    constructor
    · rintro ⟨⟨key, f⟩, he, rfl⟩
      exact ⟨key, he⟩
    · rintro ⟨key, he⟩
      exact ⟨(key, f), he, rfl⟩
  have hofList : ∀ e ∈ Dict.ofList entries, e ∈ entries := by
    intro e he
    obtain ⟨earlier, later, rfl, -⟩ := Dict.mem_ofList.mp he
    exact List.mem_append_right _ List.mem_cons_self
  have hlast : NoLaterWarning B before after ↔ BlocksLast entries := by
    constructor
    · intro hno
      exact hno _ _ hchanged hentries
    · intro hblocks changed entries' hchanged' hentries'
      rw [hchanged, Except.ok.injEq] at hchanged'
      subst hchanged'
      rw [hentries, Except.ok.injEq] at hentries'
      exact hentries' ▸ hblocks
  rw [hlast, blocksLast_iff]
  constructor
  · -- the finding that is kept of a location and risk is one of the highest severity
    intro hsound kept hkept p hp hkey hblock
    obtain ⟨best, hbest, hyield, hhighest⟩ := hsound.keeps kept.1 kept.2
      ((hyields _ _).mpr (hofList kept hkept))
    obtain ⟨key, hkeptBest⟩ := (hmem best).mp hbest
    have hsame : key = kept.1 :=
      Yields.key_eq hchanged ((hyields _ _).mpr (hofList _ hkeptBest)) hyield
    have hone : (key, best) = kept := Dict.eq_of_key hkeptBest hkept hsame
    rw [← hone]
    exact hhighest p.2 ((hyields _ _).mpr (hkey ▸ hp)) hblock
  · intro hblocks
    have hany : (∃ f ∈ review.newAbuseAffordances, f.severity = .block) ↔
        ∃ key f, Yields B review.changedSurfaces key f ∧ f.severity = .block := by
      simp only [hyields]
      constructor
      · rintro ⟨f, hf, hblock⟩
        obtain ⟨key, he⟩ := (hmem f).mp hf
        exact ⟨key, f, hofList _ he, hblock⟩
      · rintro ⟨key, f, he, hblock⟩
        obtain ⟨last, hlast, hkey⟩ := Dict.exists_last he
        exact ⟨last.2, (hmem _).mpr ⟨last.1, hlast⟩, hblocks last hlast _ he hkey.symm hblock⟩
    have hnone : review.newAbuseAffordances = [] ↔
        ∀ key f, ¬ Yields B review.changedSurfaces key f := by
      simp only [hyields, List.eq_nil_iff_forall_not_mem]
      constructor
      · intro hnil key f he
        obtain ⟨last, hlast, -⟩ := Dict.exists_last he
        exact hnil last.2 ((hmem _).mpr ⟨last.1, hlast⟩)
      · intro hnil f hf
        obtain ⟨key, he⟩ := (hmem f).mp hf
        exact hnil key f (hofList _ he)
    refine ⟨?_, ?_, ?_, ?_⟩
    · rw [hgate, gateOf_block, hany]
    · rw [hgate, gateOf_warn, ne_eq, hnone]
      refine and_congr ?_ ?_
      · push Not
        rfl
      · rw [← not_iff_not]
        push Not
        exact hany
    · rw [hgate, gateOf_pass, hnone]
    · intro key f hf
      obtain ⟨last, hlast, hkey⟩ := Dict.exists_last ((hyields _ _).mp hf)
      dsimp only at hkey
      subst hkey
      refine ⟨last.2, (hmem _).mpr ⟨last.1, hlast⟩, (hyields _ _).mpr (hofList _ hlast), ?_⟩
      intro g hg hblock
      exact hblocks last hlast _ ((hyields _ _).mp hg) rfl hblock

namespace Sample

def builtins : Builtins where
  str _ := []
  lower s := s.map fun c => if Content.isUpper c then c + 0x20 else c
  isAlnum := isAlnumAscii
  float _ := .error .valueError
  repr _ := []

def text (s : String) : Value := .str (points s)

/-- A model whose lists are empty but for the ones that are named. -/
def model (lists : List (Text × Value)) : Fields :=
  [("schema_version", text "ProductModel.v0.1"), ("product_id", text "p"), ("source", text "s"),
    ("generated_at", text "t"), ("environments", .arr [text "staging"])].map
      (fun p => (points p.1, p.2)) ++
    listFields.map fun name =>
      (name, (get ((points "safety_notes", .arr [text "n"]) :: lists) name).getD (.arr []))

def export_ (id reach : String) : Value :=
  .obj [(points "id", text id), (points "method", text "GET"), (points "route", text "/export"),
    (points "entitlement_check", text "missing"), (points "reachable", text reach)]

def empty : Fields := model []

/-- One operation as a route that is reachable and as an export that is not. -/
def twice : Fields :=
  model [(points "endpoints_routes", .arr [export_ "e" "yes"]),
    (points "exports", .arr [export_ "x" "no"])]

theorem empty_valid : isValid builtins empty = true := by
  simp only [isValid, requiredFields, listFields, productModelVersion, empty, model, text,
    Literal.points_codes]
  decide +kernel

theorem twice_valid : isValid builtins twice = true := by
  simp only [isValid, requiredFields, listFields, productModelVersion, twice, model, export_, text,
    Literal.points_codes]
  decide +kernel

theorem twice_warns : (do
    let entries ← keyedFindings builtins (← changedSurfaces builtins empty twice)
    return (gateOf ((Dict.ofList entries).map Prod.snd),
      decide (∃ e ∈ entries, e.2.severity = Severity.block))) = .ok (.warn, true) := by
  decide +kernel

theorem twice_reviewed : ∃ review, reviewProductModels builtins empty twice = .ok review ∧
    review.launchGateStatus = .warn ∧
    ∃ key f, Yields builtins review.changedSurfaces key f ∧ f.severity = .block := by
  have hwarns := twice_warns
  simp only [bind_ok, pure, Except.pure, Except.ok.injEq, Prod.mk.injEq,
    decide_eq_true_eq] at hwarns
  obtain ⟨changed, hchanged, entries, hentries, hgate, e, he, hblock⟩ := hwarns
  rw [reviewProductModels]
  refine ⟨_, (bind_of_ok (passed empty_valid) _).trans
    ((bind_of_ok (passed twice_valid) _).trans
      ((bind_of_ok hchanged _).trans ((bind_of_ok hentries _).trans rfl))), hgate,
      e.1, e.2, ?_, hblock⟩
  exact (mem_keyedFindings hentries).mp he

/-- The route is the one that is not reachable. -/
def lately : Fields :=
  model [(points "endpoints_routes", .arr [export_ "e" "no"]),
    (points "exports", .arr [export_ "x" "yes"])]

theorem lately_valid : isValid builtins lately = true := by
  simp only [isValid, requiredFields, listFields, productModelVersion, lately, model, export_, text,
    Literal.points_codes]
  decide +kernel

theorem lately_blocks : (do
    let entries ← keyedFindings builtins (← changedSurfaces builtins empty lately)
    return (gateOf ((Dict.ofList entries).map Prod.snd),
      decide (∀ kept ∈ Dict.ofList entries, ∀ p ∈ entries, p.1 = kept.1 →
        p.2.severity = Severity.block → kept.2.severity = Severity.block))) =
      .ok (.block, true) := by
  decide +kernel

theorem lately_reviewed : ∃ review, reviewProductModels builtins empty lately = .ok review ∧
    review.launchGateStatus = .block ∧ NoLaterWarning builtins empty lately := by
  have hblocks := lately_blocks
  simp only [bind_ok, pure, Except.pure, Except.ok.injEq, Prod.mk.injEq,
    decide_eq_true_eq] at hblocks
  obtain ⟨changed, hchanged, entries, hentries, hgate, hlast⟩ := hblocks
  rw [reviewProductModels]
  refine ⟨_, (bind_of_ok (passed empty_valid) _).trans
    ((bind_of_ok (passed lately_valid) _).trans
      ((bind_of_ok hchanged _).trans ((bind_of_ok hentries _).trans rfl))), hgate,
      fun changed' entries' hchanged' hentries' => ?_⟩
  rw [hchanged, Except.ok.injEq] at hchanged'
  subst hchanged'
  rw [hentries, Except.ok.injEq] at hentries'
  exact hentries' ▸ blocksLast_iff.mpr hlast

end Sample

open Sample in
/-- The route blocks and the export after it only warns, so the gate does not block. -/
theorem later_warning_opens_gate : ∃ review,
    reviewProductModels builtins empty twice = .ok review ∧ ¬ GateSound builtins review := by
  obtain ⟨review, hreview, hwarn, hyields⟩ := twice_reviewed
  refine ⟨review, hreview, fun hsound => ?_⟩
  rw [hsound.block.mpr hyields] at hwarn
  cases hwarn

open Sample in
/-- The gate is unsound where the warning comes after the block, and sound where it comes before. -/
theorem launch_gate_iff_sample :
    (∃ review, reviewProductModels builtins empty twice = .ok review ∧
      review.launchGateStatus = .warn ∧ ¬ NoLaterWarning builtins empty twice) ∧
    ∃ review, reviewProductModels builtins empty lately = .ok review ∧
      review.launchGateStatus = .block ∧ GateSound builtins review := by
  obtain ⟨review, hreview, hwarn, hyields⟩ := twice_reviewed
  obtain ⟨late, hlate, hblock, hlast⟩ := lately_reviewed
  refine ⟨⟨review, hreview, hwarn, fun hno => ?_⟩, late, hlate, hblock,
    (launch_gate_iff hlate).mpr hlast⟩
  rw [((launch_gate_iff hreview).mpr hno).block.mpr hyields] at hwarn
  cases hwarn

end Heel.Product
