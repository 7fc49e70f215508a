import Heel.Contracts.NormalForm
import Heel.Saas.DiscoveryBounds

/-! The frontier of a discovery round: the contract of its projection, the seed list and the
recorded candidates the service compares it with, and the references its digest commits to. -/
namespace Heel.Cloud
open Lib Lib.Checks

/-- A discovery projection, with what its contract compares the plan to. -/
structure DiscoveryProjection where
  plan : RoundPlan
  /-- The `ordinal` of each source. -/
  ordinals : List Int
  /-- `maximum_requests` of its budgets. -/
  maximumRequests : Int
  /-- The answer of the contract on identifiers, digests, the transport profile and the vocabulary
  of route templates. -/
  wellFormed : Bool
  deriving DecidableEq, Repr

/-- The ranges of `DISCOVERY_BOUND`. -/
def discoveryBoundRounds : Int := 5
def discoveryBoundActions : Int := 20
def discoveryBoundRequests : Int := 100

variable (P : Platform)

def discoverySeedDigest : Except Refusal String :=
  Json.canonicalDigest P (.arr (discoverySeedPaths.map .str))

/-- `_integer`. -/
def integerBetween (n lower upper : Int) : Except Refusal Unit :=
  require (lower ≤ n ∧ n ≤ upper) (Json.contractFail "integer outside permitted range")

/-- The loop over the sources; `ordinal` counts them. -/
def discoverySources (roundNumber : Int) : Int → List (Int × RoundSource) → Except Refusal Unit
  | _, [] => return ()
  | ordinal, (named, source) :: rest => do
    require (named = ordinal) (Json.contractFail "non-contiguous discovery source")
    integerBetween source.round 0 (roundNumber - 1)
    integerBetween source.sourceOrdinal 0 19
    require (roundNumber = 1 ↔ source.round = 0)
      (Json.contractFail "discovery source round mismatch")
    discoverySources roundNumber (ordinal + 1) rest

def discoveryPlan (p : DiscoveryProjection) : Except Refusal Unit := do
  let plan := p.plan
  require p.wellFormed (Json.contractFail "invalid discovery plan")
  integerBetween plan.round 1 discoveryBoundRounds
  integerBetween plan.cumulativeRequestsBefore 0 (discoveryBoundRequests - 1)
  integerBetween plan.actionCount 1 discoveryBoundActions
  require (plan.actionCount = plan.actions.length ∧ p.maximumRequests = plan.actionCount)
    (Json.contractFail "discovery action count mismatch")
  require (plan.sources.length = plan.actionCount ∧ p.ordinals.length = plan.sources.length)
    (Json.contractFail "discovery source count mismatch")
  discoverySources plan.round 0 (p.ordinals.zip plan.sources)
  -- round one is the fixed seed frontier
  if plan.round = 1 then do
    let seeds ← discoverySeedDigest P
    require (plan.cumulativeRequestsBefore = 0 ∧ plan.frontierDigest = seeds ∧
        plan.actionCount = discoverySeedPaths.length)
      (Json.contractFail "discovery round one is not the seed list")
  else return ()

/-- The discovery path of `submit_projection_from_runner_in_transaction`. -/
def submitDiscoveryProjection (env : RoundEnv) (b : BindingRow) (p : DiscoveryProjection)
    (db : CanaryDb) : Except Refusal CanaryDb := do
  match discoveryPlan P p with
  | .error _ => .error (canaryRunError "invalid_projection")
  | .ok _ => submitDiscoveryRound P env b p.plan db

/-- The columns of a round that say what was issued; no call changes them. -/
structure IssuedColumns where
  authorizationId : String
  round : Int
  projectionDigest : String
  frontierDigest : String
  actions : Int
  deriving DecidableEq, Repr

def Round.columns (r : Round) : IssuedColumns :=
  ⟨r.authorizationId, r.round, r.projectionDigest, r.frontierDigest, r.actions⟩

def RoundPlan.columns (plan : RoundPlan) : IssuedColumns :=
  ⟨plan.authorizationId, plan.round, plan.projectionDigest, plan.frontierDigest, plan.actionCount⟩

def IssuedColumns.key (c : IssuedColumns) : String × Int := (c.authorizationId, c.round)

def RoundReport.key (r : RoundReport) : String × Int := (r.authorizationId, r.round)

/-- The actions of a plan, each with the source named for it. -/
def RoundPlan.sourced (plan : RoundPlan) : List (RoundSource × RoundAction) :=
  plan.sources.zip plan.actions

/-- A candidate that the tables hold for a source and its action: the first of that method and
template in the report of an earlier round, at an ordinal that names an action of that round. -/
structure Recorded (db : CanaryDb) (id : String) (roundNumber : Int) (source : RoundSource)
    (action : RoundAction) (candidate : Candidate) : Prop where
  earlier : 1 ≤ source.round ∧ source.round < roundNumber
  reported : ∃ report, db.reports.find? (fun r => r.authorizationId = id ∧ r.round = source.round) =
      some report ∧ report.candidates.find? (fun c =>
        c.method = action.method ∧ c.routeTemplate = action.routeTemplate) = some candidate
  ordinal : candidate.sourceOrdinal = source.sourceOrdinal
  named : 0 ≤ source.sourceOrdinal ∧ ∃ r ∈ db.rounds, r.authorizationId = id ∧
    r.round = source.round ∧ source.sourceOrdinal < r.actions

structure Seeded (plan : RoundPlan) : Prop where
  once : (plan.actions.map RoundAction.routeTemplate).Perm discoverySeedPaths
  named : ∀ p ∈ plan.sourced, p.1.round = 0 ∧ 0 ≤ p.1.sourceOrdinal ∧
    discoverySeedPaths[p.1.sourceOrdinal.toNat]? = some p.2.routeTemplate
  digest : discoverySeedDigest P = .ok plan.frontierDigest

/-- The frontier of a later round: a recorded candidate for each action, and their digest. -/
structure Frontier (db : CanaryDb) (plan : RoundPlan) (referenced : List (Int × Candidate)) :
    Prop where
  recorded : List.Forall₂ (fun p item => item.1 = p.1.round ∧
    Recorded db plan.authorizationId plan.round p.1 p.2 item.2) plan.sourced referenced
  digest : discoveryFrontierDigest P referenced = .ok plan.frontierDigest

/-- A plan whose every action has a source. -/
structure Sourced (plan : RoundPlan) : Prop where
  positive : 1 ≤ plan.round
  actions : (plan.actions.length : Int) = plan.actionCount
  sources : plan.sources.length = plan.actions.length
  ordinals : ∀ source ∈ plan.sources, 0 ≤ source.sourceOrdinal

variable {P} {env : RoundEnv} {db t : CanaryDb}

theorem discoverySources_ok {n ordinal : Int} {sources : List (Int × RoundSource)}
    (h : discoverySources n ordinal sources = .ok ()) : ∀ p ∈ sources, 0 ≤ p.2.sourceOrdinal := by
  induction sources generalizing ordinal with
  | nil => simp
  | cons head rest ih =>
    obtain ⟨named, source⟩ := head
    simp only [discoverySources, integerBetween, bind_ok, require_ok, exists_const] at h
    obtain ⟨-, -, hordinal, -, hrest⟩ := h
    rw [List.forall_mem_cons]
    exact ⟨hordinal.1, ih hrest⟩

theorem discoveryPlan_ok {p : DiscoveryProjection} (h : discoveryPlan P p = .ok ()) :
    Sourced p.plan ∧ (p.plan.round = 1 → discoverySeedDigest P = .ok p.plan.frontierDigest) := by
  simp only [discoveryPlan, integerBetween, bind_ok, require_ok, exists_const] at h
  obtain ⟨-, hround, -, -, ⟨hactions, -⟩, ⟨hsources, hordinals⟩, _, hloop,
    hseed⟩ := h
  refine ⟨⟨hround.1, hactions.symm, by omega, ?_⟩, ?_⟩
  · intro source hsource
    obtain ⟨i, hi, rfl⟩ := List.getElem_of_mem hsource
    apply discoverySources_ok hloop (p.ordinals[i], p.plan.sources[i])
    rw [List.mem_iff_getElem]
    exact ⟨i, by simp [hi, hordinals], by simp⟩
  · intro hone
    rw [if_pos hone] at hseed
    simp only [bind_ok, require_ok] at hseed
    obtain ⟨seeds, hdigest, -, heq, -⟩ := hseed
    rw [hdigest, heq]

theorem referencedCandidate_ok {id : String} {n : Int} {source : RoundSource} {action : RoundAction}
    {item : Int × Candidate} (hordinal : 0 ≤ source.sourceOrdinal)
    (h : referencedCandidate db id n source action = .ok item) :
    item.1 = source.round ∧ Recorded db id n source action item.2 := by
  unfold referencedCandidate at h
  dsimp only at h
  split at h
  · cases h
  · rename_i candidate hfound
    simp only [bind_ok, require_ok, exists_const, pure, Except.pure, Except.ok.injEq] at h
    obtain ⟨⟨hsame, hless⟩, rfl⟩ := h
    split at hfound
    · rename_i hearlier
      refine ⟨rfl, hearlier, ?_, hsame, hordinal, ?_⟩
      · cases hreport : db.reports.find? fun r =>
            r.authorizationId = id ∧ r.round = source.round with
        | none =>
          rw [hreport] at hfound
          cases hfound
        | some report =>
          rw [hreport] at hfound
          exact ⟨report, rfl, hfound⟩
      · cases hrow : db.rounds.find? fun r =>
            r.authorizationId = id ∧ r.round = source.round with
        | none =>
          rw [hrow] at hless
          simp only [Option.map_none, Option.getD_none] at hless
          omega
        | some r =>
          rw [hrow] at hless
          have hspec := List.find?_some hrow
          simp only [decide_eq_true_eq] at hspec
          exact ⟨r, List.mem_of_find?_eq_some hrow, hspec.1, hspec.2, hless⟩
    · cases hfound

theorem frontierChecks_ok {plan : RoundPlan} (hplan : Sourced plan)
    (hseeds : plan.round = 1 → discoverySeedDigest P = .ok plan.frontierDigest)
    (h : frontierChecks P plan db = .ok ()) :
    (plan.round = 1 → Seeded P plan) ∧
      (1 < plan.round → ∃ referenced, Frontier P db plan referenced) := by
  have hordinal : ∀ p ∈ plan.sourced, 0 ≤ p.1.sourceOrdinal := by
    intro p hp
    exact hplan.ordinals p.1 (List.of_mem_zip hp).1
  unfold frontierChecks at h
  split at h
  · rename_i hone
    rw [require_ok] at h
    obtain ⟨hperm, hnamed⟩ := h
    refine ⟨fun _ => ⟨hperm, fun p hp => ?_, hseeds hone⟩, fun hlate => by omega⟩
    exact ⟨(hnamed p hp).1, hordinal p hp, (hnamed p hp).2⟩
  · rename_i hone
    refine ⟨fun h => absurd h hone, fun _ => ?_⟩
    simp only [bind_ok, require_ok] at h
    obtain ⟨referenced, hreferenced, digest, hdigest, rfl⟩ := h
    refine ⟨referenced, ?_, hdigest⟩
    rw [mapM_ok] at hreferenced
    have hboth := (List.forall₂_and_left plan.sourced referenced).mpr ⟨hordinal, hreferenced⟩
    exact hboth.imp fun p item h => referencedCandidate_ok h.1 h.2

/-- What `discovery_frontier_digest` encodes. -/
def frontierJson (referenced : List (Int × Candidate)) : Json :=
  .arr (referenced.map fun item => .obj [("round", .int item.1), ("candidate", item.2.json)])

/-- A reference as the canonical encoding writes it. -/
def normalReference (P : Platform) (item : Int × Candidate) : Int × Candidate :=
  (item.1, { item.2 with routeTemplate := P.nfc item.2.routeTemplate })

/-- The digest of a text that is the text of these references and of no others. -/
def Commits (P : Platform) (digest : String) (referenced : List (Int × Candidate)) : Prop :=
  ∃ bytes, Json.canonicalBytes P (frontierJson referenced) = .ok bytes ∧ P.sha256 bytes = digest ∧
    ∀ others, Json.canonicalBytes P (frontierJson others) = .ok bytes →
      others.map (normalReference P) = referenced.map (normalReference P)

/-- What is assumed of NFC here: ASCII text is in normal form. -/
def AsciiNormal (P : Platform) : Prop :=
  ∀ s : String, s.toList.all (fun c => c.toNat < 128) = true → P.nfc s = s

theorem Method.name_inj {m n : Method} (h : m.name = n.name) : m = n := by
  cases m <;> cases n <;> first | rfl | exact absurd h (by decide)

theorem ProvenanceKind.name_inj {k l : ProvenanceKind} (h : k.name = l.name) : k = l := by
  cases k <;> cases l <;> first | rfl | exact absurd h (by decide)

theorem Method.name_normal (hP : AsciiNormal P) (m : Method) : P.nfc m.name = m.name := by
  apply hP
  cases m <;> decide

theorem ProvenanceKind.name_normal (hP : AsciiNormal P) (k : ProvenanceKind) :
    P.nfc k.name = k.name := by
  apply hP
  cases k <;> decide

section Text
open Json

/-- References of one text are the same, up to the normal form of their templates. -/
theorem reference_of_text (hP : AsciiNormal P) {item other : Int × Candidate} {v w : Json}
    (hv : normalize P 1 (.obj [("round", .int item.1), ("candidate", item.2.json)]) = .ok v)
    (hw : normalize P 1 (.obj [("round", .int other.1), ("candidate", other.2.json)]) = .ok w)
    (htext : dumps v = dumps w) : normalReference P item = normalReference P other := by
  obtain ⟨out, hout, rfl⟩ := normalize_obj_ok hv
  obtain ⟨out', hout', rfl⟩ := normalize_obj_ok hw
  have hround : item.1 = other.1 :=
    member_int hout hout' htext (List.mem_cons_self ..) (List.mem_cons_self ..)
  obtain ⟨a, b, ha, hb, hab⟩ := member_text hout hout' htext
    (List.mem_cons_of_mem _ (List.mem_singleton.mpr rfl))
    (List.mem_cons_of_mem _ (List.mem_singleton.mpr rfl))
  obtain ⟨inner, hinner, rfl⟩ := normalize_obj_ok ha
  obtain ⟨inner', hinner', rfl⟩ := normalize_obj_ok hb
  have hmethod : item.2.method = other.2.method := by
    have hname : P.nfc item.2.method.name = P.nfc other.2.method.name :=
      member_str (k := "method") hinner hinner' hab (by simp) (by simp)
    rw [Method.name_normal hP, Method.name_normal hP] at hname
    exact Method.name_inj hname
  have htemplate : P.nfc item.2.routeTemplate = P.nfc other.2.routeTemplate :=
    member_str (k := "route_template") hinner hinner' hab (by simp) (by simp)
  have hkind : item.2.provenanceKind = other.2.provenanceKind := by
    have hname : P.nfc item.2.provenanceKind.name = P.nfc other.2.provenanceKind.name :=
      member_str (k := "provenance_kind") hinner hinner' hab (by simp) (by simp)
    rw [ProvenanceKind.name_normal hP, ProvenanceKind.name_normal hP] at hname
    exact ProvenanceKind.name_inj hname
  have hordinal : item.2.sourceOrdinal = other.2.sourceOrdinal :=
    member_int (k := "source_ordinal") hinner hinner' hab (by simp) (by simp)
  have hstatus : item.2.statusCode = other.2.statusCode :=
    member_int (k := "status_code") hinner hinner' hab (by simp) (by simp)
  simp only [normalReference, hround, hmethod, htemplate, hkind, hordinal, hstatus]

theorem references_of_texts (hP : AsciiNormal P) {referenced others : List (Int × Candidate)}
    {outs outs' : List Json}
    (h : List.Forall₂ (fun item v =>
      normalize P 1 (.obj [("round", .int item.1), ("candidate", item.2.json)]) = .ok v)
      referenced outs)
    (h' : List.Forall₂ (fun item v =>
      normalize P 1 (.obj [("round", .int item.1), ("candidate", item.2.json)]) = .ok v)
      others outs') (htext : outs.map dumps = outs'.map dumps) :
    others.map (normalReference P) = referenced.map (normalReference P) := by
  induction h generalizing others outs' with
  | nil =>
    cases h' with
    | nil => rfl
    | cons => cases htext
  | cons hv _ ih =>
    cases h' with
    | nil => cases htext
    | cons hw hrest =>
      simp only [List.map_cons, List.cons.injEq] at htext ⊢
      exact ⟨(reference_of_text hP hv hw htext.1).symm, ih hrest htext.2⟩

theorem commits_of_digest (hP : AsciiNormal P) {referenced : List (Int × Candidate)}
    {digest : String} (h : discoveryFrontierDigest P referenced = .ok digest) :
    Commits P digest referenced := by
  have harr : ∀ items bytes, canonicalBytes P (frontierJson items) = .ok bytes →
      ∃ outs, List.Forall₂ (fun (item : Int × Candidate) v =>
        normalize P 1 (.obj [("round", .int item.1), ("candidate", item.2.json)]) = .ok v)
        items outs ∧ dumps (.arr outs) = bytes := by
    intro items bytes hbytes
    unfold canonicalBytes at hbytes
    split at hbytes
    · rename_i v hv
      cases hbytes
      simp only [frontierJson, Json.normalize, bind_ok, require_ok, exists_const, pure, Except.pure,
        Except.ok.injEq] at hv
      obtain ⟨-, outs, houts, rfl⟩ := hv
      exact ⟨outs, List.forall₂_map_left_iff.mp (normalizeItems_ok houts), rfl⟩
    · cases hbytes
  have hdigest : canonicalDigest P (frontierJson referenced) = .ok digest := h
  simp only [canonicalDigest, bind_ok, pure, Except.pure, Except.ok.injEq] at hdigest
  obtain ⟨bytes, hbytes, hsha⟩ := hdigest
  refine ⟨bytes, hbytes, hsha, fun others hothers => ?_⟩
  obtain ⟨outs, houts, htext⟩ := harr referenced bytes hbytes
  obtain ⟨outs', houts', htext'⟩ := harr others bytes hothers
  apply references_of_texts hP houts houts'
  apply arr_text_iff.mp
  exact htext.trans htext'.symm

end Text

end Heel.Cloud
