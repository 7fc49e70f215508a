import Heel.Runner.PlanPrepare

/-! What `_prepare` makes of a planned inventory: the pairs up to the budget in the planned order,
the rest over the budget, and a digest that the order of the inputs does not change. -/
namespace Heel.PlanPrepare
open Lib Lib.JsonText Lib.Checks Routes PlanPairs
variable {S S' : Surroundings} {q q' : Request} {bind : Bool} {only : Option (Text × Text)}
  {p p' : Plan}

theorem pairOf_planned {x : Planned} {pair : Pair} (h : pairOf S x = .ok pair) :
    pair.planned = x := by
  simp only [pairOf, bind_ok, pure, Except.pure, Except.ok.injEq] at h
  obtain ⟨digest, -, rfl⟩ := h
  rfl

theorem pairs_planned {planned : List Planned} {pairs : List Pair}
    (h : planned.mapM (pairOf S) = .ok pairs) : pairs.map Pair.planned = planned := by
  have hall := mapM_ok.mp h
  induction hall with
  | nil => rfl
  | cons hx _ ih => rw [List.map_cons, pairOf_planned hx, ih (mapM_ok.mpr ‹_›)]

theorem pairs_chosen {planned : List Planned} {pairs : List Pair} (f : Planned → Bool)
    (h : planned.mapM (pairOf S) = .ok pairs) :
    (planned.filter f).mapM (pairOf S) = .ok (pairs.filter fun pair => f pair.planned) := by
  rw [mapM_ok] at h ⊢
  induction h with
  | nil => exact .nil
  | @cons x pair _ _ hx _ ih =>
    rw [List.filter_cons, List.filter_cons, pairOf_planned hx]
    split
    · exact .cons hx ih
    · exact ih

/-- A plan with the digest of another that is the same otherwise. -/
structure Plan.Digests (S : Surroundings) (plan p : Plan) : Prop where
  scopeId : p.scopeId = plan.scopeId
  origin : p.origin = plan.origin
  identities : p.identities = plan.identities
  inventory : p.inventory = plan.inventory
  pairs : p.pairs = plan.pairs
  notExecuted : p.notExecuted = plan.notExecuted
  effectiveMaxOps : p.effectiveMaxOps = plan.effectiveMaxOps
  digest : p.digested.sha256 S = .ok p.planSha256

theorem digestPlan_ok {plan : Plan} (h : digestPlan S plan = .ok p) : plan.Digests S p := by
  simp only [digestPlan, bind_ok, pure, Except.pure, Except.ok.injEq] at h
  obtain ⟨digest, hdigest, rfl⟩ := h
  exact ⟨rfl, rfl, rfl, rfl, rfl, rfl, rfl, hdigest⟩

def setupOf (S : Surroundings) (bind : Bool) (scope : Scope) (origin host : Text)
    (arguments : List (Text × Text)) : Option SetupStore × ContextState :=
  if (S.setupStore origin host false).2 = .unbound ∧ scope.lists host = true ∧ bind = true ∧
      arguments = [] then S.setupStore origin host true
  else S.setupStore origin host false

/-- What a plan is made from before its store is read. -/
structure Start (S : Surroundings) (q : Request) (p : Plan) where
  host : Text
  maxOps : ℤ
  arguments : List (Text × Text)
  scope : Scope
  isOrigin : originOf S q.baseUrl = .ok (p.origin, host)
  isMax : maxOpsOf q.maxOps = .ok maxOps
  isArguments : planArguments q.plans = .ok arguments
  isScope : verifiedScope S q.scopeId = .ok scope
  isEffective : effectiveMaxOps S scope maxOps q.scopeId = .ok p.effectiveMaxOps
  isScopeId : p.scopeId = q.scopeId
  digest : p.digested.sha256 S = .ok p.planSha256

/-- A plan without identities executes nothing and leaves nothing. -/
structure Plan.Idle (p : Plan) : Prop where
  identities : p.identities = []
  pairs : p.pairs = []
  notExecuted : p.notExecuted = []

structure Plan.CutFrom (S : Surroundings) (only : Option (Text × Text)) (planned : List Planned)
    (skipped : List NotExecuted) (p : Plan) : Prop where
  pairs : ∃ pairs, (chosen only planned skipped).1.mapM (pairOf S) = .ok pairs ∧
    p.pairs = pairs.take (p.effectiveMaxOps / 2).toNat
  notExecuted : p.notExecuted = (chosen only planned skipped).2 ++
    ((chosen only planned skipped).1.drop (p.effectiveMaxOps / 2).toNat).map overBudget

inductive Plan.Read (S : Surroundings) (q : Request) (only : Option (Text × Text))
    (arguments : List (Text × Text)) (p : Plan) : Option SetupStore → Prop where
  | closed (hidle : p.Idle) (hinventory : p.inventory = none) : Read S q only arguments p none
  | unread {store : SetupStore} (hidle : p.Idle) (hinventory : p.inventory = none) :
    Read S q only arguments p (some store)
  | idle {store : SetupStore} {planned : List Planned} {skipped : List NotExecuted}
    {inventory : Inventory}
    (hread : readPlan S store q.routesArtifact = .ok (planned, skipped, inventory))
    (harguments : arguments = []) (hidle : p.Idle) (hinventory : p.inventory = some inventory) :
    Read S q only arguments p (some store)
  | cut {store : SetupStore} {planned : List Planned} {skipped : List NotExecuted}
    {inventory : Inventory}
    (hread : readPlan S store q.routesArtifact = .ok (planned, skipped, inventory))
    (harguments : arguments ≠ [])
      (hidentities : resolveIdentities store arguments = .ok p.identities)
    (hcut : p.CutFrom S only planned skipped) (hinventory : p.inventory = some inventory) :
    Read S q only arguments p (some store)

theorem resolveIdentities_ne {store : SetupStore} {arguments : List (Text × Text)}
    {identities : List Identity} (h : resolveIdentities store arguments = .ok identities) :
    identities ≠ [] := by
  simp only [resolveIdentities, bind_ok, require_ok, pure, Except.pure, Except.ok.injEq] at h
  obtain ⟨records, -, found, -, -, hsize, rfl⟩ := h
  rintro rfl
  exact absurd hsize (by decide)

theorem prepare_ok (h : prepare S q bind only = .ok p) : ∃ start : Start S q p,
    p.Read S q only start.arguments
      (setupOf S bind start.scope p.origin start.host start.arguments).1 := by
  simp only [prepare, bind_ok, require_ok] at h
  obtain ⟨_, -, ⟨origin, host⟩, horigin, maxOps, hmax, arguments, harguments, -, -, scope, hscope,
    effective, heffective, h⟩ := h
  rw [show (if (S.setupStore origin host false).2 = .unbound ∧
      scope.lists host = true ∧ bind = true ∧
      arguments = [] then S.setupStore origin host true else S.setupStore origin host false) =
      setupOf S bind scope origin host arguments from rfl] at h
  have hstart : ∀ {plan : Plan}, plan.Digests S p → plan.origin = origin →
      plan.effectiveMaxOps = effective → plan.scopeId = q.scopeId → ∃ start : Start S q p,
        start.arguments = arguments ∧
          setupOf S bind start.scope p.origin start.host start.arguments =
            setupOf S bind scope origin host arguments := by
    intro plan hp ho he hid
    have hpo : p.origin = origin := hp.origin.trans ho
    have hpe : p.effectiveMaxOps = effective := hp.effectiveMaxOps.trans he
    refine ⟨{ host, maxOps, arguments, scope, isOrigin := hpo ▸ horigin, isMax := hmax
              isArguments := harguments, isScope := hscope, isEffective := hpe ▸ heffective
              isScopeId := hp.scopeId.trans hid, digest := hp.digest }, rfl, ?_⟩
    exact congrArg (fun o => setupOf S bind scope o host arguments) hpo
  split at h
  · next hsetup =>
    simp only [bind_ok, require_ok] at h
    obtain ⟨-, -, h⟩ := h
    have hp := digestPlan_ok h
    obtain ⟨start, hargs, hstore⟩ := hstart hp rfl rfl rfl
    refine ⟨start, ?_⟩
    rw [hstore, hsetup]
    exact .closed ⟨hp.identities, hp.pairs, hp.notExecuted⟩ hp.inventory
  · next store hsetup =>
    simp only [bind_ok] at h
    obtain ⟨identities, hidentities, h⟩ := h
    have hcases : (arguments = [] ∧ identities = []) ∨ (arguments ≠ [] ∧ identities ≠ [] ∧
        resolveIdentities store arguments = .ok identities) := by
      unfold identitiesOf at hidentities
      split at hidentities
      · next hargs =>
        cases hidentities
        exact .inl ⟨hargs, rfl⟩
      · next hargs => exact .inr ⟨hargs, resolveIdentities_ne hidentities, hidentities⟩
    split at h
    · simp only [bind_ok, require_ok] at h
      obtain ⟨-, ⟨-, hnone⟩, h⟩ := h
      have hp := digestPlan_ok h
      obtain ⟨start, hargs, hstore⟩ := hstart hp rfl rfl rfl
      refine ⟨start, ?_⟩
      rw [hstore, hsetup]
      exact .unread ⟨hp.identities.trans hnone, hp.pairs, hp.notExecuted⟩ hp.inventory
    · next planned skipped inventory hread =>
      split at h
      · next hnone =>
        have hp := digestPlan_ok h
        obtain ⟨start, hargs, hstore⟩ := hstart hp rfl rfl rfl
        refine ⟨start, ?_⟩
        rw [hstore, hsetup, hargs]
        obtain ⟨hargs', -⟩ | ⟨-, hne, -⟩ := hcases
        · exact .idle hread hargs' ⟨hp.identities.trans hnone, hp.pairs, hp.notExecuted⟩
            hp.inventory
        · exact absurd hnone hne
      · next hne =>
        simp only [bind_ok] at h
        obtain ⟨pairs, hpairs, h⟩ := h
        obtain ⟨hargs', -, hresolve⟩ := hcases.resolve_left fun hnone => hne hnone.2
        have hp := digestPlan_ok h
        obtain ⟨start, hargs, hstore⟩ := hstart hp rfl rfl rfl
        refine ⟨start, ?_⟩
        rw [hstore, hsetup, hargs]
        have heffective' : p.effectiveMaxOps = effective := hp.effectiveMaxOps
        cases only with
        | none =>
          refine .cut hread hargs' (hp.identities ▸ hresolve) ⟨⟨pairs, hpairs, ?_⟩, ?_⟩ hp.inventory
          · rw [heffective']
            exact hp.pairs
          · rw [heffective', hp.notExecuted, chosen, ← pairs_planned hpairs, ← List.map_drop,
              List.map_map]
            rfl
        | some route =>
          have hchosen := pairs_chosen (fun x => x.route = route) hpairs
          refine .cut hread hargs' (hp.identities ▸ hresolve) ⟨⟨_, hchosen, ?_⟩, ?_⟩ hp.inventory
          · rw [heffective']
            exact hp.pairs
          · rw [heffective', hp.notExecuted, chosen, ← pairs_planned hchosen, ← List.map_drop,
              List.map_map]
            rfl

end Heel.PlanPrepare
