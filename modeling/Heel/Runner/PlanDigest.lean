import Heel.Runner.PlainJson
import Heel.Runner.PlanCut
import Heel.Saas.GuardAgreement
import Mathlib.Data.Option.Basic

/-! The digest of a plan depends on its inputs as sets: the rows of the inventory, the bindings of
the mapping, the mappings, the credentials, the allowlist and the plans may stand in any order. -/
namespace Heel.PlanPrepare
open Lib Lib.JsonText Lib.Checks Routes PlanPairs
variable {S S' : Surroundings} {q q' : Request} {bind : Bool} {only : Option (Text × Text)}
  {p p' : Plan}

/-! ### The same inputs -/

/-- Equal values, or lists of the same items. -/
def SameItems (v v' : Value) : Prop :=
  v = v' ∨ ∃ items items', v = .arr items ∧ v' = .arr items' ∧ ∀ x, x ∈ items ↔ x ∈ items'

structure SameMapping (m m' : Value) : Prop where
  scenario : part m "scenario_id" = part m' "scenario_id"
  method : part m "method" = part m' "method"
  template : part m "route_template" = part m' "route_template"
  bindings : SameItems (part m "fixture_bindings") (part m' "fixture_bindings")

structure SameInventory (v v' : Value) : Prop where
  digest : part (part v "inventory") "source_digest" = part (part v' "inventory") "source_digest"
  routes : SameItems (part (part v "inventory") "routes") (part (part v' "inventory") "routes")

structure SameStore (s s' : SetupStore) : Prop where
  credentials : ∀ cs cs', s.credentials = .ok cs → s'.credentials = .ok cs' → ∀ c, c ∈ cs ↔ c ∈ cs'
  mappings : ∀ ms ms', s.mappingRecords = .ok ms → s'.mappingRecords = .ok ms' →
    (∀ m ∈ ms, ∃ m' ∈ ms', SameMapping m m') ∧ ∀ m' ∈ ms', ∃ m ∈ ms, SameMapping m m'
  routesFile : Option.Rel SameInventory s.routesFile s'.routesFile

structure SameScope (s s' : Scope) : Prop where
  allowlist : SameItems s.targetAllowlist s'.targetAllowlist
  limits : s.rateAndResourceLimits = s'.rateAndResourceLimits

structure SameSurroundings (S S' : Surroundings) : Prop where
  nfc : S'.nfc = S.nfc
  platform : S'.platform = S.platform
  host : S'.host = S.host
  scope : ∀ scopeId, Option.Rel SameScope (S.scope scopeId) (S'.scope scopeId)
  runCount : S'.scopeRunCount = S.scopeRunCount
  stores : ∀ origin host bind, Option.Rel SameStore (S.setupStore origin host bind).1
    (S'.setupStore origin host bind).1
  states : ∀ origin host bind, (S'.setupStore origin host bind).2 =
    (S.setupStore origin host bind).2

structure SameRequest (q q' : Request) : Prop where
  scopeId : q'.scopeId = q.scopeId
  baseUrl : q'.baseUrl = q.baseUrl
  maxOps : q'.maxOps = q.maxOps
  plans : SameItems q.plans q'.plans
  routesArtifact : Option.Rel SameInventory q.routesArtifact q'.routesArtifact

theorem SameItems.arr {items items' : List Value} (h : SameItems (.arr items) (.arr items')) :
    ∀ x, x ∈ items ↔ x ∈ items' := by
  obtain h | ⟨_, _, h, h', hsame⟩ := h
  · cases h
    exact fun x => Iff.rfl
  · cases h
    cases h'
    exact hsame

theorem SameScope.lists {s s' : Scope} (h : SameScope s s') (host : Text) :
    s'.lists host = s.lists host := by
  obtain h | ⟨entries, entries', he, he', hsame⟩ := h.allowlist
  · simp only [Scope.lists, h]
  · simp only [Scope.lists, he, he']
    congr 1
    rw [Bool.eq_iff_iff, List.any_eq_true, List.any_eq_true]
    simp only [hsame]

/-! ### The planner -/

/-- Planned alike, with the bindings in another order. -/
structure SamePlanned (x x' : Planned) : Prop where
  route : x'.route = x.route
  bindings : x.fixtureBindings.Perm x'.fixtureBindings
  names : (x.fixtureBindings.map Prod.fst).Nodup

structure SameBound (m m' : Mapping) : Prop where
  method : m'.method = m.method
  template : m'.routeTemplate = m.routeTemplate
  bindings : m.bindings.Perm m'.bindings
  names : (m.bindings.map Prod.fst).Nodup

theorem readMapping_parts {v : Value} {m : Mapping} (h : readMapping v = .ok m) :
    m.method = part v "method" ∧ m.routeTemplate = part v "route_template" ∧
      ∃ items, part v "fixture_bindings" = .arr items ∧
        readAll readBinding Prod.fst invalidMapping [] items = .ok m.bindings := by
  cases v with
  | obj fields =>
    simp only [readMapping, bind_ok, require_ok] at h
    obtain ⟨-, -, h⟩ := h
    split at h
    · next items hitems =>
      simp only [bind_ok, pure, Except.pure, Except.ok.injEq] at h
      obtain ⟨bindings, hread, rfl⟩ := h
      exact ⟨rfl, rfl, items, hitems, hread⟩
    · cases h
  | _ => cases h

theorem same_readMapping {v v' : Value} {m m' : Mapping} (hsame : SameMapping v v')
    (h : readMapping v = .ok m) (h' : readMapping v' = .ok m') : SameBound m m' := by
  obtain ⟨hmethod, htemplate, items, hitems, hread⟩ := readMapping_parts h
  obtain ⟨hmethod', htemplate', items', hitems', hread'⟩ := readMapping_parts h'
  have hbindings := hsame.bindings
  rw [hitems, hitems'] at hbindings
  exact ⟨by rw [hmethod, hmethod', hsame.method], by rw [htemplate, htemplate', hsame.template],
    readAll_same hbindings.arr hread hread', (readAll_nil.mp hread).1⟩

theorem same_mappingOf {v v' : Option Value} {m m' : Option Mapping}
    (hsame : Option.Rel SameMapping v v') (h : mappingOf v = .ok m) (h' : mappingOf v' = .ok m') :
    Option.Rel SameBound m m' := by
  cases hsame with
  | none =>
    cases h
    cases h'
    exact .none
  | some hsame =>
    simp only [mappingOf, bind_ok, pure, Except.pure, Except.ok.injEq] at h h'
    obtain ⟨m, h, rfl⟩ := h
    obtain ⟨m', h', rfl⟩ := h'
    exact .some (same_readMapping hsame h h')

theorem sorted_names {names names' : List Text} (h : names.Perm names') :
    names.mergeSort textOrder = names'.mergeSort textOrder := by
  have hsorted : sortBy id names = sortBy id names' :=
    sortBy_eq_of_perm (fun _ _ _ _ hkey => hkey) h
  exact hsorted

theorem SameBound.binds {m m' : Mapping} (h : SameBound m m') (r : Record) :
    m'.Binds r ↔ m.Binds r := by
  unfold Mapping.Binds
  rw [h.method, h.template, sorted_names (h.bindings.map Prod.fst)]

theorem same_bindingsFor {m m' : Option Mapping} (h : Option.Rel SameBound m m') (r : Record) :
    Option.Rel (fun bs bs' : List (Text × Text) => bs.Perm bs' ∧ (bs.map Prod.fst).Nodup)
      (bindingsFor m r) (bindingsFor m' r) := by
  unfold bindingsFor
  by_cases hnone : r.placeholders = []
  · rw [if_pos hnone, if_pos hnone]
    exact .some ⟨.refl _, .nil⟩
  · rw [if_neg hnone, if_neg hnone]
    cases h with
    | none => exact .none
    | @some m m' h =>
      dsimp only
      by_cases hbinds : m.Binds r
      · rw [if_pos hbinds, if_pos ((h.binds r).mpr hbinds)]
        exact .some ⟨h.bindings, h.names⟩
      · rw [if_neg hbinds, if_neg (mt (h.binds r).mp hbinds)]
        exact .none

theorem same_classify {m m' : Option Mapping} (h : Option.Rel SameBound m m')
    (records : List Record) :
    List.Forall₂ SamePlanned (classify m records).1 (classify m' records).1 ∧
      (classify m' records).2 = (classify m records).2 := by
  induction records with
  | nil => exact ⟨.nil, rfl⟩
  | cons r rest ih =>
    have hbindings := same_bindingsFor h r
    simp only [classify]
    generalize bindingsFor m r = bs at hbindings ⊢
    generalize bindingsFor m' r = bs' at hbindings ⊢
    cases hbindings with
    | none => exact ⟨ih.1, by rw [ih.2]⟩
    | some hperm => exact ⟨.cons ⟨rfl, hperm.1, hperm.2⟩ ih.1, ih.2⟩

theorem same_pairs {nfc : Text → Text} {routes routes' : Value} {mapping mapping' : Option Value}
    {planned planned' : List Planned} {skipped skipped' : List NotExecuted}
    (hroutes : SameItems routes routes') (hmapping : Option.Rel SameMapping mapping mapping')
    (h : planDifferentialPairs nfc routes mapping = .ok (planned, skipped))
    (h' : planDifferentialPairs nfc routes' mapping' = .ok (planned', skipped')) :
    List.Forall₂ SamePlanned planned planned' := by
  obtain ⟨entries, m, records, rfl, -, hm, hrecords, hout⟩ := planDifferentialPairs_ok.mp h
  obtain ⟨entries', m', records', rfl, -, hm', hrecords', hout'⟩ := planDifferentialPairs_ok.mp h'
  have hsort := sort_records (readAll_same hroutes.arr hrecords hrecords')
    (readAll_nil.mp hrecords).1
  have hclassify := (same_classify (same_mappingOf hmapping hm hm') (sortBy Record.key records)).1
  rw [← hout, hsort, ← hout'] at hclassify
  exact hclassify

/-! ### The store -/

theorem inventoryLocked_parts {store : SetupStore} {v : Value} {inventory : Inventory}
    (h : inventoryLocked S store v = .ok inventory) :
    part (part v "inventory") "source_digest" = .str inventory.sourceDigest ∧
      (∃ items, part (part v "inventory") "routes" = .arr items ∧
        List.Forall₂ (fun e r => routeRecord S e = .ok r) items inventory.routes) ∧
      inventory.routes = sortBy Record.key inventory.routes := by
  simp only [inventoryLocked, SetupStore.validateEnvelope, bind_ok, valueOr_ok, require_ok, pure,
    Except.pure, Except.ok.injEq] at h
  obtain ⟨_, ⟨outer, houter, -, -, rfl⟩, inner, hinner, digest, hdigest, -, -, h⟩ := h
  have hfields : ∀ {names : List Text} {v : Value} {fields : List (Text × Value)},
      closedFields names v = some fields → v = .obj fields := by
    intro names v fields hv
    cases v with
    | obj fields' =>
      simp only [closedFields, Option.ite_none_right_eq_some, Option.some.injEq] at hv
      rw [hv.2]
    | _ => cases hv
  have hpart : part v "inventory" = .obj inner := by
    rw [hfields houter]
    exact hfields hinner
  rw [hpart]
  split at h
  · next items hitems =>
    simp only [bind_ok, require_ok, Except.ok.injEq] at h
    obtain ⟨-, -, routes, hroutes, -, hsorted, rfl⟩ := h
    refine ⟨?_, ⟨items, hitems, mapM_ok.mp hroutes⟩, hsorted⟩
    show member inner "source_digest" = .str digest
    cases hvalue : member inner "source_digest" with
    | str s =>
      rw [hvalue] at hdigest
      cases hdigest
      rfl
    | _ =>
      rw [hvalue] at hdigest
      cases hdigest
  · cases h

theorem routeRecord_same (h : SameSurroundings S S') : routeRecord S' = routeRecord S := by
  funext v
  simp only [routeRecord, h.nfc]

theorem same_inventory {store store' : SetupStore} {v v' : Value} {inventory inventory' : Inventory}
    (hS : SameSurroundings S S') (hsame : SameInventory v v')
    (h : inventoryLocked S store v = .ok inventory)
    (h' : inventoryLocked S' store' v' = .ok inventory') :
    inventory'.sourceDigest = inventory.sourceDigest ∧
      ∀ r, r ∈ inventory.routes ↔ r ∈ inventory'.routes := by
  obtain ⟨hdigest, ⟨items, hitems, hread⟩, -⟩ := inventoryLocked_parts h
  obtain ⟨hdigest', ⟨items', hitems', hread'⟩, -⟩ := inventoryLocked_parts h'
  have hroutes := hsame.routes
  rw [hitems, hitems'] at hroutes
  constructor
  · have hstr := hsame.digest
    rw [hdigest, hdigest', Value.str.injEq] at hstr
    exact hstr.symm
  · intro r
    rw [routeRecord_same hS] at hread'
    rw [mem_read hread, mem_read hread']
    simp only [hroutes.arr]

theorem same_routeInventory {store store' : SetupStore} {artifact artifact' : Option Value}
    {inventory inventory' : Inventory} (hS : SameSurroundings S S')
    (hstore : SameStore store store')
    (hsame : Option.Rel SameInventory artifact artifact')
    (h : routeInventory S store artifact = .ok inventory)
    (h' : routeInventory S' store' artifact' = .ok inventory') :
    inventory'.sourceDigest = inventory.sourceDigest ∧
      ∀ r, r ∈ inventory.routes ↔ r ∈ inventory'.routes := by
  simp only [routeInventory, bind_ok, valueOr_ok] at h h'
  obtain ⟨v, hv, h⟩ := h
  obtain ⟨v', hv', h'⟩ := h'
  have hvalue : SameInventory v v' := by
    cases hsame with
    | none =>
      rw [Option.none_or] at hv hv'
      have hfile := hstore.routesFile
      rw [hv, hv'] at hfile
      cases hfile with
      | some hfile => exact hfile
    | some hsame =>
      rw [Option.some_or, Option.some.injEq] at hv hv'
      exact hv ▸ hv' ▸ hsame
  exact same_inventory hS hvalue h h'

/-- Records with ordinals of their own: one at most has a scenario. -/
theorem listMappings_unique {store : SetupStore} {ms : List Value} (h : listMappings store = .ok ms)
    {m m' : Value} (hm : m ∈ ms) (hm' : m' ∈ ms)
    (hscenario : part m "scenario_id" = part m' "scenario_id") : m = m' := by
  simp only [listMappings, bind_ok, valueOr_ok, require_ok, pure, Except.pure, Except.ok.injEq] at h
  obtain ⟨records, -, -, -, ordinals, hordinals, -, hsorted, rfl⟩ := h
  have hall : records.map ordinalOf = ordinals.map some := by
    clear hsorted hm hm'
    induction records generalizing ordinals with
    | nil =>
      cases hordinals
      rfl
    | cons r rest ih =>
      simp only [List.mapM_cons, Option.bind_eq_bind, Option.bind_eq_some_iff, pure,
        Option.some.injEq] at hordinals
      obtain ⟨n, hn, ns, hns, rfl⟩ := hordinals
      rw [List.map_cons, List.map_cons, hn, ih ns hns]
  have hnodup : (records.map ordinalOf).Nodup := by
    rw [hall]
    exact (hsorted.imp fun h => ne_of_lt h).map _ fun _ _ hne => fun heq =>
      hne (Option.some.inj heq)
  apply List.inj_on_of_nodup_map hnodup hm hm'
  unfold ordinalOf
  rw [hscenario]

theorem same_mapping {store store' : SetupStore} {ms ms' : List Value}
    (hstore : SameStore store store')
    (h : listMappings store = .ok ms) (h' : listMappings store' = .ok ms') (scenario : Text) :
    Option.Rel SameMapping (ms.find? fun m => stringOf (part m "scenario_id") = some scenario)
      (ms'.find? fun m => stringOf (part m "scenario_id") = some scenario) := by
  have hrecords : ∀ {store : SetupStore} {ms : List Value}, listMappings store = .ok ms →
      store.mappingRecords = .ok ms := by
    intro store ms h
    simp only [listMappings, bind_ok, pure, Except.pure, Except.ok.injEq] at h
    obtain ⟨records, hok, -, -, -, -, -, -, rfl⟩ := h
    exact hok
  obtain ⟨hleft, hright⟩ := hstore.mappings ms ms' (hrecords h) (hrecords h')
  cases hfind : ms.find? fun m => stringOf (part m "scenario_id") = some scenario with
  | none =>
    rw [List.find?_eq_none] at hfind
    rw [List.find?_eq_none.mpr fun m' hm' => ?_]
    · exact .none
    · obtain ⟨m, hm, hsame⟩ := hright m' hm'
      rw [← hsame.scenario]
      exact hfind m hm
  | some m =>
    have hm := List.mem_of_find?_eq_some hfind
    have hscenario := List.find?_some hfind
    obtain ⟨m', hm', hsame⟩ := hleft m hm
    cases hfind' : ms'.find? fun m => stringOf (part m "scenario_id") = some scenario with
    | none =>
      rw [hsame.scenario] at hscenario
      exact absurd hscenario (List.find?_eq_none.mp hfind' m' hm')
    | some found =>
      have hfound := List.find?_some hfind'
      obtain ⟨m₂, hm₂, hsame₂⟩ := hright found (List.mem_of_find?_eq_some hfind')
      have htext : ∀ {v : Value} {t : Text}, stringOf v = some t → v = .str t := by
        intro v t hv
        cases v with
        | str s =>
          cases hv
          rfl
        | _ => cases hv
      rw [decide_eq_true_eq] at hscenario hfound
      have heq : m = m₂ := by
        apply listMappings_unique h hm hm₂
        rw [hsame₂.scenario, htext hscenario, htext hfound]
      exact .some (heq ▸ hsame₂)

theorem same_readPlan {store store' : SetupStore} {artifact artifact' : Option Value}
    {planned planned' : List Planned} {skipped skipped' : List NotExecuted}
    {inventory inventory' : Inventory} (hS : SameSurroundings S S')
      (hstore : SameStore store store')
    (hsame : Option.Rel SameInventory artifact artifact')
    (h : readPlan S store artifact = .ok (planned, skipped, inventory))
    (h' : readPlan S' store' artifact' = .ok (planned', skipped', inventory')) :
    List.Forall₂ SamePlanned planned planned' ∧ inventory'.sourceDigest =
        inventory.sourceDigest := by
  simp only [readPlan, bind_ok, pure, Except.pure, Except.ok.injEq, Prod.mk.injEq] at h h'
  obtain ⟨routes, hroutes, ms, hms, ⟨_, _⟩, hpairs, inv, hinventory, rfl, rfl, rfl⟩ := h
  obtain ⟨routes', hroutes', ms', hms', ⟨_, _⟩, hpairs', inv', hinventory', rfl, rfl, rfl⟩ := h'
  refine ⟨?_, (same_routeInventory hS hstore hsame hinventory hinventory').1⟩
  rw [hS.nfc] at hpairs'
  refine same_pairs ?_ (same_mapping hstore hms hms' _) hpairs hpairs'
  cases hsame with
  | none =>
    simp only [seenRoutes, bind_ok, pure, Except.pure, Except.ok.injEq] at hroutes hroutes'
    obtain ⟨first, hfirst, rfl⟩ := hroutes
    obtain ⟨first', hfirst', rfl⟩ := hroutes'
    have hmem := (same_routeInventory hS hstore .none hfirst hfirst').2
    refine .inr ⟨_, _, rfl, rfl, fun x => ?_⟩
    simp only [List.mem_map, hmem]
  | some hsame =>
    cases hroutes
    cases hroutes'
    exact hsame.routes

/-! ### The identities -/

theorem resolveIdentity_ok {records : List Credential} {argument : Text × Text} {role : Text}
    {i : Identity} (h : resolveIdentity records argument role = .ok i) :
    ∃ record ∈ records, record.credentialHandleId = argument.2 ∧ record.semanticRole = role ∧
      (∀ r ∈ records, r.credentialHandleId = argument.2 → r = record) ∧
      i = ⟨argument.1, role, argument.2, record⟩ := by
  unfold resolveIdentity at h
  split at h
  · next record hfilter =>
    simp only [bind_ok, require_ok, pure, Except.pure, Except.ok.injEq] at h
    obtain ⟨-, ⟨-, hrole⟩, rfl⟩ := h
    have hmem : ∀ r, (r ∈ records ∧ r.credentialHandleId = argument.2) ↔ r = record := by
      intro r
      have hfound : r ∈ records.filter
          (fun record => decide (record.credentialHandleId = argument.2)) ↔
          r = record := by
        rw [hfilter, List.mem_singleton]
      rwa [List.mem_filter, decide_eq_true_eq] at hfound
    obtain ⟨hrecord, hhandle⟩ := (hmem record).mpr rfl
    exact ⟨record, hrecord, hhandle, hrole, fun r hr hh => (hmem r).mp ⟨hr, hh⟩, rfl⟩
  · cases h

theorem resolveIdentity_record {records records' : List Credential} {argument : Text × Text}
    {role role' : Text} {i i' : Identity} (hsame : ∀ c, c ∈ records ↔ c ∈ records')
    (h : resolveIdentity records argument role = .ok i)
    (h' : resolveIdentity records' argument role' = .ok i') : i = i' ∧ role = role' := by
  obtain ⟨record, hmem, hhandle, rfl, -, rfl⟩ := resolveIdentity_ok h
  obtain ⟨record', -, -, rfl, hunique, rfl⟩ := resolveIdentity_ok h'
  obtain rfl := hunique record ((hsame record).mp hmem) hhandle
  exact ⟨rfl, rfl⟩

theorem resolveIdentities_ok {store : SetupStore} {arguments : List (Text × Text)}
    {identities : List Identity} (h : resolveIdentities store arguments = .ok identities) :
    ∃ records, store.credentials = .ok records ∧
      List.Forall₂ (fun x i => resolveIdentity records x.1 x.2 = .ok i) (arguments.zip roles)
        identities := by
  simp only [resolveIdentities, bind_ok, require_ok, pure, Except.pure, Except.ok.injEq] at h
  obtain ⟨records, hrecords, found, hfound, -, -, rfl⟩ := h
  exact ⟨records, hrecords, mapM_ok.mp hfound⟩

theorem same_identities {store store' : SetupStore} {arguments : List (Text × Text)}
    {identities identities' : List Identity} (hstore : SameStore store store')
    (h : resolveIdentities store arguments = .ok identities)
    (h' : resolveIdentities store' arguments = .ok identities') : identities = identities' := by
  obtain ⟨records, hrecords, hall⟩ := resolveIdentities_ok h
  obtain ⟨records', hrecords', hall'⟩ := resolveIdentities_ok h'
  have hsame := hstore.credentials records records' hrecords hrecords'
  clear h h'
  generalize arguments.zip roles = asked at hall hall'
  induction hall generalizing identities' with
  | nil =>
    cases hall'
    rfl
  | cons hi _ ih =>
    cases hall' with
    | cons hi' hall' => rw [(resolveIdentity_record hsame hi hi').1, ih hall']

theorem not_swapped {store store' : SetupStore} {a b : Text × Text}
    {identities identities' : List Identity}
    (hstore : SameStore store store') (h : resolveIdentities store [a, b] = .ok identities)
    (h' : resolveIdentities store' [b, a] = .ok identities') : False := by
  obtain ⟨records, hrecords, hall⟩ := resolveIdentities_ok h
  obtain ⟨records', hrecords', hall'⟩ := resolveIdentities_ok h'
  have hsame := hstore.credentials records records' hrecords hrecords'
  cases hall with
  | cons hi _ =>
    cases hall' with
    | cons _ hall' =>
      cases hall' with
      | cons hi' _ =>
        have hroles : points "lower_plan" = points "higher_plan" :=
          (resolveIdentity_record hsame hi hi').2
        exact absurd hroles (by decide)

theorem planArguments_ok {v : Value} {arguments : List (Text × Text)}
    (h : planArguments v = .ok arguments) :
    (v = .arr [] ∧ arguments = []) ∨ ∃ x y a b, v = .arr [x, y] ∧ readArgument x = .ok a ∧
      readArgument y = .ok b ∧ a ≠ b ∧ arguments = [a, b] := by
  cases v with
  | arr items =>
    simp only [planArguments, bind_ok] at h
    obtain ⟨result, hresult, h⟩ := h
    have hall := mapM_ok.mp hresult
    split at h
    · cases h
      cases hall
      exact .inl ⟨rfl, rfl⟩
    · next a b =>
      simp only [bind_ok, require_ok, pure, Except.pure, Except.ok.injEq] at h
      obtain ⟨-, ⟨hne, -⟩, rfl⟩ := h
      cases hall with
      | cons ha hall =>
        cases hall with
        | cons hb hall =>
          cases hall
          exact .inr ⟨_, _, a, b, rfl, ha, hb, fun heq => hne (congrArg Prod.fst heq), rfl⟩
    · cases h
  | _ => cases h

theorem same_arguments {v v' : Value} {arguments arguments' : List (Text × Text)}
    (hsame : SameItems v v')
    (h : planArguments v = .ok arguments) (h' : planArguments v' = .ok arguments') :
    arguments = arguments' ∨ ∃ a b, arguments = [a, b] ∧ arguments' = [b, a] := by
  obtain ⟨rfl, rfl⟩ | ⟨x, y, a, b, rfl, ha, hb, hab, rfl⟩ := planArguments_ok h
  · obtain ⟨rfl, rfl⟩ | ⟨x', _, _, _, rfl, -⟩ := planArguments_ok h'
    · exact .inl rfl
    · exact absurd ((hsame.arr x').mpr (.head _)) List.not_mem_nil
  · obtain ⟨rfl, rfl⟩ | ⟨x', y', a', b', rfl, ha', hb', hab', rfl⟩ := planArguments_ok h'
    · exact absurd ((hsame.arr x).mp (.head _)) List.not_mem_nil
    · have hmem := hsame.arr
      simp only [List.mem_cons, List.not_mem_nil, or_false] at hmem
      have hof : ∀ {u w : Value} {c d : Text × Text}, readArgument u = .ok c →
          readArgument w = .ok d →
          u = w → c = d := by
        rintro u _ c d hc hd rfl
        rw [hc] at hd
        exact Except.ok.inj hd
      obtain hx | hx := (hmem x).mp (.inl rfl)
      · obtain hy | hy := (hmem y).mp (.inr rfl)
        · exact absurd (hof ha hb (hx.trans hy.symm)) hab
        · exact .inl (by rw [hof ha ha' hx, hof hb hb' hy])
      · obtain hy | hy := (hmem y).mp (.inr rfl)
        · exact .inr ⟨a, b, rfl, by rw [hof ha hb' hx, hof hb ha' hy]⟩
        · exact absurd (hof ha hb (hx.trans hy.symm)) hab

theorem same_nil {arguments arguments' : List (Text × Text)}
    (h : arguments = arguments' ∨ ∃ a b, arguments = [a, b] ∧ arguments' = [b, a]) :
    arguments' = [] ↔ arguments = [] := by
  obtain rfl | ⟨a, b, rfl, rfl⟩ := h
  · rfl
  · simp

/-! ### The digest -/

def Pair.digested (pair : Pair) : Text × Text × String :=
  (pair.method, pair.routeTemplate, pair.bindingsSha256)

theorem canonicalDigest_same (hS : SameSurroundings S S') :
    canonicalDigest S' = canonicalDigest S := by
  funext v
  simp only [canonicalDigest, hS.platform]

theorem same_pairOf {x x' : Planned} {pair pair' : Pair} (hS : SameSurroundings S S')
    (hsame : SamePlanned x x') (h : pairOf S x = .ok pair) (h' : pairOf S' x' = .ok pair') :
    pair.digested = pair'.digested := by
  simp only [pairOf, bind_ok, pure, Except.pure, Except.ok.injEq] at h h'
  obtain ⟨digest, hdigest, rfl⟩ := h
  obtain ⟨digest', hdigest', rfl⟩ := h'
  have hsort : sortBy Prod.fst x'.fixtureBindings = sortBy Prod.fst x.fixtureBindings :=
    (sortBy_eq_of_perm (fun a ha b hb hkey => List.inj_on_of_nodup_map hsame.names ha hb hkey)
      hsame.bindings).symm
  have heq : bindingsSha256 S' x'.fixtureBindings = bindingsSha256 S x.fixtureBindings := by
    unfold bindingsSha256
    rw [canonicalDigest_same hS, hsort]
  rw [heq, hdigest] at hdigest'
  cases hdigest'
  have hmethod : x'.method = x.method := congrArg Prod.fst hsame.route
  have htemplate : x'.routeTemplate = x.routeTemplate := congrArg Prod.snd hsame.route
  simp only [Pair.digested, hmethod, htemplate]

theorem same_chosen {planned planned' : List Planned} {skipped skipped' : List NotExecuted}
    (h : List.Forall₂ SamePlanned planned planned') :
    List.Forall₂ SamePlanned (chosen only planned skipped).1 (chosen only planned' skipped').1 := by
  cases only with
  | none => exact h
  | some route =>
    simp only [chosen]
    induction h with
    | nil => exact .nil
    | @cons x x' _ _ hx _ ih =>
      rw [List.filter_cons, List.filter_cons, hx.route]
      split
      · exact .cons hx ih
      · exact ih

theorem same_digests {planned planned' : List Planned} {pairs pairs' : List Pair}
    (hS : SameSurroundings S S') (hsame : List.Forall₂ SamePlanned planned planned')
    (h : planned.mapM (pairOf S) = .ok pairs) (h' : planned'.mapM (pairOf S') = .ok pairs') :
    pairs.map Pair.digested = pairs'.map Pair.digested := by
  rw [mapM_ok] at h h'
  induction hsame generalizing pairs pairs' with
  | nil =>
    cases h
    cases h'
    rfl
  | cons hx _ ih =>
    cases h with
    | cons hpair h =>
      cases h' with
      | cons hpair' h' => rw [List.map_cons, List.map_cons, same_pairOf hS hx hpair hpair', ih h h']

theorem sha256_same (hS : SameSurroundings S S') (d : Digested) : d.sha256 S' = d.sha256 S := by
  unfold Digested.sha256
  rw [canonicalDigest_same hS]

theorem same_setupOf {scope scope' : Scope} {origin host : Text}
    {arguments arguments' : List (Text × Text)}
    (hS : SameSurroundings S S') (hscope : SameScope scope scope')
    (hnil : arguments' = [] ↔ arguments = []) :
    Option.Rel SameStore (setupOf S bind scope origin host arguments).1
      (setupOf S' bind scope' origin host arguments').1 := by
  unfold setupOf
  rw [hscope.lists, hS.states]
  by_cases hopen : (S.setupStore origin host false).2 = .unbound ∧ scope.lists host = true ∧
      bind = true ∧
      arguments = []
  · rw [if_pos hopen, if_pos ⟨hopen.1, hopen.2.1, hopen.2.2.1, hnil.mpr hopen.2.2.2⟩]
    exact hS.stores _ _ _
  · rw [if_neg hopen, if_neg fun h => hopen ⟨h.1, h.2.1, h.2.2.1, hnil.mp h.2.2.2⟩]
    exact hS.stores _ _ _

/-- What is read of the same inputs is digested alike, where both plans have an inventory or
neither. -/
theorem same_read {arguments arguments' : List (Text × Text)} {setup setup' : Option SetupStore}
    (hS : SameSurroundings S S') (hq : SameRequest q q')
    (harguments : arguments = arguments' ∨ ∃ a b, arguments = [a, b] ∧ arguments' = [b, a])
    (hsetup : Option.Rel SameStore setup setup')
      (heffective : p'.effectiveMaxOps = p.effectiveMaxOps)
    (hinventory : p'.inventory.isSome = p.inventory.isSome)
    (h : p.Read S q only arguments setup) (h' : p'.Read S' q' only arguments' setup') :
    p'.identities = p.identities ∧
      p'.inventory.map Inventory.sourceDigest = p.inventory.map Inventory.sourceDigest ∧
      p'.pairs.map Pair.digested = p.pairs.map Pair.digested := by
  have hidle : p.Idle → p'.Idle → p'.identities = p.identities ∧
      p'.pairs.map Pair.digested = p.pairs.map Pair.digested := by
    intro hp hp'
    rw [hp.identities, hp'.identities, hp.pairs, hp'.pairs]
    exact ⟨rfl, rfl⟩
  have hnil := same_nil harguments
  cases hsetup with
  | none =>
    cases h with
    | closed hp hnone =>
      cases h' with
      | closed hp' hnone' => exact ⟨(hidle hp hp').1, by rw [hnone, hnone'], (hidle hp hp').2⟩
  | some hstore =>
    cases h with
    | unread hp hnone =>
      cases h' with
      | unread hp' hnone' => exact ⟨(hidle hp hp').1, by rw [hnone, hnone'], (hidle hp hp').2⟩
      | idle _ _ _ hsome =>
        rw [hnone, hsome] at hinventory
        cases hinventory
      | cut _ _ _ _ hsome =>
        rw [hnone, hsome] at hinventory
        cases hinventory
    | idle hread hargs hp hsome =>
      cases h' with
      | unread _ hnone =>
        rw [hnone, hsome] at hinventory
        cases hinventory
      | idle hread' _ hp' hsome' =>
        have hdigest := (same_readPlan hS hstore hq.routesArtifact hread hread').2
        exact ⟨(hidle hp hp').1, by rw [hsome, hsome', Option.map_some, Option.map_some, hdigest],
          (hidle hp hp').2⟩
      | cut _ hargs' _ _ _ => exact absurd (hnil.mpr hargs) hargs'
    | cut hread hargs hidentities hcut hsome =>
      cases h' with
      | unread _ hnone =>
        rw [hnone, hsome] at hinventory
        cases hinventory
      | idle _ hargs' _ _ => exact absurd (hnil.mp hargs') hargs
      | cut hread' _ hidentities' hcut' hsome' =>
        obtain ⟨hplanned, hdigest⟩ := same_readPlan hS hstore hq.routesArtifact hread hread'
        obtain ⟨pairs, hpairs, htake⟩ := hcut.pairs
        obtain ⟨pairs', hpairs', htake'⟩ := hcut'.pairs
        have hdigested := same_digests hS (same_chosen hplanned) hpairs hpairs'
        obtain rfl | ⟨a, b, rfl, rfl⟩ := harguments
        · refine ⟨(same_identities hstore hidentities hidentities').symm, ?_, ?_⟩
          · rw [hsome, hsome', Option.map_some, Option.map_some, hdigest]
          · rw [htake, htake', heffective, List.map_take, List.map_take, hdigested]
        · exact (not_swapped hstore hidentities hidentities').elim

theorem same_sha256 (hS : SameSurroundings S S') (hq : SameRequest q q')
    (h : prepare S q bind only = .ok p) (h' : prepare S' q' bind only = .ok p')
    (hinventory : p'.inventory.isSome = p.inventory.isSome) : p'.planSha256 = p.planSha256 := by
  obtain ⟨start, hread⟩ := prepare_ok h
  obtain ⟨start', hread'⟩ := prepare_ok h'
  obtain ⟨horigin, hhost⟩ : p.origin = p'.origin ∧ start.host = start'.host := by
    have ho := start'.isOrigin
    rw [originOf, hS.host, hq.baseUrl, ← originOf, start.isOrigin, Except.ok.injEq,
      Prod.mk.injEq] at ho
    exact ho
  have hmax : start.maxOps = start'.maxOps := by
    have hm := start'.isMax
    rw [hq.maxOps, start.isMax, Except.ok.injEq] at hm
    exact hm
  have hscope : SameScope start.scope start'.scope := by
    have hs := start.isScope
    have hs' := start'.isScope
    simp only [verifiedScope, bind_ok, valueOr_ok] at hs hs'
    obtain ⟨-, -, hs⟩ := hs
    obtain ⟨-, -, hs'⟩ := hs'
    have hrel := hS.scope q.scopeId
    rw [hq.scopeId] at hs'
    rw [hs, hs'] at hrel
    cases hrel with
    | some hrel => exact hrel
  have heffective : p'.effectiveMaxOps = p.effectiveMaxOps := by
    have he := start'.isEffective
    rw [effectiveMaxOps, ← hscope.limits, hS.runCount, hq.scopeId, ← hmax, ← effectiveMaxOps,
      start.isEffective, Except.ok.injEq] at he
    exact he.symm
  have harguments := same_arguments hq.plans start.isArguments start'.isArguments
  have hnil := same_nil harguments
  rw [← horigin, ← hhost] at hread'
  obtain ⟨hidentities, hdigest, hpairs⟩ := same_read hS hq harguments
    (same_setupOf hS hscope hnil) heffective hinventory hread hread'
  have hdigested : p'.digested = p.digested := by
    simp only [Plan.digested, Digested.mk.injEq]
    exact ⟨horigin.symm, by rw [start.isScopeId, start'.isScopeId, hq.scopeId],
      hidentities, hdigest,
      hpairs, heffective⟩
  have hsha := start'.digest
  rw [hdigested, sha256_same hS, start.digest, Except.ok.injEq] at hsha
  exact hsha.symm

/-! ### The whole -/

/-- The pairs are the chosen ones up to half the budget, and what is left is reported, with the
chosen ones after them over the budget. A replay chooses one pair. -/
structure Plan.Cut (only : Option (Text × Text)) (planned : List Planned)
    (skipped : List NotExecuted)
    (p : Plan) : Prop where
  pairs : p.pairs.map Pair.planned =
    (chosen only planned skipped).1.take (p.effectiveMaxOps / 2).toNat
  notExecuted : p.notExecuted = (chosen only planned skipped).2 ++
    ((chosen only planned skipped).1.drop (p.effectiveMaxOps / 2).toNat).map overBudget

/-- What of the routes of a store a plan executes and reports. -/
def Plan.Covers (S : Surroundings) (q : Request) (only : Option (Text × Text)) (p : Plan) : Prop :=
  ∃ host bind store routes mapping planned skipped,
    (S.setupStore p.origin host bind).1 = some store ∧
    seenRoutes S store q.routesArtifact = .ok routes ∧
    planDifferentialPairs S.nfc routes mapping = .ok (planned, skipped) ∧ p.Cut only planned skipped

theorem cut_of_prepare (h : prepare S q bind only = .ok p) : p.Idle ∨ p.Covers S q only := by
  obtain ⟨start, hread⟩ := prepare_ok h
  obtain ⟨bind', hsetup⟩ : ∃ bind', setupOf S bind start.scope p.origin start.host start.arguments =
      S.setupStore p.origin start.host bind' := by
    unfold setupOf
    split
    · exact ⟨true, rfl⟩
    · exact ⟨false, rfl⟩
  rw [hsetup] at hread
  cases hstore : (S.setupStore p.origin start.host bind').1 with
  | none =>
    rw [hstore] at hread
    cases hread with
    | closed hidle _ => exact .inl hidle
  | some store =>
    rw [hstore] at hread
    cases hread with
    | unread hidle _ => exact .inl hidle
    | idle _ _ hidle _ => exact .inl hidle
    | cut hread _ _ hcut _ =>
      simp only [readPlan, bind_ok, pure, Except.pure, Except.ok.injEq, Prod.mk.injEq] at hread
      obtain ⟨routes, hroutes, ms, -, ⟨_, _⟩, hpairs, inv, -, rfl, rfl, rfl⟩ := hread
      obtain ⟨pairs, hmap, htake⟩ := hcut.pairs
      exact .inr ⟨_, _, _, _, _, _, _, hstore, hroutes, hpairs,
        by rw [htake, List.map_take, pairs_planned hmap], hcut.notExecuted⟩

namespace Sample

def hex (c : Char) : Text := List.replicate 32 c.toNat

def lower : Credential := ⟨hex 'a', points "active", points "lower_plan", points "bearer"⟩
def higher : Credential := ⟨hex 'b', points "active", points "higher_plan", points "bearer"⟩

def read (template : String) (placeholders : List String) : Record :=
  ⟨points "GET", points template, points "op", placeholders.map points⟩

/-- A route that the mapping binds, one that it does not, and two without a placeholder. -/
def records : List Record :=
  [read "/a" [], read "/b/{x}/{y}" ["x", "y"], read "/c/{z}" ["z"], read "/d" []]

def routesFile (rows : List Record) : Value :=
  .obj [(points "schema_version", .str (points "heel.runner-route-inventory.v1")),
    (points "namespace", .str []), (points "origin", .str []),
    (points "verification_record_digest", .str []),
    (points "inventory", .obj [(points "source_digest", .str (hex 'c' ++ hex 'c')),
      (points "routes", .arr (rows.map recordValue))])]

def bindings : List (Text × Text) :=
  [(points "x", points "heel-canary-1"), (points "y", points "fixture-2")]

def bindingValue (binding : Text × Text) : Value :=
  .obj [(points "parameter_name", .str binding.1), (points "fixture_id", .str binding.2)]

def mapping (bound : List (Text × Text)) : Value :=
  .obj [(points "scenario_id", .str (points planDifferentialScenario)),
    (points "method", .str (points "GET")), (points "route_template", .str (points "/b/{x}/{y}")),
    (points "fixture_bindings", .arr (bound.map bindingValue))]

def storeOf (credentials : List Credential) (bound : List (Text × Text)) (rows : List Record) :
    SetupStore :=
  ⟨[], [], [], .ok credentials, .ok [mapping bound], some (routesFile rows)⟩

def store : SetupStore := storeOf [lower, higher] bindings records

/-- The same store, its credentials and the bindings of its mapping in the other order. -/
def turned : SetupStore := storeOf [higher, lower] bindings.reverse records

/-- The same store with the rows of its inventory in the other order, which no store writes. -/
def unsorted : SetupStore := storeOf [lower, higher] bindings records.reverse

/-- A host that allows two targets; what it hashes, no other text hashes to. -/
def around (s : SetupStore) (allowed : List String) : Surroundings where
  nfc := id
  platform := ⟨id, String.ofList, fun _ _ _ => false⟩
  host := NetworkGuard.Sample.python false
  scope _ := some ⟨.arr (allowed.map fun host => .str (points host)), .obj []⟩
  scopeRunCount _ := 0
  setupStore _ _ _ := (some s, .alreadyBound)

def request (plans : List Value) : Request where
  scopeId := points "s"
  baseUrl := points "https://a.com"
  plans := .arr plans
  routesArtifact := none
  maxOps := .int 4

def twoPlans : List Value :=
  [.arr [.str (points "low"), .str (hex 'a')], .arr [.str (points "high"), .str (hex 'b')]]

def identities : List Identity :=
  [⟨points "low", points "lower_plan", hex 'a', lower⟩,
    ⟨points "high", points "higher_plan", hex 'b', higher⟩]

def inventory : Inventory := ⟨hex 'c' ++ hex 'c', records⟩

def planned (bound : List (Text × Text)) : List Planned :=
  [⟨points "GET", points "/a", []⟩, ⟨points "GET", points "/b/{x}/{y}", bound⟩,
    ⟨points "GET", points "/d", []⟩]

def unbound : NotExecuted := ⟨points "GET", points "/c/{z}", "unbound_placeholder"⟩

def bindingsDigest : String :=
  "[\x7b\"fixture_id\":\"heel-canary-1\",\"parameter_name\":\"x\"\x7d," ++
    "\x7b\"fixture_id\":\"fixture-2\",\"parameter_name\":\"y\"\x7d]"

def pairs (bound : List (Text × Text)) : List Pair :=
  [⟨points "GET", points "/a", [], none, "[]"⟩,
    ⟨points "GET", points "/b/{x}/{y}", bound, some (points "heel-canary-1"), bindingsDigest⟩,
    ⟨points "GET", points "/d", [], none, "[]"⟩]

/-- A plan of these inputs before it is digested. -/
def draft (identities : List Identity) (inventory : Option Inventory) (pairs : List Pair)
    (notExecuted : List NotExecuted) : Plan where
  scopeId := points "s"
  origin := points "https://a.com"
  host := points "a.com"
  authorized := true
  contextState := .alreadyBound
  identities := identities
  inventory := inventory
  inventorySource := "default"
  pairs := pairs
  notExecuted := notExecuted
  maxOps := 4
  effectiveMaxOps := 4
  planSha256 := ""

example : bindings.reverse ≠ bindings ∧ records.reverse ≠ records := by decide +kernel

variable {s : SetupStore} {allowed : List String} {credentials : List Credential}
  {bound : List (Text × Text)}

theorem sorted_records : sortBy Record.key records = records :=
  List.mergeSort_of_pairwise (by decide +kernel)

theorem template_names : normalizeRouteTemplate id (points "/b/{x}/{y}") =
    .ok (points "/b/{x}/{y}", [points "x", points "y"]) := by
  have hnames : placeholdersOf (points "/b/{x}/{y}") = [points "x", points "y"] := by decide +kernel
  have hsorted : [points "x", points "y"].mergeSort textOrder = [points "x", points "y"] :=
    List.mergeSort_of_pairwise (by decide +kernel)
  simp only [normalizeRouteTemplate, bind_ok, require_ok, pure, Except.pure, Except.ok.injEq,
    Prod.mk.injEq]
  refine ⟨(), by decide +kernel, (), by decide +kernel, (), by decide +kernel, (),
    by decide +kernel, (), by decide +kernel, rfl, ?_⟩
  exact (congrArg (List.mergeSort · textOrder) hnames).trans hsorted

theorem bound_record : routeRecord (around s allowed) (recordValue (read "/b/{x}/{y}" ["x", "y"])) =
    .ok (read "/b/{x}/{y}" ["x", "y"]) := by
  simp only [routeRecord, bind_ok, valueOr_ok, require_ok, pure, Except.pure, Except.ok.injEq]
  exact ⟨_, rfl, _, rfl, (), by decide +kernel, _, rfl, _, template_names, (), rfl, (), rfl, _, rfl,
    (), by decide +kernel, rfl⟩

theorem bound_entry : readEntry id (recordValue (read "/b/{x}/{y}" ["x", "y"])) =
    .ok (read "/b/{x}/{y}" ["x", "y"]) := by
  simp only [readEntry, bind_ok, valueOr_ok, require_ok, pure, Except.pure, Except.ok.injEq]
  exact ⟨_, rfl, _, rfl, (), by decide +kernel, _, rfl, _, template_names, (), ⟨rfl, rfl⟩, _, rfl,
    (), by decide +kernel, rfl⟩

theorem row_read : ∀ r ∈ records, routeRecord (around s allowed) (recordValue r) = .ok r := by
  have hone : ∀ r ∈ [read "/a" [], read "/c/{z}" ["z"], read "/d" []],
      routeRecord (around store []) (recordValue r) = .ok r := by decide +kernel
  intro r hr
  simp only [records, List.mem_cons, List.not_mem_nil, or_false] at hr
  obtain rfl | rfl | rfl | rfl := hr
  · exact hone _ (by simp)
  · exact bound_record
  · exact hone _ (by simp)
  · exact hone _ (by simp)

theorem rows_read {rows : List Record} (h : ∀ r ∈ rows, r ∈ records) :
    (rows.map recordValue).mapM (routeRecord (around s allowed)) = .ok rows := by
  refine mapM_ok.mpr (List.forall₂_map_left_iff.mpr (List.forall₂_same.mpr fun r hr => ?_))
  exact row_read r (h r hr)

theorem read_inventory :
    routeInventory (around s allowed) (storeOf credentials bound records) none = .ok inventory := by
  simp only [routeInventory, inventoryLocked, SetupStore.validateEnvelope, bind_ok, valueOr_ok,
    require_ok, pure, Except.pure, Except.ok.injEq]
  refine ⟨_, rfl, _, ⟨_, rfl, (), ⟨rfl, rfl, rfl, rfl⟩, rfl⟩, _, rfl, _, rfl, (), ?_, ?_⟩
  · decide +kernel
  · change (do
        require ((records.map recordValue).length ≤ 2000) "invalid route inventory"
        let routes ← (records.map recordValue).mapM (routeRecord (around s allowed))
        require (routes = sortBy Record.key routes) "route inventory is not canonical"
        return ⟨hex 'c' ++ hex 'c', routes⟩) = Except.ok inventory
    rw [bind_of_ok (passed (by decide +kernel)), bind_of_ok (rows_read fun _ h => h),
      bind_of_ok (passed sorted_records.symm)]
    rfl

theorem read_planned (hbound : bound = bindings ∨ bound = bindings.reverse) :
    planDifferentialPairs id (.arr (records.map recordValue)) (some (mapping bound)) =
      .ok (planned bound, [unbound]) := by
  have hm : mappingOf (some (mapping bound)) =
      .ok (some ⟨.str (points "GET"), .str (points "/b/{x}/{y}"), bound⟩) := by
    obtain rfl | rfl := hbound <;> rfl
  have hrecords : readAll (readEntry id) Record.route "route inventory repeats a route" []
      (records.map recordValue) = .ok records := by
    have hplain : ∀ template ∈ ["/a", "/d"], readEntry id (recordValue (read template [])) =
        .ok (read template []) := by decide +kernel
    have hone : readEntry id (recordValue (read "/c/{z}" ["z"])) = .ok (read "/c/{z}" ["z"]) := by
      decide +kernel
    exact readAll_nil.mpr ⟨by decide +kernel, .cons (hplain "/a" (by simp)) (.cons bound_entry
      (.cons hone (.cons (hplain "/d" (by simp)) .nil)))⟩
  have hnames : (bound.map Prod.fst).mergeSort textOrder = [points "x", points "y"] := by
    have hsorted : (bindings.map Prod.fst).mergeSort textOrder = [points "x", points "y"] :=
      List.mergeSort_of_pairwise (by decide +kernel)
    obtain rfl | rfl := hbound
    · exact hsorted
    · rw [← hsorted]
      exact (sorted_names ((List.reverse_perm bindings).map Prod.fst))
  have hclassify : classify (some ⟨.str (points "GET"), .str (points "/b/{x}/{y}"), bound⟩)
      records =
      (planned bound, [unbound]) := by
    have hbinds : bindingsFor (some ⟨.str (points "GET"), .str (points "/b/{x}/{y}"), bound⟩)
        (read "/b/{x}/{y}" ["x", "y"]) = some bound := by
      rw [bindingsFor, if_neg (by decide)]
      exact if_pos ⟨rfl, rfl, hnames⟩
    have hleft : bindingsFor (some ⟨.str (points "GET"), .str (points "/b/{x}/{y}"), bound⟩)
        (read "/c/{z}" ["z"]) = none := by
      rw [bindingsFor, if_neg (by decide)]
      have htemplate : stringOf (.str (points "/b/{x}/{y}")) ≠ some (points "/c/{z}") := by
        decide +kernel
      exact if_neg fun h => htemplate h.2.1
    simp only [records, classify, hbinds, hleft]
    rfl
  refine planDifferentialPairs_ok.mpr ⟨_, _, records, rfl, by decide +kernel, hm, hrecords, ?_⟩
  rw [sorted_records, hclassify]

example : planned bindings.reverse ≠ planned bindings := by decide +kernel

theorem read_plan (hbound : bound = bindings ∨ bound = bindings.reverse) :
    readPlan (around s allowed) (storeOf credentials bound records) none =
      .ok (planned bound, [unbound], inventory) := by
  have hroutes : seenRoutes (around s allowed) (storeOf credentials bound records) none =
      .ok (.arr (records.map recordValue)) := by
    rw [seenRoutes, bind_of_ok read_inventory]
    rfl
  have hmappings : listMappings (storeOf credentials bound records) = .ok [mapping bound] := by
    obtain rfl | rfl := hbound <;> rfl
  have hfind : [mapping bound].find? (fun m =>
      stringOf (part m "scenario_id") = some (points planDifferentialScenario)) =
        some (mapping bound) := by
    obtain rfl | rfl := hbound <;> rfl
  rw [readPlan, bind_of_ok hroutes, bind_of_ok hmappings]
  dsimp only
  have hpairs : planDifferentialPairs (around s allowed).nfc (.arr (records.map recordValue))
      (some (mapping bound)) = .ok (planned bound, [unbound]) := read_planned hbound
  rw [hfind, bind_of_ok hpairs]
  dsimp only
  rw [bind_of_ok read_inventory]
  rfl

theorem digest_plain {v : Json} (h : v.isPlain 0 = true) :
    canonicalDigest (around s allowed) v = .ok (String.ofList (Json.dumps v)) := by
  rw [canonicalDigest, Json.canonicalDigest, Json.canonicalBytes_plain (fun _ _ => rfl) h]
  rfl

def bindingItems : List Json :=
  [.obj [("parameter_name", .str "x"), ("fixture_id", .str "heel-canary-1")],
    .obj [("parameter_name", .str "y"), ("fixture_id", .str "fixture-2")]]

theorem bindings_digest (hbound : bound = bindings ∨ bound = bindings.reverse) :
    bindingsSha256 (around s allowed) bound = .ok bindingsDigest := by
  have hsorted : sortBy Prod.fst bound = bindings := by
    have hself : sortBy Prod.fst bindings = bindings :=
      List.mergeSort_of_pairwise (by decide +kernel)
    obtain rfl | rfl := hbound
    · exact hself
    · rw [← sortBy_eq_of_perm (by decide +kernel) (List.reverse_perm bindings).symm]
      exact hself
  have hplain : (Json.arr bindingItems).isPlain 0 = true := by decide +kernel
  have htext : String.ofList (Json.dumps (.arr bindingItems)) = bindingsDigest := by decide +kernel
  have hitems : bindings.mapM bindingJson = .ok bindingItems := rfl
  rw [bindingsSha256, hsorted, bind_of_ok hitems, digest_plain hplain, htext]

theorem no_bindings_digest : bindingsSha256 (around s allowed) [] = .ok "[]" := by
  have hplain : (Json.arr []).isPlain 0 = true := by decide +kernel
  have htext : String.ofList (Json.dumps (.arr [])) = "[]" := by decide +kernel
  have hitems : (sortBy Prod.fst ([] : List (Text × Text))).mapM bindingJson = .ok [] := by
    simp [sortBy, pure, Except.pure]
  rw [bindingsSha256, bind_of_ok hitems, digest_plain hplain, htext]

theorem paired (hbound : bound = bindings ∨ bound = bindings.reverse) :
    (planned bound).mapM (pairOf (around s allowed)) = .ok (pairs bound) := by
  have hmarker : markerOf bound = some (points "heel-canary-1") := by
    obtain rfl | rfl := hbound <;> decide +kernel
  have hplain : ∀ template, pairOf (around s allowed) ⟨points "GET", template, []⟩ =
      .ok ⟨points "GET", template, [], none, "[]"⟩ := by
    intro template
    rw [pairOf, bind_of_ok no_bindings_digest]
    rfl
  have hbinds : pairOf (around s allowed) ⟨points "GET", points "/b/{x}/{y}", bound⟩ =
      .ok ⟨points "GET", points "/b/{x}/{y}", bound, some (points "heel-canary-1"),
        bindingsDigest⟩ := by
    rw [pairOf, bind_of_ok (bindings_digest hbound)]
    simp only [hmarker]
    rfl
  exact mapM_ok.mpr (.cons (hplain _) (.cons hbinds (.cons (hplain _) .nil)))

/-- What the digest of one of these plans is of. -/
def planJson (plans : List Json) (source : Json) (items : List Json) : Json :=
  .obj [("origin", .str "https://a.com"), ("scope_id", .str "s"), ("plans", .arr plans),
    ("inventory_source_digest", source), ("pairs", .arr items), ("effective_max_ops", .int 4)]

def identityItems : List Json :=
  [.obj [("label", .str "low"), ("role", .str "lower_plan"),
      ("credential_handle", .str "aaaaaaaaaaaaaaaaaaaaaaaaaaaaaaaa")],
    .obj [("label", .str "high"), ("role", .str "higher_plan"),
      ("credential_handle", .str "bbbbbbbbbbbbbbbbbbbbbbbbbbbbbbbb")]]

def sourceItem : Json :=
  .str "cccccccccccccccccccccccccccccccccccccccccccccccccccccccccccccccc"

def pairItem (template digest : String) : Json :=
  .obj [("method", .str "GET"), ("route_template", .str template),
    ("fixture_bindings_sha256", .str digest)]

example : (draft identities (some inventory) (pairs bindings) [unbound]).digested.sourceDigest =
    some (hex 'c' ++ hex 'c') := by decide +kernel

theorem draft_digested {identities : List Identity} {inventory : Option Inventory}
    {pairs : List Pair} {notExecuted : List NotExecuted} (plans items : List Json) (source : Json)
    (hplans : identities.mapM identityJson = .ok plans)
    (hsource : (inventory.map Inventory.sourceDigest).elim (.ok .null) textJson = .ok source)
    (hitems : (draft identities inventory pairs notExecuted).digested.pairs.mapM pairJson =
      .ok items)
    (hplain : (planJson plans source items).isPlain 0 = true) :
    digestPlan (around s allowed) (draft identities inventory pairs notExecuted) =
      .ok { draft identities inventory pairs notExecuted with
        planSha256 := String.ofList (Json.dumps (planJson plans source items)) } := by
  have horigin : textJson (points "https://a.com") = .ok (.str "https://a.com") := rfl
  have hscope : textJson (points "s") = .ok (.str "s") := rfl
  have hsha : (draft identities inventory pairs notExecuted).digested.sha256 (around s allowed) =
      .ok (String.ofList (Json.dumps (planJson plans source items))) := by
    rw [Digested.sha256]
    simp only [bind_ok]
    exact ⟨_, horigin, _, hscope, _, hplans, _, hsource, _, hitems, digest_plain hplain⟩
  rw [digestPlan, hsha]
  rfl

theorem request_origin (plans : List Value) :
    originOf (around s allowed) (request plans).baseUrl =
      .ok (points "https://a.com", points "a.com") := by
  simp only [originOf, around, request]
  decide +kernel

theorem request_arguments : planArguments (request twoPlans).plans =
    .ok [(points "low", hex 'a'), (points "high", hex 'b')] := by
  decide +kernel

def hosts : List String := ["a.com", "b.com"]

theorem first_draft (hallowed : allowed = hosts ∨ allowed = hosts.reverse) (plans : List Value) :
    firstPlan (request plans) ⟨.arr (allowed.map fun host => .str (points host)), .obj []⟩
      (points "https://a.com") (points "a.com") .alreadyBound 4 4 = draft [] none [] [] := by
  have hlists : Scope.lists ⟨.arr (allowed.map fun host => .str (points host)), .obj []⟩
      (points "a.com") = true := by
    obtain rfl | rfl := hallowed <;> decide +kernel
  rw [firstPlan, hlists]
  rfl

/-- A plan of two identities, where the store is open and has an inventory. -/
theorem prepare_planned {S : Surroundings} {q : Request} {scope : Scope} {origin host : Text}
    {maxOps effective : ℤ} {arguments : List (Text × Text)} {store : SetupStore}
    {state : ContextState} {identities : List Identity} {planned : List Planned}
    {skipped : List NotExecuted} {inventory : Inventory} {pairs : List Pair}
    {only : Option (Text × Text)} (hscope : verifiedScope S q.scopeId = .ok scope)
    (horigin : originOf S q.baseUrl = .ok (origin, host)) (hops : maxOpsOf q.maxOps = .ok maxOps)
    (harguments : planArguments q.plans = .ok arguments)
    (hartifact : q.routesArtifact.all isObject = true)
    (heffective : effectiveMaxOps S scope maxOps q.scopeId = .ok effective)
    (hopened : S.setupStore origin host false = (some store, state))
    (hbound : state ≠ .unbound) (hidentities : identitiesOf store arguments = .ok identities)
    (hread : readPlan S store q.routesArtifact = .ok (planned, skipped, inventory))
    (hpairs : planned.mapM (pairOf S) = .ok pairs) :
    prepare S q false only =
      if identities = [] then
        digestPlan S { firstPlan q scope origin host state maxOps effective with
          identities, inventory := some inventory }
      else
        let left : List Pair × List NotExecuted := only.elim (pairs, skipped) fun route =>
          (pairs.filter fun p => p.planned.route = route, [])
        digestPlan S { firstPlan q scope origin host state maxOps effective with
          identities, inventory := some inventory, pairs := left.1.take (effective / 2).toNat
          notExecuted := left.2 ++
            (left.1.drop (effective / 2).toNat).map fun p => overBudget p.planned } := by
  rw [prepare, bind_of_ok hscope, bind_of_ok horigin]
  dsimp only
  rw [bind_of_ok hops, bind_of_ok harguments, bind_of_ok (passed hartifact), bind_of_ok hscope,
    bind_of_ok heffective]
  simp only [hopened, hbound, false_and, if_false]
  rw [bind_of_ok hidentities, hread]
  dsimp only
  rw [bind_of_ok hpairs]
  cases only <;> rfl

def cutDraft (bound : List (Text × Text)) : Plan :=
  draft identities (some inventory)
    [⟨points "GET", points "/a", [], none, "[]"⟩,
      ⟨points "GET", points "/b/{x}/{y}", bound, some (points "heel-canary-1"), bindingsDigest⟩]
    [unbound, ⟨points "GET", points "/d", "over_budget"⟩]

/-- The replay of `GET /a`. -/
def replayDraft : Plan :=
  draft identities (some inventory) [⟨points "GET", points "/a", [], none, "[]"⟩] []

def cutJson : Json :=
  planJson identityItems sourceItem [pairItem "/a" "[]", pairItem "/b/{x}/{y}" bindingsDigest]

def replayJson : Json := planJson identityItems sourceItem [pairItem "/a" "[]"]

/-- The plan of a draft, by the JSON that its digest is of. -/
def Digest (p : Plan) (v : Json) : Plan := { p with planSha256 := String.ofList (Json.dumps v) }

theorem cut_digested (bound : List (Text × Text)) :
    digestPlan (around s allowed) (cutDraft bound) = .ok (Digest (cutDraft bound) cutJson) :=
  draft_digested identityItems [pairItem "/a" "[]", pairItem "/b/{x}/{y}" bindingsDigest] sourceItem
    rfl rfl rfl (by decide +kernel)

theorem replay_digested :
    digestPlan (around s allowed) replayDraft = .ok (Digest replayDraft replayJson) :=
  draft_digested identityItems [pairItem "/a" "[]"] sourceItem rfl rfl rfl (by decide +kernel)

theorem store_identities (h : credentials = [lower, higher] ∨ credentials = [higher, lower]) :
    identitiesOf (storeOf credentials bound records)
      [(points "low", hex 'a'), (points "high", hex 'b')] = .ok identities := by
  have hresolve : ∀ known : List Credential, known = [lower, higher] ∨ known = [higher, lower] →
      identitiesOf (storeOf known [] records) [(points "low", hex 'a'), (points "high", hex 'b')] =
        .ok identities := by
    rintro _ (rfl | rfl) <;> decide +kernel
  exact hresolve credentials h

theorem request_budget : effectiveMaxOps (around s allowed)
    ⟨.arr (allowed.map fun host => .str (points host)), .obj []⟩ 4 (points "s") = .ok 4 := rfl

theorem two_identities : identities ≠ [] := List.cons_ne_nil _ _

theorem prepare_cut
    (hcredentials : credentials = [lower, higher] ∨ credentials = [higher, lower])
    (hbound : bound = bindings ∨ bound = bindings.reverse)
    (hallowed : allowed = hosts ∨ allowed = hosts.reverse) :
    prepare (around (storeOf credentials bound records) allowed) (request twoPlans) false none =
      .ok (Digest (cutDraft bound) cutJson) := by
  rw [prepare_planned rfl (request_origin _) rfl request_arguments rfl request_budget rfl
    (by decide) (store_identities hcredentials) (read_plan hbound) (paired hbound),
    if_neg two_identities, first_draft hallowed]
  exact cut_digested bound

theorem prepare_replay :
    prepare (around store hosts) (request twoPlans) false (some (points "GET", points "/a")) =
      .ok (Digest replayDraft replayJson) := by
  have hleft : (pairs bindings).filter (fun p => p.planned.route = (points "GET", points "/a")) =
      [⟨points "GET", points "/a", [], none, "[]"⟩] := by decide +kernel
  rw [store, prepare_planned rfl (request_origin _) rfl request_arguments rfl request_budget rfl
    (by decide) (store_identities (.inl rfl)) (read_plan (.inl rfl)) (paired (.inl rfl)),
    if_neg two_identities, first_draft (.inl rfl)]
  simp only [Option.elim_some, hleft]
  exact replay_digested

/-- Without plans only the source of the inventory is digested. -/
def dryDraft (inventory : Option Inventory) : Plan := draft [] inventory [] []

theorem prepare_dry : prepare (around store hosts) (request []) false none =
    .ok (Digest (dryDraft (some inventory)) (planJson [] sourceItem [])) := by
  rw [store, prepare_planned rfl (request_origin _) rfl (rfl : planArguments (.arr []) = .ok []) rfl
    request_budget rfl (by decide) rfl (read_plan (.inl rfl)) (paired (.inl rfl)), if_pos rfl,
    first_draft (.inl rfl)]
  exact draft_digested [] [] sourceItem rfl rfl rfl (by decide +kernel)

example : overBudget ⟨points "GET", points "/d", []⟩ =
    ⟨points "GET", points "/d", "over_budget"⟩ := by
  decide +kernel

theorem unsorted_refused : ∃ e, readPlan (around unsorted hosts) unsorted none = .error e := by
  cases hread : readPlan (around unsorted hosts) unsorted none with
  | error e => exact ⟨e, rfl⟩
  | ok out =>
    simp only [readPlan, seenRoutes, bind_ok, routeInventory, valueOr_ok] at hread
    obtain ⟨_, ⟨inventory, ⟨_, hfile, hinventory⟩, -⟩, -⟩ := hread
    cases hfile
    obtain ⟨-, ⟨items, hitems, hrows⟩, hsorted⟩ := inventoryLocked_parts hinventory
    cases hitems
    have hroutes : inventory.routes = records.reverse := by
      have hread : (Except.ok inventory.routes : Except String (List Record)) =
          .ok records.reverse := by
        rw [← mapM_ok.mpr hrows]
        exact rows_read fun r hr => List.mem_reverse.mp hr
      exact Except.ok.inj hread
    rw [hroutes, sort_records (List.reverse_perm records) (by decide +kernel),
      sorted_records] at hsorted
    exact absurd hsorted (by decide +kernel)

theorem prepare_unread {S : Surroundings} {q : Request} {scope : Scope} {origin host : Text}
    {maxOps effective : ℤ} {store : SetupStore} {state : ContextState} {e : String}
    (hscope : verifiedScope S q.scopeId = .ok scope)
    (horigin : originOf S q.baseUrl = .ok (origin, host)) (hops : maxOpsOf q.maxOps = .ok maxOps)
    (harguments : planArguments q.plans = .ok []) (hartifact : q.routesArtifact = none)
    (heffective : effectiveMaxOps S scope maxOps q.scopeId = .ok effective)
    (hopened : S.setupStore origin host false = (some store, state)) (hbound : state ≠ .unbound)
    (hread : readPlan S store q.routesArtifact = .error e) :
    prepare S q false none =
      digestPlan S (firstPlan q scope origin host state maxOps effective) := by
  have hmapping : q.routesArtifact.all isObject = true := by
    rw [hartifact]
    rfl
  have hnone : q.routesArtifact.isNone = true ∧ ([] : List Identity) = [] := by
    rw [hartifact]
    exact ⟨rfl, rfl⟩
  rw [prepare, bind_of_ok hscope, bind_of_ok horigin]
  dsimp only
  rw [bind_of_ok hops, bind_of_ok harguments, bind_of_ok (passed hmapping), bind_of_ok hscope,
    bind_of_ok heffective]
  simp only [hopened, hbound, false_and, if_false]
  rw [bind_of_ok (rfl : identitiesOf store [] = .ok []), hread]
  dsimp only
  rw [bind_of_ok (passed hnone)]
  rfl

theorem prepare_unsorted : prepare (around unsorted hosts) (request []) false none =
    .ok (Digest (dryDraft none) (planJson [] .null [])) := by
  obtain ⟨e, hread⟩ := unsorted_refused
  rw [prepare_unread rfl (request_origin _) rfl rfl rfl request_budget rfl (by decide) hread,
    first_draft (.inl rfl)]
  exact draft_digested [] [] .null rfl rfl rfl (by decide +kernel)

theorem around_same {s s' : SetupStore} {allowed allowed' : List String} (hstore : SameStore s s')
    (hallowed : ∀ host, host ∈ allowed ↔ host ∈ allowed') :
    SameSurroundings (around s allowed) (around s' allowed') := by
  refine ⟨rfl, rfl, rfl, fun _ => .some ⟨.inr ⟨_, _, rfl, rfl, fun x => ?_⟩, rfl⟩, rfl,
    fun _ _ _ => .some hstore, fun _ _ _ => rfl⟩
  simp only [List.mem_map, hallowed]

theorem same_mappings {bound bound' : List (Text × Text)} (h : ∀ b, b ∈ bound ↔ b ∈ bound') :
    SameMapping (mapping bound) (mapping bound') := by
  refine ⟨rfl, rfl, rfl, .inr ⟨_, _, rfl, rfl, fun x => ?_⟩⟩
  simp only [List.mem_map, h]

theorem same_stores {credentials credentials' : List Credential} {bound bound' : List (Text × Text)}
    {rows rows' : List Record} (hcredentials : ∀ c, c ∈ credentials ↔ c ∈ credentials')
    (hbound : ∀ b, b ∈ bound ↔ b ∈ bound') (hrows : ∀ r, r ∈ rows ↔ r ∈ rows') :
    SameStore (storeOf credentials bound rows) (storeOf credentials' bound' rows') := by
  refine ⟨fun cs cs' h h' => ?_, fun ms ms' h h' => ?_,
    .some ⟨rfl, .inr ⟨_, _, rfl, rfl, fun x => ?_⟩⟩⟩
  · cases h
    cases h'
    exact hcredentials
  · cases h
    cases h'
    simp only [List.mem_singleton, forall_eq, exists_eq_left]
    exact ⟨same_mappings hbound, same_mappings hbound⟩
  · simp only [List.mem_map, hrows]

theorem store_unsorted : SameStore store unsorted :=
  same_stores (fun _ => Iff.rfl) (fun _ => Iff.rfl) fun _ => List.mem_reverse.symm

theorem store_turned : SameStore store turned :=
  same_stores (fun _ => (List.Perm.swap higher lower []).mem_iff)
    (fun _ => List.mem_reverse.symm) fun _ => Iff.rfl

end Sample

end Heel.PlanPrepare
