import Heel.Lib.JsonSame
import Heel.Lib.Sorting
import Heel.Runner.RouteBinding
import Mathlib.Data.Prod.Lex

/-! `plan_differential_pairs` of `heel/runner/compiler.py`: the routes of an inventory that a run on
two plans reads, with the fixture values that the mapping gives to one of them, and the routes it
leaves. -/
namespace Heel.PlanPairs
open Lib Lib.JsonText Lib.Checks Routes
variable {nfc : Text → Text}

/-- The fields of a dictionary of exactly these keys. -/
def closedFields (names : List Text) : Value → Option (List (Text × Value))
  | .obj fields => if (fields.map Prod.fst).isPerm names then some fields else none
  | _ => none

def member (fields : List (Text × Value)) (name : String) : Value :=
  (lookup fields (points name)).getD .null

def textsOf : Value → Option (List Text)
  | .arr items => items.mapM stringOf
  | _ => none

/-- The value of a check, or the refusal of `reason`. -/
def valueOr {α : Type} (reason : String) : Option α → Except String α
  | some a => .ok a
  | none => .error reason

@[simp] theorem valueOr_ok {α : Type} {reason : String} {o : Option α} {a : α} :
    valueOr reason o = .ok a ↔ o = some a := by
  cases o <;> simp [valueOr]

def planDifferentialScenario : String := "plan_entitlement_read"

def bindingFields : List Text := ["parameter_name", "fixture_id"].map points

def invalidMapping : String := "plan-differential mapping is invalid"

/-- The route a mapping names, `mapped`, and its fixture values, `mapped_bindings`. -/
structure Mapping where
  method : Value
  routeTemplate : Value
  bindings : List (Text × Text)

def readBinding (binding : Value) : Except String (Text × Text) := do
  let fields ← valueOr invalidMapping (closedFields bindingFields binding)
  let name ← valueOr invalidMapping (stringOf (member fields "parameter_name"))
  let fixture ← valueOr invalidMapping (stringOf (member fields "fixture_id"))
  return (name, fixture)

/-- The loop over the entries of a list, where each has a key of its own. -/
def readAll {α β : Type} [DecidableEq β] (read : Value → Except String α) (key : α → β)
    (repeated : String) : List α → List Value → Except String (List α)
  | done, [] => return done
  | done, entry :: rest => do
    let a ← read entry
    require (key a ∉ done.map key) repeated
    readAll read key repeated (done ++ [a]) rest

def readMapping : Value → Except String Mapping
  | .obj fields => do
    require (stringOf (member fields "scenario_id") = some (points planDifferentialScenario))
      invalidMapping
    match member fields "fixture_bindings" with
    | .arr items => do
      let bindings ← readAll readBinding Prod.fst invalidMapping [] items
      return ⟨member fields "method", member fields "route_template", bindings⟩
    | _ => .error invalidMapping
  | _ => .error invalidMapping

def mappingOf : Option Value → Except String (Option Mapping)
  | none => return none
  | some mapping => do
    let mapping ← readMapping mapping
    return some mapping

def allowedMethods : List Text :=
  ((adapterOf planDifferentialScenario).elim [] Adapter.allowedMethods).map points

def routeFields : List Text :=
  ["method", "route_template", "operation_id", "placeholders"].map points

def maxPlanDifferentialRoutes : ℕ := 2000

structure Record where
  method : Text
  routeTemplate : Text
  operationId : Text
  placeholders : List Text
  deriving DecidableEq, Repr

/-- What `seen` keeps of a record. -/
def Record.route (r : Record) : Text × Text := (r.method, r.routeTemplate)

/-- The key that the records are sorted by. -/
def Record.key (r : Record) : Text ×ₗ (Text ×ₗ Text) :=
  toLex (r.routeTemplate, toLex (r.method, r.operationId))

def notClosed : String := "route inventory entry is not a closed route record"
def readsOnly : String := "route inventory permits GET or HEAD only"

variable (nfc) in
def readEntry (entry : Value) : Except String Record := do
  let fields ← valueOr notClosed (closedFields routeFields entry)
  let method ← valueOr readsOnly (stringOf (member fields "method"))
  require (method ∈ allowedMethods) readsOnly
  let template ← valueOr "route template must be text" (stringOf (member fields "route_template"))
  let (route, placeholders) ← normalizeRouteTemplate nfc template
  require (route = template ∧ textsOf (member fields "placeholders") = some placeholders)
    "route inventory entry is not canonical"
  let operationId ← valueOr notClosed (stringOf (member fields "operation_id"))
  require (operationId ≠ []) notClosed
  return ⟨method, route, operationId, placeholders⟩

structure Planned where
  method : Text
  routeTemplate : Text
  fixtureBindings : List (Text × Text)
  deriving DecidableEq, Repr

structure NotExecuted where
  method : Text
  routeTemplate : Text
  reason : String
  deriving DecidableEq, Repr

def Planned.route (p : Planned) : Text × Text := (p.method, p.routeTemplate)
def NotExecuted.route (n : NotExecuted) : Text × Text := (n.method, n.routeTemplate)

/-- Does the mapping name this record and give a value to each of its placeholders? -/
def Mapping.Binds (m : Mapping) (r : Record) : Prop :=
  stringOf m.method = some r.method ∧ stringOf m.routeTemplate = some r.routeTemplate ∧
    (m.bindings.map Prod.fst).mergeSort textOrder = r.placeholders

instance (m : Mapping) (r : Record) : Decidable (m.Binds r) :=
  inferInstanceAs (Decidable (_ ∧ _ ∧ _))

def bindingsFor (mapping : Option Mapping) (r : Record) : Option (List (Text × Text)) :=
  if r.placeholders = [] then some []
  else
    match mapping with
    | none => none
    | some m => if m.Binds r then some m.bindings else none

def classify (mapping : Option Mapping) : List Record → List Planned × List NotExecuted
  | [] => ([], [])
  | r :: rest =>
    let (planned, notExecuted) := classify mapping rest
    match bindingsFor mapping r with
    | some bindings => (⟨r.method, r.routeTemplate, bindings⟩ :: planned, notExecuted)
    | none => (planned, ⟨r.method, r.routeTemplate, "unbound_placeholder"⟩ :: notExecuted)

variable (nfc) in
def planDifferentialPairs (inventoryRoutes : Value) (mapping : Option Value) :
    Except String (List Planned × List NotExecuted) :=
  match inventoryRoutes with
  | .arr entries => do
    require (entries.length ≤ maxPlanDifferentialRoutes) "route inventory exceeds local limit"
    let mapping ← mappingOf mapping
    let records ← readAll (readEntry nfc) Record.route "route inventory repeats a route" [] entries
    return classify mapping (sortBy Record.key records)
  | _ => .error "route inventory must be a list of route records"

section ReadAll
variable {α β : Type} [DecidableEq β] {read : Value → Except String α} {key : α → β}
  {repeated : String}

/-- What the loop has read: an answer for each entry, each with a key of its own. -/
theorem readAll_ok {done out : List α} {entries : List Value} (hdone : (done.map key).Nodup) :
    readAll read key repeated done entries = .ok out ↔
      (out.map key).Nodup ∧
        ∃ more, List.Forall₂ (fun e a => read e = .ok a) entries more ∧ out = done ++ more := by
  induction entries generalizing done with
  | nil =>
    simp only [readAll, pure, Except.pure, Except.ok.injEq, List.forall₂_nil_left_iff,
      exists_eq_left, List.append_nil]
    constructor
    · rintro rfl
      exact ⟨hdone, rfl⟩
    · rintro ⟨-, rfl⟩
      rfl
  | cons entry rest ih =>
    simp only [readAll, bind_ok, require_ok, List.forall₂_cons_left_iff]
    constructor
    · rintro ⟨a, ha, -, hfresh, h⟩
      have hdone' : ((done ++ [a]).map key).Nodup := by
        rw [List.map_append, List.map_singleton]
        exact List.nodup_append.mpr ⟨hdone, List.nodup_singleton _, by
          rintro _ hmem _ hkey rfl
          exact hfresh (List.mem_singleton.mp hkey ▸ hmem)⟩
      obtain ⟨hnodup, more, hmore, rfl⟩ := (ih hdone').mp h
      exact ⟨hnodup, a :: more, ⟨a, more, ha, hmore, rfl⟩, by simp⟩
    · rintro ⟨hnodup, _, ⟨a, more, ha, hmore, rfl⟩, rfl⟩
      have happend : done ++ a :: more = (done ++ [a]) ++ more := by simp
      rw [happend] at hnodup
      have hdone' : ((done ++ [a]).map key).Nodup := by
        rw [List.map_append] at hnodup
        exact (List.nodup_append.mp hnodup).1
      have hfresh : key a ∉ done.map key := by
        rw [List.map_append, List.map_singleton] at hdone'
        exact fun hmem => (List.nodup_append.mp hdone').2.2 _ hmem _ (.head _) rfl
      refine ⟨a, ha, ⟨⟩, hfresh, (ih hdone').mpr ⟨?_, more, hmore, happend⟩⟩
      rw [happend]
      exact hnodup

theorem readAll_nil {out : List α} {entries : List Value} :
    readAll read key repeated [] entries = .ok out ↔
      (out.map key).Nodup ∧ List.Forall₂ (fun e a => read e = .ok a) entries out := by
  rw [readAll_ok (by simp)]
  simp

theorem readAll_perm {out : List α} {entries entries' : List Value} (hperm : entries.Perm entries')
    (h : readAll read key repeated [] entries = .ok out) :
    ∃ out', readAll read key repeated [] entries' = .ok out' ∧ out'.Perm out := by
  obtain ⟨hnodup, hread⟩ := readAll_nil.mp h
  obtain ⟨out', hread', hout⟩ := List.perm_comp_forall₂ hperm.symm hread
  exact ⟨out', readAll_nil.mpr ⟨(hout.map key).nodup_iff.mpr hnodup, hread'⟩, hout⟩

theorem mem_read {entries : List Value} {out : List α}
    (h : List.Forall₂ (fun e a => read e = .ok a) entries out) {a : α} :
    a ∈ out ↔ ∃ e ∈ entries, read e = .ok a := by
  induction h with
  | nil => simp
  | @cons e b es as hread _ ih =>
    rw [List.mem_cons, ih]
    simp only [List.mem_cons, or_and_right, exists_or, exists_eq_left, hread, Except.ok.injEq]
    rw [eq_comm]

/-- Entries that are the same but for their order, and for how often each stands, are read to the
same answers but for their order. -/
theorem readAll_same {out out' : List α} {entries entries' : List Value}
    (hsame : ∀ e, e ∈ entries ↔ e ∈ entries') (h : readAll read key repeated [] entries = .ok out)
    (h' : readAll read key repeated [] entries' = .ok out') : out.Perm out' := by
  obtain ⟨hnodup, hread⟩ := readAll_nil.mp h
  obtain ⟨hnodup', hread'⟩ := readAll_nil.mp h'
  rw [List.perm_ext_iff_of_nodup hnodup.of_map hnodup'.of_map]
  intro a
  rw [mem_read hread, mem_read hread']
  simp only [hsame]

end ReadAll

theorem planDifferentialPairs_ok {inventoryRoutes : Value} {mapping : Option Value}
    {out : List Planned × List NotExecuted} :
    planDifferentialPairs nfc inventoryRoutes mapping = .ok out ↔
      ∃ entries m records, inventoryRoutes = .arr entries ∧
        entries.length ≤ maxPlanDifferentialRoutes ∧ mappingOf mapping = .ok m ∧
        readAll (readEntry nfc) Record.route "route inventory repeats a route" [] entries =
          .ok records ∧ out = classify m (sortBy Record.key records) := by
  cases inventoryRoutes with
  | arr entries =>
    simp only [planDifferentialPairs, bind_ok, require_ok, pure, Except.pure, Except.ok.injEq,
      Value.arr.injEq]
    constructor
    · rintro ⟨-, hlength, m, hm, records, hrecords, rfl⟩
      exact ⟨entries, m, records, rfl, hlength, hm, hrecords, rfl⟩
    · rintro ⟨_, m, records, rfl, hlength, hm, hrecords, rfl⟩
      exact ⟨⟨⟩, hlength, m, hm, records, hrecords, rfl⟩
  | _ => simp [planDifferentialPairs]

theorem normalize_names {value route : Text} {names : List Text}
    (h : normalizeRouteTemplate nfc value = .ok (route, names)) :
    names.Perm (placeholdersOf route) := by
  rw [(normalize_ok h).2.2]
  exact List.mergeSort_perm _ _

theorem readEntry_ok {entry : Value} {r : Record} (h : readEntry nfc entry = .ok r) :
    ∃ fields, entry = .obj fields ∧ stringOf (member fields "method") = some r.method ∧
      stringOf (member fields "route_template") = some r.routeTemplate ∧ r.method ∈ allowedMethods ∧
      r.placeholders.Perm (placeholdersOf r.routeTemplate) := by
  simp only [readEntry, bind_ok, valueOr_ok, require_ok, pure, Except.pure, Except.ok.injEq] at h
  obtain ⟨fields, hfields, method, hmethod, _, hallowed, template, htemplate,
    ⟨route, names⟩, hroute,
    _, ⟨rfl, -⟩, _, -, _, -, rfl⟩ := h
  cases entry with
  | obj fields' =>
    simp only [closedFields, Option.ite_none_right_eq_some, Option.some.injEq] at hfields
    obtain ⟨-, rfl⟩ := hfields
    exact ⟨_, rfl, hmethod, htemplate, hallowed, normalize_names hroute⟩
  | _ => cases hfields

theorem bindingsFor_names {m : Option Mapping} {r : Record} {bindings : List (Text × Text)}
    (h : bindingsFor m r = some bindings) : (bindings.map Prod.fst).Perm r.placeholders := by
  unfold bindingsFor at h
  split at h
  · next hnone =>
    cases h
    rw [hnone]
    exact .refl _
  · split at h
    · cases h
    · next m =>
      split at h
      · next hbinds =>
        cases h
        exact hbinds.2.2 ▸ (List.mergeSort_perm _ _).symm
      · cases h

theorem classify_routes (m : Option Mapping) (records : List Record) :
    ((classify m records).1.map Planned.route ++ (classify m records).2.map NotExecuted.route).Perm
      (records.map Record.route) := by
  induction records with
  | nil => exact .refl _
  | cons r rest ih =>
    simp only [classify, List.map_cons]
    split
    · exact ih.cons _
    · exact List.perm_middle.trans (ih.cons _)

theorem classify_planned {m : Option Mapping} {records : List Record} {p : Planned}
    (h : p ∈ (classify m records).1) :
    ∃ r ∈ records, p.route = r.route ∧ bindingsFor m r = some p.fixtureBindings := by
  induction records with
  | nil => cases h
  | cons r rest ih =>
    simp only [classify] at h
    split at h
    · next bindings hbindings =>
      obtain rfl | h := List.mem_cons.mp h
      · exact ⟨r, .head _, rfl, hbindings⟩
      · obtain ⟨r', hr', hp⟩ := ih h
        exact ⟨r', .tail _ hr', hp⟩
    · obtain ⟨r', hr', hp⟩ := ih h
      exact ⟨r', .tail _ hr', hp⟩

theorem allowedMethods_eq : allowedMethods = [points "GET", points "HEAD"] := by decide

/-- The route that an entry of an inventory names. -/
def routeOf : Value → Option (Text × Text)
  | .obj fields => do
    let method ← stringOf (member fields "method")
    let template ← stringOf (member fields "route_template")
    return (method, template)
  | _ => none

/-- Nothing is lost and nothing is invented: the routes of the entries, each once, are those planned
and those left; what is planned is read, with a value for exactly the placeholders of
its template. -/
structure Plans (entries : List Value) (planned : List Planned) (notExecuted : List NotExecuted) :
    Prop where
  routes : ∃ routes, entries.map routeOf = routes.map some ∧ routes.Nodup ∧
    (planned.map Planned.route ++ notExecuted.map NotExecuted.route).Perm routes
  reads : ∀ p ∈ planned, p.method = points "GET" ∨ p.method = points "HEAD"
  bound : ∀ p ∈ planned, (p.fixtureBindings.map Prod.fst).Perm (placeholdersOf p.routeTemplate)

theorem plans_of_ok {entries : List Value} {mapping : Option Value} {planned : List Planned}
    {notExecuted : List NotExecuted}
    (h : planDifferentialPairs nfc (.arr entries) mapping = .ok (planned, notExecuted)) :
    Plans entries planned notExecuted := by
  obtain ⟨_, m, records, hentries, -, -, hrecords, hout⟩ := planDifferentialPairs_ok.mp h
  cases hentries
  obtain ⟨hnodup, hread⟩ := readAll_nil.mp hrecords
  have hperm := (sortBy_perm Record.key records).map Record.route
  have hof : ∀ p ∈ planned, ∃ r, p.route = r.route ∧ bindingsFor m r = some p.fixtureBindings ∧
      ∃ e, readEntry nfc e = .ok r := by
    intro p hp
    have hp' : p ∈ (classify m (sortBy Record.key records)).1 := by
      rw [← hout]
      exact hp
    obtain ⟨r, hr, hroute, hbindings⟩ := classify_planned hp'
    rw [mem_sortBy] at hr
    obtain ⟨i, hi, rfl⟩ := List.mem_iff_getElem.mp hr
    exact ⟨_, hroute, hbindings, _, hread.get (hread.length_eq ▸ hi) hi⟩
  constructor
  · refine ⟨records.map Record.route, ?_, hnodup, ?_⟩
    · clear hrecords hnodup hperm hof hout h
      induction hread with
      | nil => rfl
      | cons hr _ ih =>
        obtain ⟨fields, rfl, hmethod, htemplate, -⟩ := readEntry_ok hr
        rw [List.map_cons, List.map_cons, List.map_cons, ih]
        simp [routeOf, hmethod, htemplate, Record.route]
    · have hclassify := classify_routes m (sortBy Record.key records)
      rw [← hout] at hclassify
      exact hclassify.trans hperm
  · intro p hp
    obtain ⟨r, hroute, -, e, hr⟩ := hof p hp
    obtain ⟨_, -, -, -, hallowed, -⟩ := readEntry_ok hr
    have hmethod : p.method = r.method := congrArg Prod.fst hroute
    rw [allowedMethods_eq, ← hmethod] at hallowed
    simpa using hallowed
  · intro p hp
    obtain ⟨r, hroute, hbindings, e, hr⟩ := hof p hp
    obtain ⟨_, -, -, -, -, hnames⟩ := readEntry_ok hr
    have htemplate : p.routeTemplate = r.routeTemplate := congrArg Prod.snd hroute
    rw [htemplate]
    exact (bindingsFor_names hbindings).trans hnames

theorem sort_records {records records' : List Record} (hperm : records.Perm records')
    (hnodup : (records.map Record.route).Nodup) :
    sortBy Record.key records = sortBy Record.key records' := by
  apply sortBy_eq_of_perm _ hperm
  intro a ha b hb hkey
  have hlex := congrArg ofLex hkey
  have hroute : a.route = b.route := by
    simp only [Record.key, ofLex_toLex, Prod.mk.injEq] at hlex
    obtain ⟨htemplate, hrest⟩ := hlex
    have hmethod := congrArg (Prod.fst ∘ ofLex) hrest
    exact Prod.ext hmethod htemplate
  exact List.inj_on_of_nodup_map hnodup ha hb hroute

theorem pairs_perm {entries entries' : List Value} {mapping : Option Value}
    {out : List Planned × List NotExecuted} (hperm : entries.Perm entries')
    (h : planDifferentialPairs nfc (.arr entries) mapping = .ok out) :
    planDifferentialPairs nfc (.arr entries') mapping = .ok out := by
  obtain ⟨_, m, records, hentries, hlength, hm, hrecords, rfl⟩ := planDifferentialPairs_ok.mp h
  cases hentries
  obtain ⟨records', hrecords', hsame⟩ := readAll_perm hperm hrecords
  have hnodup := (readAll_nil.mp hrecords').1
  exact planDifferentialPairs_ok.mpr ⟨entries', m, records', rfl, hperm.length_eq ▸ hlength, hm,
    hrecords', congrArg _ (sort_records hsame hnodup).symm⟩

end Heel.PlanPairs
