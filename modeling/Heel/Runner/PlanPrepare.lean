import Heel.Contracts.Json
import Heel.Runner.PlanPairs
import Heel.Runner.TargetGuard

/-! `_prepare` of `heel/runner/plan_differential.py`: the plan of a run on two plans, cut at its
budget, and the digest of it. The scopes, the stores and the platform around it are parameters. -/
namespace Heel.PlanPrepare
open Lib Lib.JsonText Lib.Checks Routes PlanPairs

structure Scope where
  targetAllowlist : Value
  rateAndResourceLimits : Value

/-- A record of `list_credentials`. -/
structure Credential where
  credentialHandleId : Text
  state : Text
  semanticRole : Text
  authProfile : Text
  deriving DecidableEq, Repr

/-- An open setup store: its bound context, the records of its files, and `routes.json`. -/
structure SetupStore where
  contextNamespace : Text
  origin : Text
  verificationRecordDigest : Text
  credentials : Except String (List Credential)
  mappingRecords : Except String (List Value)
  routesFile : Option Value

inductive ContextState where
  | unbound | bound | alreadyBound | mismatch
  deriving DecidableEq, Repr

structure Surroundings where
  nfc : Text → Text
  platform : Platform
  host : NetworkGuard.Host
  /-- the scope of an identifier, where it is found and verified -/
  scope : Text → Option Scope
  scopeRunCount : Text → ℤ
  setupStore : Text → Text → Bool → Option SetupStore × ContextState

structure Request where
  scopeId : Text
  baseUrl : Text
  plans : Value
  routesArtifact : Option Value
  maxOps : Value

structure Identity where
  label : Text
  role : Text
  handle : Text
  record : Credential
  deriving DecidableEq, Repr

structure Inventory where
  sourceDigest : Text
  routes : List Record
  deriving DecidableEq, Repr

structure Pair where
  method : Text
  routeTemplate : Text
  fixtureBindings : List (Text × Text)
  marker : Option Text
  bindingsSha256 : String
  deriving DecidableEq, Repr

structure Plan where
  scopeId : Text
  origin : Text
  host : Text
  authorized : Bool
  contextState : ContextState
  identities : List Identity
  inventory : Option Inventory
  inventorySource : String
  pairs : List Pair
  notExecuted : List NotExecuted
  maxOps : ℤ
  effectiveMaxOps : ℤ
  planSha256 : String
  deriving DecidableEq, Repr

variable (S : Surroundings)

def verifiedScope (scopeId : Text) : Except String Scope := do
  require (scopeId ≠ []) "signed scope is required"
  valueOr "signed scope is unknown, invalid, unbound, or expired" (S.scope scopeId)

/-- The test of `_authorize`. -/
def Scope.lists (scope : Scope) (host : Text) : Bool :=
  match scope.targetAllowlist with
  | .arr entries => !host.isEmpty && entries.any fun entry => stringOf entry = some host
  | _ => false

def originOf (baseUrl : Text) : Except String (Text × Text) :=
  match NetworkGuard.Runner.normalizeTargetOrigin S.host baseUrl with
  | .ok origin => .ok (origin, origin.drop (points "https://").length)
  | .error _ => .error "base URL is not an exact public https origin"

def isLabel (t : Text) : Bool :=
  let start (c : ℕ) := isDigit c || (0x61 ≤ c && c ≤ 0x7a)
  t.length ≤ 32 && t.head?.any start && t.all fun c => start c || (points "_-").contains c

def isHex32 (t : Text) : Bool := t.length = 32 && t.all isLowerHex

def readArgument : Value → Except String (Text × Text)
  | .arr [.str label, .str handle] => do
    require (isLabel label ∧ isHex32 handle) "plan must be a label and a credential handle"
    return (label, handle)
  | _ => .error "plan must be a label and a credential handle"

def planArguments : Value → Except String (List (Text × Text))
  | .arr items => do
    let result ← items.mapM readArgument
    match result with
    | [] => return []
    | [lower, higher] => do
      require (lower.1 ≠ higher.1 ∧ lower.2 ≠ higher.2) "plan labels and handles must differ"
      return [lower, higher]
    | _ => .error "exactly two plans are required"
  | _ => .error "plans must be label and handle pairs"

def minMaxOps : ℤ := 2
def maxMaxOps : ℤ := 100

def maxOpsOf : Value → Except String ℤ
  | .int n => do
    require (minMaxOps ≤ n ∧ n ≤ maxMaxOps) "max ops must be an integer from 2 to 100"
    return n
  | _ => .error "max ops must be an integer from 2 to 100"

/-- The whole number under `max_requests`. -/
def maxRequestsOf : Value → Option ℤ
  | .obj fields =>
    match member fields "max_requests" with
    | .int n => some n
    | _ => none
  | _ => none

def effectiveMaxOps (scope : Scope) (maxOps : ℤ) (scopeId : Text) : Except String ℤ := do
  let limit := maxRequestsOf scope.rateAndResourceLimits
  let effective := limit.elim maxOps (min maxOps)
  require (∀ n ∈ limit, S.scopeRunCount scopeId < n) "scope run budget is exhausted"
  require (minMaxOps ≤ effective) "scope permits fewer than two requests"
  return effective

def isIdentifier (t : Text) : Bool :=
  1 ≤ t.length && t.length ≤ 128 && t.all fun c => isLetter c || isDigit c ||
    (points "_.:-").contains c

/-- `_DIGEST`. -/
def isDigest (t : Text) : Bool := t.length = 64 && t.all isLowerHex

/-- `_route_record` of a canonical record. -/
def routeRecord (value : Value) : Except String Record := do
  let fields ← valueOr "invalid route metadata" (closedFields routeFields value)
  let method ← valueOr "invalid route method" (stringOf (member fields "method"))
  require (method ∈ [points "GET", points "HEAD"]) "invalid route method"
  let template ← valueOr "route template must be text" (stringOf (member fields "route_template"))
  let (route, placeholders) ← normalizeRouteTemplate S.nfc template
  require (route = template) "route metadata is not NFC canonical"
  require (textsOf (member fields "placeholders") = some placeholders)
    "route placeholder metadata mismatch"
  let operationId ← valueOr "invalid operation ID" (stringOf (member fields "operation_id"))
  require (isIdentifier operationId) "invalid operation ID"
  return ⟨method, route, operationId, placeholders⟩

def envelopeFields : List String :=
  ["schema_version", "namespace", "origin", "verification_record_digest"]

def SetupStore.validateEnvelope (store : SetupStore) (schema payloadField : String)
    (value : Value) :
    Except String Value := do
  let fields ← valueOr "invalid context-bound runner state"
    (closedFields ((envelopeFields ++ [payloadField]).map points) value)
  require (stringOf (member fields "schema_version") = some (points schema) ∧
    stringOf (member fields "namespace") = some store.contextNamespace ∧
    stringOf (member fields "origin") = some store.origin ∧
    stringOf (member fields "verification_record_digest") = some store.verificationRecordDigest)
    "runner state context mismatch"
  return member fields payloadField

def inventoryLocked (store : SetupStore) (value : Value) : Except String Inventory := do
  let payload ← store.validateEnvelope "heel.runner-route-inventory.v1" "inventory" value
  let fields ← valueOr "invalid route inventory"
    (closedFields (["source_digest", "routes"].map points) payload)
  let sourceDigest ← valueOr "invalid OpenAPI source digest"
    (stringOf (member fields "source_digest"))
  require (isDigest sourceDigest) "invalid OpenAPI source digest"
  match member fields "routes" with
  | .arr items => do
    require (items.length ≤ 2000) "invalid route inventory"
    let routes ← items.mapM (routeRecord S)
    require (routes = sortBy Record.key routes) "route inventory is not canonical"
    return ⟨sourceDigest, routes⟩
  | _ => .error "invalid route inventory"

def routeInventory (store : SetupStore) (artifact : Option Value) : Except String Inventory := do
  let value ← valueOr "route inventory is unavailable" (artifact.or store.routesFile)
  inventoryLocked S store value

def part (v : Value) (name : String) : Value :=
  match v with
  | .obj fields => member fields name
  | _ => .null

def ordinalOf (mapping : Value) : Option ℕ := do
  let scenario ← stringOf (part mapping "scenario_id")
  catalog.findIdx? fun entry => points entry.scenarioId = scenario

/-- What `_mappings_locked` checks of the records. -/
def listMappings (store : SetupStore) : Except String (List Value) := do
  let records ← store.mappingRecords
  require (records.length ≤ 4) "invalid scenario mappings"
  let ordinals ← valueOr "unknown scenario mapping" (records.mapM ordinalOf)
  require (ordinals.Pairwise (· < ·)) "scenario mappings are not canonical"
  return records

def roles : List Text := ["lower_plan", "higher_plan"].map points

def resolveIdentity (records : List Credential) (argument : Text × Text) (role : Text) :
    Except String Identity :=
  match records.filter fun record => record.credentialHandleId = argument.2 with
  | [record] => do
    require (record.state = points "active" ∧ record.semanticRole = role)
      "credential handle does not resolve to its plan role"
    return ⟨argument.1, role, argument.2, record⟩
  | _ => .error "credential handle does not resolve to its plan role"

def resolveIdentities (store : SetupStore) (arguments : List (Text × Text)) :
    Except String (List Identity) := do
  let records ← store.credentials
  let identities ← (arguments.zip roles).mapM fun (argument, role) =>
    resolveIdentity records argument role
  require ((identities.map fun i => i.record.authProfile).dedup.length = 1)
    "both plans require the same auth profile"
  return identities

/-- The identities of a plan; a dry run has none. -/
def identitiesOf (store : SetupStore) (arguments : List (Text × Text)) : Except String
    (List Identity) :=
  if arguments = [] then .ok [] else resolveIdentities store arguments

/-- A text as JSON of the contracts, where it has no lone surrogate. -/
def textJson (t : Text) : Except String Json :=
  let character (c : ℕ) : Option Char := if c.isValidChar then some (Char.ofNat c) else none
  valueOr "not canonical JSON" ((t.mapM character).map fun cs => .str (String.ofList cs))

def canonicalDigest (value : Json) : Except String String :=
  match Json.canonicalDigest S.platform value with
  | .ok digest => .ok digest
  | .error refusal => .error refusal.reason

def bindingJson (binding : Text × Text) : Except String Json := do
  let name ← textJson binding.1
  let fixture ← textJson binding.2
  return .obj [("parameter_name", name), ("fixture_id", fixture)]

def bindingsSha256 (bindings : List (Text × Text)) : Except String String := do
  let items ← (sortBy Prod.fst bindings).mapM bindingJson
  canonicalDigest S (.arr items)

def markerOf (bindings : List (Text × Text)) : Option Text :=
  match (bindings.map Prod.snd).filter fun value => (points "heel-canary-").isPrefixOf value with
  | [marker] => some marker
  | _ => none

def pairOf (p : Planned) : Except String Pair := do
  let digest ← bindingsSha256 S p.fixtureBindings
  return ⟨p.method, p.routeTemplate, p.fixtureBindings,
    if p.method = points "HEAD" then none else markerOf p.fixtureBindings, digest⟩

def Pair.planned (p : Pair) : Planned := ⟨p.method, p.routeTemplate, p.fixtureBindings⟩

def overBudget (p : Planned) : NotExecuted := ⟨p.method, p.routeTemplate, "over_budget"⟩

def identityJson (i : Identity) : Except String Json := do
  let label ← textJson i.label
  let role ← textJson i.role
  let handle ← textJson i.handle
  return .obj [("label", label), ("role", role), ("credential_handle", handle)]

def pairJson (p : Text × Text × String) : Except String Json := do
  let method ← textJson p.1
  let template ← textJson p.2.1
  return .obj [("method", method), ("route_template", template),
    ("fixture_bindings_sha256", .str p.2.2)]

structure Digested where
  origin : Text
  scopeId : Text
  identities : List Identity
  sourceDigest : Option Text
  pairs : List (Text × Text × String)
  effectiveMaxOps : ℤ

def Plan.digested (p : Plan) : Digested where
  origin := p.origin
  scopeId := p.scopeId
  identities := p.identities
  sourceDigest := p.inventory.map Inventory.sourceDigest
  pairs := p.pairs.map fun pair => (pair.method, pair.routeTemplate, pair.bindingsSha256)
  effectiveMaxOps := p.effectiveMaxOps

def Digested.sha256 (d : Digested) : Except String String := do
  let origin ← textJson d.origin
  let scopeId ← textJson d.scopeId
  let plans ← d.identities.mapM identityJson
  let sourceDigest ← d.sourceDigest.elim (.ok .null) textJson
  let pairs ← d.pairs.mapM pairJson
  canonicalDigest S (.obj [("origin", origin), ("scope_id", scopeId), ("plans", .arr plans),
    ("inventory_source_digest", sourceDigest), ("pairs", .arr pairs),
    ("effective_max_ops", .int d.effectiveMaxOps)])

def digestPlan (p : Plan) : Except String Plan := do
  let planSha256 ← p.digested.sha256 S
  return { p with planSha256 }

def recordValue (r : Record) : Value :=
  .obj [(points "method", .str r.method), (points "route_template", .str r.routeTemplate),
    (points "operation_id", .str r.operationId),
    (points "placeholders", .arr (r.placeholders.map .str))]

/-- The routes that the planner sees: it sees those of a supplied artifact before the store does. -/
def seenRoutes (store : SetupStore) : Option Value → Except String Value
  | none => do
    let inventory ← routeInventory S store none
    return .arr (inventory.routes.map recordValue)
  | some artifact => return part (part artifact "inventory") "routes"

/-- The planner and the store on one inventory. -/
def readPlan (store : SetupStore) (artifact : Option Value) :
    Except String (List Planned × List NotExecuted × Inventory) := do
  let routes ← seenRoutes S store artifact
  let mappings ← listMappings store
  let mapping := mappings.find? fun mapping =>
    stringOf (part mapping "scenario_id") = some (points planDifferentialScenario)
  let (planned, skipped) ← planDifferentialPairs S.nfc routes mapping
  let inventory ← routeInventory S store artifact
  return (planned, skipped, inventory)

/-- The planned pairs and the routes left, where a replay asks for one pair `only`. -/
def chosen (only : Option (Text × Text)) (planned : List Planned) (skipped : List NotExecuted) :
    List Planned × List NotExecuted :=
  match only with
  | none => (planned, skipped)
  | some route => (planned.filter fun p => p.route = route, [])

def firstPlan (q : Request) (scope : Scope) (origin host : Text) (state : ContextState)
    (maxOps effective : ℤ) : Plan where
  scopeId := q.scopeId
  origin := origin
  host := host
  authorized := scope.lists host
  contextState := state
  identities := []
  inventory := none
  inventorySource := if q.routesArtifact.isNone then "default" else "file"
  pairs := []
  notExecuted := []
  maxOps := maxOps
  effectiveMaxOps := effective
  planSha256 := ""

def prepare (q : Request) (bind : Bool) (only : Option (Text × Text)) : Except String Plan := do
  let _ ← verifiedScope S q.scopeId
  let (origin, host) ← originOf S q.baseUrl
  let maxOps ← maxOpsOf q.maxOps
  let arguments ← planArguments q.plans
  require (q.routesArtifact.all isObject) "routes must be an imported inventory artifact"
  let scope ← verifiedScope S q.scopeId
  let effective ← effectiveMaxOps S scope maxOps q.scopeId
  let opened := S.setupStore origin host false
  let (setup, state) :=
    if opened.2 = .unbound ∧ scope.lists host = true ∧ bind = true ∧ arguments = [] then
      S.setupStore origin host true
    else opened
  let plan := firstPlan q scope origin host state maxOps effective
  match setup with
  | none => do
    require (¬ (arguments ≠ [] ∧ state = .unbound)) "credential handles require a bound setup store"
    digestPlan S plan
  | some store => do
    let identities ← identitiesOf store arguments
    match readPlan S store q.routesArtifact with
    | .error _ => do
      require (q.routesArtifact.isNone ∧ identities = []) "imported route inventory is unavailable"
      digestPlan S { plan with identities }
    | .ok (planned, skipped, inventory) =>
      if identities = [] then digestPlan S { plan with identities, inventory := some inventory }
      else do
        let pairs ← planned.mapM (pairOf S)
        let (pairs, skipped) := match only with
          | none => (pairs, skipped)
          | some route => (pairs.filter fun p => p.planned.route = route, [])
        let allowed := (effective / 2).toNat
        digestPlan S
          { plan with
            identities, inventory := some inventory, pairs := pairs.take allowed
            notExecuted := skipped ++ (pairs.drop allowed).map fun p => overBudget p.planned }

end Heel.PlanPrepare
