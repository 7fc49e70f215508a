import Mathlib.Data.List.Sort
import Heel.Lib.Dict
import Heel.Product.ProductModel

/-! The static comparison of two product models and its launch gate (`static_review.py`). -/
namespace Heel.Product
open Lib Lib.JsonText Lib.Checks Heel.Content

def surfaceFields : List String :=
  ["endpoints_routes", "exports", "meters", "billing_objects", "plans", "coupons_promotions",
    "features_flags", "integration_oauth_apps", "webhooks", "support_admin_actions", "agent_tools",
    "mcp_connectors", "tenants", "data_classes", "declared_controls"]

def missingValues : List Text :=
  ["", "missing", "none", "false", "disabled", "off", "no", "weak", "client", "client_only"].map
    points

def lowReachPlans : List Text := ["trial", "free", "starter", "basic"].map points
def lowReachRoles : List Text := ["anonymous", "member", "user", "anyone"].map points

def scopeRank : List (Text × ℕ) :=
  [("own_tenant", 1), ("tenant", 1), ("workspace", 2), ("org", 3), ("global", 4),
    ("all_tenants", 4),
    ("all", 4)].map fun p => (points p.1, p.2)

def broadScopeValues : List Text :=
  ["*", "all", "admin", "full", "full_access", "read_write_all",
    "global", "all_tenants", "read:all",
    "write:all"].map points

def truthyWords : List Text :=
  ["true", "yes", "on", "enabled", "billable", "metered", "paid"].map points

structure ChangedSurface where
  surfaceType : String
  surfaceId : Text
  changeType : String
  before : Option Fields
  after : Fields

inductive Severity where
  | warn
  | block
  deriving DecidableEq, Repr

structure RiskFinding where
  surfaceType : String
  surfaceId : Text
  risk : String
  severity : Severity
  control : String
  reason : Text
  reachable : Bool
  evidenceState : String
  ruleSource : Text
  executionDisposition : String
  deriving DecidableEq

structure SuggestedRegression where
  surfaceType : String
  surfaceId : Text
  name : Text
  expectedStatus : String
  scenarioHint : String
  safety : String

inductive GateStatus where
  | pass
  | warn
  | block
  deriving DecidableEq, Repr

/-- `LaunchReview`, whose recommended controls are its affordances and whose safety is fixed. -/
structure LaunchReview where
  productId : Text
  changedSurfaces : List ChangedSurface
  newAbuseAffordances : List RiskFinding
  highRiskMissingControls : List RiskFinding
  recommendedControls : List RiskFinding
  suggestedRegressionTests : List SuggestedRegression
  launchGateStatus : GateStatus

variable (B : Builtins)

/-- `_first`, where `None` stands for a name that is not there. -/
def first (props : Fields) (names : List String) : Value :=
  ((names.find? fun name => has props (points name)).bind
    fun name => get props (points name)).getD .null

/-- `str(value or "")`. -/
def strOr (v : Value) : Text := if truthy v then strOf B v else []

def lowered (props : Fields) (names : List String) : Text := B.lower (strOr B (first props names))

def isTrue : Option Value → Bool
  | some (.bool b) => b
  | _ => false

def isFalse : Option Value → Bool
  | some (.bool b) => !b
  | _ => false

def badControl : Value → Bool
  | .bool b => !b
  | .str s => missingValues.contains (B.lower (strip s))
  | _ => false

/-- `_truthy`. -/
def saysYes : Value → Bool
  | .bool b => b
  | .int n => n ≠ 0
  | .float x => x ≠ .finite 0
  | .str s => truthyWords.contains (B.lower (strip s))
  | _ => false

def reachable (props : Fields) : Bool :=
  if isFalse (get props (points "reachable")) then false
  else if saysYes B ((get props (points "reachable")).getD .null) then true
  else
    lowReachPlans.contains (lowered B props
      ["reachable_by_plan", "granted_plan", "current_plan"]) ||
      lowReachRoles.contains
        (lowered B props ["reachable_by_role", "installable_by_role", "granted_role"])

def number (v : Value) : Except Raised Binary64 :=
  match B.float v with
  | .error .overflowError => .error .overflowError
  | .error _ => .ok (.finite 0)
  | .ok x => .ok x

def atLeastNinety : Binary64 → Bool
  | .finite x => 90 ≤ x
  | .infinity negative => !negative
  | .nan => false

def toList : Value → List Text
  | .null => []
  | .arr items => items.map (strOf B)
  | .str s =>
    if comma ∈ s then ((s.splitOn comma).map strip).filter (· ≠ []) else [s]
  | v => [strOf B v]

def isBroadScope (s : Text) : Bool := broadScopeValues.contains (B.lower (strip s))

def rankOf (scope : Text) : ℕ := ((scopeRank.find? fun p => p.1 = scope).map Prod.snd).getD 0

def scopeWider (granted intended : Text) : Bool :=
  decide (rankOf intended < rankOf granted) || (isBroadScope B granted && granted ≠ intended)

def textOf (props : Fields) (names : List String) : Text :=
  B.lower ([0x20].intercalate
    (names.map fun name => ((get props (points name)).map (strOf B)).getD []))

def orElse (a b : Option Value) : Value := if a.any truthy then a.getD .null else b.getD .null

/-- A reason, around the identifier of the surface. -/
def about (surface : ChangedSurface) (change reason : String) : Text :=
  points change ++ surface.surfaceId ++ points reason

def finding (surface : ChangedSurface) (risk : String) (severity : Severity) (control : String)
    (reason : Text) (reachable : Bool) : RiskFinding where
  surfaceType := surface.surfaceType
  surfaceId := surface.surfaceId
  risk := risk
  severity := severity
  control := control
  reason := points
      (if truthy (orElse (get surface.after (points "business_rule"))
          (get surface.after (points "required_plan"))) then
        "Customer-declared model hypothesis; behavior unverified. "
      else "Investigation prompt; intended product rule unknown and behavior unverified. ") ++
    reason
  reachable := reachable
  evidenceState := "inferred"
  ruleSource := strOf B (orElse (get surface.after (points "rule_source"))
    (some (.str (points "unknown"))))
  executionDisposition := "static_only"

def blockIf (b : Bool) : Severity := if b then .block else .warn

def exportRisks (surface : ChangedSurface) : List RiskFinding :=
  let props := surface.after
  let reached := reachable B props
  if isTrue (get props (points "bulk_access_permitted")) then []
  else
    (if badControl B (first props ["entitlement_check", "authz_check",
        "guard", "guard_present"]) then
      [finding B surface "export_without_entitlement"
        (blockIf reached) "server-side entitlement check"
        (about surface "new " " export reachable without server-side entitlement check") reached]
    else []) ++
    if badControl B (first props ["tenant_quota", "quota", "rate_limit", "export_limit"]) then
      [finding B surface "export_without_tenant_quota" (blockIf reached) "tenant quota"
        (about surface "new " " export lacks tenant quota or rate limit") reached]
    else []

def uiBackingEndpointRisks (surface : ChangedSurface) : List RiskFinding :=
  let props := surface.after
  let uiBacking := saysYes B
    (first props ["ui_backing_endpoint", "interactive_ui_endpoint", "browser_endpoint"])
  let paidEquivalent := saysYes B
    (first props ["paid_api_equivalent", "bulk_api_equivalent", "api_equivalent"])
  let required := lowered B props ["required_plan", "entitlement_plan", "min_plan", "plan_required"]
  let reached := lowered B props
    ["reachable_by_plan", "granted_plan", "current_plan", "observed_plan"]
  let planMismatch := required ≠ [] && reached ≠ [] && required ≠ reached
  let entitlementMissing := badControl B
    (first props ["entitlement_check", "authz_check", "guard", "guard_present"])
  let quotaMissing := badControl B
    (first props ["lookup_quota", "lookup_limit", "rate_limit", "tenant_quota", "quota"])
  let automationMissing := badControl B
    (first props ["automation_guard", "anti_automation", "bot_protection", "human_challenge"])
  let signal := reachable B props || planMismatch
  if !(uiBacking && paidEquivalent) then []
  else if !(planMismatch || entitlementMissing || quotaMissing || automationMissing) then []
  else
    [finding B surface "ui_backing_endpoint_paid_api_bypass" (blockIf signal)
      "shared UI/API entitlement and lookup quota"
      (about surface "new " " UI backing endpoint can be scripted as unpriced bulk API access")
        signal]

def endpointRisks (surface : ChangedSurface) : List RiskFinding :=
  let props := surface.after
  let reached := reachable B props
  uiBackingEndpointRisks B surface ++
    if points "export" <:+: textOf B props ["id", "name", "route", "path"] then
      exportRisks B surface
    else if badControl B (first props ["tenant_filter", "tenant_check", "tenant_isolation"]) then
      [finding B surface "endpoint_without_tenant_filter" (blockIf reached) "tenant filter"
        (about surface "new " " endpoint lacks server-side tenant filtering") reached]
    else []

def meterRisks (surface : ChangedSurface) : List RiskFinding :=
  let props := surface.after
  let accountingMissing := badControl B
    (first props ["server_side_accounting", "server_authoritative", "meter_accounting"])
  let quotaMissing := badControl B (first props ["quota", "cost_ceiling", "spend_limit"])
  if !saysYes B (first props ["billable", "cost_bearing", "metered", "charges_money"]) then []
  else if !(accountingMissing || quotaMissing) then []
  else
    [finding B surface "unmetered_billable_resource" .warn
      "server-side meter accounting and cost ceiling"
      (about surface "new " " billable surface lacks server-side accounting or cost ceiling")
        (reachable B props)]

def couponRisks (surface : ChangedSurface) : Except Raised (List RiskFinding) :=
  let props := surface.after
  let stackable := saysYes B ((get props (points "stackable")).getD .null)
  let redemptionMissing := badControl B
    (first props ["redemption_limit", "max_redemptions", "per_account_limit",
    "proof_of_uniqueness"])
  if isTrue (get props (points "stacking_permitted")) then .ok []
  else if !(stackable && redemptionMissing) then .ok []
  else do
    let discount ← number B (first props ["discount_percent", "discount"])
    let appliesTo := B.lower (((get props (points "applies_to")).map (strOf B)).getD [])
    let severeDiscount := atLeastNinety discount || appliesTo = points "all_plans" ||
      appliesTo = points "all"
    return [finding B surface "stackable_coupon_without_redemption_limit"
      (blockIf (severeDiscount && reachable B props)) "redemption limit and proof of uniqueness"
      (about surface "new " " stackable coupon lacks redemption limit") (reachable B props)]

def oauthRisks (surface : ChangedSurface) : List RiskFinding :=
  let props := surface.after
  let clean (names : List String) : List Text :=
    (toList B (first props names)).map fun s => B.lower (strip s)
  let scopeValue := B.lower
    (strip (strOr B (first props ["scope", "granted_scope", "oauth_scope"])))
  let granted := clean ["granted_scopes", "scopes"]
  let needed := clean ["needed_scopes", "required_scopes", "intended_scopes"]
  let excess := granted ≠ [] && needed ≠ [] && !granted.all needed.contains
  let auto := saysYes B (first props ["auto_approved", "auto_install", "default_approved"])
  let lowRole := lowReachRoles.contains
    (lowered B props ["installable_by_role", "reachable_by_role", "role"])
  if !(isBroadScope B scopeValue || granted.any (isBroadScope B) || excess) then []
  else
    [finding B surface "oauth_scope_overbroad" (blockIf (auto && lowRole))
      "OAuth scope minimization and approval"
      (about surface "new " " OAuth app grants overbroad scope")
      (reachable B props || auto || lowRole)]

def adminActionRisks (surface : ChangedSurface) : List RiskFinding :=
  let props := surface.after
  let required := lowered B props ["required_role", "min_role", "intended_role"]
  let reached := lowered B props ["reachable_by_role", "granted_role", "observed_role"]
  let auditMissing := badControl B (first props ["audit_logged", "audit_event", "audit_event_id"])
  let roleMismatch := reached ≠ [] && reached ≠ required &&
    (["member", "user", "support"].map points).contains reached
  if required = [] && !auditMissing then []
  else if !(roleMismatch || auditMissing) then []
  else
    [finding B surface "admin_action_without_role_or_audit_control"
      (blockIf (roleMismatch && auditMissing)) "admin role gate and audit event"
      (about surface "new " " support/admin action lacks role or audit controls")
      (reachable B props || roleMismatch)]

def agentSurfaceRisks (surface : ChangedSurface) : List RiskFinding :=
  let props := surface.after
  let granted := lowered B props ["granted_scope", "effective_scope", "scope"]
  let intended := lowered B props ["intended_scope", "required_scope", "declared_scope"]
  if granted = [] || intended = [] || !scopeWider B granted intended then []
  else
    [finding B surface "agent_surface_overscope" .block "tool scope minimization"
      (about surface "new " " agent/MCP surface grants " ++ granted ++ points " beyond intended " ++
        intended) true]

def featureFlagRisks (surface : ChangedSurface) : List RiskFinding :=
  let props := surface.after
  let required := lowered B props ["required_plan", "entitlement_plan", "min_plan"]
  let reached := lowered B props ["reachable_by_plan", "granted_plan", "current_plan"]
  let clientGate := (["client", "client_only"].map points).contains
    (lowered B props ["gated_by", "guard"])
  if !(required ≠ [] && reached ≠ [] && required ≠ reached) && !clientGate then []
  else
    [finding B surface "feature_flag_plan_mismatch" .warn "server-side feature entitlement check"
      (about surface "new " " feature flag may be reachable outside intended plan")
      (reachable B props)]

def tenantDataControlRisks (surface : ChangedSurface) : List RiskFinding :=
  let props := surface.after
  let controlRemoved := surface.surfaceType = "declared_controls" &&
    (["removed", "disabled"].map points).contains
      (B.lower (((get props (points "status")).map (strOf B)).getD []))
  let sensitiveData := surface.surfaceType = "data_classes" &&
    saysYes B (first props ["sensitive", "regulated", "customer_data"])
  if !(controlRemoved || sensitiveData) then []
  else
    [finding B surface "tenant_or_data_control_change" .warn "tenant/data control review"
      (about surface "changed " " tenant/data control needs abuse review") false]

def riskFindings (surface : ChangedSurface) : Except Raised (List RiskFinding) :=
  if surface.surfaceType = "exports" then .ok (exportRisks B surface)
  else if surface.surfaceType = "endpoints_routes" then .ok (endpointRisks B surface)
  else if surface.surfaceType ∈ ["meters", "billing_objects"] then .ok (meterRisks B surface)
  else if surface.surfaceType = "coupons_promotions" then couponRisks B surface
  else if surface.surfaceType = "integration_oauth_apps" then .ok (oauthRisks B surface)
  else if surface.surfaceType = "support_admin_actions" then .ok (adminActionRisks B surface)
  else if surface.surfaceType ∈ ["agent_tools", "mcp_connectors"] then .ok
    (agentSurfaceRisks B surface)
  else if surface.surfaceType = "features_flags" then .ok (featureFlagRisks B surface)
  else if surface.surfaceType ∈ ["tenants", "data_classes", "declared_controls"] then
    .ok (tenantDataControlRisks B surface)
  else .ok []

def surfaceIdOf (props : Fields) (idx : ℕ) : Text :=
  let named := ["id", "name", "route", "path", "tool", "connector", "role", "plan", "event",
    "action"].filterMap fun key => (get props (points key)).filter truthy
  match named.head? with
  | some v => strOf B v
  | none =>
    match get props (points "value") with
    | some v => strOf B v
    | none => intText idx

def ordered (props : Fields) : Fields := props.insertionSort fun a b => a.1 ≤ b.1

def propsOf : Value → Fields
  | .obj fields => fields
  | v => [(points "value", v)]

/-- `_items_by_id`, in the order of the list. -/
def itemsById (field : Option Value) : Except Raised (List (Text × Fields)) :=
  match field with
  | some (.arr items) => do
    let entries := items.zipIdx.map fun p =>
      (surfaceIdOf B (propsOf p.1) p.2, ordered (propsOf p.1))
    require (entries.map Prod.fst).Nodup
      (Raised.productModelError "contains duplicate modeled surface id")
    return entries
  | _ => .ok []

/-- An escape of `json.dumps`, that leaves ASCII only. -/
def asciiEscape (c : ℕ) : Text :=
  let unit (u : ℕ) : Text := points "\\u" ++
    [hexPoint (u / 0x1000), hexPoint (u / 0x100 % 16), hexPoint (u / 0x10 % 16), hexPoint (u % 16)]
  if c < 0x7f then [c]
  else if c < 0x10000 then unit c
  else unit (0xd800 + (c - 0x10000) / 0x400) ++ unit (0xdc00 + (c - 0x10000) % 0x400)

/-- `_stable_json`: nothing outside a string is not ASCII. -/
def stableJson (props : Fields) : Text := (dumps B.repr (.obj props)).flatMap asciiEscape

/-- What `_changed_surfaces` says of one surface of the model after. -/
def compareItem (field : String) (beforeItems : List (Text × Fields)) (item : Text × Fields) :
    Option ChangedSurface :=
  match (beforeItems.find? fun p => p.1 = item.1).map Prod.snd with
  | none => some ⟨field, item.1, "added", none, item.2⟩
  | some old =>
    if stableJson B old ≠ stableJson B item.2 then
      some ⟨field, item.1, "changed", some old, item.2⟩
    else none

def changedSurfaces (before after : Fields) : Except Raised (List ChangedSurface) := do
  let parts ← surfaceFields.mapM fun field => do
    let beforeItems ← itemsById B (get before (points field))
    let afterItems ← itemsById B (get after (points field))
    return (afterItems.insertionSort fun a b => a.1 ≤ b.1).filterMap
      (compareItem B field beforeItems)
  return parts.flatten

/-- A part of a key, as a dictionary compares it: numbers by their value, and what is not a number
as the one object that a parser makes of it. -/
inductive Part where
  | null
  | number (x : ℚ)
  | infinite (negative : Bool)
  | nan
  | text (s : Text)
  deriving DecidableEq

/-- A part that a value makes; an array or an object has no hash. -/
def partOf : Value → Except Raised Part
  | .null => .ok .null
  | .bool b => .ok (.number (if b then 1 else 0))
  | .int n => .ok (.number n)
  | .float (.finite x) => .ok (.number x)
  | .float (.infinity negative) => .ok (.infinite negative)
  | .float .nan => .ok .nan
  | .str s => .ok (.text s)
  | .arr _ => .error .typeError
  | .obj _ => .error .typeError

abbrev Key := (Part × Part) × String

/-- Where a surface is: its method and route, or its own name where it lacks one of them. -/
def locationOf (surface : ChangedSurface) : Except Raised (Part × Part) := do
  let method := (get surface.after (points "method")).getD .null
  let route := (get surface.after (points "route")).getD .null
  if truthy method && truthy route then
    return (← partOf method, ← partOf route)
  else return (.text (points surface.surfaceType), .text surface.surfaceId)

/-- The findings of the surfaces, each with the location of its surface and its risk, in the order
in which they are assigned. -/
def keyedFindings (changed : List ChangedSurface) : Except Raised (List (Key × RiskFinding)) := do
  let parts ← changed.mapM fun surface => do
    return (← riskFindings B surface).map fun risk => (surface, risk)
  parts.flatten.mapM fun p => do return ((← locationOf p.1, p.2.risk), p.2)

def safeId (s : Text) : Text :=
  let mapped := s.map fun c => if B.isAlnum c || (points "._:-").contains c then c else '_'.toNat
  let bare := (mapped.dropWhile (· = '_'.toNat)).reverse.dropWhile (· = '_'.toNat)
  if bare.reverse.take 80 = [] then points "surface" else bare.reverse.take 80

/-- `_suggested_regressions`: one for each surface and risk. -/
def suggestedRegressions (risks : List RiskFinding) : List SuggestedRegression :=
  let seen (out : List RiskFinding) (risk : RiskFinding) : Bool := out.any fun old =>
    (old.surfaceType, old.surfaceId, old.risk) = (risk.surfaceType, risk.surfaceId, risk.risk)
  let once := risks.foldl (fun out risk => if seen out risk then out else out ++ [risk]) []
  once.map fun risk =>
    { surfaceType := risk.surfaceType
      surfaceId := risk.surfaceId
      name := points "launch_review_" ++ safeId B risk.surfaceId ++ points "_" ++
        safeId B (points risk.risk)
      expectedStatus := "blocked"
      scenarioHint := risk.risk
      safety := "model-only, canary-contained; no live probing" }

def gateOf (risks : List RiskFinding) : GateStatus :=
  if risks.any (·.severity = .block) then .block else if risks ≠ [] then .warn else .pass

def reviewProductModels (before after : Fields) : Except Raised LaunchReview := do
  require (isValid B before) (Raised.productModelError "before ProductModel invalid")
  require (isValid B after) (Raised.productModelError "after ProductModel invalid")
  let changed ← changedSurfaces B before after
  let entries ← keyedFindings B changed
  let risks := (Dict.ofList entries).map Prod.snd
  return {
    productId := strOf B (orElse (get after (points "product_id"))
      (some (orElse (get before (points "product_id")) (some (.str [])))))
    changedSurfaces := changed
    newAbuseAffordances := risks
    highRiskMissingControls := risks.filter (·.severity = .block)
    recommendedControls := risks
    suggestedRegressionTests := suggestedRegressions B risks
    launchGateStatus := gateOf risks }

end Heel.Product
