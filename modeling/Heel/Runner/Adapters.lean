import Heel.Lib.Checks
import Heel.Lib.JsonText
import Heel.Lib.Pattern
import Mathlib.Data.List.Lex
import Mathlib.Data.List.Induction
import Mathlib.Order.Defs.LinearOrder

/-! The catalog of launch scenarios, the normal form of a route template (`openapi_routes.py`) and
the binding of fixture values to one action of a manifest (`adapters.py`). The normal form NFC of a
text is a parameter. -/
namespace Heel.Routes
open Lib Lib.JsonText Lib.Checks

structure Adapter where
  scenarioId : String
  adapterVersion : String
  assertionClass : String
  semanticRoles : List String
  allowedMethods : List String
  allowedStatusCodes : List ℤ
  allowedBodyShapes : List String
  sideEffectClass : String
  deriving DecidableEq, Repr

def catalogEntry (scenarioId : String) (semanticRoles allowedMethods : List String)
    (assertionClass : String) (statuses : List ℤ) : Adapter where
  scenarioId := scenarioId
  adapterVersion := "1"
  assertionClass := assertionClass
  semanticRoles := semanticRoles
  allowedMethods := allowedMethods
  allowedStatusCodes := statuses
  allowedBodyShapes := ["absent", "json_object"]
  sideEffectClass := "read_only"

def catalog : List Adapter :=
  [catalogEntry "anonymous_authenticated_read" ["anonymous", "authenticated"] ["GET", "HEAD"]
      "anonymous_authenticated" [200, 401, 403, 404],
    catalogEntry "object_ownership_read" ["object_owner", "non_owner"] ["GET"]
      "object_ownership" [200, 403, 404],
    catalogEntry "role_bound_read" ["lower_privilege", "higher_privilege"] ["GET"]
      "role_boundary" [200, 403, 404],
    catalogEntry "plan_entitlement_read" ["lower_plan", "higher_plan"] ["GET", "HEAD"]
      "plan_entitlement" [200, 402, 403, 404]]

def nonanonymousAuthProfiles : List String := ["bearer", "cookie_jar", "x_api_key"]

/-- `ADAPTER_REGISTRY.get`. -/
def adapterOf (scenarioId : String) : Option Adapter :=
  catalog.find? fun entry => entry.scenarioId = scenarioId

def slash : ℕ := '/'.toNat
def lowLine : ℕ := '_'.toNat

def isLetter (c : ℕ) : Bool := (0x41 ≤ c && c ≤ 0x5a) || (0x61 ≤ c && c ≤ 0x7a)
def nameStart (c : ℕ) : Bool := isLetter c || c = lowLine
def nameRest (c : ℕ) : Bool := nameStart c || isDigit c

/-- The name of a placeholder and what follows its closing brace, read after the opening one. -/
def placeholderAt : Text → Option (Text × Text)
  | [] => none
  | c :: r =>
    let name := c :: r.takeWhile nameRest
    let rest := r.dropWhile nameRest
    if nameStart c && name.length ≤ 64 && rest.head? = some closeBrace then some (name, rest.tail)
    else none

inductive Token where
  | char (c : ℕ)
  | hole (name : Text)
  deriving DecidableEq, Repr

/-- The placeholders of a text, from the left, and the characters between them; `skip` characters of
the last one are still to be passed over. -/
def tokens : ℕ → Text → List Token
  | _, [] => []
  | skip + 1, _ :: r => tokens skip r
  | 0, c :: r =>
    if c = openBrace then
      match placeholderAt r with
      | some (name, _) => .hole name :: tokens (name.length + 1) r
      | none => .char c :: tokens 0 r
    else .char c :: tokens 0 r

def Token.name? : Token → Option Text
  | .char _ => none
  | .hole name => some name

/-- `_PLACEHOLDER.findall`. -/
def placeholdersOf (route : Text) : List Text := (tokens 0 route).filterMap Token.name?

def utf8Size (c : ℕ) : ℕ :=
  if c < 0x80 then 1 else if c < 0x800 then 2 else if c < 0x10000 then 3 else 4

def isControl (c : ℕ) : Bool := c < 0x20 || (0x7f ≤ c && c ≤ 0x9f)

def hasDoubleSlash (route : Text) : Bool := [slash, slash] <:+: route

def segments (route : Text) : List Text := route.splitOn slash

def dotSegments : List Text := [points ".", points ".."]

def textOrder (a b : Text) : Bool := decide (a ≤ b)

def unsafeTemplate : String := "unsafe route template"

/-- `normalize_route_template`: the route and its placeholders in order. -/
def normalizeRouteTemplate (nfc : Text → Text) (value : Text) : Except String (Text × List Text) :=
  do
  let route := nfc value
  require (route.head? = some slash) unsafeTemplate
  require (!route.any isSurrogate) "surrogates not allowed"
  require ((route.map utf8Size).sum ≤ 1024 && !route.any isControl &&
    !route.any (points "%\\?#").contains && !hasDoubleSlash route) unsafeTemplate
  require (!(segments route).tail.any dotSegments.contains) unsafeTemplate
  let placeholders := placeholdersOf route
  require (route.count openBrace = placeholders.length && route.count closeBrace =
    placeholders.length &&
    decide placeholders.Nodup) "unsafe route placeholder"
  return (route, placeholders.mergeSort textOrder)

structure Binding where
  parameterName : Text
  fixtureId : Text
  deriving DecidableEq, Repr

/-- An action of a manifest: exactly the keys of the closed schema. -/
structure Action where
  ordinal : ℤ
  scenarioId : String
  adapterVersion : String
  method : String
  routeTemplate : Text
  fixtureBindings : List Binding
  semanticAuthRole : String
  authProfile : String
  assertionClass : String
  allowedStatusCodes : List ℤ
  allowedBodyShapes : List String
  sideEffectClass : String
  deriving DecidableEq, Repr

structure PreparedAction where
  scenarioId : String
  adapterVersion : String
  method : String
  route : Text
  semanticAuthRole : String
  authProfile : String
  sideEffectClass : String
  deriving DecidableEq, Repr

def exactAction (action : Action) : Except String Adapter := do
  match adapterOf action.scenarioId with
  | none => .error "action scenario is not in the launch registry"
  | some adapter =>
    require (action.adapterVersion = adapter.adapterVersion)
      "action adapter_version does not match the launch adapter"
    require (action.assertionClass = adapter.assertionClass)
      "action assertion_class does not match the launch adapter"
    require (action.sideEffectClass = adapter.sideEffectClass)
      "action side_effect_class does not match the launch adapter"
    require (adapter.allowedMethods.contains action.method)
      "action method is not permitted by the launch adapter"
    require (adapter.semanticRoles.contains action.semanticAuthRole)
      "action semantic role does not match the launch adapter"
    require (action.allowedStatusCodes = adapter.allowedStatusCodes)
      "action status contract does not match the launch adapter"
    require (action.allowedBodyShapes = adapter.allowedBodyShapes)
      "action body contract does not match the launch adapter"
    require (0 ≤ action.ordinal) "action ordinal must be a non-negative integer"
    return adapter

def fixtureCharacter (c : ℕ) : Bool := isLetter c || isDigit c || (points "._~:-").contains c

def fixtureSegment (s : Text) : Bool := 1 ≤ s.length && s.length ≤ 128 && s.all fixtureCharacter

/-- One pass over the bindings, the names unique and the values segments. -/
def boundValues : List Binding → List (Text × Text) → Except String (List (Text × Text))
  | [], bound => return bound
  | binding :: bindings, bound => do
    require (fixtureSegment binding.fixtureId && !dotSegments.contains binding.fixtureId)
      "fixture binding is invalid"
    require (!(bound.map Prod.fst).contains binding.parameterName) "fixture bindings must be unique"
    boundValues bindings (bound ++ [(binding.parameterName, binding.fixtureId)])

/-- `str.replace` of a text that is not empty. -/
def replaceAll (old new s : Text) : Text := (Pattern.word old).sub new 0 s

def placeholder (name : Text) : Text := openBrace :: name ++ [closeBrace]

def valueOf (bound : List (Text × Text)) (name : Text) : Text := (bound.lookup name).getD []

/-- The replacements, one name after another. -/
def replaceNames (bound : List (Text × Text)) (names : List Text) (route : Text) : Text :=
  names.foldl (fun route name => replaceAll (placeholder name) (valueOf bound name) route) route

/-- The profile that the role of the action may use. -/
def requireProfile (role profile : String) : Except String Unit :=
  if role = "anonymous" then
    require (profile = "anonymous") "anonymous action requires the anonymous auth profile"
  else
    require (nonanonymousAuthProfiles.contains profile)
      "nonanonymous action requires one closed auth profile"

def prepareAction (nfc : Text → Text) (action : Action)
    (fixtureValues : Option (List (Text × Text)))
    (authProfile : Option String) : Except String PreparedAction := do
  let adapter ← exactAction action
  let (template, placeholders) ← normalizeRouteTemplate nfc action.routeTemplate
  let bound ← boundValues action.fixtureBindings []
  require ((bound.map Prod.fst).mergeSort textOrder = placeholders)
    "fixture bindings must exactly cover route placeholders"
  require ((fixtureValues.map fun values => values.isPerm bound).getD true)
    "fixture values cannot override the approved manifest binding"
  let (route, remaining) ← normalizeRouteTemplate nfc (replaceNames bound placeholders template)
  require (remaining = []) "prepared route retains a placeholder"
  let selectedProfile := authProfile.getD action.authProfile
  require (action.authProfile = selectedProfile) "auth profile cannot override the approved action"
  requireProfile action.semanticAuthRole selectedProfile
  return {
    scenarioId := action.scenarioId
    adapterVersion := adapter.adapterVersion
    method := action.method
    route := route
    semanticAuthRole := action.semanticAuthRole
    authProfile := selectedProfile
    sideEffectClass := "read_only" }

end Heel.Routes
