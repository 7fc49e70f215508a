import Heel.Runner.ContentAssertion

/-! The predicates of a plan-differential run (`plan_differential.py`): the walks over two parsed
bodies and the decision on a pair. -/
namespace Heel.PlanDifferential
open Lib Lib.JsonText Lib.Checks Heel.Content
variable (W : Words)

def maxKeyPathDepth : ℕ := 16
def maxKeyPathNodes : ℕ := 4096

def metacharacters : List ℕ := [backslash, period, openBracket, closeBracket]

/-- One object key as a segment, the four metacharacters of the renderer escaped. -/
def pathSegment (key : Text) : Text :=
  key.flatMap fun c => if metacharacters.contains c then [backslash, c] else [c]

def fieldPath (path key : Text) : Text := path ++ period :: pathSegment key
def elementPath (path : Text) : Text := path ++ [openBracket, closeBracket]

/-- A low line between a small letter or a digit and the capital after it. -/
def separated : Text → Text
  | c :: d :: r =>
    if (isLower c || isDigit c) && isUpper d then c :: '_'.toNat :: separated (d :: r)
    else c :: separated (d :: r)
  | s => s

def secretParts : List Text :=
  [points "authorization", points "cookie", points "password", points "passwd", points "secret",
    points "token"]
def secretCompacts : List Text :=
  [points "apikey", points "xapikey", points "accesstoken", points "refreshtoken",
    points "clientsecret", points "proxyauthorization", points "setcookie"]

/-- `_secret_key` of the redactor. -/
def secretKey (key : Text) : Bool :=
  let runs := (W.casefold (separated key)).splitOnP fun c => !(isUpper c || isLower c || isDigit c)
  let parts := (runs.filter fun part => part ≠ []).dedup
  parts.any secretParts.contains || secretCompacts.contains (W.arrange parts).flatten

/-- A node that a walk has not visited yet. -/
structure Pending where
  node : Value
  path : Text
  depth : ℕ

def Pending.children (top : Pending) : List Pending :=
  match top.node with
  | .obj fields => ((fields.filter fun (key, _) => !secretKey W key).map fun (key, child) =>
      ⟨child, fieldPath top.path key, top.depth + 1⟩).reverse
  | .arr items => (items.map fun child => ⟨child, elementPath top.path, top.depth + 1⟩).reverse
  | _ => []

/-- The walk of a body, with the nodes that may still be visited; `found` is what a visit adds. -/
def walk (found : Value → Text → List Text) :
    ℕ → List Pending → List Text → Except Raised (List Text)
  | _, [], paths => .ok paths
  | 0, _ :: _, _ => .error .bodyTooComplex
  | n + 1, top :: stack, paths =>
    if maxKeyPathDepth < top.depth then .error .bodyTooComplex
    else walk found n (top.children W ++ stack) (paths ++ found top.node top.path)

def root : Text := points "$"

/-- A visit to an object adds its keys, to an array its element path. -/
def keysFound : Value → Text → List Text
  | .obj fields, path => fields.map fun (key, _) => fieldPath path key
  | .arr _, path => [elementPath path]
  | _, _ => []

/-- A visit adds where the value is truthy, and no key that names a secret. -/
def materialFound : Value → Text → List Text
  | .obj fields, path => (fields.filter fun (key, child) => !secretKey W key && truthy child).map
      fun (key, _) => fieldPath path key
  | .arr items, path => if items.any truthy then [elementPath path] else []
  | _, _ => []

def keyPaths (value : Value) : Except Raised (List Text) :=
  walk W keysFound maxKeyPathNodes [⟨value, root, 0⟩] []

def materialPaths (value : Value) : Except Raised (List Text) :=
  walk W (materialFound W) maxKeyPathNodes [⟨value, root, 0⟩] []

/-- `a >= b` of two sets. -/
def covers (a b : List Text) : Bool := b.all a.contains

structure PlanObservation where
  status : ℤ
  body : List UInt8
  deriving DecidableEq, Repr

structure ExecutorOutcome where
  executionDisposition : String
  assessmentOutcome : String
  failureReason : Option String
  deriving DecidableEq, Repr

inductive Verdict where
  | finding | held | inconclusive
  deriving DecidableEq, Repr

inductive EvidenceState where
  | verified | observed | inconclusive
  deriving DecidableEq, Repr

inductive Predicate where
  | bodySuperset | markerLeak | statusParity | inconclusive
  deriving DecidableEq, Repr

/-- The flags of a pair; `none` is undecided. -/
structure Flags where
  positiveControl : Bool
  statusParity : Option Bool
  bodySuperset : Option Bool
  markerLeak : Option Bool
  deriving DecidableEq, Repr

structure PairVerdict where
  verdict : Verdict
  evidenceState : Option EvidenceState
  predicate : Predicate
  reason : String
  candidate : Bool
  storesFinding : Bool
  row : ℕ
  flags : Flags
  deriving DecidableEq, Repr

def strictHooks : Hooks Raised := ⟨fun _ => .error .nonFiniteNumber, uniquePairs .duplicateKey⟩

/-- `_parsed`; Python's `None` is the null of JSON. -/
def parsed (depth : ℕ) (body : List UInt8) : Value :=
  if body = [] then .null
  else match utf8Decode false body with
    | none => .null
    | some text =>
      match loads strictHooks depth text with
      | .ok value => value
      | .error _ => .null

def is2xx (status : ℤ) : Bool := 200 ≤ status && status ≤ 299

def isHead (method : Text) : Bool := method = points "HEAD"

def given (marker : Option Text) : Bool := marker.getD [] ≠ []

/-- A walk of an object; other values have no paths. -/
def objectPaths (paths : Value → Except Raised (List Text)) (value : Value) :
    Except Raised (List Text) :=
  if isObject value then paths value else .ok []

/-- Why a lower denial status cannot be held. -/
def denialUndecided (lower : PlanObservation) (lowerJson higherJson : Value) : Option String :=
  let higherMaterial := (objectPaths (materialPaths W) higherJson).toOption.getD []
  if higherMaterial = [] then some "higher_control_unassessable"
  else if lower.body = [] then none
  else if !isObject lowerJson then some "lower_denial_unassessable"
  else match materialPaths W lowerJson with
    | .error _ => some "lower_denial_unassessable"
    | .ok lowerMaterial =>
      if covers lowerMaterial higherMaterial then some "lower_denied_payload_present"
      else if isDenialEnvelope W lowerJson then some "lower_denial_envelope"
      else if isAmbiguousMessage W lowerJson then some "lower_denial_unassessable"
      else none

/-- The four sets of paths that a comparison of bodies asks for. -/
structure PathSets where
  higherPaths : List Text
  lowerPaths : List Text
  higherMaterial : List Text
  lowerMaterial : List Text

def pathSets (lowerJson higherJson : Value) : Except Raised PathSets := do
  let higherPaths ← keyPaths W higherJson
  let lowerPaths ← objectPaths (keyPaths W) lowerJson
  let higherMaterial ← materialPaths W higherJson
  let lowerMaterial ← objectPaths (materialPaths W) lowerJson
  return ⟨higherPaths, lowerPaths, higherMaterial, lowerMaterial⟩

/-- `body_superset` and `hollow`. -/
def compareBodies (lowerStatus : ℤ) (lowerDenial : Bool) (lowerJson higherJson : Value) :
    Option Bool × Bool :=
  match pathSets W lowerJson higherJson with
  | .error _ => (none, false)
  | .ok sets =>
    if sets.higherPaths ≠ [] && !lowerDenial then
      let shape := is2xx lowerStatus && isObject lowerJson &&
        covers sets.lowerPaths sets.higherPaths
      let hollow := shape && !covers sets.lowerMaterial sets.higherMaterial
      (if hollow then none else some shape, hollow)
    else (none, false)

/-- What `_evaluate` has found before its rows. -/
structure Assessed where
  flags : Flags
  higherOk : Bool
  hollow : Bool
  lowerDenial : Bool
  denialUndecided : Option String

def inconclusive (evidence : Option EvidenceState) (predicate : Predicate) (reason : String)
    (candidate : Bool) (row : ℕ) (flags : Flags) : PairVerdict :=
  ⟨.inconclusive, evidence, predicate, reason, candidate, false, row, flags⟩

/-- The rows of `_evaluate` from the second; the first that matches decides. -/
def rows (lowerStatus : ℤ) (method : Text) (marker : Option Text) (a : Assessed) : PairVerdict :=
  if !a.flags.positiveControl then
    inconclusive (some .inconclusive) .inconclusive
      (if given marker && a.higherOk then "positive_control_missing_marker" else
      "no_positive_control")
      false 2 a.flags
  else if a.flags.markerLeak = some true then
    ⟨.finding, some .verified, .markerLeak, "marker_present", false, true, 3, a.flags⟩
  else if a.flags.markerLeak = some false then
    ⟨.held, none, .markerLeak, "marker_absent", false, false, 4, a.flags⟩
  else if given marker then
    inconclusive (some .inconclusive) .inconclusive "marker_undetermined" false 5 a.flags
  else if a.flags.bodySuperset = some true then
    ⟨.finding, some .observed, .bodySuperset, "lower_superset", false, true, 6, a.flags⟩
  else if a.flags.statusParity = some false then
    match a.denialUndecided with
    | some reason => inconclusive (some .inconclusive) .inconclusive reason false 9 a.flags
    | none => ⟨.held, none, .statusParity, "lower_denied", false, false, 7, a.flags⟩
  else if a.flags.statusParity = some true then
    inconclusive (some .inconclusive) .statusParity
      (if isHead method then "head_status_only"
      else if a.flags.bodySuperset = some false then "lower_subset" else "status_only") true 8
        a.flags
  else
    inconclusive (some .inconclusive) .inconclusive
      (if is2xx lowerStatus && a.lowerDenial then "lower_denial_envelope"
      else if a.hollow then "lower_hollow_shape"
      else if !is2xx lowerStatus then "unexpected_status" else "body_too_complex") false 9 a.flags

/-- The nesting that the stack allows each of the four readings of one call. -/
structure Allowance where
  lowerParse : ℕ
  higherParse : ℕ
  higherMarker : ℕ
  lowerMarker : ℕ

section Evaluate
variable (R : Allowance) (lower higher : PlanObservation) (method : Text) (marker : Option Text)
  (assessmentOutcome : String)

/-- `higher_marker`. -/
def higherContent : Except Raised (Option Bool) :=
  if given marker then protectedContent W R.higherMarker higher.body marker higher.status method
  else .ok none

/-- `marker_leak` from what the lower body shows. -/
def leakOf (lowerMarker : Option Bool) : Option Bool :=
  if lowerMarker = some true ∧ assessmentOutcome = "observed" then some true
  else if lowerMarker = some false ∧ assessmentOutcome = "blocked" then some false
  else none

def lowerLeak (positiveControl : Bool) : Except Raised (Option Bool) :=
  if given marker && !isHead method && positiveControl then
    (leakOf assessmentOutcome ·) <$>
      protectedContent W R.lowerMarker lower.body marker lower.status method
  else .ok none

def assess : Except Raised Assessed := do
  let lowerJson := parsed R.lowerParse lower.body
  let higherJson := parsed R.higherParse higher.body
  let lowerDenial := isDenialEnvelope W lowerJson
  let higherMarker ← higherContent W R higher method marker
  let higherOk := is2xx higher.status && !isDenialEnvelope W higherJson &&
    !isAmbiguousMessage W higherJson
  let positiveControl := higherOk &&
    (!given marker || (higher.status = 200 && higherMarker = some true))
  let (bodySuperset, hollow) :=
    if positiveControl && !isHead method && isObject higherJson then
      compareBodies W lower.status lowerDenial lowerJson higherJson
    else (none, false)
  let statusParity :=
    if !positiveControl then none
    else if is2xx lower.status then if lowerDenial || hollow then none else some true
    else if lower.status ∈ [401, 402, 403, 404] then some false else none
  let undecided :=
    if statusParity = some false && !given marker then
      if !isHead method then denialUndecided W lower lowerJson higherJson
      else if lowerDenial then some "lower_denial_envelope"
      else if isAmbiguousMessage W lowerJson then some "lower_denial_unassessable" else none
    else none
  let markerLeak ← lowerLeak W R lower method marker assessmentOutcome positiveControl
  return ⟨⟨positiveControl, statusParity, bodySuperset, markerLeak⟩, higherOk, hollow, lowerDenial,
    undecided⟩

def evaluate : Except Raised PairVerdict := do
  let assessed ← assess W R lower higher method marker assessmentOutcome
  return rows lower.status method marker assessed

end Evaluate

def noFlags : Flags := ⟨false, none, none, none⟩

def rowOne (reason : String) : PairVerdict := inconclusive none .inconclusive reason false 1 noFlags

def evaluatePlanPair (R : Allowance) (lower higher : Option PlanObservation) (method : Text)
    (marker : Option Text) (outcome : ExecutorOutcome) : PairVerdict :=
  match lower, higher with
  | some lower, some higher =>
    if outcome.executionDisposition = "completed" then
      match evaluate W R lower higher method marker outcome.assessmentOutcome with
      | .ok verdict => verdict
      | .error _ => inconclusive (some .inconclusive) .inconclusive
          "predicate_error" false 9 noFlags
    else rowOne (reasonOf outcome)
  | _, _ => rowOne (reasonOf outcome)
where
  reasonOf (outcome : ExecutorOutcome) : String :=
    if outcome.failureReason.getD "" = "" then "evidence_unavailable"
    else outcome.failureReason.getD ""

end Heel.PlanDifferential
