import Heel.Contracts.ReviewContract
import Heel.Runner.ContentAssertion
import Heel.Runner.SecretPattern

/-! Product models (`product_model.py`) as dictionaries of JSON values, and what makes one valid. -/
namespace Heel.Product
open Lib Lib.JsonText Lib.Pattern Heel.Content

abbrev Fields := List (Text × Value)

def get (fields : Fields) (name : Text) : Option Value :=
  (fields.find? fun p => p.1 = name).map Prod.snd

def has (fields : Fields) (name : Text) : Bool := (get fields name).isSome

/-- An exception of the review, and of the built-ins it calls. -/
inductive Raised where
  | productModelError (reason : String)
  | typeError
  | valueError
  | overflowError
  deriving DecidableEq, Repr

/-- The built-ins of Python that go by tables or by the format of a number: `str` of a value that is
not a text, `str.lower`, `str.isalnum`, `float`, and the text of a float. -/
structure Builtins where
  str : Value → Text
  lower : Text → Text
  isAlnum : ℕ → Bool
  float : Value → Except Raised Binary64
  repr : Binary64 → Text

variable (B : Builtins)

def strOf : Value → Text
  | .str s => s
  | v => B.str v

/-- A letter without its case, as a pattern that ignores case compares it. -/
def foldPoint (c : ℕ) : ℕ :=
  if isUpper c then c + 0x20
  else if c = 0x130 || c = 0x131 then 'i'.toNat
  else if c = 0x17f then 's'.toNat
  else if c = 0x212a then 'k'.toNat
  else c

def anyCase (word : String) : Pattern ℕ :=
  .sequence ((points word).map fun c => .one fun d => foldPoint d = c)

def oneOf (chars : String) : Pattern ℕ := .one fun c => (points chars).contains (foldPoint c)

def maybe (p : Pattern ℕ) : Pattern ℕ := .alt p .empty

def atLeast (n : ℕ) (p : ℕ → Bool) : Pattern ℕ :=
  .sequence (List.replicate n (.one p) ++ [maybe (.plus p)])

/-- `search` of a pattern, with what may stand before a match and what may follow it. -/
def search (behind : Option ℕ → Bool) (p : Pattern ℕ) (ahead : Text → Bool) : Option ℕ → Text → Bool
  | before, [] => behind before && (p.rests []).any ahead
  | before, c :: r =>
    (behind before && (p.rests (c :: r)).any ahead) || search behind p ahead (some c) r

def isSeparator (c : ℕ) : Bool := (points "_-.").contains c

def secretWords : Pattern ℕ :=
  let joined (a b : String) : Pattern ℕ :=
    .sequence [anyCase a, maybe (.one isSeparator), anyCase b]
  .choice (joined "api" "key")
    [anyCase "secret", anyCase "token", anyCase "password", anyCase "passwd",
      joined "private" "key", joined "client" "secret", joined "access" "key",
      joined "refresh" "token", joined "session" "cookie", anyCase "cookie",
      anyCase "authorization", anyCase "bearer"]

/-- `_SECRET_KEY_RE.search`: a word of the list between separators or the ends of the name, where
the end may have a newline after it. -/
def secretKeyFound (key : Text) : Bool :=
  search (fun before => before.all isSeparator) secretWords
    (fun r => r = [0x0a] || r.head?.all isSeparator) none key

def isTokenPoint (c : ℕ) : Bool :=
    (points "abcdefghijklmnopqrstuvwxyz0123456789").contains (foldPoint c)

def secretValues : Pattern ℕ :=
  let dashed (c : ℕ) : Bool := isTokenPoint c || c = '-'.toNat || c = '_'.toNat
  .choice
    (.sequence [anyCase "sk-", maybe (.alt (anyCase "live") (anyCase "test")), atLeast 8 dashed])
    [.sequence [anyCase "xox", oneOf "baprs", anyCase "-", atLeast 8 dashed],
      .sequence [anyCase "gh", oneOf "pousr", anyCase "_",
        atLeast 20 fun c => isTokenPoint c || c = '_'.toNat],
      .sequence [anyCase "akia", .sequence (List.replicate 16 (.one isTokenPoint))],
      .sequence [anyCase "-----begin ", atLeast 0 (fun c => isLetter (foldPoint c) || c = 0x20),
        anyCase "private key-----"],
      .sequence [anyCase "bearer", .plus isWhitespace,
        atLeast 12 fun c => isTokenPoint c || (points "._~+/=-").contains c]]
where isLetter (c : ℕ) : Bool := 'a'.toNat ≤ c && c ≤ 'z'.toNat

/-- `_SECRET_VALUE_RE.search`. -/
def secretValueFound (s : Text) : Bool := search (fun _ => true) secretValues (fun _ => true) none s

mutual
/-- Whether `_find_secret_material` finds any. -/
def hasSecret : Value → Bool
  | .obj fields => hasSecretField fields
  | .arr items => hasSecretItem items
  | .str s => secretValueFound s
  | _ => false

def hasSecretItem : List Value → Bool
  | [] => false
  | item :: rest => hasSecret item || hasSecretItem rest

def hasSecretField : List (Text × Value) → Bool
  | [] => false
  | (key, value) :: rest => secretKeyFound key || hasSecret value || hasSecretField rest
end

def productModelVersion : Text := points "ProductModel.v0.1"

def allowedEnvironments : List Text :=
  ["production", "staging", "sandbox", "synthetic"].map points

def listFields : List Text :=
  ["tenants", "roles", "plans", "meters", "coupons_promotions", "features_flags",
    "endpoints_routes",
    "exports", "identity_auth_flows", "billing_objects", "integration_oauth_apps", "webhooks",
    "support_admin_actions", "agent_tools", "mcp_connectors", "data_classes", "audit_events",
    "declared_controls", "canary_accounts", "safety_notes"].map points

def requiredFields : List Text :=
  ["schema_version", "product_id", "source", "generated_at", "environments"].map points
    ++ listFields

def nonemptyString : Option Value → Bool
  | some (.str s) => !s.all isWhitespace
  | _ => false

def isList : Option Value → Bool
  | some (.arr _) => true
  | _ => false

def isAlnumAscii (c : ℕ) : Bool := isDigit c || isUpper c || ('a'.toNat ≤ c && c ≤ 'z'.toNat)

/-- The pattern of `product_id`, whose end may have a newline after it. -/
def isStableId (s : Text) : Bool :=
  let body := if s.getLast? = some 0x0a then s.dropLast else s
  body.head?.any isAlnumAscii && decide (body.length ≤ 128) &&
    body.all fun c => isAlnumAscii c || (points "._:-").contains c

def validEnvironments : Option Value → Bool
  | some (.arr items) => !items.isEmpty && items.all fun
    | .str s => allowedEnvironments.contains s
    | _ => false
  | _ => false

def stated (states : List String) : Option Value → Bool
  | none => true
  | some (.str s) => (states.map points).contains s
  | _ => false

def evidenceStates : List String := ["unknown", "customer_declared", "inferred"]

def fieldsOf : Value → Option Fields
  | .obj fields => some fields
  | _ => none

def validRule (rule : Value) : Bool :=
  match rule with
  | .obj fields =>
    ["id", "statement", "source"].all (fun name => nonemptyString (get fields (points name))) &&
      stated evidenceStates (get fields (points "evidence_state"))
  | _ => false

def validAction (ordinal : ℕ) (action : Value) : Bool :=
  match action with
  | .obj fields =>
    (match get fields (points "ordinal") with | some (.int n) => n = ordinal | _ => false) &&
      ["actor", "action"].all fun name => nonemptyString (get fields (points name))
  | _ => false

def validActions : Option Value → Bool
  | some (.arr actions) => !actions.isEmpty && decide (actions.length ≤ 16) &&
    actions.zipIdx.all fun p => validAction p.2 p.1
  | _ => false

def validSequence (identifiers : List Text) (sequence : Value) : Bool :=
  match sequence with
  | .obj fields =>
    (match get fields (points "rule_id") with
      | some (.str s) => identifiers.contains s && !s.all isWhitespace
      | _ => false) &&
      validActions (get fields (points "actions")) &&
      stated evidenceStates (get fields (points "evidence_state")) &&
      (match get fields (points "executed") with | none => true | some (.bool b) => !b | _ => false)
  | _ => false

def ruleId (rule : Value) : Option Text :=
  match (fieldsOf rule).bind fun fields => get fields (points "id") with
  | some (.str s) => some s
  | _ => none

/-- `_validate_business_context`, with no rules and no sequences where the model names none. -/
def validBusinessContext (model : Fields) : Bool :=
  match (get model (points "business_rules")).getD (.arr []),
    (get model (points "lifecycle_sequences")).getD (.arr []) with
  | .arr rules, .arr sequences =>
    let identifiers := rules.filterMap ruleId
    decide (rules.length ≤ 64) && rules.all validRule && decide identifiers.Nodup &&
      decide (sequences.length ≤ 32) && sequences.all (validSequence identifiers)
  | _, _ => false

/-- Whether `validate_product_model` finds no error; a model on which it raises has one. -/
def isValid (model : Fields) : Bool :=
  requiredFields.all (has model) &&
    (match (get model (points "schema_version")).map (strOf B) with
      | none => true
      | some s => s = [] || s = productModelVersion) &&
    ["product_id", "source", "generated_at"].all
      (fun name => nonemptyString (get model (points name))) &&
    (match (get model (points "product_id")).map (strOf B) with
      | none => true
      | some s => s = [] || isStableId s) &&
    validEnvironments (get model (points "environments")) &&
    listFields.all (fun name => isList (get model name)) &&
    (match get model (points "safety_notes") with
      | some (.arr notes) => !notes.isEmpty
      | _ => true) &&
    validBusinessContext model && !hasSecretField model

end Heel.Product
