import Heel.Lib.JsonScan
import Mathlib.Data.List.Basic

/-! The local predicate on protected content and the recognizer of denial envelopes
(`content_assertion.py`). `Words` stands for what Python's text library is asked: case folding, and
the order in which a set of texts is joined. -/
namespace Heel.Content
open Lib Lib.JsonText

structure Words where
  casefold : Text → Text
  arrange : List Text → List Text

variable (W : Words)

def allowKeys : List Text := [points "ok", points "success", points "allowed"]
def denyKeys : List Text :=
  [points "upgraderequired", points "paymentrequired", points "denied", points "forbidden"]
def errorKeys : List Text := [points "error", points "errors", points "errorcode"]
def statusKeys : List Text := [points "status", points "statuscode", points "code"]
def wrapperKeys : List Text := [points "data", points "result", points "response"]
def messageKey : Text := points "message"
def denialWords : List Text :=
  [points "error", points "fail", points "failed", points "failure", points "denied",
    points "forbidden", points "unauthorized", points "required"]
def noStrings : List Text := [points "false", points "0", points "no"]
def maxEnvelopeDepth : ℕ := 2
def protectedCanary : Text := points "protected_canary"

def isUpper (c : ℕ) : Bool := 0x41 ≤ c && c ≤ 0x5a
def isLower (c : ℕ) : Bool := 0x61 ≤ c && c ≤ 0x7a

/-- The runs between the breaks; runs of length zero say nothing. -/
def wordBreakSplit (s : Text) : List Text := s.splitOnP fun c => !(isLower c || isDigit c)

/-- The length of what `_CAMEL_WORD` matches here: capitals that no small letter follows, a word of
small letters that a capital may open, or digits. -/
def camelLength (s : Text) : ℕ :=
  let capitals := (s.takeWhile isUpper).length
  let free := if ((s.drop capitals).head?.map isLower).getD false then capitals - 1 else capitals
  let opened := if capitals = 0 then 0 else 1
  let small := ((s.drop opened).takeWhile isLower).length
  if free ≠ 0 then free
  else if small ≠ 0 then opened + small
  else (s.takeWhile isDigit).length

/-- `_CAMEL_WORD.findall`, in at most as many steps as there are points. -/
def camelWords : ℕ → Text → List Text
  | 0, _ => []
  | _, [] => []
  | n + 1, c :: r =>
    let k := camelLength (c :: r)
    if k = 0 then camelWords n r else (c :: r).take k :: camelWords n ((c :: r).drop k)

/-- `bool` of a parsed value. -/
def truthy : Value → Bool
  | .null => false
  | .bool b => b
  | .int n => n ≠ 0
  | .float x => x ≠ .finite 0
  | .str s => s ≠ []
  | .arr items => !items.isEmpty
  | .obj fields => !fields.isEmpty

def fieldsOf : Value → List (Text × Value)
  | .obj fields => fields
  | _ => []

def field (key : Text) (fields : List (Text × Value)) : Option Value :=
  (fields.find? fun entry => entry.1 = key).map Prod.snd

/-- An allow flag denies on any falsy value or a no-word. -/
def saysNo : Value → Bool
  | .str s =>
    let word := W.casefold (strip s)
    word = [] || noStrings.contains word
  | value => !truthy value

/-- A deny flag denies on any truthy value that is not a no-word. -/
def saysYes : Value → Bool
  | .str s =>
    let word := W.casefold (strip s)
    word ≠ [] && !noStrings.contains word
  | value => truthy value

/-- Both readings of `words` hold Latin letters and digits only, so `isdigit` asks for digits. -/
def denialWord (word : Text) : Bool :=
  denialWords.contains word ||
    (word.all isDigit && word.length =
    3 && (word.head? = some '4'.toNat || word.head? = some '5'.toNat))

def denialStatus : Value → Bool
  | .int n => 400 ≤ n && n ≤ 599
  | .float (.finite x) => 400 ≤ x && x ≤ 599 && x = ⌊x⌋
  | .str s => (wordBreakSplit (W.casefold s) ++
      (camelWords s.length s).map W.casefold).any denialWord
  | _ => false

/-- A key without case, `_` and `-`. -/
def keyName (key : Text) : Text :=
  (W.casefold key).filter fun c => c ≠ '_'.toNat && c ≠ '-'.toNat

/-- One pass over an object; `follow` reads what a wrapper holds. -/
def deniesBy (follow : Value → Bool) (value : Value) : Bool :=
  (fieldsOf value).any fun (key, item) =>
    let name := keyName W key
    (errorKeys.contains name && truthy item) ||
      (allowKeys.contains name && saysNo W item) ||
      (denyKeys.contains name && saysYes W item) ||
      (statusKeys.contains name && denialStatus W item) ||
      (wrapperKeys.contains name && follow item)

/-- `_states_denial` with the wrappers that may still be followed. -/
def statesDenial : ℕ → Value → Bool
  | 0 => deniesBy W fun _ => false
  | n + 1 => deniesBy W (statesDenial n)

def isDenialEnvelope (value : Value) : Bool := statesDenial W maxEnvelopeDepth value

def isAmbiguousMessage (value : Value) : Bool :=
  let fields := fieldsOf value
  let messages := fields.filter fun (key, _) => key ≠ protectedCanary && keyName W key = messageKey
  let beside := if fields.any fun (key, _) => key = protectedCanary then 1 else 0
  isObject value && messages.any (fun (_, item) => truthy item) &&
    messages.length + beside = fields.length

inductive Raised where
  | duplicateKey
  | nonFiniteNumber
  | unhashable
  | bodyTooComplex
  deriving DecidableEq, Repr

/-- The names of infinite numbers and of NaN are read. -/
def constantValue (name : Text) : Value :=
  .float (if name = points "NaN" then .nan else .infinity (name.head? = some minus))

def lenientHooks : Hooks Raised :=
  ⟨fun name => .ok (constantValue name), uniquePairs .duplicateKey⟩

def maxBodyBytes : ℕ := 256 * 1024
def denialStatuses : List ℤ := [401, 402, 403, 404]

/-- `value in {'public', 'redacted'}`; an array or an object has no hash. -/
def openVisibility : Option Value → Except Raised Bool
  | some (.str s) => .ok (s = points "public" || s = points "redacted")
  | some (.arr _) => .error .unhashable
  | some (.obj _) => .error .unhashable
  | _ => .ok false

def isText (expected : Text) : Option Value → Bool
  | some (.str s) => s = expected
  | _ => false

def isNone : Option Value → Bool
  | none => true
  | some .null => true
  | _ => false

def isEmptyArray : Option Value → Bool
  | some (.arr []) => true
  | _ => false

def protectedFields (marker : Text) (status : ℤ) (fields : List (Text × Value)) :
    Except Raised (Option Bool) := do
  let canary := field protectedCanary fields
  if isDenialEnvelope W (.obj fields) || isAmbiguousMessage W (.obj fields) then return none
  if isText marker canary then return some true
  if status ∈ denialStatuses then return some false
  if status = 200 then
    let visible ← openVisibility (field (points "visibility") fields)
    if visible || (isNone canary && isEmptyArray (field (points "records") fields)) then
      return some false
  return none

/-- `protected_content`; `depth` is the nesting that the stack allows the reader. -/
def protectedContent (depth : ℕ) (body : List UInt8) (marker : Option Text) (status : ℤ)
    (method : Text) : Except Raised (Option Bool) :=
  match marker with
  | none => .ok none
  | some marker =>
    if method ≠ points "GET" ∨ ¬ points "heel-canary-" <+: marker ∨ maxBodyBytes < body.length then
      .ok none
    else
      match loadsBytes lenientHooks depth body with
      | .error _ => .ok (if body = [] ∧ status ∈ denialStatuses then some false else none)
      | .ok (.obj fields) => protectedFields W marker status fields
      | .ok _ => .ok none

end Heel.Content
