import Heel.Contracts.CanonicalText
import Heel.Contracts.Portable

/-! `parse_json` of `heel/canary_contracts.py`: the grammar of `json.loads`, with the hooks it is
given. Fuel bounds the nesting; a text never needs more than its length. -/
namespace Heel
open Lib.Checks
namespace Json

/-- Every exception of `json.loads` that is not one of the hooks'. -/
def invalid {α : Type} : Except Refusal α := .error (contractFail "invalid JSON")

def skip (cs : List Char) : List Char :=
  cs.dropWhile fun c => c = ' ' || c = '\t' || c = '\n' || c = '\r'

def hexValue (c : Char) : Option Nat :=
  if c.isDigit then some (c.toNat - '0'.toNat)
  else if 'a' ≤ c ∧ c ≤ 'f' then some (c.toNat - 'a'.toNat + 10)
  else if 'A' ≤ c ∧ c ≤ 'F' then some (c.toNat - 'A'.toNat + 10)
  else none

/-- The four digits of a `\u` escape. -/
def hexUnit : List Char → Except Refusal (Nat × List Char)
  | a :: b :: c :: d :: r =>
    match [a, b, c, d].mapM hexValue with
    | some digits => .ok (digits.foldl (fun n k => 16 * n + k) 0, r)
    | none => invalid
  | _ => invalid

/-- A `\u` escape. A surrogate without its partner is text that `_normalize` refuses; it is
refused here, since no character stands for it. -/
def unicodeEscape (cs : List Char) : Except Refusal (Char × List Char) := do
  let (high, r) ← hexUnit cs
  if 0xD800 ≤ high ∧ high ≤ 0xDBFF then
    match r with
    | '\\' :: 'u' :: r => do
      let (low, r) ← hexUnit r
      require (0xDC00 ≤ low ∧ low ≤ 0xDFFF) (contractFail "invalid text")
      return (Char.ofNat (0x10000 + (high - 0xD800) * 0x400 + (low - 0xDC00)), r)
    | _ => .error (contractFail "invalid text")
  else do
    require (¬ (0xDC00 ≤ high ∧ high ≤ 0xDFFF)) (contractFail "invalid text")
    return (Char.ofNat high, r)

def escapeOf (c : Char) : Option Char :=
  if c = '"' ∨ c = '\\' ∨ c = '/' then some c
  else if c = 'b' then some (Char.ofNat 0x08)
  else if c = 'f' then some (Char.ofNat 0x0c)
  else if c = 'n' then some '\n'
  else if c = 'r' then some '\r'
  else if c = 't' then some '\t'
  else none

def scanChar : List Char → Except Refusal (Char × List Char)
  | [] => invalid
  | c :: r =>
    if c = '\\' then
      match r with
      | [] => invalid
      | e :: r =>
        if e = 'u' then unicodeEscape r
        else match escapeOf e with
          | some d => .ok (d, r)
          | none => invalid
    else if c.toNat < 0x20 then invalid
    else .ok (c, r)

def scanText : Nat → List Char → Except Refusal (List Char × List Char)
  | 0, _ => invalid
  | _+1, [] => invalid
  | n+1, c :: r =>
    if c = '"' then .ok ([], r)
    else do
      let (d, r) ← scanChar (c :: r)
      let (ds, r) ← scanText n r
      return (d :: ds, r)

def floats : List Char → Bool
  | '.' :: d :: _ => d.isDigit
  | c :: s :: r => (c = 'e' || c = 'E') &&
    (s.isDigit || ((s = '+' || s = '-') && r.head?.any Char.isDigit))
  | _ => false

/-- A number. `int` refuses more than 4300 digits. -/
def scanNumber (cs : List Char) : Except Refusal (Json × List Char) :=
  let negative := cs.head? = some '-'
  let unsigned := if negative then cs.tail else cs
  let digits := unsigned.takeWhile Char.isDigit
  let token := if digits.head? = some '0' then ['0'] else digits
  let r := unsigned.drop token.length
  if token = [] then invalid
  else if floats r then .error (contractFail "floating point is forbidden")
  else if 4300 < token.length then invalid
  else
    let value : Int := Nat.ofDigitChars 10 token 0
    .ok (.int (if negative then -value else value), r)

/-- The names of `json.loads`, with what they stand for. -/
def names : List (List Char × Except Refusal Json) :=
  [("null".toList, .ok .null), ("true".toList, .ok (.bool true)),
    ("false".toList, .ok (.bool false)),
    ("NaN".toList, .error (contractFail "non-finite JSON number")),
    ("Infinity".toList, .error (contractFail "non-finite JSON number")),
    ("-Infinity".toList, .error (contractFail "non-finite JSON number"))]

def scanAtom (cs : List Char) : Except Refusal (Json × List Char) :=
  match names.find? fun name => name.1 <+: cs with
  | some (name, value) => do
    let v ← value
    return (v, cs.drop name.length)
  | none => scanNumber cs

mutual
def scanValue : Nat → List Char → Except Refusal (Json × List Char)
  | 0, _ => invalid
  | _+1, [] => invalid
  | n+1, c :: r =>
    if c = '"' then do
      let (s, r) ← scanText r.length r
      return (.str (String.ofList s), r)
    else if c = '{' then
      if (skip r).head? = some '}' then .ok (.obj [], (skip r).tail)
      else scanMembers n [] (skip r)
    else if c = '[' then
      if (skip r).head? = some ']' then .ok (.arr [], (skip r).tail)
      else scanElements n [] (skip r)
    else scanAtom (c :: r)

/-- The members of an object; `_pairs` refuses a key that comes twice. -/
def scanMembers : Nat → List (String × Json) → List Char → Except Refusal (Json × List Char)
  | 0, _, _ => invalid
  | _+1, _, [] => invalid
  | n+1, done, c :: r =>
    if c = '"' then do
      let (key, r) ← scanText r.length r
      if (skip r).head? = some ':' then do
        let (value, r) ← scanValue n (skip (skip r).tail)
        let done := done ++ [(String.ofList key, value)]
        if (skip r).head? = some ',' then scanMembers n done (skip (skip r).tail)
        else if (skip r).head? = some '}' then do
          require (done.map Prod.fst).Nodup (contractFail "duplicate JSON key")
          return (.obj done, (skip r).tail)
        else invalid
      else invalid
    else invalid

def scanElements : Nat → List Json → List Char → Except Refusal (Json × List Char)
  | 0, _, _ => invalid
  | n+1, done, cs => do
    let (value, r) ← scanValue n cs
    let done := done ++ [value]
    if (skip r).head? = some ',' then scanElements n done (skip (skip r).tail)
    else if (skip r).head? = some ']' then return (.arr done, (skip r).tail)
    else invalid
end

/-- `json.loads`. -/
def loads (text : List Char) : Except Refusal Json := do
  require (text.head? ≠ some (Char.ofNat 0xFEFF)) (contractFail "invalid JSON")
  let (value, r) ← scanValue (text.length + 1) (skip text)
  require (skip r = []) (contractFail "invalid JSON")
  return value

def parseJson (P : Platform) (raw : ByteArray) (maxBytes : Int) : Except Refusal Json := do
  require (1 ≤ maxBytes) (contractFail "invalid parser input")
  require (raw.size ≤ maxBytes) (contractFail "input exceeds size limit")
  match String.fromUTF8? raw with
  | none => .error (contractFail "invalid UTF-8")
  | some text => do
    let value ← loads text.toList
    normalize P 0 value

mutual
/-- `==` of values, where the order of an object's keys does not matter. -/
def same : Json → Json → Bool
  | .null, .null => true
  | .bool a, .bool b => a = b
  | .int n, .int m => n = m
  | .str s, .str t => s = t
  | .arr xs, .arr ys => sameItems xs ys
  | .obj fs, .obj gs => fs.length = gs.length && sameFields fs gs
  | _, _ => false

def sameItems : List Json → List Json → Bool
  | [], [] => true
  | x :: xs, y :: ys => same x y && sameItems xs ys
  | _, _ => false

/-- Every field on the left has its equal on the right. -/
def sameFields : List (String × Json) → List (String × Json) → Bool
  | [], _ => true
  | (key, v) :: fs, gs =>
    (match gs.find? fun q => q.1 = key with
      | some q => same v q.2
      | none => false) && sameFields fs gs
end

end Json
end Heel
