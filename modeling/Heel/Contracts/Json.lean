import Mathlib.Algebra.Order.Ring.Int
import Mathlib.Data.List.Infix
import Mathlib.Data.List.Sort
import Mathlib.Data.String.Basic
import Heel.Lib.Checks

/-! Canonical contract JSON of `heel/canary_contracts.py`: the values, `_normalize`,
`canonical_bytes` and `canonical_digest`. Encoded bytes are represented by the characters they
encode; `byteSize` counts the bytes. -/
namespace Heel
open Lib.Checks

/-- The exception classes the modelled functions raise. -/
inductive ErrorClass where
  | contractError | containmentError | valueError | runnerStoreError | canaryRunError
  | discoveryError | runnerAuthError | runnerProtocolError | keyError | lookupError | runtimeError
  | quotaExceeded | globalCapExceeded | idempotencyConflict | integrityError | runnerContextError
  deriving DecidableEq, Repr

structure Refusal where
  raised : ErrorClass
  reason : String
  deriving DecidableEq, Repr

/-- Primitives of the platform: Unicode normalisation form C, the SHA-256 hex digest of encoded
bytes and the Ed25519 verification, under a raw public key, of a signature on encoded bytes. -/
structure Platform where
  nfc : String → String
  sha256 : List Char → String
  verify : List UInt8 → List UInt8 → List Char → Bool

def byteSize (text : List Char) : Nat := (text.map Char.utf8Size).sum

inductive Json where
  | null
  | bool (b : Bool)
  | int (n : Int)
  | str (s : String)
  | arr (items : List Json)
  | obj (fields : List (String × Json))

namespace Json

def safeInt : Int := 2^53 - 1

def isControl (c : Char) : Bool :=
  c.toNat < 0x20 || (0x7f ≤ c.toNat && c.toNat ≤ 0x9f)

def contractFail (reason : String) : Refusal := ⟨.contractError, reason⟩

/-- The text branch of `_normalize`. Lean's characters are scalar values, so the
surrogate range of the source cannot occur. -/
def normalizeText (P : Platform) (s : String) : Except Refusal String := do
  require (s.toList.all (fun c => !isControl c)) (contractFail "invalid text")
  require (byteSize (P.nfc s).toList ≤ 4096) (contractFail "string length exceeded")
  return P.nfc s

mutual
def normalize (P : Platform) (depth : Nat) : Json → Except Refusal Json
  | .null => do
    require (depth ≤ 16) (contractFail "maximum nesting depth exceeded")
    return .null
  | .bool _ => do
    require (depth ≤ 16) (contractFail "maximum nesting depth exceeded")
    .error (contractFail "non-portable JSON scalar")
  | .int n => do
    require (depth ≤ 16) (contractFail "maximum nesting depth exceeded")
    require (0 ≤ n ∧ n ≤ safeInt) (contractFail "integer outside portable range")
    return .int n
  | .str s => do
    require (depth ≤ 16) (contractFail "maximum nesting depth exceeded")
    let t ← normalizeText P s
    return .str t
  | .arr items => do
    require (depth ≤ 16) (contractFail "maximum nesting depth exceeded")
    let out ← normalizeItems P (depth+1) items
    return .arr out
  | .obj fields => do
    require (depth ≤ 16) (contractFail "maximum nesting depth exceeded")
    let out ← normalizeFields P (depth+1) [] fields
    return .obj out

def normalizeItems (P : Platform) (depth : Nat) : List Json → Except Refusal (List Json)
  | [] => return []
  | item :: rest => do
    let head ← normalize P depth item
    let tail ← normalizeItems P depth rest
    return head :: tail

/-- `done` is the `output` dictionary of the source, in insertion order. -/
def normalizeFields (P : Platform) (depth : Nat) (done : List (String × Json)) :
    List (String × Json) → Except Refusal (List (String × Json))
  | [] => return done
  | (key, item) :: rest => do
    require (depth ≤ 16) (contractFail "maximum nesting depth exceeded")
    let normalizedKey ← normalizeText P key
    require (normalizedKey ∉ done.map Prod.fst)
      (contractFail "normalization-induced duplicate key")
    let value ← normalize P depth item
    normalizeFields P depth (done ++ [(normalizedKey, value)]) rest
end

def hexDigit (n : Nat) : Char := "0123456789abcdef".toList.getD n '0'

/-- `json.dumps` escapes with `ensure_ascii=False`. -/
def escapeChar (c : Char) : List Char :=
  if c = '"' then ['\\', '"']
  else if c = '\\' then ['\\', '\\']
  else if c = '\n' then ['\\', 'n']
  else if c = '\r' then ['\\', 'r']
  else if c = '\t' then ['\\', 't']
  else if c.toNat = 0x0c then ['\\', 'f']
  else if c.toNat = 0x08 then ['\\', 'b']
  else if c.toNat < 0x20 then
    ['\\', 'u', '0', '0', hexDigit (c.toNat / 16), hexDigit (c.toNat % 16)]
  else [c]

def quote (s : String) : List Char := '"' :: (s.toList.flatMap escapeChar ++ ['"'])

def intChars : Int → List Char
  | .ofNat n => Nat.toDigits 10 n
  | .negSucc n => '-' :: Nat.toDigits 10 (n+1)

/-- Order of `sort_keys`: strings compare by code points. -/
def keyLe (a b : String × List Char) : Prop := a.1.toList ≤ b.1.toList

instance (a b : String × List Char) : Decidable (keyLe a b) :=
  inferInstanceAs (Decidable (a.1.toList ≤ b.1.toList))

mutual
/-- `json.dumps(value, sort_keys=True, separators=(",", ":"))`. -/
def dumps : Json → List Char
  | .null => ['n', 'u', 'l', 'l']
  | .bool true => ['t', 'r', 'u', 'e']
  | .bool false => ['f', 'a', 'l', 's', 'e']
  | .int n => intChars n
  | .str s => quote s
  | .arr items => '[' :: ([','].intercalate (dumpsItems items) ++ [']'])
  | .obj fields => '{' :: ([','].intercalate
      (((dumpsFields fields).insertionSort keyLe).map fun p => quote p.1 ++ ':' :: p.2) ++ ['}'])

def dumpsItems : List Json → List (List Char)
  | [] => []
  | item :: rest => dumps item :: dumpsItems rest

def dumpsFields : List (String × Json) → List (String × List Char)
  | [] => []
  | (key, item) :: rest => (key, dumps item) :: dumpsFields rest
end

theorem dumpsItems_map (items : List Json) : dumpsItems items = items.map dumps := by
  induction items with
  | nil => rfl
  | cons item rest ih => rw [dumpsItems, ih, List.map_cons]

theorem dumpsFields_map (fields : List (String × Json)) :
    dumpsFields fields = fields.map fun p => (p.1, dumps p.2) := by
  induction fields with
  | nil => rfl
  | cons field rest ih => rw [dumpsFields, ih, List.map_cons]

/-- `canonical_bytes`: every refusal of `_normalize` becomes "not canonical JSON". -/
def canonicalBytes (P : Platform) (value : Json) : Except Refusal (List Char) :=
  match normalize P 0 value with
  | .ok normalized => .ok (dumps normalized)
  | .error _ => .error (contractFail "not canonical JSON")

def canonicalDigest (P : Platform) (value : Json) : Except Refusal String := do
  let bytes ← canonicalBytes P value
  return P.sha256 bytes

example (P : Platform) : normalize P 0 (.obj []) = .ok (.obj []) := by
  simp [normalize, normalizeFields, pure, Except.pure]

example : dumps (.arr [.bool true]) = "[true]".toList := by
  simp [dumps, dumpsItems]

def optional {α : Type} (f : α → Json) : Option α → Json
  | none => .null
  | some a => f a

end Json
end Heel
