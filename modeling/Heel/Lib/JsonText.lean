import Mathlib.Data.Int.Log
import Mathlib.Data.Rat.Floor
import Mathlib.Algebra.Ring.Parity
import Mathlib.Data.String.Basic

/-! The grammar of JSON as `json.loads` of Python reads it: texts of code points, where a lone
surrogate is a point too, numbers that round to binary64, and the hooks for objects and for the
names of numbers that are not finite. Fuel bounds the steps, `depth` the nesting that the stack of
the interpreter allows. -/
namespace Lib.JsonText

abbrev Text := List ℕ

-- one name for the proof, wherever a condition compares two texts
instance lawfulText : LawfulBEq Text := inferInstance

def points (s : String) : Text := s.toList.map Char.toNat

inductive Binary64 where
  | finite (x : ℚ)
  | infinity (negative : Bool)
  | nan
  deriving DecidableEq, Repr

inductive Value where
  | null
  | bool (b : Bool)
  | int (n : ℤ)
  | float (x : Binary64)
  | str (s : Text)
  | arr (items : List Value)
  | obj (fields : List (Text × Value))

def isObject : Value → Bool
  | .obj _ => true
  | _ => false

def stringOf : Value → Option Text
  | .str s => some s
  | _ => none

/-- Why a text is not read: it is not decoded, it does not follow the grammar, it nests too deep, or
a hook raises. -/
inductive Fault (ε : Type) where
  | undecodable
  | malformed
  | recursion
  | raised (e : ε)
  deriving DecidableEq, Repr

/-- `parse_constant` and `object_pairs_hook`. -/
structure Hooks (ε : Type) where
  constant : Text → Except ε Value
  pairs : List (Text × Value) → Except ε (List (Text × Value))

def raising {ε α : Type} : Except ε α → Except (Fault ε) α
  | .ok a => .ok a
  | .error e => .error (.raised e)

def quoteMark : ℕ := '"'.toNat
def backslash : ℕ := '\\'.toNat
def openBrace : ℕ := 0x7b
def closeBrace : ℕ := 0x7d
def openBracket : ℕ := '['.toNat
def closeBracket : ℕ := ']'.toNat
def comma : ℕ := ','.toNat
def colon : ℕ := ':'.toNat
def minus : ℕ := '-'.toNat
def period : ℕ := '.'.toNat
def zero : ℕ := '0'.toNat
def byteOrderMark : ℕ := 0xfeff

def isSpace (c : ℕ) : Bool := c = 0x20 || c = 0x09 || c = 0x0a || c = 0x0d
def isDigit (c : ℕ) : Bool := 0x30 ≤ c && c ≤ 0x39
def isHigh (c : ℕ) : Bool := 0xd800 ≤ c && c ≤ 0xdbff
def isLow (c : ℕ) : Bool := 0xdc00 ≤ c && c ≤ 0xdfff

def isSurrogate (c : ℕ) : Bool := 0xd800 ≤ c && c ≤ 0xdfff
def isLowerHex (c : ℕ) : Bool := isDigit c || (0x61 ≤ c && c ≤ 0x66)

/-- `str.isspace` of one character. -/
def isWhitespace (c : ℕ) : Bool :=
  (0x09 ≤ c && c ≤ 0x0d) || (0x1c ≤ c && c ≤ 0x20) || c = 0x85 || c = 0xa0 || c = 0x1680 ||
    (0x2000 ≤ c && c ≤ 0x200a) || c = 0x2028 || c = 0x2029 || c = 0x202f || c = 0x205f || c = 0x3000

/-- `str.strip`. -/
def strip (s : Text) : Text :=
  ((s.dropWhile isWhitespace).reverse.dropWhile isWhitespace).reverse

def skip (cs : Text) : Text := cs.dropWhile isSpace

def hexValue (c : ℕ) : Option ℕ :=
  if isDigit c then some (c - 0x30)
  else if 0x61 ≤ c ∧ c ≤ 0x66 then some (c - 0x57)
  else if 0x41 ≤ c ∧ c ≤ 0x46 then some (c - 0x37)
  else none

/-- The four digits of a `\u` escape. -/
def hexUnit (a b c d : ℕ) : Option ℕ := do
  let w ← hexValue a
  let x ← hexValue b
  let y ← hexValue c
  let z ← hexValue d
  return ((w * 16 + x) * 16 + y) * 16 + z

def escapeOf (e : ℕ) : Option ℕ :=
  if e = quoteMark ∨ e = backslash ∨ e = '/'.toNat then some e
  else if e = 'b'.toNat then some 0x08
  else if e = 'f'.toNat then some 0x0c
  else if e = 'n'.toNat then some 0x0a
  else if e = 'r'.toNat then some 0x0d
  else if e = 't'.toNat then some 0x09
  else none

/-- The units of a string after its opening quote, with whether a `\u` escape wrote them, and what
follows the closing quote. -/
def scanUnits : Text → Option (List (Bool × ℕ) × Text)
  | [] => none
  | c :: r =>
    if c = quoteMark then some ([], r)
    else if c = backslash then
      match r with
      | [] => none
      | e :: r =>
        if e = 'u'.toNat then
          match r with
          | w :: x :: y :: z :: r => do
            let unit ← hexUnit w x y z
            let (units, r) ← scanUnits r
            return ((true, unit) :: units, r)
          | _ => none
        else do
          let unit ← escapeOf e
          let (units, r) ← scanUnits r
          return ((false, unit) :: units, r)
    else if c < 0x20 then none
    else do
      let (units, r) ← scanUnits r
      return ((false, c) :: units, r)

/-- Escaped surrogates of a pair are one point. -/
def joinPairs : List (Bool × ℕ) → Text
  | [] => []
  | (true, high) :: (true, low) :: units =>
    if isHigh high ∧ isLow low then
      (0x10000 + (high - 0xd800) * 0x400 + (low - 0xdc00)) :: joinPairs units
    else high :: joinPairs ((true, low) :: units)
  | (_, unit) :: units => unit :: joinPairs units

def scanText (cs : Text) : Option (Text × Text) :=
  (scanUnits cs).map fun (units, r) => (joinPairs units, r)

structure NumberToken where
  negative : Bool
  whole : Text
  fraction : Text
  exponent : Option (Bool × Text)
  deriving DecidableEq, Repr

def digitsValue (digits : Text) : ℕ := digits.foldl (fun n d => 10 * n + (d - 0x30)) 0

def roundHalfEven (x : ℚ) : ℤ :=
  if x - ⌊x⌋ < 1 / 2 then ⌊x⌋
  else if 1 / 2 < x - ⌊x⌋ then ⌊x⌋ + 1
  else if Even ⌊x⌋ then ⌊x⌋ else ⌊x⌋ + 1

def roundBinary64 (x : ℚ) : Binary64 :=
  let ulp : ℚ := 2 ^ (max (Int.log 2 |x|) (-1022) - 52)
  let magnitude : ℚ := roundHalfEven (|x| / ulp) * ulp
  if (2 : ℚ) ^ 1024 ≤ magnitude then .infinity (x < 0)
  else .finite (if x < 0 then -magnitude else magnitude)

namespace NumberToken

def isFloat (t : NumberToken) : Bool := t.fraction ≠ [] || t.exponent.isSome

def int (t : NumberToken) : ℤ :=
  if t.negative then -(digitsValue t.whole : ℤ) else digitsValue t.whole

def rational (t : NumberToken) : ℚ :=
  let mantissa : ℚ := digitsValue (t.whole ++ t.fraction) / 10 ^ t.fraction.length
  let scaled : ℚ := match t.exponent with
    | none => mantissa
    | some (true, digits) => mantissa / 10 ^ digitsValue digits
    | some (false, digits) => mantissa * 10 ^ digitsValue digits
  if t.negative then -scaled else scaled

end NumberToken

def scanFraction : Text → Text × Text
  | c :: r =>
    let digits := r.takeWhile isDigit
    if c = period ∧ digits ≠ [] then (digits, r.drop digits.length) else ([], c :: r)
  | [] => ([], [])

def scanExponent : Text → Option (Bool × Text) × Text
  | c :: r =>
    let negative := r.head? = some minus
    let unsigned := if negative ∨ r.head? = some '+'.toNat then r.tail else r
    let digits := unsigned.takeWhile isDigit
    if (c = 'e'.toNat ∨ c = 'E'.toNat) ∧ digits ≠ [] then
      (some (negative, digits), unsigned.drop digits.length)
    else (none, c :: r)
  | [] => (none, [])

def scanToken (cs : Text) : Option (NumberToken × Text) :=
  let negative := cs.head? = some minus
  let unsigned := if negative then cs.tail else cs
  let digits := unsigned.takeWhile isDigit
  let whole := if digits.head? = some zero then [zero] else digits
  let (fraction, r) := scanFraction (unsigned.drop whole.length)
  let (exponent, r) := scanExponent r
  if whole = [] then none else some (⟨negative, whole, fraction, exponent⟩, r)

/-- A number; `int` refuses more than 4300 digits. -/
def scanNumber {ε : Type} (cs : Text) : Except (Fault ε) (Value × Text) :=
  match scanToken cs with
  | none => .error .malformed
  | some (t, r) =>
    if t.isFloat then .ok (.float (roundBinary64 t.rational), r)
    else if 4300 < t.whole.length then .error .malformed
    else .ok (.int t.int, r)

def literals : List (Text × Value) :=
  [(points "null", .null), (points "true", .bool true), (points "false", .bool false)]

def constants : List Text := [points "NaN", points "Infinity", points "-Infinity"]

section Reader
variable {ε : Type} (h : Hooks ε)

def scanAtom (cs : Text) : Except (Fault ε) (Value × Text) :=
  match literals.find? fun name => name.1 <+: cs with
  | some (name, value) => .ok (value, cs.drop name.length)
  | none =>
    match constants.find? fun name => name <+: cs with
    | some name => do
      let value ← raising (h.constant name)
      return (value, cs.drop name.length)
    | none => scanNumber cs

def scanString : Text → Except (Fault ε) (Text × Text)
  | [] => .error .malformed
  | c :: r =>
    if c = quoteMark then
      match scanText r with
      | some answer => .ok answer
      | none => .error .malformed
    else .error .malformed

mutual
def scanValue : ℕ → ℕ → Text → Except (Fault ε) (Value × Text)
  | 0, _, _ => .error .malformed
  | n + 1, depth, cs =>
    if cs.head? = some quoteMark then do
      let (s, r) ← scanString cs
      return (.str s, r)
    else if cs.head? = some openBrace then
      if depth = 0 then .error .recursion
      else if (skip cs.tail).head? = some closeBrace then do
        let fields ← raising (h.pairs [])
        return (.obj fields, (skip cs.tail).tail)
      else scanMembers n (depth - 1) [] (skip cs.tail)
    else if cs.head? = some openBracket then
      if depth = 0 then .error .recursion
      else if (skip cs.tail).head? = some closeBracket then return (.arr [], (skip cs.tail).tail)
      else scanElements n (depth - 1) [] (skip cs.tail)
    else scanAtom h cs

def scanMembers : ℕ → ℕ → List (Text × Value) → Text → Except (Fault ε) (Value × Text)
  | 0, _, _, _ => .error .malformed
  | n + 1, depth, done, cs => do
    let (key, r) ← scanString cs
    if (skip r).head? = some colon then do
      let (value, r) ← scanValue n depth (skip (skip r).tail)
      let done := done ++ [(key, value)]
      if (skip r).head? = some comma then scanMembers n depth done (skip (skip r).tail)
      else if (skip r).head? = some closeBrace then do
        let fields ← raising (h.pairs done)
        return (.obj fields, (skip r).tail)
      else .error .malformed
    else .error .malformed

def scanElements : ℕ → ℕ → List Value → Text → Except (Fault ε) (Value × Text)
  | 0, _, _, _ => .error .malformed
  | n + 1, depth, done, cs => do
    let (value, r) ← scanValue n depth cs
    let done := done ++ [value]
    if (skip r).head? = some comma then scanElements n depth done (skip (skip r).tail)
    else if (skip r).head? = some closeBracket then return (.arr done, (skip r).tail)
    else .error .malformed
end

/-- `json.loads` of a text. -/
def loads (depth : ℕ) (text : Text) : Except (Fault ε) Value :=
  if text.head? = some byteOrderMark then .error .malformed
  else do
    let (value, r) ← scanValue h (2 * text.length + 2) depth (skip text)
    if skip r = [] then return value else .error .malformed

end Reader

/-- The `object_pairs_hook` that refuses a key that comes twice. -/
def uniquePairs {ε : Type} (duplicate : ε) (pairs : List (Text × Value)) :
    Except ε (List (Text × Value)) :=
  if (pairs.map Prod.fst).Nodup then .ok pairs else .error duplicate

def continuation (b : UInt8) : Option ℕ :=
  if 0x80 ≤ b.toNat ∧ b.toNat < 0xc0 then some (b.toNat - 0x80) else none

/-- `decode("utf-8")`, and with "surrogatepass". -/
def utf8Decode (surrogates : Bool) : List UInt8 → Option Text
  | [] => some []
  | a :: r =>
    if a.toNat < 0x80 then do
      let cs ← utf8Decode surrogates r
      return a.toNat :: cs
    else
      match r with
      | [] => none
      | b :: r =>
        if 0xc2 ≤ a.toNat ∧ a.toNat < 0xe0 then do
          let y ← continuation b
          let cs ← utf8Decode surrogates r
          return ((a.toNat - 0xc0) * 0x40 + y) :: cs
        else
          match r with
          | [] => none
          | c :: r =>
            if 0xe0 ≤ a.toNat ∧ a.toNat < 0xf0 then do
              let y ← continuation b
              let z ← continuation c
              let point := ((a.toNat - 0xe0) * 0x40 + y) * 0x40 + z
              let cs ← utf8Decode surrogates r
              if 0x800 ≤ point ∧ (surrogates = true ∨ ¬ (0xd800 ≤ point ∧ point < 0xe000)) then
                return point :: cs
              else none
            else
              match r with
              | [] => none
              | d :: r =>
                if 0xf0 ≤ a.toNat ∧ a.toNat < 0xf5 then do
                  let y ← continuation b
                  let z ← continuation c
                  let w ← continuation d
                  let point := (((a.toNat - 0xf0) * 0x40 + y) * 0x40 + z) * 0x40 + w
                  let cs ← utf8Decode surrogates r
                  if 0x10000 ≤ point ∧ point < 0x110000 then return point :: cs else none
                else none

inductive Encoding where
  | utf8 | utf8Sig | utf16 (little : Bool) | utf32 (little : Bool)
  deriving DecidableEq, Repr

/-- `detect_encoding`; the marks of UTF-16 and UTF-32 tell their byte order. -/
def detectEncoding (bytes : List UInt8) : Encoding :=
  if [0x00, 0x00, 0xfe, 0xff] <+: bytes then .utf32 false
  else if [0xff, 0xfe, 0x00, 0x00] <+: bytes then .utf32 true
  else if [0xfe, 0xff] <+: bytes then .utf16 false
  else if [0xff, 0xfe] <+: bytes then .utf16 true
  else if [0xef, 0xbb, 0xbf] <+: bytes then .utf8Sig
  else match bytes with
    | a :: b :: c :: d :: _ =>
      if a = 0 then if b ≠ 0 then .utf16 false else .utf32 false
      else if b = 0 then if c ≠ 0 ∨ d ≠ 0 then .utf16 true else .utf32 true
      else .utf8
    | [a, b] => if a = 0 then .utf16 false else if b = 0 then .utf16 true else .utf8
    | _ => .utf8

/-- Two bytes a unit, and what is left over. -/
def utf16Units (little : Bool) : List UInt8 → Option (List ℕ)
  | [] => some []
  | [_] => none
  | a :: b :: r => do
    let units ← utf16Units little r
    return (if little then b.toNat * 0x100 + a.toNat else a.toNat * 0x100 + b.toNat) :: units

def utf32Points (little : Bool) : List UInt8 → Option Text
  | [] => some []
  | a :: b :: c :: d :: r => do
    let cs ← utf32Points little r
    let digits := if little then [d, c, b, a] else [a, b, c, d]
    let point := digits.foldl (fun n (x : UInt8) => n * 0x100 + x.toNat) 0
    if point < 0x110000 then return point :: cs else none
  | _ => none

/-- `decode(detect_encoding(bytes), "surrogatepass")`. A leading mark goes. -/
def decodeDetected (bytes : List UInt8) : Option Text :=
  let unmarked (cs : Text) : Text := if cs.head? = some byteOrderMark then cs.tail else cs
  match detectEncoding bytes with
  | .utf8 => utf8Decode true bytes
  | .utf8Sig => (utf8Decode true bytes).map unmarked
  | .utf16 little => (utf16Units little bytes).map fun units =>
    unmarked (joinPairs (units.map fun unit => (true, unit)))
  | .utf32 little => (utf32Points little bytes).map unmarked

/-- `json.loads` of bytes. -/
def loadsBytes {ε : Type} (h : Hooks ε) (depth : ℕ) (bytes : List UInt8) : Except (Fault ε) Value :=
  match decodeDetected bytes with
  | none => .error .undecodable
  | some text => loads h depth text

end Lib.JsonText
