import Heel.Runner.Adapters
import Heel.Saas.NetworkGuard

/-! The guard of target names and addresses of the runner (`runner/http_transport.py`), and the
origin of an environment in the contract that both sides share (`canary_contracts.py`). -/
namespace Heel.NetworkGuard.Runner
open Lib Lib.Checks Lib.IpAddress Lib.JsonText Lib.Url

/-- The codes of a `TransportFailure` that the guard raises, or a `ValueError` of `urlsplit`. -/
inductive Failure where
  | invalidOrigin
  | unsafeDns
  | valueError
  deriving DecidableEq, Repr

def hostnameChar (c : ℕ) : Bool := isLower c || isDigit c || c = hyphen || c = period

def specialSuffixes : List Text :=
  [".localhost", ".local", ".internal", ".invalid", ".test", ".example", ".onion", ".home.arpa",
    ".corp", ".lan", ".localdomain"].map points

def specialNames : List Text :=
  ["localhost", "broadcasthost", "ip6-allnodes", "ip6-allrouters", "ip6-localhost",
    "ip6-loopback"].map points

def denyCorpus : List Network :=
  [v4 0 0 0 0 8, v4 10 0 0 0 8, v4 100 64 0 0 10, v4 127 0 0 0 8, v4 169 254 0 0 16,
    v4 172 16 0 0 12, v4 192 0 0 0 24, v4 192 0 2 0 24, v4 192 88 99 0 24,
    v4 192 168 0 0 16, v4 198 18 0 0 15, v4 198 51 100 0 24, v4 203 0 113 0 24,
    v4 224 0 0 0 4, v4 240 0 0 0 4, v6 [] 128, v6 [0, 0, 0, 0, 0, 0, 0, 1] 128,
    v6 [0, 0, 0, 0, 0, 0xffff] 96, v6 [0x64, 0xff9b] 96, v6 [0x100] 64, v6 [0x2001, 0] 32,
    v6 [0x2001, 2] 48, v6 [0x2001, 0xdb8] 32, v6 [0x2001, 0x10] 28, v6 [0x2002] 16,
    v6 [0xfc00] 7, v6 [0xfe80] 10, v6 [0xff00] 8]

def maxDnsAnswers : ℕ := 16

variable (host : Host)

/-- `urlsplit`, where it raises `ValueError`. -/
def splitOrigin (origin : Text) : Except Failure Split :=
  match urlsplit host.python origin with
  | some split => .ok split
  | none => .error .valueError

def normalizeTargetOrigin (origin : Text) : Except Failure Text := do
  require (origin ≠ []) .invalidOrigin
  require (¬ origin.any fun c => 127 < c || isBlank c || c < 0x20) .invalidOrigin
  require (points "https://" <+: origin ∧ points "//" <:+: origin ∧ percent ∉ origin ∧
    backslash ∉ origin) .invalidOrigin
  let parsed ← splitOrigin host origin
  require (parsed.scheme = points "https" ∧ parsed.netloc ≠ [] ∧ parsed.path = [] ∧
    parsed.query = [] ∧ parsed.fragment = []) .invalidOrigin
  require (parsed.hasUser = false ∧ colon ∉ parsed.netloc) .invalidOrigin
  require (parsed.portText = none) .invalidOrigin
  match parsed.hostname with
  | none => .error .invalidOrigin
  | some hostname => do
    require ((host.ipAddress hostname).isNone = true) .invalidOrigin
    let name := lower hostname
    let labels := name.splitOn period
    require (¬ (name.getLast? = some period ∨ 253 < name.length ∨ labels.length < 2 ∨
        ¬ name.all hostnameChar ∨ (labels.any fun label => label = [] || 63 < label.length) ∨
        (labels.any fun label => label.head? = some hyphen || label.getLast? = some hyphen) ∨
        name ∈ specialNames ∨ (specialSuffixes.any fun suffix => suffix <:+ name) ∨
        points "xn--" <+: name ∨ points ".xn--" <:+: name ∨ labels.getLastD [] = points "arpa" ∨
        host.zone.member (labels.getLastD []) = false)) .invalidOrigin
    return points "https://" ++ name

def asIp (answer : Answer) : Except Failure Address :=
  let read (t : Text) := match host.ipAddress t with
    | some a => .ok a
    | none => .error .unsafeDns
  match answer with
  | .address a => .ok a
  | .text t => read t
  | .bytes b => if b.all (· < 128) then read (b.map UInt8.toNat) else .error .unsafeDns
  | .other => .error .unsafeDns

def isPublic (a : Address) : Bool :=
  !(!a.isGlobal || (a.version = .six && a.ipv4Mapped.isSome) || among denyCorpus a)

def selectPublicAddresses (answers : List Answer) : Except Failure (List Address) := do
  let parsed ← answers.mapM (asIp host)
  require (¬ (parsed = [] ∨ maxDnsAnswers < parsed.length ∨ parsed.any fun a => !isPublic a))
    .unsafeDns
  return byKey parsed

end Heel.NetworkGuard.Runner

namespace Heel.NetworkGuard.Contract
open Lib Lib.Checks Lib.JsonText Lib.Url Heel.NetworkGuard

/-- The label of a name that `_DNS` asks for before a dot. -/
def isLabel (label : Text) : Bool :=
  let edge (c : ℕ) : Bool := isLower c || isDigit c
  label.length ≤ 63 && label.head?.any edge && label.getLast?.any edge &&
    label.all fun c => edge c || c = hyphen

def isDns (hostname : Text) : Bool :=
  let labels := hostname.splitOn period
  let last := labels.getLastD []
  1 ≤ hostname.length && hostname.length ≤ 253 && 2 ≤ labels.length &&
    labels.dropLast.all isLabel && 2 ≤ last.length && last.length ≤ 63 && last.all isLower

def forbidden : List Text :=
  ["localhost", ".localhost", ".local", ".internal", ".invalid", ".test", ".example", ".onion",
    ".home.arpa"].map points

def validHostname (hostname : Text) : Bool :=
  isDns hostname && hostname.head? ≠ some hyphen &&
    !(forbidden.any fun suffix => lower hostname = suffix || suffix <:+ lower hostname)

/-- The origin of `_environment`. -/
def environmentOrigin (origin : Text) : Except String Text := do
  require ((origin.map Routes.utf8Size).sum ≤ 1024) "string length exceeded"
  require (origin ≠ []) "empty string"
  let name := origin.drop scheme.length
  require (scheme <+: origin ∧ name ≠ [] ∧ name.all hostnameChar = true ∧ origin = lower origin ∧
    validHostname name = true) "unsafe origin"
  return origin

end Heel.NetworkGuard.Contract
