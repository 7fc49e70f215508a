import Mathlib.Data.List.Infix
import Heel.Lib.Checks
import Heel.Lib.Dict
import Heel.Lib.IpAddress
import Heel.Lib.Sorting
import Heel.Lib.Url

/-! The guard of target names and addresses of the Cloud (`saas/network_guard.py`). -/
namespace Heel.NetworkGuard
open Lib Lib.Checks Lib.IpAddress Lib.JsonText Lib.Url

/-- The names of the frozen root zone: letters, or a name in Punycode. -/
structure RootZone where
  member : Text → Bool
  spelled : ∀ name, member name = true →
    points "xn--" <+: name ∨ 2 ≤ name.length ∧ name.length ≤ 63 ∧ name.all isLower = true
  remote : ∀ name, member name = true → ¬ points "localhost" <:+ name

/-- What the guards use of Python beside the root zone: `ip_address` of a text, and the checks of
`urlsplit`. -/
structure Host where
  zone : RootZone
  ipAddress : Text → Option Address
  surround : Bool

def Host.python (host : Host) : Python where
  isIpv6 s := (host.ipAddress s).any fun a => a.version = .six
  surround := host.surround

/-- A rejection of `OriginValidationError` or `AddressSetValidationError` with its message, one that
names an unsafe address, or a `ValueError` of `urlsplit`. -/
inductive GuardError where
  | refused (message : String)
  | unsafeAnswer (a : Address)
  | valueError
  deriving DecidableEq

/-- `isspace` of an ASCII point. -/
def isBlank (c : ℕ) : Bool := c = 0x20 || (0x09 ≤ c && c ≤ 0x0d) || (0x1c ≤ c && c ≤ 0x1f)

def hyphen : ℕ := '-'.toNat

def hostnameChar (c : ℕ) : Bool := isLower c || isDigit c || c = hyphen || c = period

def specialSuffixes : List Text :=
  [".localhost", ".local", ".internal", ".invalid", ".test", ".example", ".onion", ".home.arpa",
    ".corp", ".lan", ".localdomain"].map points

def specialNames : List Text :=
  ["localhost", "broadcasthost", "ip6-allnodes", "ip6-allrouters", "ip6-localhost",
    "ip6-loopback"].map points

def denyCorpus : List Network :=
  [v4 0 0 0 0 8, v4 10 0 0 0 8, v4 100 64 0 0 10, v4 127 0 0 0 8, v4 169 254 0 0 16,
    v4 172 16 0 0 12, v4 192 0 0 0 24, v4 192 0 2 0 24, v4 192 88 99 0 24, v4 192 168 0 0 16,
    v4 198 18 0 0 15, v4 198 51 100 0 24, v4 203 0 113 0 24, v4 224 0 0 0 4, v4 240 0 0 0 4,
    v6 [] 128, v6 [0, 0, 0, 0, 0, 0, 0, 1] 128, v6 [0, 0, 0, 0, 0, 0xffff] 96,
    v6 [0x64, 0xff9b] 96, v6 [0x100] 64, v6 [0x2001, 0] 32, v6 [0x2001, 2] 48,
    v6 [0x2001, 0xdb8] 32, v6 [0x2001, 0x10] 28, v6 [0x2002] 16, v6 [0xfc00] 7, v6 [0xfe80] 10,
    v6 [0xff00] 8]

def maxDnsAnswers : ℕ := 16

def scheme : Text := points "https://"

variable (host : Host)

/-- `urlsplit`, where it raises `ValueError`. -/
def splitOrigin (origin : Text) : Except GuardError Split :=
  match urlsplit host.python origin with
  | some split => .ok split
  | none => .error .valueError

def normalizeVerifiedOrigin (origin : Text) : Except GuardError Text := do
  require (origin ≠ []) (.refused "origin must be a nonempty string")
  require (¬ origin.any fun c => 127 < c || isBlank c || c < 0x20)
    (.refused "origin must be ASCII without whitespace")
  require (scheme <+: origin ∧ points "://" <:+: origin ∧ percent ∉ origin)
    (.refused "origin must start with lowercase https://")
  let parsed ← splitOrigin host origin
  require (parsed.scheme = points "https" ∧ parsed.netloc ≠ [] ∧ parsed.path = [] ∧
    parsed.query = [] ∧ parsed.fragment = []) (.refused "origin must be exactly https://host")
  require (parsed.hasUser = false ∧ colon ∉ parsed.netloc) (.refused "credentials are forbidden")
  require (parsed.portText = none) (.refused "explicit ports are forbidden")
  match parsed.hostname with
  | none => .error (.refused "hostname is required")
  | some hostname => do
    require ((host.ipAddress hostname).isNone = true) (.refused "literal IPs are forbidden")
    let name := lower hostname
    let labels := name.splitOn period
    require (¬ (name.getLast? = some period ∨ 253 < name.length ∨
        (labels.any fun label => label = [] || 63 < label.length) ∨ labels.length < 2 ∨
        ¬ name.all hostnameChar)) (.refused "hostname is not an exact DNS name")
    require (¬ labels.any fun label => label.head? = some hyphen || label.getLast? = some hyphen)
      (.refused "hostname has invalid label hyphenation")
    require (¬ (name ∈ specialNames ∨ (specialSuffixes.any fun suffix => suffix <:+ name) ∨
        points "xn--" <+: name ∨ points ".xn--" <:+: name))
      (.refused "special or IDNA hostname is forbidden")
    require (¬ (labels.getLastD [] = points "arpa" ∨ host.zone.member (labels.getLastD []) = false))
      (.refused "hostname is not under a public root-zone TLD")
    return scheme ++ name

inductive Answer where
  | address (a : Address)
  | text (t : Text)
  | bytes (b : List UInt8)
  | other

def asIp (answer : Answer) : Except GuardError Address :=
  let read (t : Text) := match host.ipAddress t with
    | some a => .ok a
    | none => .error (.refused "resolver returned invalid address")
  match answer with
  | .address a => .ok a
  | .text t => read t
  | .bytes b =>
    if b.all (· < 128) then read (b.map UInt8.toNat)
    else .error (.refused "resolver returned invalid address")
  | .other => .error (.refused "resolver address has unsupported type")

def isPublicAddress (a : Address) : Bool :=
  !(!a.isGlobal || (a.version = .six && a.ipv4Mapped.isSome) || among denyCorpus a)

/-- The addresses of a dictionary by `(version, packed)`, in the order of the keys. -/
def byKey (addresses : List Address) : List Address :=
  (sortBy Prod.fst (Dict.ofList (addresses.map fun a => (a.key, a)))).map Prod.snd

def selectSafeAddresses (answers : List Answer) : Except GuardError (List Address) := do
  let parsed ← answers.mapM (asIp host)
  require (parsed ≠ []) (.refused "DNS answer is empty")
  require (parsed.length ≤ maxDnsAnswers) (.refused "DNS answer exceeds configured bound")
  parsed.forM fun a => require (isPublicAddress a = true) (.unsafeAnswer a)
  return byKey parsed

end Heel.NetworkGuard
