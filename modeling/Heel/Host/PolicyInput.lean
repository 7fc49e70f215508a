import Heel.Lib.Checks
import Heel.Lib.JsonDump

/-! The local input of the policy installer (`deploy/host/h2_policy.py`) and the table that it
renders. -/
namespace Heel.HostPolicy
open Lib Lib.JsonText Lib.Checks

def tableName : Text := points "heel_lease"
def preparedSet : Text := points "prepared"
def activatedMap : Text := points "activated"
def gateChain : Text := points "gate"

def maxBatchBytes : ℕ := 4096
def maxAddresses : ℕ := 16
def egressPort : ℤ := 443

/-- The octets of an address of 32 bits, in network order. -/
def octets (n : ℕ) : List ℕ := [n / 0x1000000 % 256, n / 0x10000 % 256, n / 0x100 % 256, n % 256]

def decimal (n : ℕ) : Text := intText n

/-- `str` of an `IPv4Address`. -/
def ipv4Text (n : ℕ) : Text := [period].intercalate ((octets n).map decimal)

def isOctet (s : Text) : Bool :=
  !s.isEmpty && s.all isDigit && decide (s.length ≤ 3) && (s.head? ≠ some zero || s.length = 1) &&
    decide (digitsValue s ≤ 255)

/-- `IPv4Address` of a text. -/
def parseIpv4 (s : Text) : Option ℕ :=
  let parts := s.splitOn period
  if parts.length = 4 ∧ parts.all isOctet then
    some (parts.foldl (fun n part => 256 * n + digitsValue part) 0)
  else none

/-- The text of some address, as that address prints itself. -/
def canonicalIpv4 (s : Text) : Bool := (parseIpv4 s).any fun n => ipv4Text n = s

inductive Address where
  | v4 (n : Fin (2 ^ 32))
  | v6 (n : Fin (2 ^ 128))
  deriving DecidableEq, Repr

/-- `(version, packed)` comes before. -/
def Address.before : Address → Address → Bool
  | .v4 a, .v4 b => a < b
  | .v4 _, .v6 _ => true
  | .v6 _, .v4 _ => false
  | .v6 a, .v6 b => a < b

def Address.ipv4 : Address → Option ℕ
  | .v4 n => some n
  | .v6 _ => none

def isHex (c : ℕ) : Bool := isDigit c || ('a'.toNat ≤ c && c ≤ 'f'.toNat)
def isLowerAlnum (c : ℕ) : Bool := isDigit c || ('a'.toNat ≤ c && c ≤ 'z'.toNat)

def isHex32 (s : Text) : Bool := s.length = 32 && s.all isHex

def isSlot (s : Text) : Bool :=
  s.head?.any isLowerAlnum && decide (s.length ≤ 80) &&
    s.all fun c => isLowerAlnum c || (points "_.:-").contains c

def isHostname (s : Text) : Bool :=
  s.head?.any isLowerAlnum && s.getLast?.any isLowerAlnum && decide (s.length ≤ 253) &&
    s.all fun c => isLowerAlnum c || c = period || c = minus

structure PolicyFields where
  generationId : Text
  namespaceIdentity : ℤ × ℤ
  slotId : Text
  slotHopSrc : Text
  slotHopDst : Text
  bootstrapFence : Text
  egressHostname : Text
  egressPort : ℤ
  observedPublicAddresses : List Address
  controlOnly : Bool := false
  deriving DecidableEq

def increasing : List Address → Bool
  | a :: b :: rest => a.before b && increasing (b :: rest)
  | _ => true

/-- The checks of `__post_init__`, with the token of the first that fails. -/
def PolicyFields.check (f : PolicyFields) : Except String Unit := do
  require (isHex32 f.generationId) "generation_id_invalid"
  require (isHex32 f.bootstrapFence) "bootstrap_fence_invalid"
  require (0 ≤ f.namespaceIdentity.1 ∧ 0 ≤ f.namespaceIdentity.2) "namespace_identity_invalid"
  require (isSlot f.slotId) "slot_id_invalid"
  require (canonicalIpv4 f.slotHopSrc) "slot_hop_src_invalid"
  require (canonicalIpv4 f.slotHopDst) "slot_hop_dst_invalid"
  require (f.slotHopSrc ≠ f.slotHopDst) "slot_hop_invalid"
  require (isHostname f.egressHostname) "egress_hostname_invalid"
  require (f.egressPort = HostPolicy.egressPort) "egress_port_invalid"
  if f.controlOnly then
    require (f.observedPublicAddresses = []) "observed_public_addresses_invalid"
  else
    require (1 ≤ f.observedPublicAddresses.length ∧
      f.observedPublicAddresses.length ≤ maxAddresses ∧ increasing f.observedPublicAddresses)
      "observed_public_addresses_invalid"

structure H2PolicyInput extends PolicyFields where
  checked : toPolicyFields.check = .ok ()

def buildInput (f : PolicyFields) : Except String H2PolicyInput :=
  match h : f.check with
  | .ok () => .ok ⟨f, h⟩
  | .error token => .error token

variable (policy : H2PolicyInput)

def ipv4EgressTargets : List ℕ := policy.observedPublicAddresses.filterMap Address.ipv4

def gatewayText (dst : Text) : Text := points "(ip daddr & 0.0.0.0 | " ++ dst ++ points ")"

def renderTable : Except String Text := do
  let targets := ipv4EgressTargets policy
  require (targets ≠ [] ∨ policy.controlOnly = true) "unsupported_ipv6_only"
  let gateway := gatewayText policy.slotHopDst
  let admits := if policy.controlOnly then []
    else points "    ip saddr . " ++ gateway ++ points " . meta mark @" ++ preparedSet ++
      points " ip daddr \x7b " ++ (points ", ").intercalate (targets.map ipv4Text) ++
      points " \x7d tcp dport " ++ intText HostPolicy.egressPort ++ points " accept\n"
  let text := points "table inet " ++ tableName ++ points " \x7b\n  set " ++ preparedSet ++
    points " \x7b type ipv4_addr . ipv4_addr . mark ; flags timeout ; \x7d\n  map " ++
    activatedMap ++
    points " \x7b type ipv4_addr . ipv4_addr : mark ; \x7d\n  chain " ++ gateChain ++
    points " \x7b\n    type filter hook output priority 0 ; policy drop ;\n    meta mark set 0\n" ++
    points "    meta mark set ip saddr . " ++ gateway ++ points " map @" ++ activatedMap ++
    points "\n    ip saddr " ++ policy.slotHopSrc ++ points " ip daddr " ++ policy.slotHopDst ++
    points " tcp dport " ++ intText HostPolicy.egressPort ++ points " accept\n" ++ admits ++
    points "  \x7d\n\x7d\n"
  require (text.length ≤ maxBatchBytes) "batch_too_large"
  return text

theorem decimal_octet : ∀ n < 256, digitsValue (decimal n) = n ∧ period ∉ decimal n := by
  decide +kernel

theorem octets_lt {n k : ℕ} (hk : k ∈ octets n) : k < 256 := by
  simp only [octets, List.mem_cons, List.not_mem_nil, or_false] at hk
  omega

theorem splitOn_ipv4Text (n : ℕ) : (ipv4Text n).splitOn period = (octets n).map decimal := by
  refine List.splitOn_intercalate period ?_ (by simp [octets])
  intro part hpart
  obtain ⟨k, hk, rfl⟩ := List.mem_map.mp hpart
  exact (decimal_octet k (octets_lt hk)).2

theorem ipv4Text_inj {a b : ℕ} (ha : a < 2 ^ 32) (hb : b < 2 ^ 32) (h : ipv4Text a = ipv4Text b) :
    a = b := by
  have hparts : (octets a).map decimal = (octets b).map decimal := by
    rw [← splitOn_ipv4Text, ← splitOn_ipv4Text, h]
  have hvalues : ∀ n, ((octets n).map decimal).map digitsValue = octets n := by
    intro n
    rw [List.map_map]
    exact (List.map_congr_left fun k hk => (decimal_octet k (octets_lt hk)).1).trans
      (List.map_id _)
  have hoctets : octets a = octets b := by
    rw [← hvalues a, ← hvalues b, hparts]
  simp only [octets, List.cons.injEq, and_true] at hoctets
  omega

theorem target_lt {n : ℕ} (h : n ∈ ipv4EgressTargets policy) : n < 2 ^ 32 := by
  obtain ⟨a, -, ha⟩ := List.mem_filterMap.mp h
  cases a with
  | v4 m =>
    cases ha
    exact m.isLt
  | v6 m => cases ha

end Heel.HostPolicy
