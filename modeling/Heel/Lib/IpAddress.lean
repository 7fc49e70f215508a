import Mathlib.Algebra.Order.Ring.Int
import Mathlib.Order.Lex
import Mathlib.Data.Prod.Lex

/-! Addresses and networks of the two IP versions, and the classes of addresses of the module
`ipaddress` of Python. -/
namespace Lib.IpAddress

inductive Version where
  | four
  | six
  deriving DecidableEq, Repr

def Version.number : Version → ℕ
  | .four => 4
  | .six => 6

def Version.width : Version → ℕ
  | .four => 32
  | .six => 128

/-- An address of a version, and the zone of a scoped one. -/
structure Address where
  version : Version
  packed : ℕ
  zone : Option (List ℕ) := none
  fits : packed < 2 ^ version.width
  deriving DecidableEq

/-- `(version, packed)`. -/
def Address.key (a : Address) : ℕ ×ₗ ℕ := toLex (a.version.number, a.packed)

/-- The addresses that share the first bits of a base. -/
structure Network where
  version : Version
  base : ℕ
  bits : ℕ

def v4 (a b c d bits : ℕ) : Network := ⟨.four, ((a * 256 + b) * 256 + c) * 256 + d, bits⟩

/-- The network of the given first groups of sixteen bits. -/
def v6 (groups : List ℕ) (bits : ℕ) : Network :=
  ⟨.six, groups.foldl (fun n group => n * 65536 + group) 0 * 65536 ^ (8 - groups.length), bits⟩

/-- `address in network`. -/
def Network.contains (n : Network) (a : Address) : Bool :=
  a.version = n.version &&
    a.packed / 2 ^ (n.version.width - n.bits) = n.base / 2 ^ (n.version.width - n.bits)

def among (networks : List Network) (a : Address) : Bool := networks.any fun n => n.contains a

theorem among_of_mem {networks : List Network} {n : Network} {a : Address} (hn : n ∈ networks)
    (h : n.contains a = true) : among networks a = true :=
  List.any_eq_true.mpr ⟨n, hn, h⟩

theorem among_of_subset {networks others : List Network} {a : Address} (h : networks ⊆ others)
    (ha : among networks a = true) : among others a = true := by
  obtain ⟨n, hn, hcontains⟩ := List.any_eq_true.mp ha
  exact among_of_mem (h hn) hcontains

def mappedNetwork : Network := v6 [0, 0, 0, 0, 0, 0xffff] 96

def Address.ipv4Mapped (a : Address) : Option Address :=
  if mappedNetwork.contains a then
    some ⟨.four, a.packed % 2 ^ Version.four.width, none, Nat.mod_lt _ (by decide)⟩
  else none

def privateNetworks : List Network :=
  [v4 0 0 0 0 8, v4 10 0 0 0 8, v4 127 0 0 0 8, v4 169 254 0 0 16, v4 172 16 0 0 12,
    v4 192 0 0 0 24, v4 192 0 0 170 31, v4 192 0 2 0 24, v4 192 168 0 0 16, v4 198 18 0 0 15,
    v4 198 51 100 0 24, v4 203 0 113 0 24, v4 240 0 0 0 4, v4 255 255 255 255 32,
    v6 [0, 0, 0, 0, 0, 0, 0, 1] 128, v6 [] 128, mappedNetwork, v6 [0x64, 0xff9b, 1] 48,
    v6 [0x100] 64, v6 [0x2001] 23, v6 [0x2001, 0xdb8] 32, v6 [0x2002] 16, v6 [0xfc00] 7,
    v6 [0xfe80] 10]

def privateExceptions : List Network :=
  [v4 192 0 0 9 32, v4 192 0 0 10 32, v6 [0x2001, 1, 0, 0, 0, 0, 0, 1] 128,
    v6 [0x2001, 1, 0, 0, 0, 0, 0, 2] 128, v6 [0x2001, 3] 32, v6 [0x2001, 4, 0x112] 48,
    v6 [0x2001, 0x20] 28, v6 [0x2001, 0x30] 28]

def sharedNetwork : Network := v4 100 64 0 0 10

def loopbackNetworks : List Network := [v4 127 0 0 0 8, v6 [0, 0, 0, 0, 0, 0, 0, 1] 128]

def linkLocalNetworks : List Network := [v4 169 254 0 0 16, v6 [0xfe80] 10]

def reservedNetworks4 : List Network := [v4 240 0 0 0 4]

def reservedNetworks6 : List Network :=
  [v6 [] 8, v6 [0x100] 8, v6 [0x200] 7, v6 [0x400] 6, v6 [0x800] 5, v6 [0x1000] 4, v6 [0x4000] 3,
    v6 [0x6000] 3, v6 [0x8000] 3, v6 [0xa000] 3, v6 [0xc000] 3, v6 [0xe000] 4, v6 [0xf000] 5,
    v6 [0xf800] 6, v6 [0xfe00] 9]

def multicastNetworks : List Network := [v4 224 0 0 0 4, v6 [0xff00] 8]

/-- What an address is told by: the address that an IPv6 address maps, or else itself. -/
def Address.plain (a : Address) : Address := a.ipv4Mapped.getD a

def Address.isPrivate (a : Address) : Bool :=
  among privateNetworks a.plain && !among privateExceptions a.plain

def Address.isGlobal (a : Address) : Bool := !sharedNetwork.contains a.plain && !a.isPrivate

def Address.isLoopback (a : Address) : Bool := among loopbackNetworks a.plain
def Address.isLinkLocal (a : Address) : Bool := among linkLocalNetworks a.plain
def Address.isMulticast (a : Address) : Bool := among multicastNetworks a.plain

def Address.isReserved (a : Address) : Bool :=
  among (reservedNetworks4 ++ reservedNetworks6) a.plain

theorem Address.not_private {a : Address} (h : a.isGlobal = true) : a.isPrivate = false := by
  rw [isGlobal, Bool.and_eq_true, Bool.not_eq_true'] at h
  simpa using h.2

theorem Address.plain_of_unmapped {a : Address} (h : a.ipv4Mapped = none) : a.plain = a := by
  rw [plain, h]
  rfl

end Lib.IpAddress
