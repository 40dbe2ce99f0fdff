import Netblock.Interface
/-!
# Plain addresses and prefixes

Addresses and prefixes as other network software holds them: without a mark, and with a prefix
length that is checked once, when the value is made. Going there drops the mark, and coming
back sets it from the bits.

Prefixes belong to another library. The exchange with it uses four of its functions and is defined
for any that are given; `PlainPrefix` is a library to run it with.
-/

set_option autoImplicit false

namespace Netblock

inductive PlainAddress where
  | v4 (bits : BitVec 32)
  | v6 (bits : BitVec 128)
  deriving DecidableEq

namespace PlainAddress

def ofAddress : Address → PlainAddress
  | .v4 bits => .v4 bits
  | .v6 bits _ => .v6 bits

def toAddress : PlainAddress → Address
  | .v4 bits => .v4 bits
  | .v6 bits => Address.ofV6 bits

def width (plain : PlainAddress) : Nat :=
  plain.toAddress.width

def ofOctets? (octets : List Octet) : Option PlainAddress :=
  (Address.ofOctets? octets).map ofAddress

def octets (plain : PlainAddress) : List Octet :=
  plain.toAddress.octets

@[simp]
theorem ofAddress_toAddress (plain : PlainAddress) : ofAddress plain.toAddress = plain := by
  cases plain <;> rfl

theorem toAddress_ofAddress_equiv (address : Address) :
    (ofAddress address).toAddress ≈ address := by
  cases address <;> exact ⟨rfl, rfl⟩

end PlainAddress

/-- Prefixes as another library keeps them. Bits after the prefix may be set. -/
structure PrefixLibrary (α : Type) where
  make? : PlainAddress → Nat → Option α
  address : α → PlainAddress
  prefixLen : α → Nat
  truncate : α → α

namespace PrefixLibrary

variable {α : Type} (library : PrefixLibrary α)

/-- A prefix is made unless it is longer than its address, and truncation keeps the bits of the
prefix alone. -/
structure Lawful : Prop where
  make?_eq_none_iff : ∀ address prefixLen,
    library.make? address prefixLen = none ↔ address.width < prefixLen
  address_of_make? : ∀ address prefixLen kept,
    library.make? address prefixLen = some kept → library.address kept = address
  prefixLen_of_make? : ∀ address prefixLen kept,
    library.make? address prefixLen = some kept → library.prefixLen kept = prefixLen
  make?_parts : ∀ kept,
    library.make? (library.address kept) (library.prefixLen kept) = some kept
  prefixLen_truncate : ∀ kept, library.prefixLen (library.truncate kept) = library.prefixLen kept
  family_truncate : ∀ kept, (library.address (library.truncate kept)).toAddress.family =
    (library.address kept).toAddress.family
  testBit_truncate : ∀ kept position,
    (library.address (library.truncate kept)).toAddress.toNat.testBit position =
      (decide ((library.address kept).width - library.prefixLen kept ≤ position) &&
        (library.address kept).toAddress.toNat.testBit position)

def ofCidr (address : Address) (prefixLen : Nat) : Except Error α :=
  match library.make? (.ofAddress address) prefixLen with
  | some kept => .ok kept
  | none => .error (.prefixLen address.text (Text.Decimal.text prefixLen))

def ofNetwork (network : Network) : Except Error α :=
  library.ofCidr network.base network.prefixLen

def ofInterface (interface : Interface) : Except Error α :=
  library.ofCidr interface.address interface.prefixLen

/-- Refuses a prefix after which a bit is set. -/
def toNetwork (kept : α) : Except Error Network :=
  Network.ofBase (library.address kept).toAddress (library.prefixLen kept)

def toInterface (kept : α) : Interface :=
  ⟨(library.address kept).toAddress, library.prefixLen kept⟩

end PrefixLibrary

/-- A plain address with a prefix length. -/
structure PlainPrefix where
  address : PlainAddress
  prefixLen : Nat
  prefixLen_le : prefixLen ≤ address.width
  deriving DecidableEq

namespace PlainPrefix

def of? (address : PlainAddress) (prefixLen : Nat) : Option PlainPrefix :=
  if fits : prefixLen ≤ address.width then some ⟨address, prefixLen, fits⟩ else none

private theorem width_truncate (address : PlainAddress) (prefixLen : Nat) :
    (PlainAddress.ofAddress (address.toAddress.truncate prefixLen)).width = address.width := by
  cases address <;> rfl

/-- The same prefix with the bits after it cleared. -/
def truncate (plain : PlainPrefix) : PlainPrefix :=
  ⟨PlainAddress.ofAddress (plain.address.toAddress.truncate plain.prefixLen), plain.prefixLen,
    by rw [width_truncate]; exact plain.prefixLen_le⟩

def library : PrefixLibrary PlainPrefix :=
  ⟨of?, address, prefixLen, truncate⟩

def ofNetwork (network : Network) : Except Error PlainPrefix :=
  library.ofNetwork network

def ofInterface (interface : Interface) : Except Error PlainPrefix :=
  library.ofInterface interface

def toNetwork (plain : PlainPrefix) : Except Error Network :=
  library.toNetwork plain

def toInterface (plain : PlainPrefix) : Interface :=
  library.toInterface plain

end PlainPrefix

end Netblock
