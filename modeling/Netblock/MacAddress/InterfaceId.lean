import Netblock.Address.Basic
import Netblock.MacAddress.Basic
/-!
# Interface identifiers

A MAC address as the last 64 bits of an IPv6 address, in modified EUI-64 form: `fffe` goes
between its two halves, and the universal bit of its first octet is flipped.
-/

set_option autoImplicit false

namespace Netblock

/-- The half of a MAC address or identifier that names the vendor, with the universal bit of its
first octet flipped. Flipping twice gives it back. -/
def flipUniversal (vendor : Nat) : Nat :=
  vendor ^^^ 0x020000

namespace MacAddress

/-- The identifier, below 2^64. -/
def interfaceId (mac : MacAddress) : Nat :=
  flipUniversal (mac.toNat / 2 ^ 24) * 2 ^ 40 + 0xFFFE * 2 ^ 24 + mac.toNat % 2 ^ 24

/-- The MAC address from which an identifier is made, if it is made from one. -/
def ofInterfaceId? (id : Nat) : Option MacAddress :=
  if id / 2 ^ 24 % 2 ^ 16 = 0xFFFE then
    some ⟨BitVec.ofNat 48 (flipUniversal (id / 2 ^ 40) * 2 ^ 24 + id % 2 ^ 24)⟩
  else
    none

/-- The address under fe80::/64 with this interface identifier. -/
def linkLocal (mac : MacAddress) : Address :=
  Address.ofV6 (BitVec.ofNat 128 (0xFE80 * 2 ^ 112 + mac.interfaceId))

end MacAddress

namespace Address

/-- The values of IPv6 addresses under ff00::/8. -/
def IsMulticast (value : Nat) : Prop :=
  value / 2 ^ 120 = 0xFF

instance : DecidablePred IsMulticast :=
  fun _ => inferInstanceAs (Decidable (_ = _))

/-- The MAC address in the interface identifier of an IPv6 address that is not multicast. -/
def mac? : Address → Option MacAddress
  | .v4 _ => none
  | .v6 bits _ =>
      if IsMulticast bits.toNat then
        none
      else
        MacAddress.ofInterfaceId? (bits.toNat % 2 ^ 64)

/-- The group under ff02::1:ff00:0/104 that the owner of an IPv6 address joins, with the same
last 24 bits. Multicast addresses, `::` and `::1` have none. -/
def solicitedNode? : Address → Option Address
  | .v4 _ => none
  | .v6 bits _ =>
      if IsMulticast bits.toNat ∨ bits.toNat ≤ 1 then
        none
      else
        some (ofV6 (BitVec.ofNat 128 (0xFF02 * 2 ^ 112 + 0x1FF * 2 ^ 24 + bits.toNat % 2 ^ 24)))

end Address

@[simp]
theorem flipUniversal_flipUniversal (vendor : Nat) :
    flipUniversal (flipUniversal vendor) = vendor := by
  rw [flipUniversal, flipUniversal, Nat.xor_assoc, Nat.xor_self, Nat.xor_zero]

theorem flipUniversal_lt {vendor : Nat} (fits : vendor < 2 ^ 24) :
    flipUniversal vendor < 2 ^ 24 :=
  Nat.xor_lt_two_pow fits (by decide)

namespace MacAddress

theorem toNat_lt (mac : MacAddress) : mac.toNat < 2 ^ 48 :=
  mac.bits.isLt

theorem interfaceId_lt (mac : MacAddress) : mac.interfaceId < 2 ^ 64 := by
  have below := mac.toNat_lt
  have flipped : flipUniversal (mac.toNat / 2 ^ 24) < 2 ^ 24 := flipUniversal_lt (by omega)
  unfold interfaceId
  omega

/-- An identifier gives back the MAC address that it was made from. -/
theorem ofInterfaceId?_interfaceId (mac : MacAddress) :
    ofInterfaceId? mac.interfaceId = some mac := by
  have below := mac.toNat_lt
  have flipped : flipUniversal (mac.toNat / 2 ^ 24) < 2 ^ 24 := flipUniversal_lt (by omega)
  have middle : mac.interfaceId / 2 ^ 24 % 2 ^ 16 = 0xFFFE := by unfold interfaceId; omega
  have vendor : mac.interfaceId / 2 ^ 40 = flipUniversal (mac.toNat / 2 ^ 24) := by
    unfold interfaceId; omega
  have device : mac.interfaceId % 2 ^ 24 = mac.toNat % 2 ^ 24 := by unfold interfaceId; omega
  have value : mac.toNat / 2 ^ 24 * 2 ^ 24 + mac.toNat % 2 ^ 24 = mac.toNat := by omega
  rw [ofInterfaceId?, if_pos middle, vendor, device, flipUniversal_flipUniversal, value]
  simp [toNat]

end MacAddress

end Netblock
