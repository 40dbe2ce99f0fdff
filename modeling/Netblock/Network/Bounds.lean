import Netblock.Address.Arithmetic
/-!
# Bounds of a network

The masks of a network, its first and last address, and what lies between them.
-/

set_option autoImplicit false

namespace Netblock.Network

/-- Ones in the prefix and zeros after it. -/
def netmask (network : Network) : Address :=
  (Address.zero network.family).withValue (2 ^ network.width - network.size)

/-- Zeros in the prefix and ones after it. -/
def wildcard (network : Network) : Address :=
  (Address.zero network.family).withValue (network.size - 1)

def low (network : Network) : Address :=
  network.base.truncate network.prefixLen

def high (network : Network) : Address :=
  network.base.withValue (network.low.toNat + (network.size - 1))

/-- Whether every address of the second network is one of the first. -/
def containsNetwork (outer inner : Network) : Except Error Bool := do
  outer.base.checkSameFamily inner.base
  return decide (outer.low ≤ inner.low ∧ inner.high ≤ outer.high)

/-- Orders networks by the sum of their bounds, so that a network stands between its halves. -/
def compareSpan (left right : Network) : Except Error Ordering := do
  left.base.checkSameFamily right.base
  return compare (left.low.toNat + left.high.toNat) (right.low.toNat + right.high.toNat)

end Netblock.Network
