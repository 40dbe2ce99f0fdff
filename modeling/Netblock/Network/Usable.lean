import Netblock.Network.Bounds
/-!
# Usable hosts

IPv4 networks, and IPv6 networks marked as embedding IPv4, keep their first and last address
for themselves. A network of one address has nothing to keep.
-/

set_option autoImplicit false

namespace Netblock

inductive UsableRule where
  | excludeEdges
  | raw
  deriving DecidableEq

namespace Network

def usableRule (network : Network) : UsableRule :=
  match network.base with
  | .v4 _ => .excludeEdges
  | .v6 _ true => .excludeEdges
  | .v6 _ false => .raw

def lowestUsableWith (network : Network) (rule : UsableRule) : Address :=
  if rule = .excludeEdges ∧ ¬ network.IsHost then
    network.low.withValue (network.low.toNat + 1)
  else
    network.low

def highestUsableWith (network : Network) (rule : UsableRule) : Address :=
  if rule = .excludeEdges ∧ ¬ network.IsHost then
    network.high.withValue (network.high.toNat - 1)
  else
    network.high

def lowestUsable (network : Network) : Address :=
  network.lowestUsableWith network.usableRule

def highestUsable (network : Network) : Address :=
  network.highestUsableWith network.usableRule

/-- The lowest and the highest usable address. A network of two addresses that keeps its edges
has none. -/
def usableRange? (network : Network) : Option (Address × Address) :=
  if network.lowestUsable ≤ network.highestUsable then
    some (network.lowestUsable, network.highestUsable)
  else
    none

/-- The last address of an IPv4 network, or of a marked IPv6 network that lies within the
embedded address. -/
def broadcast? (network : Network) : Option Address :=
  match network.base with
  | .v4 _ => some network.high
  | .v6 _ mark => if mark ∧ 96 < network.prefixLen then some network.high else none

/-- Whether an address is a usable host of the network. -/
def contains (network : Network) (address : Address) : Except Error Bool := do
  network.base.checkSameFamily address
  return decide (network.lowestUsable ≤ address ∧ address ≤ network.highestUsable)

end Network

end Netblock
