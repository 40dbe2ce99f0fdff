import Netblock.Network.Usable
/-!
# Report on a network

The derived properties of a network in one record, and the lines that tell them.
-/

set_option autoImplicit false

namespace Netblock

namespace Network

structure Summary where
  network : Network
  netmask : Address
  wildcard : Address
  broadcast? : Option Address
  prefixLen : Nat
  deriving DecidableEq

def summary (network : Network) : Summary where
  network := network
  netmask := network.netmask
  wildcard := network.wildcard
  broadcast? := network.broadcast?
  prefixLen := network.prefixLen

private def usableText (network : Network) : String :=
  match network.usableRange? with
  | some (lowest, highest) => lowest.text ++ " - " ++ highest.text
  | none => "-"

private def broadcastText (summary : Summary) : String :=
  match summary.broadcast? with
  | some address => address.text
  | none => "-"

/-- Six lines. A dash stands for what the network does not have. -/
def report (network : Network) : List String :=
  let summary := network.summary
  [ "network:   " ++ summary.network.text,
    "netmask:   " ++ summary.netmask.text,
    "wildcard:  " ++ summary.wildcard.text,
    "broadcast: " ++ broadcastText summary,
    "usable:    " ++ usableText network,
    "size:      " ++ Text.Decimal.text network.size ]

@[simp]
theorem length_report (network : Network) : network.report.length = 6 := rfl

end Network

end Netblock
