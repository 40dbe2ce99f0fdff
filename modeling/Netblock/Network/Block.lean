import Netblock.Network.Bounds
/-!
# Neighbouring blocks

The networks of the same size directly above and below a network.
-/

set_option autoImplicit false

namespace Netblock.Network

/-- There is no block above the one that ends the address space. -/
def nextBlock? (network : Network) : Option Network :=
  let value := network.base.toNat + network.size
  if value < 2 ^ network.width then
    some ⟨network.base.withValue value, network.prefixLen⟩
  else
    none

/-- There is no block below the one that starts the address space. -/
def previousBlock? (network : Network) : Option Network :=
  if network.size ≤ network.base.toNat then
    some ⟨network.base.withValue (network.base.toNat - network.size), network.prefixLen⟩
  else
    none

/-- Whether the second network is the block next to the first. -/
def IsFollowedBy (network following : Network) : Prop :=
  ∃ block ∈ network.nextBlock?, block ≈ following

instance (network following : Network) : Decidable (network.IsFollowedBy following) :=
  match found : network.nextBlock? with
  | none => isFalse (by simp [IsFollowedBy, found])
  | some block => decidable_of_iff (block ≈ following) (by simp [IsFollowedBy, found])

end Netblock.Network
