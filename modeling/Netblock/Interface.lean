import Netblock.Network.Covering
import Netblock.Network.Literal
/-!
# Interfaces

The address of a host together with the prefix length of the network that it is on. The host
bits stay as given.
-/

set_option autoImplicit false

namespace Netblock

structure Interface where
  address : Address
  prefixLen : Nat
  deriving DecidableEq

namespace Interface

def family (interface : Interface) : Family :=
  interface.address.family

/-- The prefix is no longer than the address. -/
def Valid (interface : Interface) : Prop :=
  interface.prefixLen ≤ interface.address.width

instance (interface : Interface) : Decidable interface.Valid :=
  inferInstanceAs (Decidable (_ ≤ _))

/-- Equivalent interfaces have equivalent addresses and the same prefix length. -/
instance : Setoid Interface where
  r left right := left.address ≈ right.address ∧ left.prefixLen = right.prefixLen
  iseqv :=
    { refl := fun _ => ⟨Setoid.refl _, rfl⟩
      symm := fun same => ⟨Setoid.symm same.1, same.2.symm⟩
      trans := fun first second =>
        ⟨Setoid.trans first.1 second.1, first.2.trans second.2⟩ }

instance (left right : Interface) : Decidable (left ≈ right) :=
  inferInstanceAs (Decidable (_ ∧ _))

/-- By address, then the shorter prefix first. -/
instance : Ord Interface := ⟨compareLex (compareOn address) (compareOn prefixLen)⟩

def ofAddress (address : Address) (prefixLen : Nat) : Except Error Interface := do
  address.checkPrefixLen prefixLen
  return ⟨address, prefixLen⟩

/-- A host on its own: the prefix covers the whole address. -/
def host (address : Address) : Interface :=
  ⟨address, address.width⟩

/-- The network that the host is on. -/
def network (interface : Interface) : Network :=
  ⟨interface.address.truncate interface.prefixLen, interface.prefixLen⟩

def text (interface : Interface) : String :=
  interface.address.cidrText interface.prefixLen

/-- A host literal with an optional prefix length, which covers the whole address by default. -/
def parse (literal : String) : Except Error Interface := do
  let (address, prefixText?) ← (readSides .host literal.toList).mapError (.malformed literal)
  match prefixText? with
  | some text => return ⟨address, ← readPrefixLen literal.toList address.width text⟩
  | none => return host address

theorem host_valid (address : Address) : (host address).Valid :=
  Nat.le_refl _

end Interface

end Netblock
