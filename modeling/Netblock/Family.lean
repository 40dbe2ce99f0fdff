/-!
# Address families

The two families differ in the width of their addresses and are never mixed in one operation.
-/

set_option autoImplicit false

namespace Netblock

inductive Family where
  | v4
  | v6
  deriving DecidableEq

/-- Number of bits of an address. A prefix length runs from zero up to this width. -/
def Family.width : Family → Nat
  | .v4 => 32
  | .v6 => 128

/-- IPv4 comes before IPv6. -/
instance : Ord Family := ⟨compareOn Family.width⟩

theorem Family.width_injective {left right : Family} (sameWidth : left.width = right.width) :
    left = right := by
  cases left <;> cases right <;> simp_all [Family.width]

end Netblock
