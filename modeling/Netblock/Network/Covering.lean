import Netblock.Error
/-!
# Networks from an address and a prefix length

`ofBase` insists on a base without host bits, `covering` clears them.
-/

set_option autoImplicit false

namespace Netblock

/-- Refuses a prefix longer than the address. -/
def Address.checkPrefixLen (address : Address) (prefixLen : Nat) : Except Error Unit :=
  if prefixLen ≤ address.width then
    .ok ()
  else
    .error (.prefixLen address.text (Text.Decimal.text prefixLen))

theorem Address.checkPrefixLen_eq_ok_iff {address : Address} {prefixLen : Nat} :
    address.checkPrefixLen prefixLen = .ok () ↔ prefixLen ≤ address.width := by
  unfold Address.checkPrefixLen
  split <;> simp_all

namespace Network

def ofBase (base : Address) (prefixLen : Nat) : Except Error Network := do
  base.checkPrefixLen prefixLen
  if base.IsAligned prefixLen then
    return ⟨base, prefixLen⟩
  else
    throw (.hostBits (base.cidrText prefixLen))

/-- The network of a given prefix length in which an address lies. -/
def covering (address : Address) (prefixLen : Nat) : Except Error Network := do
  address.checkPrefixLen prefixLen
  return ⟨address.truncate prefixLen, prefixLen⟩

theorem ofBase_eq_ok_iff {base : Address} {prefixLen : Nat} {network : Network} :
    ofBase base prefixLen = .ok network ↔ network = ⟨base, prefixLen⟩ ∧ network.Valid := by
  constructor
  · intro built
    unfold ofBase Address.checkPrefixLen at built
    by_cases fits : prefixLen ≤ base.width
    · by_cases aligned : base.IsAligned prefixLen
      · simp only [fits, aligned, ↓reduceIte] at built
        cases built
        exact ⟨rfl, ⟨fits, aligned⟩⟩
      · simp only [fits, aligned, ↓reduceIte] at built
        cases built
    · simp only [fits, ↓reduceIte] at built
      cases built
  · rintro ⟨rfl, valid⟩
    have fits : prefixLen ≤ base.width := valid.prefixLen_le
    have aligned : base.IsAligned prefixLen := valid.aligned
    unfold ofBase Address.checkPrefixLen
    simp only [fits, aligned, ↓reduceIte]
    rfl

theorem covering_eq_ok_iff {address : Address} {prefixLen : Nat} {network : Network} :
    covering address prefixLen = .ok network ↔
      prefixLen ≤ address.width ∧ network = ⟨address.truncate prefixLen, prefixLen⟩ := by
  unfold covering Address.checkPrefixLen
  by_cases fits : prefixLen ≤ address.width
  · simp [fits, bind, Except.bind, pure, Except.pure, eq_comm]
  · simp [fits, bind, Except.bind]

theorem covering_valid {address : Address} {prefixLen : Nat} {network : Network}
    (covered : covering address prefixLen = .ok network) : network.Valid := by
  obtain ⟨fits, rfl⟩ := covering_eq_ok_iff.mp covered
  exact ⟨by simpa [width] using fits, address.isAligned_truncate prefixLen⟩

end Network

end Netblock
