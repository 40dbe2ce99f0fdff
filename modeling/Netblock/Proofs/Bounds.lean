import Netblock.Network.Bounds
import Netblock.Network.Covering
import Netblock.Proofs.Order
import Netblock.Proofs.Outcome
/-!
# Networks as intervals

A valid network holds the values from its base up to, and without, its base plus its size.
Membership, containment and the network around an address are comparisons with these two numbers.
-/

set_option autoImplicit false

namespace Netblock.Network

/-- The address lies between the bounds of the network, which are both covered. -/
def Covers (network : Network) (address : Address) : Prop :=
  network.low ≤ address ∧ address ≤ network.high

instance (network : Network) (address : Address) : Decidable (network.Covers address) :=
  inferInstanceAs (Decidable (_ ∧ _))

theorem size_pos (network : Network) : 0 < network.size :=
  Nat.two_pow_pos _

namespace Valid

variable {network : Network}

theorem of_equiv {other : Network} (valid : network.Valid) (same : network ≈ other) :
    other.Valid := by
  obtain ⟨⟨sameFamily, sameValue⟩, samePrefix⟩ := same
  have sameWidth : network.width = other.width := congrArg Family.width sameFamily
  constructor
  · rw [← samePrefix, ← sameWidth]
    exact valid.prefixLen_le
  · have aligned : network.base.toNat % 2 ^ (network.width - network.prefixLen) = 0 :=
      valid.aligned
    rwa [sameValue, sameWidth, samePrefix] at aligned

theorem size_dvd_base (valid : network.Valid) : network.size ∣ network.base.toNat :=
  Nat.dvd_of_mod_eq_zero valid.aligned

theorem size_dvd_space (network : Network) : network.size ∣ 2 ^ network.width :=
  Nat.pow_dvd_pow 2 (Nat.sub_le _ _)

/-- No network leaves the address space: a block that starts below its end stays below it. -/
theorem base_add_size_le (valid : network.Valid) :
    network.base.toNat + network.size ≤ 2 ^ network.width := by
  obtain ⟨blocksBefore, base_eq⟩ := valid.size_dvd_base
  obtain ⟨blocks, space_eq⟩ := size_dvd_space network
  have below : network.base.toNat < 2 ^ network.width := network.base.toNat_lt
  rw [base_eq, space_eq] at below
  have earlier : blocksBefore < blocks := Nat.lt_of_mul_lt_mul_left below
  calc network.base.toNat + network.size
      = network.size * (blocksBefore + 1) := by rw [base_eq, Nat.mul_succ]
    _ ≤ network.size * blocks := Nat.mul_le_mul_left _ earlier
    _ = 2 ^ network.width := space_eq.symm

theorem toNat_low (valid : network.Valid) : network.low.toNat = network.base.toNat := by
  have aligned : network.base.toNat % 2 ^ (network.base.width - network.prefixLen) = 0 :=
    valid.aligned
  rw [low, Address.toNat_truncate, aligned, Nat.sub_zero]

theorem toNat_high (valid : network.Valid) :
    network.high.toNat = network.base.toNat + (network.size - 1) := by
  have room : network.base.toNat + network.size ≤ 2 ^ network.base.width :=
    valid.base_add_size_le
  have positive := network.size_pos
  rw [high, valid.toNat_low]
  exact Address.toNat_withValue (by omega)

end Valid

@[simp]
theorem family_low (network : Network) : network.low.family = network.family :=
  Address.family_truncate _ _

@[simp]
theorem family_high (network : Network) : network.high.family = network.family :=
  Address.family_withValue _ _

/-- The covered addresses are those of the family whose value lies in the interval. -/
theorem covers_iff {network : Network} {address : Address} (valid : network.Valid) :
    network.Covers address ↔
      address.family = network.family ∧ network.base.toNat ≤ address.toNat ∧
        address.toNat < network.base.toNat + network.size := by
  have positive := network.size_pos
  constructor
  · intro inside
    obtain ⟨above, below⟩ := inside
    have sameFamily : address.family = network.family := by
      rw [← network.family_low]
      exact Address.family_eq_of_le_of_le (by simp) above below
    rw [Address.le_iff_toNat_le (by simp [sameFamily]), valid.toNat_low] at above
    rw [Address.le_iff_toNat_le (by simp [sameFamily]), valid.toNat_high] at below
    exact ⟨sameFamily, above, by omega⟩
  · intro inInterval
    obtain ⟨sameFamily, above, below⟩ := inInterval
    constructor
    · rw [Address.le_iff_toNat_le (by simp [sameFamily]), valid.toNat_low]
      exact above
    · rw [Address.le_iff_toNat_le (by simp [sameFamily]), valid.toNat_high]
      omega

theorem Valid.covers_base {network : Network} (valid : network.Valid) :
    network.Covers network.base :=
  (covers_iff valid).mpr ⟨rfl, Nat.le_refl _, Nat.lt_add_of_pos_right network.size_pos⟩

theorem Valid.covers_low {network : Network} (valid : network.Valid) :
    network.Covers network.low := by
  have positive := network.size_pos
  rw [covers_iff valid, valid.toNat_low]
  exact ⟨family_low network, Nat.le_refl _, by omega⟩

theorem Valid.covers_high {network : Network} (valid : network.Valid) :
    network.Covers network.high := by
  have positive := network.size_pos
  rw [covers_iff valid, valid.toNat_high]
  exact ⟨family_high network, by omega, by omega⟩

theorem low_le_low_iff {outer inner : Network} (outerValid : outer.Valid)
    (innerValid : inner.Valid) (sameFamily : outer.family = inner.family) :
    outer.low ≤ inner.low ↔ outer.base.toNat ≤ inner.base.toNat := by
  rw [Address.le_iff_toNat_le (by simp [sameFamily]), outerValid.toNat_low, innerValid.toNat_low]

theorem high_le_high_iff {outer inner : Network} (outerValid : outer.Valid)
    (innerValid : inner.Valid) (sameFamily : outer.family = inner.family) :
    inner.high ≤ outer.high ↔
      inner.base.toNat + inner.size ≤ outer.base.toNat + outer.size := by
  have outerPositive := outer.size_pos
  have innerPositive := inner.size_pos
  rw [Address.le_iff_toNat_le (by simp [sameFamily]), outerValid.toNat_high,
    innerValid.toNat_high]
  omega

theorem containsNetwork_eq_ok_true_iff {outer inner : Network} (outerValid : outer.Valid)
    (innerValid : inner.Valid) :
    outer.containsNetwork inner = .ok true ↔
      outer.family = inner.family ∧ outer.base.toNat ≤ inner.base.toNat ∧
        inner.base.toNat + inner.size ≤ outer.base.toNat + outer.size := by
  unfold containsNetwork
  rw [bind_eq_ok_iff]
  constructor
  · intro accepted
    obtain ⟨_, checked, decided⟩ := accepted
    have sameFamily := Address.checkSameFamily_eq_ok_iff.mp checked
    obtain ⟨above, below⟩ := of_decide_eq_true (Except.ok.inj decided)
    rw [low_le_low_iff outerValid innerValid sameFamily] at above
    rw [high_le_high_iff outerValid innerValid sameFamily] at below
    exact ⟨sameFamily, above, below⟩
  · intro contained
    obtain ⟨sameFamily, above, below⟩ := contained
    rw [← low_le_low_iff outerValid innerValid sameFamily] at above
    rw [← high_le_high_iff outerValid innerValid sameFamily] at below
    have checked := Address.checkSameFamily_eq_ok_iff.mpr sameFamily
    exact ⟨(), checked, congrArg Except.ok (decide_eq_true ⟨above, below⟩)⟩

end Netblock.Network
