import Netblock.Network.Usable
import Netblock.Proofs.Bounds
/-!
# Usable hosts as intervals

A rule keeps the same number of addresses at both ends of a network. The usable hosts are the
values in between, so they too are told by comparisons with the base and the size.
-/

set_option autoImplicit false

namespace Netblock.Network

/-- Number of addresses that a rule keeps at each end of the network. -/
def margin (network : Network) (rule : UsableRule) : Nat :=
  if rule = .excludeEdges ∧ ¬ network.IsHost then 1 else 0

/-- The first and the last address are no usable hosts. -/
def KeepsEdges (network : Network) : Prop :=
  network.usableRule = .excludeEdges ∧ ¬ network.IsHost

instance (network : Network) : Decidable network.KeepsEdges :=
  inferInstanceAs (Decidable (_ ∧ _))

theorem not_keepsEdges_iff {network : Network} :
    ¬ network.KeepsEdges ↔ network.usableRule = .raw ∨ network.IsHost := by
  rw [KeepsEdges, not_and_or, not_not]
  cases network.usableRule with
  | excludeEdges => simp
  | raw => simp

theorem margin_usableRule (network : Network) :
    network.margin network.usableRule = if network.KeepsEdges then 1 else 0 :=
  rfl

@[simp]
theorem family_lowestUsableWith (network : Network) (rule : UsableRule) :
    (network.lowestUsableWith rule).family = network.family := by
  unfold lowestUsableWith
  split
  · rw [Address.family_withValue, family_low]
  · exact family_low network

@[simp]
theorem family_highestUsableWith (network : Network) (rule : UsableRule) :
    (network.highestUsableWith rule).family = network.family := by
  unfold highestUsableWith
  split
  · rw [Address.family_withValue, family_high]
  · exact family_high network

namespace Valid

variable {network : Network}

theorem two_le_size (valid : network.Valid) (notHost : ¬ network.IsHost) : 2 ≤ network.size := by
  have prefixLen_le := valid.prefixLen_le
  have shorter : network.prefixLen ≠ network.width := notHost
  have freeBits : 1 ≤ network.hostBits := by
    rw [hostBits]
    omega
  exact Nat.pow_le_pow_right Nat.two_pos freeBits

theorem margin_lt_size (valid : network.Valid) (rule : UsableRule) :
    network.margin rule < network.size := by
  unfold margin
  split
  · next kept => exact valid.two_le_size kept.2
  · exact network.size_pos

theorem toNat_lowestUsableWith (valid : network.Valid) (rule : UsableRule) :
    (network.lowestUsableWith rule).toNat = network.base.toNat + network.margin rule := by
  unfold lowestUsableWith margin
  split
  · next kept =>
      have atLeastTwo := valid.two_le_size kept.2
      have room : network.base.toNat + network.size ≤ 2 ^ network.low.width := by
        rw [low, Address.width_truncate]
        exact valid.base_add_size_le
      rw [Address.toNat_withValue]
      · rw [valid.toNat_low]
      · rw [valid.toNat_low]
        omega
  · rw [valid.toNat_low, Nat.add_zero]

theorem toNat_highestUsableWith (valid : network.Valid) (rule : UsableRule) :
    (network.highestUsableWith rule).toNat =
      network.base.toNat + (network.size - 1 - network.margin rule) := by
  unfold highestUsableWith margin
  split
  · next kept =>
      have atLeastTwo := valid.two_le_size kept.2
      have below := network.high.toNat_lt
      have toNat_high := valid.toNat_high
      rw [Address.toNat_withValue (by omega), toNat_high]
      omega
  · rw [valid.toNat_high, Nat.sub_zero]

theorem contains_eq_ok_true_iff (valid : network.Valid) {address : Address} :
    network.contains address = .ok true ↔
      address.family = network.family ∧
        network.base.toNat + network.margin network.usableRule ≤ address.toNat ∧
        address.toNat + network.margin network.usableRule <
          network.base.toNat + network.size := by
  have margin_lt := valid.margin_lt_size network.usableRule
  have toNat_lowest := valid.toNat_lowestUsableWith network.usableRule
  have toNat_highest := valid.toNat_highestUsableWith network.usableRule
  have family_lowest := network.family_lowestUsableWith network.usableRule
  have family_highest := network.family_highestUsableWith network.usableRule
  unfold contains lowestUsable highestUsable
  rw [bind_eq_ok_iff]
  constructor
  · intro accepted
    obtain ⟨_, checked, decided⟩ := accepted
    have sameFamily := Address.checkSameFamily_eq_ok_iff.mp checked
    obtain ⟨above, below⟩ := of_decide_eq_true (Except.ok.inj decided)
    rw [Address.le_iff_toNat_le (family_lowest.trans sameFamily)] at above
    rw [Address.le_iff_toNat_le (sameFamily.symm.trans family_highest.symm)] at below
    exact ⟨sameFamily.symm, by omega, by omega⟩
  · intro inside
    obtain ⟨sameFamily, above, below⟩ := inside
    refine ⟨(), Address.checkSameFamily_eq_ok_iff.mpr sameFamily.symm,
      congrArg Except.ok (decide_eq_true ⟨?_, ?_⟩)⟩
    · rw [Address.le_iff_toNat_le (family_lowest.trans sameFamily.symm)]
      omega
    · rw [Address.le_iff_toNat_le (sameFamily.trans family_highest.symm)]
      omega

theorem lowestUsable_le_highestUsable_iff (valid : network.Valid) :
    network.lowestUsable ≤ network.highestUsable ↔
      2 * network.margin network.usableRule < network.size := by
  have margin_lt := valid.margin_lt_size network.usableRule
  unfold lowestUsable highestUsable
  rw [Address.le_iff_toNat_le (by simp), valid.toNat_lowestUsableWith,
    valid.toNat_highestUsableWith]
  omega

end Valid

end Netblock.Network
