import Mathlib.Data.Set.Card
import Mathlib.Order.Interval.Finset.Nat
import Netblock.Proofs.UsableHosts
/-!
# Three views of membership

An address lies between the bounds of a network exactly when the network of that length around it
is this one. The usable hosts are those addresses, without the two bounds where the rule keeps
them, so that their number is known and the usable range holds the first and the last of them.
-/

set_option autoImplicit false

namespace Netblock.Network

/-- The addresses that a network contains. Those that differ in their mark count as one. -/
def hosts (network : Network) : Set (Quotient (inferInstance : Setoid Address)) :=
  Quotient.mk _ '' {address | network.contains address = .ok true}

namespace Valid

variable {network : Network} {address : Address}

/-!
### Bounds and covering networks
-/

theorem covers_iff_truncate_equiv (valid : network.Valid) :
    network.Covers address ↔ address.truncate network.prefixLen ≈ network.base := by
  obtain ⟨blocksBefore, base_eq⟩ := valid.size_dvd_base
  have split := Nat.div_add_mod address.toNat network.size
  have remainder_lt := Nat.mod_lt address.toNat network.size_pos
  rw [covers_iff valid, Address.equiv_iff, Address.family_truncate, Address.toNat_truncate]
  refine and_congr_right fun sameFamily => ?_
  have size_eq : 2 ^ (address.width - network.prefixLen) = network.size :=
    congrArg (fun family : Family => 2 ^ (family.width - network.prefixLen)) sameFamily
  rw [size_eq]
  constructor
  · intro inside
    obtain ⟨above, below⟩ := inside
    have quotient_eq : address.toNat / network.size = blocksBefore := by
      rw [Nat.div_eq_iff network.size_pos, Nat.mul_comm, ← base_eq]
      omega
    rw [quotient_eq] at split
    omega
  · intro cleared
    omega

/-- The network of the same length around an address is this one exactly for its own addresses. -/
theorem covers_iff_covering (valid : network.Valid) :
    network.Covers address ↔
      ∃ around, covering address network.prefixLen = .ok around ∧ around ≈ network := by
  constructor
  · intro covered
    have sameFamily : address.family = network.family := ((covers_iff valid).mp covered).1
    have sameWidth : address.width = network.width := congrArg Family.width sameFamily
    have fits : network.prefixLen ≤ address.width := sameWidth ▸ valid.prefixLen_le
    refine ⟨_, covering_eq_ok_iff.mpr ⟨fits, rfl⟩, ?_⟩
    exact ⟨valid.covers_iff_truncate_equiv.mp covered, rfl⟩
  · intro surrounded
    obtain ⟨around, covered, same⟩ := surrounded
    obtain ⟨_, rfl⟩ := covering_eq_ok_iff.mp covered
    exact valid.covers_iff_truncate_equiv.mpr same.1

/-!
### Usable hosts
-/

theorem equiv_low_iff (valid : network.Valid) (sameFamily : address.family = network.family) :
    address ≈ network.low ↔ address.toNat = network.base.toNat := by
  rw [Address.equiv_iff, family_low, valid.toNat_low]
  exact and_iff_right sameFamily

theorem equiv_high_iff (valid : network.Valid) (sameFamily : address.family = network.family) :
    address ≈ network.high ↔ address.toNat = network.base.toNat + (network.size - 1) := by
  rw [Address.equiv_iff, family_high, valid.toNat_high]
  exact and_iff_right sameFamily

/-- The usable hosts are the covered addresses, without the bounds unless the rule or the size of
the network leaves them. -/
theorem contains_iff_covers (valid : network.Valid) :
    network.contains address = .ok true ↔
      network.Covers address ∧
        (network.usableRule = .raw ∨ network.IsHost ∨
          ¬ address ≈ network.low ∧ ¬ address ≈ network.high) := by
  rw [valid.contains_eq_ok_true_iff, covers_iff valid, and_assoc]
  refine and_congr_right fun sameFamily => ?_
  rw [valid.equiv_low_iff sameFamily, valid.equiv_high_iff sameFamily]
  by_cases kept : network.usableRule = .excludeEdges ∧ ¬ network.IsHost
  · obtain ⟨rule_eq, notHost⟩ := kept
    have margin_eq : network.margin network.usableRule = 1 := if_pos ⟨rule_eq, notHost⟩
    have notRaw : network.usableRule ≠ .raw := by
      rw [rule_eq]
      decide
    simp only [margin_eq, notRaw, notHost, false_or]
    omega
  · have margin_eq : network.margin network.usableRule = 0 := if_neg kept
    have left : network.usableRule = .raw ∨ network.IsHost := by
      cases rule_eq : network.usableRule with
      | raw => exact .inl rfl
      | excludeEdges => exact .inr (not_not.mp fun notHost => kept ⟨rule_eq, notHost⟩)
    have noBound : network.usableRule = .raw ∨ network.IsHost ∨
        ¬ address.toNat = network.base.toNat ∧
          ¬ address.toNat = network.base.toNat + (network.size - 1) :=
      left.elim .inl fun isHost => .inr (.inl isHost)
    simp only [margin_eq, noBound, and_true, Nat.add_zero]

end Valid

theorem contains_isOk {network : Network} {address : Address}
    (sameFamily : address.family = network.family) :
    ∃ verdict, network.contains address = .ok verdict :=
  ⟨_, Address.checkSameFamily_bind_of_eq sameFamily.symm⟩

theorem contains_eq_mixedFamilies {network : Network} {address : Address}
    (otherFamily : address.family ≠ network.family) :
    network.contains address = .error (.mixedFamilies network.base address) :=
  Address.checkSameFamily_bind_of_ne otherFamily.symm

/-- Within the family the answer is never an error. -/
theorem contains_eq_decide {network : Network} {address : Address} {property : Prop}
    [Decidable property] (sameFamily : address.family = network.family)
    (accepted_iff : network.contains address = .ok true ↔ property) :
    network.contains address = .ok (decide property) := by
  obtain ⟨verdict, found⟩ := contains_isOk sameFamily
  rw [found] at accepted_iff ⊢
  congr 1
  rw [Bool.eq_iff_iff, decide_eq_true_iff, ← accepted_iff, Except.ok.injEq]

/-!
### Their number
-/

theorem hosts_eq_image {network : Network} (valid : network.Valid) :
    network.hosts =
      (fun value => Quotient.mk _ ((Address.zero network.family).withValue value)) ''
        (Finset.Ico (network.base.toNat + network.margin network.usableRule)
          (network.base.toNat + network.size - network.margin network.usableRule) : Set Nat) := by
  have room := valid.base_add_size_le
  ext shown
  constructor
  · intro member
    obtain ⟨address, accepted, rfl⟩ := member
    obtain ⟨sameFamily, above, below⟩ := valid.contains_eq_ok_true_iff.mp accepted
    refine ⟨address.toNat, ?_, Quotient.sound ⟨?_, ?_⟩⟩
    · rw [Finset.mem_coe, Finset.mem_Ico]
      omega
    · rw [Address.family_withValue, Address.family_zero, sameFamily]
    · have below := address.toNat_lt
      rw [Address.width, sameFamily] at below
      exact Address.toNat_withValue (by rwa [Address.width, Address.family_zero])
  · intro member
    obtain ⟨value, inRange, rfl⟩ := member
    rw [Finset.mem_coe, Finset.mem_Ico] at inRange
    have value_eq : ((Address.zero network.family).withValue value).toNat = value := by
      refine Address.toNat_withValue ?_
      rw [Address.width, Address.family_zero]
      change value < 2 ^ network.width
      omega
    refine ⟨_, ?_, rfl⟩
    rw [Set.mem_ofPred_eq, valid.contains_eq_ok_true_iff, value_eq, Address.family_withValue,
      Address.family_zero]
    exact ⟨rfl, by omega, by omega⟩

theorem encard_hosts {network : Network} (valid : network.Valid) :
    network.hosts.encard =
      (network.size - 2 * network.margin network.usableRule : Nat) := by
  have room := valid.base_add_size_le
  rw [hosts_eq_image valid, Set.InjOn.encard_image, Set.encard_coe_eq_coe_finsetCard, Nat.card_Ico]
  · congr 1
    omega
  · intro value inRange other otherInRange same
    rw [Finset.mem_coe, Finset.mem_Ico] at inRange otherInRange
    have sameValue := (Quotient.exact same).2
    have fits : ∀ number, number < network.base.toNat + network.size →
        number < 2 ^ (Address.zero network.family).width := by
      intro number below
      rw [Address.width, Address.family_zero]
      exact Nat.lt_of_lt_of_le below room
    rwa [Address.toNat_withValue (fits value (by omega)),
      Address.toNat_withValue (fits other (by omega))] at sameValue

theorem usableRange?_eq_none_iff {network : Network} (valid : network.Valid) :
    network.usableRange? = none ↔ network.hosts.encard = 0 := by
  have nonempty_iff := valid.lowestUsable_le_highestUsable_iff
  rw [encard_hosts valid, Nat.cast_eq_zero]
  unfold usableRange?
  split
  · next nonempty =>
      have below := nonempty_iff.mp nonempty
      exact ⟨nofun, fun empty => by omega⟩
  · next empty =>
      have above := mt nonempty_iff.mpr empty
      exact ⟨fun _ => by omega, fun _ => rfl⟩

/-!
### Usable range and broadcast address
-/

/-- Only a network that keeps its edges has a broadcast address, which is its last one. -/
theorem eq_high_of_broadcast? {network : Network} {address : Address}
    (found : network.broadcast? = some address) :
    address = network.high ∧ network.usableRule = .excludeEdges := by
  obtain ⟨base, prefixLen⟩ := network
  cases base with
  | v4 bits =>
      cases found
      exact ⟨rfl, rfl⟩
  | v6 bits mark =>
      unfold broadcast? at found
      dsimp only at found
      split at found
      · next kept =>
          cases found
          obtain rfl : mark = true := kept.1
          exact ⟨rfl, rfl⟩
      · cases found

namespace Valid

variable {network : Network}

theorem contains_lowestUsable (valid : network.Valid)
    (nonempty : network.lowestUsable ≤ network.highestUsable) :
    network.contains network.lowestUsable = .ok true := by
  have fewer := valid.lowestUsable_le_highestUsable_iff.mp nonempty
  rw [valid.contains_eq_ok_true_iff, lowestUsable, valid.toNat_lowestUsableWith]
  exact ⟨family_lowestUsableWith network _, by omega, by omega⟩

theorem contains_highestUsable (valid : network.Valid)
    (nonempty : network.lowestUsable ≤ network.highestUsable) :
    network.contains network.highestUsable = .ok true := by
  have fewer := valid.lowestUsable_le_highestUsable_iff.mp nonempty
  rw [valid.contains_eq_ok_true_iff, highestUsable, valid.toNat_highestUsableWith]
  exact ⟨family_highestUsableWith network _, by omega, by omega⟩

/-- The bounds of the usable range are themselves usable, and every usable host is in between. -/
theorem isLeast_isGreatest_usableRange? (valid : network.Valid) {lowest highest : Address}
    (found : network.usableRange? = some (lowest, highest)) :
    IsLeast {address | network.contains address = .ok true} lowest ∧
      IsGreatest {address | network.contains address = .ok true} highest := by
  unfold usableRange? at found
  split at found
  · next nonempty =>
      cases found
      constructor
      · refine ⟨valid.contains_lowestUsable nonempty, ?_⟩
        intro address accepted
        obtain ⟨sameFamily, above, _⟩ := valid.contains_eq_ok_true_iff.mp accepted
        rw [lowestUsable, Address.le_iff_toNat_le (by simp [sameFamily]),
          valid.toNat_lowestUsableWith]
        exact above
      · refine ⟨valid.contains_highestUsable nonempty, ?_⟩
        intro address accepted
        obtain ⟨sameFamily, _, below⟩ := valid.contains_eq_ok_true_iff.mp accepted
        rw [highestUsable, Address.le_iff_toNat_le (by simp [sameFamily]),
          valid.toNat_highestUsableWith]
        omega
  · cases found

theorem contains_broadcast?_iff (valid : network.Valid) {address : Address}
    (found : network.broadcast? = some address) :
    network.contains address = .ok true ↔ network.IsHost := by
  obtain ⟨rfl, rule_eq⟩ := eq_high_of_broadcast? found
  have covered : network.Covers network.high := by
    rw [covers_iff valid, valid.toNat_high]
    have positive := network.size_pos
    exact ⟨family_high network, by omega, by omega⟩
  have notRaw : network.usableRule ≠ .raw := by
    rw [rule_eq]
    decide
  rw [valid.contains_iff_covers]
  constructor
  · intro inside
    obtain ⟨_, raw | isHost | ⟨_, notHigh⟩⟩ := inside
    · exact absurd raw notRaw
    · exact isHost
    · exact absurd (Setoid.refl network.high) notHigh
  · intro isHost
    exact ⟨covered, .inr (.inl isHost)⟩

end Valid

/-- What the bounds, the networks around addresses and the usable hosts say of one another. -/
structure MembershipViews (network : Network) : Prop where
  covers_iff : ∀ address, network.Covers address ↔
    ∃ around, covering address network.prefixLen = .ok around ∧ around ≈ network
  contains_eq : ∀ address, address.family = network.family →
    network.contains address = .ok (decide (network.Covers address ∧
      (network.usableRule = .raw ∨ network.IsHost ∨
        ¬ address ≈ network.low ∧ ¬ address ≈ network.high)))
  size_eq : network.size = 2 ^ (network.width - network.prefixLen)
  encard_hosts : network.hosts.encard =
    if network.usableRule = .excludeEdges ∧ ¬ network.IsHost then (network.size - 2 : Nat)
    else network.size
  usableRange?_eq_none_iff : network.usableRange? = none ↔ network.hosts.encard = 0
  usableRange?_bounds : ∀ lowest highest, network.usableRange? = some (lowest, highest) →
    IsLeast {address | network.contains address = .ok true} lowest ∧
      IsGreatest {address | network.contains address = .ok true} highest
  contains_broadcast?_iff : ∀ address, network.broadcast? = some address →
    (network.contains address = .ok true ↔ network.IsHost)
  contains_otherFamily : ∀ address, address.family ≠ network.family →
    network.contains address = .error (.mixedFamilies network.base address)

theorem membershipViews {network : Network} (valid : network.Valid) :
    network.MembershipViews where
  covers_iff := fun _ => valid.covers_iff_covering
  contains_eq := fun _ sameFamily => contains_eq_decide sameFamily valid.contains_iff_covers
  size_eq := rfl
  encard_hosts := by
    rw [Network.encard_hosts valid, margin]
    split
    · rfl
    · rfl
  usableRange?_eq_none_iff := Network.usableRange?_eq_none_iff valid
  usableRange?_bounds := fun _ _ found => valid.isLeast_isGreatest_usableRange? found
  contains_broadcast?_iff := fun _ found => valid.contains_broadcast?_iff found
  contains_otherFamily := fun _ otherFamily => contains_eq_mixedFamilies otherFamily

/-- A marked /127 keeps both of its addresses for itself, and is left with no host. -/
theorem membershipViews_crossing :
    (⟨.v6 0xFFFF0A000000 true, 127⟩ : Network).Valid ∧
      (⟨.v6 0xFFFF0A000000 true, 127⟩ : Network).MembershipViews ∧
      (⟨.v6 0xFFFF0A000000 true, 127⟩ : Network).usableRange? = none ∧
      (⟨.v6 0xFFFF0A000000 true, 127⟩ : Network).hosts.encard = 0 := by
  have valid : (⟨.v6 0xFFFF0A000000 true, 127⟩ : Network).Valid := by decide
  have views := membershipViews valid
  have unusable : (⟨.v6 0xFFFF0A000000 true, 127⟩ : Network).usableRange? = none := by decide
  exact ⟨valid, views, unusable, views.usableRange?_eq_none_iff.mp unusable⟩

end Netblock.Network
