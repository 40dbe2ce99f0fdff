import Netblock.Proofs.Tiling
/-!
# Splitting tiles the network

A split that stays within the address gives all blocks of the network. As a list it is a
partition: in order, without gaps or overlaps, and with no block of the right size left out.
-/

set_option autoImplicit false

namespace Netblock.Network

/-- The blocks part the network into `2 ^ power` pieces of one size. -/
structure IsPartition (network : Network) (power : Nat) (blocks : List Network) : Prop where
  length_eq : blocks.length = 2 ^ power
  family_eq : ∀ block ∈ blocks, block.family = network.family
  prefixLen_eq : ∀ block ∈ blocks, block.prefixLen = network.prefixLen + power
  base_eq : ∀ index (inRange : index < blocks.length), blocks[index].base.toNat =
    network.base.toNat + index * 2 ^ (network.width - network.prefixLen - power)
  ascending : blocks.Pairwise (· < ·)
  /-- An address of the network is covered at one place only, by the network around it. -/
  covered_once : ∀ address, network.Covers address →
    ∃ index, ∃ inRange : index < blocks.length,
      (∀ other (otherInRange : other < blocks.length),
        blocks[other].Covers address ↔ other = index) ∧
      ∃ around, covering address (network.prefixLen + power) = .ok around ∧
        blocks[index] ≈ around
  covers_within : ∀ block ∈ blocks, ∀ address, block.Covers address → network.Covers address
  complete : ∀ candidate, candidate.Valid → candidate.family = network.family →
    candidate.prefixLen = network.prefixLen + power →
      ((∃ block ∈ blocks, block ≈ candidate) ↔ network.containsNetwork candidate = .ok true)

theorem splitByPower_eq_ok {network : Network} {power : Nat} (positive : 1 ≤ power)
    (bounded : power ≤ 30) (fits : network.prefixLen + power ≤ network.width) :
    network.splitByPower power = .ok (chain (2 ^ power) (network.firstBlock power)) := by
  unfold splitByPower
  rw [if_neg (by omega), if_neg (by omega)]
  rfl

theorem splitByPower_eq_ok_iff {network : Network} {power : Nat} {blocks : List Network} :
    network.splitByPower power = .ok blocks ↔
      1 ≤ power ∧ power ≤ 30 ∧ network.prefixLen + power ≤ network.width ∧
        blocks = chain (2 ^ power) (network.firstBlock power) := by
  constructor
  · intro accepted
    unfold splitByPower at accepted
    split at accepted
    · cases accepted
    · split at accepted
      · cases accepted
      · cases accepted
        exact ⟨by omega, by omega, by omega, rfl⟩
  · rintro ⟨positive, bounded, fits, rfl⟩
    exact splitByPower_eq_ok positive bounded fits

theorem exists_splitByPower_eq_ok_iff {network : Network} {power : Nat} :
    (∃ blocks, network.splitByPower power = .ok blocks) ↔
      1 ≤ power ∧ power ≤ 30 ∧ network.prefixLen + power ≤ network.width := by
  simp only [splitByPower_eq_ok_iff, exists_and_left, exists_eq, and_true]

theorem splitByPower_log2_of_splitByCount {network : Network} {count : Nat}
    {blocks : List Network} (accepted : network.splitByCount count = .ok blocks) :
    network.splitByPower count.log2 = .ok blocks := by
  unfold splitByCount at accepted
  split at accepted
  · cases accepted
  · split at accepted
    · cases accepted
    · split at accepted
      · cases accepted
      · exact accepted

theorem exists_power_of_splitByCount {network : Network} {count : Nat} {blocks : List Network}
    (accepted : network.splitByCount count = .ok blocks) :
    ∃ power, count = 2 ^ power ∧ network.splitByPower power = .ok blocks := by
  have split := splitByPower_log2_of_splitByCount accepted
  unfold splitByCount at accepted
  split at accepted
  · cases accepted
  · split at accepted
    · cases accepted
    · split at accepted
      · cases accepted
      · next isPower =>
          obtain ⟨power, rfl⟩ := not_not.mp isPower
          rw [Nat.log2_two_pow] at split
          exact ⟨power, rfl, split⟩

theorem Valid.tiles_chain {network : Network} {power : Nat} (valid : network.Valid)
    (fits : network.prefixLen + power ≤ network.width) :
    Tiles network power (chain (2 ^ power) (network.firstBlock power)) where
  fits := fits
  length_eq := by
    apply length_chain
    rw [← size_eq_mul_firstBlock fits]
    exact valid.base_add_size_le
  row := isRow_chain _ _

theorem Valid.tiles_of_splitByPower {network : Network} {power : Nat} {blocks : List Network}
    (valid : network.Valid) (accepted : network.splitByPower power = .ok blocks) :
    Tiles network power blocks := by
  obtain ⟨_, _, fits, rfl⟩ := splitByPower_eq_ok_iff.mp accepted
  exact valid.tiles_chain fits

theorem Tiles.exists_covering {network : Network} {power : Nat} {blocks : List Network}
    (tiles : Tiles network power blocks) (valid : network.Valid) {address : Address}
    (covered : network.Covers address) {index : Nat} (inRange : index < blocks.length)
    (found : index = (address.toNat - network.base.toNat) / (network.firstBlock power).size) :
    ∃ around, covering address (network.prefixLen + power) = .ok around ∧
      blocks[index] ≈ around := by
  obtain ⟨sameFamily, above, _⟩ := (tiles.covers_whole_iff valid).mp covered
  have sameWidth : address.width = network.width := congrArg Family.width sameFamily
  have fits : network.prefixLen + power ≤ address.width := by
    rw [sameWidth]
    exact tiles.fits
  have located := isBlockAt_truncate (valid.firstBlock tiles.fits) sameFamily above
  refine ⟨_, covering_eq_ok_iff.mpr ⟨fits, rfl⟩, ?_⟩
  subst found
  exact (tiles.row _ inRange).equiv located

theorem Tiles.isPartition {network : Network} {power : Nat} {blocks : List Network}
    (tiles : Tiles network power blocks) (valid : network.Valid) :
    IsPartition network power blocks where
  length_eq := tiles.length_eq
  family_eq := fun _ member => tiles.family_eq member
  prefixLen_eq := fun _ member => tiles.prefixLen_eq member
  base_eq := fun _ inRange => tiles.base_eq inRange
  ascending := tiles.row.pairwise_lt
  covered_once := by
    intro address covered
    obtain ⟨_, _, inRange⟩ := (tiles.covers_whole_iff valid).mp covered
    refine ⟨_, inRange, ?_, ?_⟩
    · intro other otherInRange
      exact tiles.covers_iff_eq_index valid covered otherInRange
    · exact tiles.exists_covering valid covered inRange rfl
  covers_within := fun _ member _ covered => tiles.covers_of_mem valid member covered
  complete := fun _ memberValid sameFamily prefixLen_eq =>
    tiles.exists_equiv_iff_containsNetwork valid memberValid sameFamily prefixLen_eq

theorem splitByPower_isPartition {network : Network} {power : Nat} (valid : network.Valid)
    (positive : 1 ≤ power) (bounded : power ≤ 30)
    (fits : network.prefixLen + power ≤ network.width) :
    ∃ blocks, network.splitByPower power = .ok blocks ∧ IsPartition network power blocks :=
  ⟨_, splitByPower_eq_ok positive bounded fits, (valid.tiles_chain fits).isPartition valid⟩

/-- The upper half of the IPv6 space: its last block ends at all ones. -/
theorem splitByPower_isPartition_upperHalf :
    (⟨.v6 (1 <<< 127) false, 1⟩ : Network).Valid ∧
      ∃ blocks, splitByPower ⟨.v6 (1 <<< 127) false, 1⟩ 30 = .ok blocks ∧
        IsPartition ⟨.v6 (1 <<< 127) false, 1⟩ 30 blocks :=
  ⟨by decide, splitByPower_isPartition (by decide) (by decide) (by decide) (by decide)⟩

end Netblock.Network
