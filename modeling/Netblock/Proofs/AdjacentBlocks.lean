import Netblock.Proofs.Blocks
import Netblock.Proofs.Stepping
/-!
# Adjacent blocks

The block above a network starts right after its last address, and the block below it ends right
before its first one. Either of them is missing only where the network reaches that end of the
address space, and each leads back to the network.
-/

set_option autoImplicit false

namespace Netblock

namespace Address

/-- The last address of a family. -/
def allOnes : Family → Address
  | .v4 => .v4 (BitVec.allOnes 32)
  | .v6 => .v6 (BitVec.allOnes 128) false

theorem toNat_allOnes (family : Family) : (allOnes family).toNat = 2 ^ family.width - 1 := by
  cases family with
  | v4 => exact BitVec.toNat_allOnes
  | v6 => exact BitVec.toNat_allOnes

theorem equiv_allOnes_iff {address : Address} :
    address ≈ allOnes address.family ↔ address.toNat = 2 ^ address.width - 1 := by
  have sameFamily : address.family = (allOnes address.family).family := by
    cases address <;> rfl
  rw [equiv_iff, toNat_allOnes]
  exact and_iff_right sameFamily

theorem equiv_zero_iff {address : Address} :
    address ≈ zero address.family ↔ address.toNat = 0 := by
  simp [equiv_iff]

end Address

namespace Network

/-- Whether the second network is the block below the first. -/
def IsPrecededBy (network preceding : Network) : Prop :=
  ∃ block ∈ network.previousBlock?, block ≈ preceding

theorem isPrecededBy_iff {network preceding : Network} :
    network.IsPrecededBy preceding ↔ preceding.IsBlockAt 1 network := by
  constructor
  · intro preceded
    obtain ⟨block, found, same⟩ := preceded
    exact (isBlockAt_one_of_previousBlock? found).of_equiv (Setoid.symm same)
  · intro located
    -- The preceding block takes up as much space below as a step down needs.
    have room : network.size ≤ network.base.toNat := by
      rw [located.base_eq, located.size_eq, Nat.one_mul]
      exact Nat.le_add_left _ _
    have found := previousBlock?_eq_some_iff.mpr ⟨room, rfl⟩
    exact ⟨_, found, (isBlockAt_one_of_previousBlock? found).first_equiv located⟩

/-- A step up and a step down undo each other, up to marks. -/
theorem isFollowedBy_iff_isPrecededBy {network following : Network} :
    network.IsFollowedBy following ↔ following.IsPrecededBy network :=
  isFollowedBy_iff.trans isPrecededBy_iff.symm

/-- Between two blocks of a row that are next to each other there is no address. -/
theorem IsBlockAt.isShiftedBy_high {network following : Network}
    (located : network.IsBlockAt 1 following) (valid : network.Valid) :
    network.high.IsShiftedBy 1 following.low := by
  have followingValid := located.valid valid
  have positive := network.size_pos
  constructor
  case family_eq => rw [family_low, family_high, located.family_eq]
  case toNat_eq =>
    rw [followingValid.toNat_low, valid.toNat_high, located.base_eq]
    omega

namespace Valid

variable {network : Network}

/-- A valid network leaves no rest of the space above itself that is smaller than a block. -/
theorem nextBlock?_eq_none_iff (valid : network.Valid) :
    network.nextBlock? = none ↔ network.high ≈ .allOnes network.family := by
  have room := valid.base_add_size_le
  have positive := network.size_pos
  have width_eq : network.high.width = network.width := congrArg Family.width network.family_high
  rw [← network.family_high, Address.equiv_allOnes_iff, valid.toNat_high, width_eq]
  unfold nextBlock?
  dsimp only
  split
  · next more => exact ⟨nofun, fun ended => by omega⟩
  · next ended => exact ⟨fun _ => by omega, fun _ => rfl⟩

theorem previousBlock?_eq_none_iff (valid : network.Valid) :
    network.previousBlock? = none ↔ network.low ≈ .zero network.family := by
  have positive := network.size_pos
  rw [← network.family_low, Address.equiv_zero_iff, valid.toNat_low]
  unfold previousBlock?
  split
  · next more => exact ⟨nofun, fun started => by omega⟩
  · next started =>
      have base_eq : network.base.toNat = 0 :=
        Nat.eq_zero_of_dvd_of_lt valid.size_dvd_base (Nat.lt_of_not_le started)
      exact ⟨fun _ => base_eq, fun _ => rfl⟩

theorem next?_high (valid : network.Valid) {next : Network}
    (found : network.nextBlock? = some next) :
    ∃ following, network.high.next? = some following ∧ next.low ≈ following := by
  have moved := (isBlockAt_one_of_nextBlock? found).isShiftedBy_high valid
  obtain ⟨following, stepped, same⟩ := Address.movesBy_next?.exists_eq_some moved
  exact ⟨following, stepped, Setoid.symm same⟩

theorem previous?_low (valid : network.Valid) {previous : Network}
    (found : network.previousBlock? = some previous) :
    ∃ preceding, network.low.previous? = some preceding ∧ previous.high ≈ preceding := by
  have previousValid := previousBlock?_valid valid found
  have moved := (isBlockAt_one_of_previousBlock? found).isShiftedBy_high previousValid
  obtain ⟨preceding, stepped, same⟩ := Address.movesBy_previous?.exists_eq_some moved.symm
  exact ⟨preceding, stepped, Setoid.symm same⟩

end Valid

/-- The blocks of the size of a network on both of its sides. -/
structure BlocksAdjoin (network : Network) : Prop where
  nextBlock?_eq_none_iff : network.nextBlock? = none ↔ network.high ≈ .allOnes network.family
  previousBlock?_eq_none_iff : network.previousBlock? = none ↔ network.low ≈ .zero network.family
  nextBlock? : ∀ next, network.nextBlock? = some next →
    next.prefixLen = network.prefixLen ∧
      ∃ following, network.high.next? = some following ∧ next.low ≈ following
  previousBlock? : ∀ previous, network.previousBlock? = some previous →
    previous.prefixLen = network.prefixLen ∧
      ∃ preceding, network.low.previous? = some preceding ∧ previous.high ≈ preceding
  isFollowedBy_iff : ∀ following : Network, following.Valid →
    (network.IsFollowedBy following ↔ following.IsPrecededBy network)

theorem blocksAdjoin {network : Network} (valid : network.Valid) : network.BlocksAdjoin where
  nextBlock?_eq_none_iff := valid.nextBlock?_eq_none_iff
  previousBlock?_eq_none_iff := valid.previousBlock?_eq_none_iff
  nextBlock? := by
    intro next found
    exact ⟨(isBlockAt_one_of_nextBlock? found).prefixLen_eq, valid.next?_high found⟩
  previousBlock? := by
    intro previous found
    have located := isBlockAt_one_of_previousBlock? found
    exact ⟨located.prefixLen_eq.symm, valid.previous?_low found⟩
  isFollowedBy_iff := fun _ _ => isFollowedBy_iff_isPrecededBy

/-- The upper half of the IPv6 space ends it. The block above `::ffff:0.0.0.0/104` is marked by its
own octets, and the way back ends in the same network under another mark. -/
theorem blocksAdjoin_edges :
    (⟨.v6 0x80000000000000000000000000000000 false, 1⟩ : Network).Valid ∧
      (⟨.v6 0xFFFF00000000 false, 104⟩ : Network).Valid ∧
      high ⟨.v6 0x80000000000000000000000000000000 false, 1⟩ ≈ .allOnes .v6 ∧
      (∃ following, (high ⟨.v6 0xFFFF00000000 false, 104⟩).next? = some following ∧
        low ⟨.v6 0xFFFF01000000 true, 104⟩ ≈ following) ∧
      IsPrecededBy ⟨.v6 0xFFFF01000000 true, 104⟩ ⟨.v6 0xFFFF00000000 false, 104⟩ := by
  have upperValid : (⟨.v6 0x80000000000000000000000000000000 false, 1⟩ : Network).Valid := by
    decide
  have mappedValid : (⟨.v6 0xFFFF00000000 false, 104⟩ : Network).Valid := by decide
  have nextValid : (⟨.v6 0xFFFF01000000 true, 104⟩ : Network).Valid := by decide
  have found : nextBlock? ⟨.v6 0xFFFF00000000 false, 104⟩ =
      some ⟨.v6 0xFFFF01000000 true, 104⟩ := by decide
  refine ⟨upperValid, mappedValid, ?_, ?_, ?_⟩
  · exact (blocksAdjoin upperValid).nextBlock?_eq_none_iff.mp (by decide)
  · exact ((blocksAdjoin mappedValid).nextBlock? _ found).2
  · exact ((blocksAdjoin mappedValid).isFollowedBy_iff _ nextValid).mp ⟨_, found, Setoid.refl _⟩

end Network

end Netblock
