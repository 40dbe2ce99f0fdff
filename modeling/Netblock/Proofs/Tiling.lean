import Netblock.Proofs.Blocks
/-!
# Tilings

A tiling of a network is the row of all its blocks of one size. It is what a split produces and
what a merge asks for.
-/

set_option autoImplicit false

namespace Netblock.Network

/-- The block of a network that starts with it and has a prefix longer by `power`. -/
def firstBlock (whole : Network) (power : Nat) : Network :=
  ⟨whole.base, whole.prefixLen + power⟩

/-- All blocks of `whole` whose prefix is longer by `power`, in ascending order. -/
structure Tiles (whole : Network) (power : Nat) (blocks : List Network) : Prop where
  fits : whole.prefixLen + power ≤ whole.width
  length_eq : blocks.length = 2 ^ power
  row : (whole.firstBlock power).IsRow blocks

theorem size_eq_mul_firstBlock {whole : Network} {power : Nat}
    (fits : whole.prefixLen + power ≤ whole.width) :
    whole.size = 2 ^ power * (whole.firstBlock power).size := by
  change 2 ^ (whole.width - whole.prefixLen) =
    2 ^ power * 2 ^ (whole.width - (whole.prefixLen + power))
  rw [← Nat.pow_add]
  congr 1
  omega

theorem Valid.firstBlock {whole : Network} {power : Nat} (valid : whole.Valid)
    (fits : whole.prefixLen + power ≤ whole.width) : (whole.firstBlock power).Valid where
  prefixLen_le := fits
  aligned := by
    have divides : (whole.firstBlock power).size ∣ whole.size :=
      ⟨2 ^ power, by rw [size_eq_mul_firstBlock fits, Nat.mul_comm]⟩
    exact Nat.mod_eq_zero_of_dvd (Nat.dvd_trans divides valid.size_dvd_base)

/-- The network around an address above a block is the block at the quotient of their distance
and the block's size. -/
theorem isBlockAt_truncate {first : Network} {address : Address} (firstValid : first.Valid)
    (sameFamily : address.family = first.family)
    (above : first.base.toNat ≤ address.toNat) :
    first.IsBlockAt ((address.toNat - first.base.toNat) / first.size)
      ⟨address.truncate first.prefixLen, first.prefixLen⟩ where
  family_eq := (Address.family_truncate _ _).trans sameFamily
  prefixLen_eq := rfl
  base_eq := by
    have sameWidth : address.width = first.base.width := congrArg Family.width sameFamily
    obtain ⟨blocksBefore, base_eq⟩ := firstValid.size_dvd_base
    have size_eq : 2 ^ (address.width - first.prefixLen) = first.size := by
      rw [sameWidth]
      rfl
    have quotient_le : blocksBefore ≤ address.toNat / first.size := by
      rw [Nat.le_div_iff_mul_le first.size_pos, Nat.mul_comm, ← base_eq]
      exact above
    have split := Nat.div_add_mod address.toNat first.size
    calc (address.truncate first.prefixLen).toNat
        = address.toNat - address.toNat % first.size := by
          rw [Address.toNat_truncate, size_eq]
      _ = first.size * (address.toNat / first.size) := by omega
      _ = first.size * (blocksBefore + (address.toNat / first.size - blocksBefore)) := by
          rw [Nat.add_sub_cancel' quotient_le]
      _ = first.base.toNat +
            (address.toNat - first.base.toNat) / first.size * first.size := by
          rw [base_eq, Nat.sub_mul_div, Nat.mul_add, Nat.mul_comm _ first.size]

/-- Every network of the same size at or above a block is a block of its row. -/
theorem isBlockAt_of_le {first member : Network} (firstValid : first.Valid)
    (memberValid : member.Valid) (sameFamily : member.family = first.family)
    (samePrefix : member.prefixLen = first.prefixLen)
    (above : first.base.toNat ≤ member.base.toNat) :
    first.IsBlockAt ((member.base.toNat - first.base.toNat) / first.size) member := by
  have located := isBlockAt_truncate firstValid sameFamily above
  have aligned : member.base.IsAligned first.prefixLen := samePrefix ▸ memberValid.aligned
  exact located.congr ⟨Address.truncate_equiv_iff.mpr aligned, samePrefix.symm⟩

namespace Tiles

variable {whole : Network} {power : Nat} {blocks : List Network}

theorem of_equiv {other : Network} (tiles : Tiles whole power blocks) (same : whole ≈ other) :
    Tiles other power blocks where
  fits := by
    have sameWidth : whole.width = other.width := congrArg Family.width same.1.1
    rw [← same.2, ← sameWidth]
    exact tiles.fits
  length_eq := tiles.length_eq
  row := tiles.row.of_equiv ⟨Setoid.symm same.1, congrArg (· + power) same.2.symm⟩

theorem congr {others : List Network} (tiles : Tiles whole power blocks)
    (same : List.Forall₂ (· ≈ ·) blocks others) : Tiles whole power others where
  fits := tiles.fits
  length_eq := same.length_eq.symm.trans tiles.length_eq
  row := tiles.row.congr same

/-- The first network of a tiling stands at the base of the whole. -/
theorem equiv_firstBlock {first : Network} {rest : List Network}
    (tiles : Tiles whole power (first :: rest)) : whole.firstBlock power ≈ first :=
  (IsBlockAt.zero _).equiv (tiles.row 0 (by simp))

theorem ne_nil (tiles : Tiles whole power blocks) : blocks ≠ [] := by
  rw [← List.length_pos_iff, tiles.length_eq]
  exact Nat.two_pow_pos power

/-- The number of blocks settles how much longer their prefix is. -/
theorem power_eq {otherPower : Nat} (tiles : Tiles whole power blocks)
    (length_eq : blocks.length = 2 ^ otherPower) : power = otherPower :=
  Nat.pow_right_injective (Nat.le_refl 2) (tiles.length_eq.symm.trans length_eq)

theorem whole_equiv {other : Network} {otherPower : Nat} (tiles : Tiles whole power blocks)
    (otherTiles : Tiles other otherPower blocks) : whole ≈ other := by
  obtain rfl := tiles.power_eq otherTiles.length_eq
  obtain ⟨first, rest, rfl⟩ := List.exists_cons_of_ne_nil tiles.ne_nil
  have same := Setoid.trans tiles.equiv_firstBlock (Setoid.symm otherTiles.equiv_firstBlock)
  exact ⟨same.1, Nat.add_right_cancel same.2⟩

theorem family_eq (tiles : Tiles whole power blocks) {block : Network}
    (member : block ∈ blocks) : block.family = whole.family := by
  obtain ⟨index, inRange, rfl⟩ := List.getElem_of_mem member
  exact (tiles.row index inRange).family_eq

theorem width_eq (tiles : Tiles whole power blocks) {block : Network}
    (member : block ∈ blocks) : block.width = whole.width :=
  congrArg Family.width (tiles.family_eq member)

theorem prefixLen_eq (tiles : Tiles whole power blocks) {block : Network}
    (member : block ∈ blocks) : block.prefixLen = whole.prefixLen + power := by
  obtain ⟨index, inRange, rfl⟩ := List.getElem_of_mem member
  exact (tiles.row index inRange).prefixLen_eq

theorem valid_of_mem (tiles : Tiles whole power blocks) (valid : whole.Valid) {block : Network}
    (member : block ∈ blocks) : block.Valid :=
  tiles.row.valid (valid.firstBlock tiles.fits) block member

theorem base_eq (tiles : Tiles whole power blocks) {index : Nat}
    (inRange : index < blocks.length) :
    blocks[index].base.toNat =
      whole.base.toNat + index * 2 ^ (whole.width - whole.prefixLen - power) := by
  rw [(tiles.row index inRange).base_eq, Nat.sub_sub]
  rfl

theorem size_eq (tiles : Tiles whole power blocks) :
    whole.size = blocks.length * (whole.firstBlock power).size := by
  rw [tiles.length_eq]
  exact size_eq_mul_firstBlock tiles.fits

theorem covers_whole_iff (tiles : Tiles whole power blocks) (valid : whole.Valid)
    {address : Address} :
    whole.Covers address ↔
      address.family = whole.family ∧ whole.base.toNat ≤ address.toNat ∧
        (address.toNat - whole.base.toNat) / (whole.firstBlock power).size <
          blocks.length := by
  have positive := (whole.firstBlock power).size_pos
  rw [covers_iff valid, Nat.div_lt_iff_lt_mul positive, tiles.size_eq]
  constructor
  · intro inside
    exact ⟨inside.1, inside.2.1, by omega⟩
  · intro inside
    exact ⟨inside.1, inside.2.1, by omega⟩

theorem covers_iff_eq_index (tiles : Tiles whole power blocks) (valid : whole.Valid)
    {address : Address} (covered : whole.Covers address) {index : Nat}
    (inRange : index < blocks.length) :
    blocks[index].Covers address ↔
      index = (address.toNat - whole.base.toNat) / (whole.firstBlock power).size := by
  obtain ⟨sameFamily, above, _⟩ := (tiles.covers_whole_iff valid).mp covered
  rw [(tiles.row index inRange).covers_iff (valid.firstBlock tiles.fits)]
  constructor
  · intro inside
    exact inside.2.2.symm
  · intro index_eq
    exact ⟨sameFamily, above, index_eq.symm⟩

theorem covers_of_mem (tiles : Tiles whole power blocks) (valid : whole.Valid)
    {block : Network} (member : block ∈ blocks) {address : Address}
    (covered : block.Covers address) : whole.Covers address := by
  obtain ⟨index, inRange, rfl⟩ := List.getElem_of_mem member
  have located := tiles.row index inRange
  obtain ⟨sameFamily, above, index_eq⟩ :=
    (located.covers_iff (valid.firstBlock tiles.fits)).mp covered
  exact (tiles.covers_whole_iff valid).mpr ⟨sameFamily, above, by rwa [← index_eq] at inRange⟩

theorem covers_base (tiles : Tiles whole power blocks) (valid : whole.Valid) {block : Network}
    (member : block ∈ blocks) : whole.Covers block.base :=
  tiles.covers_of_mem valid member
    (tiles.row.valid (valid.firstBlock tiles.fits) block member).covers_base

/-- The blocks are, up to equivalence, all the networks of their size within the whole. -/
theorem exists_equiv_iff_containsNetwork (tiles : Tiles whole power blocks)
    (valid : whole.Valid) {member : Network} (memberValid : member.Valid)
    (sameFamily : member.family = whole.family)
    (prefixLen_eq : member.prefixLen = whole.prefixLen + power) :
    (∃ block ∈ blocks, block ≈ member) ↔ whole.containsNetwork member = .ok true := by
  have firstValid := valid.firstBlock tiles.fits
  have positive := (whole.firstBlock power).size_pos
  have size_eq := tiles.size_eq
  rw [containsNetwork_eq_ok_true_iff valid memberValid]
  constructor
  · intro listed
    obtain ⟨block, isMember, same⟩ := listed
    obtain ⟨index, inRange, rfl⟩ := List.getElem_of_mem isMember
    have located := (tiles.row index inRange).congr same
    have base_eq : member.base.toNat =
      whole.base.toNat + index * (whole.firstBlock power).size := located.base_eq
    have within : (index + 1) * (whole.firstBlock power).size ≤
        blocks.length * (whole.firstBlock power).size := Nat.mul_le_mul_right _ inRange
    rw [Nat.succ_mul] at within
    exact ⟨sameFamily.symm, by omega, by rw [located.size_eq]; omega⟩
  · intro contained
    obtain ⟨_, above, within⟩ := contained
    have located := isBlockAt_of_le firstValid memberValid sameFamily prefixLen_eq above
    have base_eq : member.base.toNat = whole.base.toNat +
      (member.base.toNat - whole.base.toNat) / (whole.firstBlock power).size *
        (whole.firstBlock power).size := located.base_eq
    have inRange : (member.base.toNat - whole.base.toNat) / (whole.firstBlock power).size <
        blocks.length := by
      rw [Nat.div_lt_iff_lt_mul positive]
      rw [located.size_eq] at within
      omega
    exact ⟨_, List.getElem_mem inRange, (tiles.row _ inRange).equiv located⟩

end Tiles

end Netblock.Network
