import Netblock.Proofs.NetworkMarks
import Netblock.Proofs.Offsets
/-!
# Marks along a split

Every block of a split takes over the mark of the block before it, and its own bits may set one.
So a block is marked if the network is, or if any block up to it embeds IPv4. That is the mark of
the address computed from the base of the network, with one exception: the unmarked network `::`,
if it is wider than the embedded addresses, hands their marks on to the blocks after them.
-/

set_option autoImplicit false

namespace Netblock

/-!
### Aligned blocks around a power of two
-/

/-- An aligned block of values on both sides of a power of two starts at zero. -/
theorem eq_zero_of_straddles {base hostBits width lower upper : Nat} (aligned : 2 ^ hostBits ∣ base)
    (above : base ≤ lower) (lowerBelow : lower < 2 ^ width) (upperAbove : 2 ^ width ≤ upper)
    (below : upper < base + 2 ^ hostBits) : base = 0 ∧ width < hostBits := by
  have wide : width < hostBits := by
    by_contra narrow
    have fits : hostBits ≤ width := Nat.le_of_not_lt narrow
    have lowerUpper : lower / 2 ^ width = base / 2 ^ width :=
      div_two_pow_eq_of_aligned fits aligned above (by omega)
    have upperUpper : upper / 2 ^ width = base / 2 ^ width :=
      div_two_pow_eq_of_aligned fits aligned (by omega) below
    have reached : 0 < upper / 2 ^ width := Nat.div_pos upperAbove (Nat.two_pow_pos width)
    rw [upperUpper, ← lowerUpper, Nat.div_eq_of_lt lowerBelow] at reached
    exact absurd reached (Nat.lt_irrefl 0)
  have small : base < 2 ^ hostBits :=
    calc base ≤ lower := above
      _ < 2 ^ width := lowerBelow
      _ ≤ 2 ^ hostBits := Nat.pow_le_pow_right (by decide) wide.le
  exact ⟨Nat.eq_zero_of_dvd_of_lt aligned small, wide⟩

namespace IsEmbedding

variable {base hostBits earlier value : Nat}

theorem of_le (embedding : IsEmbedding earlier) (above : earlier ≤ value)
    (sameUpper : value / 2 ^ 32 = earlier / 2 ^ 32) : IsEmbedding value := by
  rw [isEmbedding_iff] at embedding ⊢
  omega

/-- Values that embed IPv4 are followed by others only in a block that starts at zero. -/
theorem eq_zero_of_not (embedding : IsEmbedding earlier) (aligned : 2 ^ hostBits ∣ base)
    (above : base ≤ earlier) (later : earlier ≤ value) (below : value < base + 2 ^ hostBits)
    (notEmbedding : ¬ IsEmbedding value) : base = 0 ∧ 32 < hostBits ∧ 2 ^ 32 ≤ value := by
  have otherUpper : value / 2 ^ 32 ≠ earlier / 2 ^ 32 :=
    fun sameUpper => notEmbedding (embedding.of_le later sameUpper)
  rcases (isEmbedding_iff.mp embedding).1 with plain | mapped
  · have reached : 2 ^ 32 ≤ value := by omega
    obtain ⟨base_eq, wide⟩ := eq_zero_of_straddles aligned above (by omega) reached below
    exact ⟨base_eq, wide, reached⟩
  · have reached : 2 ^ 48 ≤ value := by omega
    obtain ⟨base_eq, wide⟩ := eq_zero_of_straddles aligned above (by omega) reached below
    exact ⟨base_eq, by omega, by omega⟩

end IsEmbedding

namespace Network

/-!
### What a chain hands on
-/

theorem mark_nextBlock?_iff {network next : Network} (found : network.nextBlock? = some next) :
    next.base.mark = true ↔ network.base.mark = true ∨ Octets.Embeds next.base.octets := by
  obtain ⟨_, rfl⟩ := nextBlock?_eq_some_iff.mp found
  exact Address.mark_withValue_iff

/-- A mark that is set at some block stays for all later ones. -/
theorem mark_getElem_iff_of_isChain {first : Network} {rest : List Network}
    (marks : first.base.MarksEmbedding)
    (chained : (first :: rest).IsChain fun block next => block.nextBlock? = some next)
    {index : Nat} (inRange : index < (first :: rest).length) :
    (first :: rest)[index].base.mark = true ↔ first.base.mark = true ∨
      ∃ block ∈ (first :: rest).take (index + 1), Octets.Embeds block.base.octets := by
  induction index with
  | zero =>
      rw [List.take_succ_cons, List.take_zero, List.getElem_cons_zero]
      simp only [List.mem_singleton, exists_eq_left]
      exact (or_iff_left_of_imp marks).symm
  | succ index ih =>
      have earlierInRange : index < (first :: rest).length := Nat.lt_of_succ_lt inRange
      have step := List.isChain_iff_getElem.mp chained index inRange
      rw [mark_nextBlock?_iff step, ih earlierInRange, List.take_succ_eq_append_getElem inRange,
        or_assoc]
      refine or_congr_right ?_
      simp only [List.mem_append, List.mem_singleton, or_and_right, exists_or, exists_eq_left]

theorem mark_getElem_splitByPower_iff {network : Network} {power : Nat} {blocks : List Network}
    (marks : network.base.MarksEmbedding) (accepted : network.splitByPower power = .ok blocks)
    {index : Nat} (inRange : index < blocks.length) :
    blocks[index].base.mark = true ↔ network.base.mark = true ∨
      ∃ block ∈ blocks.take (index + 1), Octets.Embeds block.base.octets := by
  obtain ⟨_, _, _, rfl⟩ := splitByPower_eq_ok_iff.mp accepted
  have firstMarks : (network.firstBlock power).base.MarksEmbedding := marks
  have chained := isChain_chain (2 ^ power) (network.firstBlock power)
  obtain ⟨count, count_eq⟩ := Nat.exists_eq_succ_of_ne_zero (Nat.two_pow_pos power).ne'
  simp only [count_eq, chain_succ] at chained inRange ⊢
  exact mark_getElem_iff_of_isChain firstMarks chained inRange

/-!
### Marks that come from earlier blocks
-/

/-- The block at `index` embeds no IPv4 address and lies after the embedded addresses, in a split
of the unmarked network `::` that has some of them in blocks of their own. -/
structure CarriesMark (network : Network) (power index : Nat) : Prop where
  unmarked : network.base.mark = false
  base_eq : network.base.toNat = 0
  wide : network.prefixLen ≤ 95
  narrowBlocks : 97 ≤ network.prefixLen + power
  after : 2 ^ 32 ≤ index * 2 ^ (128 - network.prefixLen - power)
  notEmbedding : ¬ IsEmbedding (index * 2 ^ (128 - network.prefixLen - power))

section

variable {network : Network} {power index : Nat} {blocks : List Network}

theorem CarriesMark.exists_embeds (carries : network.CarriesMark power index)
    (isV6 : network.family = .v6) (tiles : Tiles network power blocks)
    (inRange : index < blocks.length) :
    ∃ block ∈ blocks.take (index + 1), Octets.Embeds block.base.octets := by
  have width_eq : network.width = 128 := congrArg Family.width isV6
  have narrow := carries.narrowBlocks
  -- The block at `::128.0.0.0` is one of the split.
  obtain ⟨earlier, value_eq⟩ : ∃ earlier,
      earlier * 2 ^ (128 - network.prefixLen - power) = 2 ^ 31 := by
    refine ⟨2 ^ (31 - (128 - network.prefixLen - power)), ?_⟩
    rw [← Nat.pow_add, Nat.sub_add_cancel (by omega)]
  have before : earlier < index := by
    apply Nat.lt_of_mul_lt_mul_right (a := 2 ^ (128 - network.prefixLen - power))
    rw [value_eq]
    exact Nat.lt_of_lt_of_le (by decide) carries.after
  have earlierInRange : earlier < blocks.length := Nat.lt_trans before inRange
  refine ⟨blocks[earlier], List.mem_take_iff_getElem.mpr ⟨earlier, by omega, rfl⟩, ?_⟩
  have toNat_eq := tiles.base_eq earlierInRange
  rw [carries.base_eq, width_eq, value_eq, Nat.zero_add] at toNat_eq
  refine Address.embeds_octets_iff.mpr ⟨(tiles.family_eq (List.getElem_mem _)).trans isV6, ?_⟩
  rw [toNat_eq]
  decide

theorem CarriesMark.not_embeds (carries : network.CarriesMark power index)
    (isV6 : network.family = .v6) (tiles : Tiles network power blocks)
    (inRange : index < blocks.length) : ¬ Octets.Embeds blocks[index].base.octets := by
  intro embeds
  have width_eq : network.width = 128 := congrArg Family.width isV6
  have embedding := (Address.embeds_octets_iff.mp embeds).2
  rw [tiles.base_eq inRange, carries.base_eq, width_eq, Nat.zero_add] at embedding
  exact carries.notEmbedding embedding

/-- A block that embeds no IPv4 address, but comes after one that does, carries a mark that is not
its own. -/
theorem Tiles.carriesMark {earlier : Nat} (tiles : Tiles network power blocks)
    (valid : network.Valid) (isV6 : network.family = .v6) (unmarked : network.base.mark = false)
    (before : earlier ≤ index) (earlierInRange : earlier < blocks.length)
    (inRange : index < blocks.length) (embeds : Octets.Embeds blocks[earlier].base.octets)
    (notEmbeds : ¬ Octets.Embeds blocks[index].base.octets) : network.CarriesMark power index := by
  have width_eq : network.width = 128 := congrArg Family.width isV6
  have located := tiles.row earlier earlierInRange
  have blockValid := located.valid (valid.firstBlock tiles.fits)
  have hostBits_eq : blocks[earlier].hostBits = 128 - (network.prefixLen + power) := by
    rw [hostBits, located.width_eq, located.prefixLen_eq, ← width_eq]
    rfl
  have toNat_eq := tiles.base_eq inRange
  have later : blocks[earlier].base.toNat ≤ blocks[index].base.toNat := by
    rw [tiles.base_eq earlierInRange, toNat_eq]
    exact Nat.add_le_add_left (Nat.mul_le_mul_right _ before) _
  obtain ⟨_, above, _⟩ :=
    (covers_iff valid).mp (tiles.covers_base valid (List.getElem_mem earlierInRange))
  obtain ⟨sameFamily, _, below⟩ :=
    (covers_iff valid).mp (tiles.covers_base valid (List.getElem_mem inRange))
  have embedding := (Address.embeds_octets_iff.mp embeds).2
  have notEmbedding : ¬ IsEmbedding blocks[index].base.toNat := fun embedding =>
    notEmbeds (Address.embeds_octets_iff.mpr ⟨sameFamily.trans isV6, embedding⟩)
  have narrow := embedding.hostBits_lt blockValid.size_dvd_base
  obtain ⟨base_eq, wide, reached⟩ :=
    embedding.eq_zero_of_not valid.size_dvd_base above later below notEmbedding
  rw [hostBits_eq] at narrow
  rw [hostBits, width_eq] at wide
  rw [base_eq, width_eq, Nat.zero_add] at toNat_eq
  rw [toNat_eq] at reached notEmbedding
  exact ⟨unmarked, base_eq, by omega, by omega, reached, notEmbedding⟩

theorem Tiles.exists_embeds_iff (tiles : Tiles network power blocks) (valid : network.Valid)
    (isV6 : network.family = .v6) (unmarked : network.base.mark = false)
    (inRange : index < blocks.length) :
    (∃ block ∈ blocks.take (index + 1), Octets.Embeds block.base.octets) ↔
      Octets.Embeds blocks[index].base.octets ∨ network.CarriesMark power index := by
  constructor
  · intro someEmbeds
    obtain ⟨block, member, embeds⟩ := someEmbeds
    obtain ⟨earlier, earlierInRange, rfl⟩ := List.mem_take_iff_getElem.mp member
    rw [or_iff_not_imp_left]
    exact tiles.carriesMark valid isV6 unmarked (by omega) (by omega) inRange embeds
  · intro own
    rcases own with embeds | carries
    · exact ⟨blocks[index], List.mem_take_iff_getElem.mpr ⟨index, by omega, rfl⟩, embeds⟩
    · exact carries.exists_embeds isV6 tiles inRange

end

/-- The base of every block is an offset from the base of the network. -/
theorem Tiles.exists_add_eq_ok {network : Network} {power index : Nat} {blocks : List Network}
    (tiles : Tiles network power blocks) (inRange : index < blocks.length) :
    ∃ address,
      network.base.add (index * 2 ^ (network.width - network.prefixLen - power) : Nat) =
        .ok address ∧
      (address.mark = true ↔ network.base.mark = true ∨ Octets.Embeds address.octets) ∧
      address ≈ blocks[index].base := by
  have moved : network.base.IsShiftedBy
      (index * 2 ^ (network.width - network.prefixLen - power) : Nat) blocks[index].base := by
    refine ⟨(tiles.row index inRange).family_eq, ?_⟩
    rw [tiles.base_eq inRange, Int.natCast_add]
  obtain ⟨address, added, same⟩ := moved.exists_add_eq_ok
  exact ⟨address, added, (Address.add_eq_ok_iff.mp added).2, same⟩

/-- A block is the one at its offset from the base of the network, mark included, unless it carries
a mark from the blocks before it. -/
theorem splitByPower_getElem_eq_add {network : Network} {power : Nat} {blocks : List Network}
    (valid : network.Valid) (isV6 : network.family = .v6) (marks : network.base.MarksEmbedding)
    (accepted : network.splitByPower power = .ok blocks) :
    ∀ index (inRange : index < blocks.length), ∃ address,
      network.base.add (index * 2 ^ (128 - network.prefixLen - power) : Nat) = .ok address ∧
      (address.mark = true ↔ network.base.mark = true ∨ Octets.Embeds address.octets) ∧
      (blocks[index].base.mark = true ↔ network.base.mark = true ∨
        ∃ block ∈ blocks.take (index + 1), Octets.Embeds block.base.octets) ∧
      (¬ network.CarriesMark power index →
        blocks[index] = ⟨address, network.prefixLen + power⟩) ∧
      (network.CarriesMark power index → address.mark = false ∧
        blocks[index] = ⟨address.withMark true, network.prefixLen + power⟩) := by
  intro index inRange
  have width_eq : network.width = 128 := congrArg Family.width isV6
  have tiles := valid.tiles_of_splitByPower accepted
  have block_eq : blocks[index] = ⟨blocks[index].base, network.prefixLen + power⟩ :=
    congrArg (Network.mk blocks[index].base) (tiles.row index inRange).prefixLen_eq
  have blockMark_iff := mark_getElem_splitByPower_iff marks accepted inRange
  obtain ⟨address, added, mark_iff, same⟩ := tiles.exists_add_eq_ok inRange
  have sameOctets := Address.octets_eq_of_equiv same
  rw [width_eq] at added
  refine ⟨address, added, mark_iff, blockMark_iff, ?_, ?_⟩
  · intro notCarried
    have mark_eq : blocks[index].base.mark = address.mark := by
      rw [Bool.eq_iff_iff, blockMark_iff, mark_iff, sameOctets]
      by_cases marked : network.base.mark = true
      · exact iff_of_true (.inl marked) (.inl marked)
      · rw [tiles.exists_embeds_iff valid isV6 (Bool.of_not_eq_true marked) inRange,
          or_iff_left notCarried]
    rw [block_eq, Address.ext same.1.symm same.2.symm mark_eq]
  · intro carries
    have blockMarked : blocks[index].base.mark = true :=
      blockMark_iff.mpr (.inr (carries.exists_embeds isV6 tiles inRange))
    constructor
    · apply Bool.of_not_eq_true
      rw [mark_iff, sameOctets, carries.unmarked]
      exact not_or_intro Bool.false_ne_true (carries.not_embeds isV6 tiles inRange)
    · rw [block_eq, ← blockMarked, Address.withMark_eq_of_equiv same]

/-- The quarters of `::/95`. -/
private def quarters : List Network :=
  [⟨.v6 0 false, 97⟩, ⟨.v6 (1 <<< 31) true, 97⟩, ⟨.v6 (1 <<< 32) true, 97⟩,
    ⟨.v6 (3 <<< 31) true, 97⟩]

private theorem splitByPower_eq_quarters :
    splitByPower ⟨.v6 0 false, 95⟩ 2 = .ok quarters := by decide

/-- The quarter of `::/95` that starts at `::1:0:0` is marked like the one before it, which starts
at `::128.0.0.0`. -/
theorem splitByPower_getElem_eq_add_carried :
    (⟨.v6 0 false, 95⟩ : Network).Valid ∧ (Address.v6 0 false).MarksEmbedding ∧
      splitByPower ⟨.v6 0 false, 95⟩ 2 = .ok quarters ∧ CarriesMark ⟨.v6 0 false, 95⟩ 2 2 ∧
      ∃ address, (Address.v6 0 false).add (2 * 2 ^ 31 : Nat) = .ok address ∧
        address.mark = false ∧ quarters[2] = ⟨address.withMark true, 97⟩ := by
  have valid : (⟨.v6 0 false, 95⟩ : Network).Valid := by decide
  have marks : (Address.v6 0 false).MarksEmbedding := Address.marksEmbedding_zero .v6
  have carries : CarriesMark ⟨.v6 0 false, 95⟩ 2 2 :=
    ⟨rfl, rfl, by decide, by decide, by decide, by decide⟩
  obtain ⟨address, added, _, _, _, carried⟩ :=
    splitByPower_getElem_eq_add valid rfl marks splitByPower_eq_quarters 2 (by decide)
  exact ⟨valid, marks, splitByPower_eq_quarters, carries, address, added, carried carries⟩

/-- The mark of a block does not follow from the network and the bits of the block. -/
theorem not_forall_mark_getElem_iff :
    ¬ ∀ (network : Network) (power : Nat) (blocks : List Network), network.Valid →
      network.family = .v6 → network.base.MarksEmbedding →
      network.splitByPower power = .ok blocks →
      ∀ index (inRange : index < blocks.length), (blocks[index].base.mark = true ↔
        network.base.mark = true ∨ Octets.Embeds blocks[index].base.octets) := by
  intro independent
  have mark_iff := independent ⟨.v6 0 false, 95⟩ 2 quarters (by decide) rfl
    (Address.marksEmbedding_zero .v6) splitByPower_eq_quarters 2 (by decide)
  rcases mark_iff.mp rfl with networkMarked | embeds
  · cases networkMarked
  · exact absurd (Address.embeds_octets_iff.mp embeds).2 (by decide)

end Network

end Netblock
