import Netblock.Network.Merge
import Netblock.Proofs.Split
/-!
# Merging accepts the tilings

The checks of a merge pass together exactly when the networks tile one that is smaller than the
whole address space. The merged network is that one, marked like the last of them. Since a split
tiles its network, splitting and merging undo each other.
-/

set_option autoImplicit false

namespace Netblock

namespace Address

theorem mark_withMark_of_family_eq {left right : Address} (same : left.family = right.family) :
    (left.withMark right.mark).mark = right.mark := by
  cases left with
  | v4 _ =>
      cases right with
      | v4 _ => rfl
      | v6 _ _ => cases same
  | v6 _ _ => rfl

theorem withMark_eq_of_equiv {left right : Address} (same : left ≈ right) :
    left.withMark right.mark = right := by
  obtain ⟨sameFamily, sameValue⟩ := same
  refine Address.ext ?_ ?_ (mark_withMark_of_family_eq sameFamily)
  · rw [family_withMark, sameFamily]
  · rw [toNat_withMark, sameValue]

end Address

namespace Network

/-- What a merge of `count` networks says of two that do not follow each other. `index` is the
place of the second one. -/
def gapError (count index : Nat) (network following : Network) : Error :=
  if network.family = following.family then
    .mergeOrder count index
  else
    .mixedFamilies network.base following.base

theorem checkChain_cons_cons (count index : Nat) (network following : Network)
    (rest : List Network) :
    checkChain count index (network :: following :: rest) =
      if network.IsFollowedBy following then checkChain count (index + 1) (following :: rest)
      else .error (gapError count index network following) := by
  rw [checkChain, gapError]
  by_cases followed : network.IsFollowedBy following
  · have sameFamily : network.family = following.family :=
      (isFollowedBy_iff.mp followed).family_eq.symm
    rw [if_neg (not_not.mpr sameFamily), if_neg (not_not.mpr followed), if_pos followed]
  · by_cases sameFamily : network.family = following.family
    · rw [if_neg (not_not.mpr sameFamily), if_pos followed, if_neg followed, if_pos sameFamily]
    · rw [if_pos sameFamily, if_neg followed, if_neg sameFamily]

theorem checkChain_eq_ok_iff {count index : Nat} {networks : List Network} :
    checkChain count index networks = .ok () ↔ networks.IsChain IsFollowedBy := by
  induction networks generalizing index with
  | nil => simp [checkChain]
  | cons network rest ih =>
      cases rest with
      | nil => simp [checkChain]
      | cons following rest =>
          rw [checkChain_cons_cons, List.isChain_cons_cons]
          by_cases followed : network.IsFollowedBy following
          · simp [followed, ih]
          · simp [followed]

/-- What remains of a merge once the number of networks is known to be right. -/
theorem merge_cons_of_length_eq {first : Network} {rest : List Network} {power : Nat}
    (length_eq : rest.length + 1 = 2 ^ power) (positive : 1 ≤ power) :
    merge (first :: rest) = (do
      checkChain (2 ^ power) 1 (first :: rest)
      if first.prefixLen ≤ power then
        .error (.mergeAnyAddress (2 ^ power))
      else if ¬ first.base.IsAligned (first.prefixLen - power) then
        .error (.mergeOrder (2 ^ power) 0)
      else
        .ok ⟨first.base.withMark (rest.getLastD first).base.mark,
          first.prefixLen - power⟩) := by
  have atLeastTwo : 2 ^ 1 ≤ 2 ^ power := Nat.pow_le_pow_right (by decide) positive
  have isPower : (2 ^ power).isPowerOfTwo := ⟨power, rfl⟩
  have countFits : ¬ (2 ^ power < 2 ∨ ¬ (2 ^ power).isPowerOfTwo) := by
    intro bad
    rcases bad with tooFew | notPower
    · omega
    · exact notPower isPower
  simp only [merge, length_eq, Nat.log2_two_pow]
  rw [if_neg countFits]

/-- A second network with another prefix length than the first ends the merge. -/
theorem merge_eq_mergeOrder_one {first second : Network} {rest : List Network} {power : Nat}
    (length_eq : (first :: second :: rest).length = 2 ^ power) (positive : 1 ≤ power)
    (sameFamily : first.family = second.family) (otherLen : second.prefixLen ≠ first.prefixLen) :
    merge (first :: second :: rest) = .error (.mergeOrder (2 ^ power) 1) := by
  have notFollowed : ¬ first.IsFollowedBy second :=
    fun followed => otherLen (isFollowedBy_iff.mp followed).prefixLen_eq
  have refused : checkChain (2 ^ power) 1 (first :: second :: rest) =
      .error (.mergeOrder (2 ^ power) 1) := by
    rw [checkChain_cons_cons, if_neg notFollowed, gapError, if_pos sameFamily]
  rw [merge_cons_of_length_eq length_eq positive, refused]
  rfl

theorem IsRow.merge_eq {first : Network} {rest : List Network} {power : Nat}
    (row : first.IsRow (first :: rest)) (length_eq : rest.length + 1 = 2 ^ power)
    (positive : 1 ≤ power) :
    merge (first :: rest) =
      if first.prefixLen ≤ power then
        .error (.mergeAnyAddress (2 ^ power))
      else if ¬ first.base.IsAligned (first.prefixLen - power) then
        .error (.mergeOrder (2 ^ power) 0)
      else
        .ok ⟨first.base.withMark (rest.getLastD first).base.mark,
          first.prefixLen - power⟩ := by
  have checked : checkChain (2 ^ power) 1 (first :: rest) = .ok () :=
    checkChain_eq_ok_iff.mpr (isChain_isFollowedBy_iff.mpr row)
  rw [merge_cons_of_length_eq length_eq positive, checked]
  rfl

theorem exists_power_of_counted {count : Nat}
    (counted : ¬ (count < 2 ∨ ¬ count.isPowerOfTwo)) : ∃ power, 1 ≤ power ∧ count = 2 ^ power := by
  obtain ⟨atLeastTwo, isPower⟩ := not_or.mp counted
  obtain ⟨power, rfl⟩ := not_not.mp isPower
  cases power with
  | zero => exact absurd Nat.one_lt_two atLeastTwo
  | succ power => exact ⟨power + 1, Nat.succ_pos power, rfl⟩

theorem exists_power_of_merge_eq_ok {first merged : Network} {rest : List Network}
    (accepted : merge (first :: rest) = .ok merged) :
    ∃ power, 1 ≤ power ∧ rest.length + 1 = 2 ^ power := by
  by_cases refused : rest.length + 1 < 2 ∨ ¬ (rest.length + 1).isPowerOfTwo
  · have rejected : merge (first :: rest) = .error (.mergeCount (rest.length + 1)) :=
      if_pos refused
    rw [rejected] at accepted
    cases accepted
  · exact exists_power_of_counted refused

theorem merge_cons_eq_ok_iff {first : Network} {rest : List Network} {merged : Network} :
    merge (first :: rest) = .ok merged ↔
      ∃ power, 1 ≤ power ∧ rest.length + 1 = 2 ^ power ∧ first.IsRow (first :: rest) ∧
        power < first.prefixLen ∧ first.base.IsAligned (first.prefixLen - power) ∧
        merged = ⟨first.base.withMark (rest.getLastD first).base.mark,
          first.prefixLen - power⟩ := by
  constructor
  · intro accepted
    obtain ⟨power, positive, length_eq⟩ := exists_power_of_merge_eq_ok accepted
    cases checked : checkChain (2 ^ power) 1 (first :: rest) with
    | error error =>
        rw [merge_cons_of_length_eq length_eq positive, checked] at accepted
        cases accepted
    | ok _ =>
        have row := isChain_isFollowedBy_iff.mp (checkChain_eq_ok_iff.mp checked)
        rw [row.merge_eq length_eq positive] at accepted
        split at accepted
        · cases accepted
        · next longer =>
            split at accepted
            · cases accepted
            · next aligned =>
                cases accepted
                exact ⟨power, positive, length_eq, row, by omega, not_not.mp aligned, rfl⟩
  · intro tiled
    obtain ⟨power, positive, length_eq, row, longer, aligned, rfl⟩ := tiled
    rw [row.merge_eq length_eq positive, if_neg (by omega), if_neg (not_not.mpr aligned)]

/-- A row of `2 ^ power` blocks that starts on a boundary of the shorter prefix tiles a network. -/
theorem IsRow.tiles {first : Network} {rest : List Network} {power : Nat}
    (row : first.IsRow (first :: rest)) (firstValid : first.Valid)
    (length_eq : rest.length + 1 = 2 ^ power) (longer : power < first.prefixLen) :
    Tiles ⟨first.base, first.prefixLen - power⟩ power (first :: rest) := by
  have prefixLen_eq : first.prefixLen - power + power = first.prefixLen := by omega
  have firstBlock_eq : firstBlock ⟨first.base, first.prefixLen - power⟩ power = first := by
    rw [firstBlock, prefixLen_eq]
  refine ⟨?_, length_eq, ?_⟩
  · rw [prefixLen_eq]
    exact firstValid.prefixLen_le
  · rw [firstBlock_eq]
    exact row

theorem IsRow.mark_withMark_getLastD {first : Network} {rest : List Network}
    (row : first.IsRow (first :: rest)) :
    (first.base.withMark (rest.getLastD first).base.mark).mark =
      (rest.getLastD first).base.mark := by
  have member : rest.getLastD first ∈ first :: rest := List.getLastD_mem_cons
  obtain ⟨index, inRange, found⟩ := List.getElem_of_mem member
  have located := row index inRange
  rw [found] at located
  exact Address.mark_withMark_of_family_eq located.family_eq.symm

/-- A merge finds the network that its arguments tile, under the mark of the last of them. -/
theorem merge_eq_ok_iff_tiles {blocks : List Network} {merged : Network}
    (valid : ∀ block ∈ blocks, block.Valid) :
    merge blocks = .ok merged ↔
      ∃ power, 1 ≤ power ∧ Tiles merged power blocks ∧ merged.Valid ∧ 1 ≤ merged.prefixLen ∧
        blocks.getLast?.map (·.base.mark) = some merged.base.mark := by
  cases blocks with
  | nil =>
      constructor
      · intro accepted
        cases accepted
      · intro tiled
        obtain ⟨_, _, _, _, _, last⟩ := tiled
        cases last
  | cons first rest =>
      have firstValid : first.Valid := valid first (by simp)
      rw [merge_cons_eq_ok_iff, List.getLast?_cons, ← List.getLastD_eq_getLast?, Option.map_some,
        Option.some_inj]
      constructor
      · intro accepted
        obtain ⟨power, positive, length_eq, row, longer, aligned, rfl⟩ := accepted
        -- The merged network differs by its mark alone from the one that the row tiles.
        have same : (⟨first.base, first.prefixLen - power⟩ : Network) ≈
            ⟨first.base.withMark (rest.getLastD first).base.mark, first.prefixLen - power⟩ :=
          ⟨Setoid.symm (Address.withMark_equiv _ _), rfl⟩
        have prefixLen_le := firstValid.prefixLen_le
        have wholeValid : (⟨first.base, first.prefixLen - power⟩ : Network).Valid :=
          ⟨Nat.le_trans (Nat.sub_le _ _) prefixLen_le, aligned⟩
        refine ⟨power, positive, (row.tiles firstValid length_eq longer).of_equiv same,
          wholeValid.of_equiv same, ?_, row.mark_withMark_getLastD.symm⟩
        change 1 ≤ first.prefixLen - power
        omega
      · intro tiled
        obtain ⟨power, positive, tiles, mergedValid, positivePrefix, last⟩ := tiled
        have same := tiles.equiv_firstBlock
        have prefixLen_eq : merged.prefixLen + power = first.prefixLen := same.2
        have prefixLen_sub : first.prefixLen - power = merged.prefixLen := by omega
        have sameBase : merged.base ≈ first.base := same.1
        have wholeSame : merged ≈ ⟨first.base, merged.prefixLen⟩ := ⟨sameBase, rfl⟩
        have aligned : first.base.IsAligned merged.prefixLen :=
          (mergedValid.of_equiv wholeSame).aligned
        refine ⟨power, positive, tiles.length_eq, tiles.row.of_equiv (Setoid.symm same),
          by omega, ?_, ?_⟩
        · rw [prefixLen_sub]
          exact aligned
        · rw [prefixLen_sub, last,
            Address.withMark_eq_of_equiv (Setoid.symm sameBase)]

theorem merge_eq_ok_iff_tiles_of_length_eq {blocks : List Network} {merged : Network}
    {power : Nat} (valid : ∀ block ∈ blocks, block.Valid) (length_eq : blocks.length = 2 ^ power)
    (positive : 1 ≤ power) :
    merge blocks = .ok merged ↔ Tiles merged power blocks ∧ merged.Valid ∧
      1 ≤ merged.prefixLen ∧ blocks.getLast?.map (·.base.mark) = some merged.base.mark := by
  rw [merge_eq_ok_iff_tiles valid]
  constructor
  · intro tiled
    obtain ⟨found, _, tiles, facts⟩ := tiled
    obtain rfl := tiles.power_eq length_eq
    exact ⟨tiles, facts⟩
  · intro tiled
    exact ⟨power, positive, tiled⟩

theorem Tiles.merge_eq_ok {whole : Network} {power : Nat} {blocks : List Network}
    (tiles : Tiles whole power blocks) (valid : whole.Valid) (positive : 1 ≤ power)
    (positivePrefix : 1 ≤ whole.prefixLen) :
    ∃ last ∈ blocks.getLast?,
      merge blocks = .ok ⟨whole.base.withMark last.base.mark, whole.prefixLen⟩ := by
  have nonempty := tiles.ne_nil
  have found := List.getLast?_eq_some_getLast nonempty
  refine ⟨_, found, ?_⟩
  have same : whole ≈
      ⟨whole.base.withMark (blocks.getLast nonempty).base.mark, whole.prefixLen⟩ :=
    ⟨Setoid.symm (Address.withMark_equiv _ _), rfl⟩
  have lastFamily : (blocks.getLast nonempty).family = whole.family :=
    tiles.family_eq (List.getLast_mem nonempty)
  have mark_eq : (whole.base.withMark (blocks.getLast nonempty).base.mark).mark =
      (blocks.getLast nonempty).base.mark :=
    Address.mark_withMark_of_family_eq lastFamily.symm
  rw [merge_eq_ok_iff_tiles (tiles.row.valid (valid.firstBlock tiles.fits))]
  refine ⟨power, positive, tiles.of_equiv same, valid.of_equiv same, positivePrefix, ?_⟩
  rw [found, Option.map_some, mark_eq]

theorem merge_eq_ok_iff_exists_tiles {blocks : List Network}
    (valid : ∀ block ∈ blocks, block.Valid) :
    ((∃ merged, merge blocks = .ok merged) ↔
      ∃ whole power, whole.Valid ∧ 1 ≤ whole.prefixLen ∧ 1 ≤ power ∧
        Tiles whole power blocks) ∧
    ∀ merged, merge blocks = .ok merged →
      (∀ whole power, Tiles whole power blocks → merged ≈ whole) ∧
      blocks.getLast?.map (·.base.mark) = some merged.base.mark ∧
      blocks.Pairwise (· < ·) ∧
      ∀ reordered other, reordered.Perm blocks → merge reordered = .ok other →
        reordered = blocks := by
  refine ⟨⟨?_, ?_⟩, ?_⟩
  · intro accepted
    obtain ⟨merged, accepted⟩ := accepted
    obtain ⟨power, positive, tiles, mergedValid, positivePrefix, _⟩ :=
      (merge_eq_ok_iff_tiles valid).mp accepted
    exact ⟨merged, power, mergedValid, positivePrefix, positive, tiles⟩
  · intro tiled
    obtain ⟨whole, power, wholeValid, positivePrefix, positive, tiles⟩ := tiled
    obtain ⟨_, _, accepted⟩ := tiles.merge_eq_ok wholeValid positive positivePrefix
    exact ⟨_, accepted⟩
  · intro merged accepted
    obtain ⟨power, positive, tiles, mergedValid, positivePrefix, last⟩ :=
      (merge_eq_ok_iff_tiles valid).mp accepted
    refine ⟨?_, last, tiles.row.pairwise_lt, ?_⟩
    · intro whole otherPower otherTiles
      exact tiles.whole_equiv otherTiles
    · intro reordered other permuted otherAccepted
      have reorderedValid : ∀ block ∈ reordered, block.Valid := fun block member =>
        valid block (permuted.mem_iff.mp member)
      obtain ⟨_, _, otherTiles, _⟩ := (merge_eq_ok_iff_tiles reorderedValid).mp otherAccepted
      exact eq_of_perm_of_pairwise_lt permuted otherTiles.row.pairwise_lt tiles.row.pairwise_lt

/-- The halves of `::/96`: the bits of the second one set its mark, which the result takes over. -/
theorem merge_eq_ok_iff_exists_tiles_halves :
    (∀ block ∈ [(⟨.v6 0 false, 97⟩ : Network), ⟨.v6 (1 <<< 31) true, 97⟩], block.Valid) ∧
      merge [⟨.v6 0 false, 97⟩, ⟨.v6 (1 <<< 31) true, 97⟩] = .ok ⟨.v6 0 true, 96⟩ ∧
      ∃ whole power, whole.Valid ∧ 1 ≤ whole.prefixLen ∧ 1 ≤ power ∧
        Tiles whole power [⟨.v6 0 false, 97⟩, ⟨.v6 (1 <<< 31) true, 97⟩] := by
  have valid : ∀ block ∈ [(⟨.v6 0 false, 97⟩ : Network), ⟨.v6 (1 <<< 31) true, 97⟩],
      block.Valid := by decide
  have accepted : merge [⟨.v6 0 false, 97⟩, ⟨.v6 (1 <<< 31) true, 97⟩] =
      .ok ⟨.v6 0 true, 96⟩ := by decide
  exact ⟨valid, accepted, (merge_eq_ok_iff_exists_tiles valid).1.mp ⟨_, accepted⟩⟩

/-- Splitting cannot be undone where the merge would be the whole address space. -/
theorem Tiles.merge_eq_mergeAnyAddress {whole : Network} {power : Nat} {blocks : List Network}
    (tiles : Tiles whole power blocks) (positive : 1 ≤ power) (space : whole.prefixLen = 0) :
    merge blocks = .error (.mergeAnyAddress (2 ^ power)) := by
  obtain ⟨first, rest, rfl⟩ := List.exists_cons_of_ne_nil tiles.ne_nil
  have same := tiles.equiv_firstBlock
  have prefixLen_eq : whole.prefixLen + power = first.prefixLen := same.2
  have row := tiles.row.of_equiv (Setoid.symm same)
  rw [row.merge_eq tiles.length_eq positive, if_pos (by omega)]

theorem exists_merge_chain {network : Network} {power : Nat} (valid : network.Valid)
    (positive : 1 ≤ power) (fits : network.prefixLen + power ≤ network.width)
    (positivePrefix : 1 ≤ network.prefixLen) :
    ∃ merged, merge (chain (2 ^ power) (network.firstBlock power)) = .ok merged ∧
      merged ≈ network ∧ (network.base.mark = true → merged = network) := by
  obtain ⟨last, found, accepted⟩ :=
    (valid.tiles_chain fits).merge_eq_ok valid positive positivePrefix
  refine ⟨_, accepted, ⟨Address.withMark_equiv _ _, rfl⟩, ?_⟩
  intro marked
  have firstMarked : (network.firstBlock power).base.mark = true := marked
  have lastMarked : last.base.mark = true :=
    mark_of_mem_chain firstMarked (List.mem_of_getLast? found)
  rw [lastMarked, ← marked, Address.withMark_eq_of_equiv (Setoid.refl network.base)]

theorem merge_splitByPower_inverse :
    (∀ (network : Network) (power : Nat), network.Valid → 1 ≤ power → power ≤ 30 →
      network.prefixLen + power ≤ network.width →
      ∃ blocks, network.splitByPower power = .ok blocks ∧
        (1 ≤ network.prefixLen → ∃ merged, merge blocks = .ok merged ∧ merged ≈ network ∧
          (network.base.mark = true →
            merged.base.mark = true ∧ merged.text = network.text)) ∧
        (network.prefixLen = 0 →
          merge blocks = .error (.mergeAnyAddress (2 ^ power)))) ∧
    (∀ (blocks : List Network) (power : Nat) (merged : Network),
      (∀ block ∈ blocks, block.Valid) → blocks.length = 2 ^ power → 1 ≤ power → power ≤ 30 →
      merge blocks = .ok merged →
      ∃ parts, merged.splitByPower power = .ok parts ∧ List.Forall₂ (· ≈ ·) parts blocks) := by
  constructor
  · intro network power valid positive bounded fits
    refine ⟨_, splitByPower_eq_ok positive bounded fits, ?_, ?_⟩
    · intro positivePrefix
      obtain ⟨merged, accepted, same, restored⟩ :=
        exists_merge_chain valid positive fits positivePrefix
      refine ⟨merged, accepted, same, ?_⟩
      intro marked
      rw [restored marked]
      exact ⟨marked, rfl⟩
    · intro space
      exact (valid.tiles_chain fits).merge_eq_mergeAnyAddress positive space
  · intro blocks power merged valid length_eq positive bounded accepted
    obtain ⟨mergedPower, _, tiles, mergedValid, _, _⟩ :=
      (merge_eq_ok_iff_tiles valid).mp accepted
    obtain rfl := tiles.power_eq length_eq
    have parts := mergedValid.tiles_chain tiles.fits
    refine ⟨_, splitByPower_eq_ok positive bounded tiles.fits, ?_⟩
    exact parts.row.forall₂_equiv tiles.row (parts.length_eq.trans tiles.length_eq.symm)

/-- `::ffff:10.0.0.0/104` keeps its mark on the way there and back, `0.0.0.0/0` cannot come back,
and two halves come back from the network that they make up. -/
theorem merge_splitByPower_inverse_mapped :
    ((⟨.v6 0xFFFF0A000000 true, 104⟩ : Network).Valid ∧
      ∃ blocks, splitByPower ⟨.v6 0xFFFF0A000000 true, 104⟩ 24 = .ok blocks ∧
        ∃ merged, merge blocks = .ok merged ∧ merged ≈ ⟨.v6 0xFFFF0A000000 true, 104⟩ ∧
          merged.base.mark = true) ∧
    (∃ blocks, splitByPower ⟨.v4 0, 0⟩ 30 = .ok blocks ∧
      merge blocks = .error (.mergeAnyAddress (2 ^ 30))) ∧
    (merge [⟨.v4 0, 2⟩, ⟨.v4 (1 <<< 30), 2⟩] = .ok ⟨.v4 0, 1⟩ ∧
      ∃ parts, splitByPower ⟨.v4 0, 1⟩ 1 = .ok parts ∧
        List.Forall₂ (· ≈ ·) parts [⟨.v4 0, 2⟩, ⟨.v4 (1 <<< 30), 2⟩]) := by
  obtain ⟨undone, redone⟩ := merge_splitByPower_inverse
  refine ⟨⟨by decide, ?_⟩, ?_, by decide, ?_⟩
  · obtain ⟨blocks, parted, joined, _⟩ :=
      undone ⟨.v6 0xFFFF0A000000 true, 104⟩ 24 (by decide) (by decide) (by decide) (by decide)
    obtain ⟨merged, accepted, same, marked⟩ := joined (by decide)
    exact ⟨blocks, parted, merged, accepted, same, (marked rfl).1⟩
  · obtain ⟨blocks, parted, _, refused⟩ :=
      undone ⟨.v4 0, 0⟩ 30 (by decide) (by decide) (by decide) (by decide)
    exact ⟨blocks, parted, refused rfl⟩
  · exact redone _ 1 ⟨.v4 0, 1⟩ (by decide) rfl (by decide) (by decide) (by decide)

end Network

end Netblock
