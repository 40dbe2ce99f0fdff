import Netblock.Proofs.Merge
import Netblock.Proofs.NestedTiling
/-!
# Splitting and merging in stages

Splitting the blocks of a split gives, one after another, the blocks of the split by the sum of
both powers. Merging the runs of a list and then what they merge to is the same as merging the
list, mark included.
-/

set_option autoImplicit false

namespace Netblock.Network

/-!
### Splits
-/

section

variable {network : Network} {first second : Nat} {parts : List Network}

/-- A block can be split further as far as the whole network could. -/
theorem splitByPower_isOk_of_mem (valid : network.Valid)
    (parted : network.splitByPower first = .ok parts) (positive : 1 ≤ second)
    (bounded : second ≤ 30) {part : Network} (member : part ∈ parts) :
    (∃ pieces, part.splitByPower second = .ok pieces) ↔
      network.prefixLen + (first + second) ≤ network.width := by
  have tiles := valid.tiles_of_splitByPower parted
  rw [exists_splitByPower_eq_ok_iff, tiles.prefixLen_eq member, tiles.width_eq member,
    Nat.add_assoc]
  exact ⟨fun accepted => accepted.2.2, fun fits => ⟨positive, bounded, fits⟩⟩

theorem tiles_flatten_of_splitByPower (valid : network.Valid)
    (parted : network.splitByPower first = .ok parts) {pieces : List (List Network)}
    (split : parts.mapM (·.splitByPower second) = .ok pieces) :
    Tiles network (first + second) pieces.flatten := by
  have tiles := valid.tiles_of_splitByPower parted
  have related := mapM_eq_ok_iff.mp split
  refine tiles.flatten (forall₂_iff_getElem?.mpr ⟨related.length_eq, ?_⟩)
  intro place part row partFound rowFound
  have accepted := (forall₂_iff_getElem?.mp related).2 place part row partFound rowFound
  have partValid := tiles.valid_of_mem valid (List.mem_of_getElem? partFound)
  exact partValid.tiles_of_splitByPower accepted

theorem exists_splitByPower_add_iff (valid : network.Valid) (firstPositive : 1 ≤ first)
    (secondPositive : 1 ≤ second) (bounded : first + second ≤ 30) :
    (∃ blocks, network.splitByPower (first + second) = .ok blocks) ↔
      ∃ parts, network.splitByPower first = .ok parts ∧
        ∀ part ∈ parts, ∃ pieces, part.splitByPower second = .ok pieces := by
  constructor
  · intro accepted
    obtain ⟨_, _, fits⟩ := exists_splitByPower_eq_ok_iff.mp accepted
    have parted : network.splitByPower first = .ok _ :=
      splitByPower_eq_ok firstPositive (by omega) (by omega)
    refine ⟨_, parted, fun part member => ?_⟩
    exact (splitByPower_isOk_of_mem valid parted secondPositive (by omega) member).mpr fits
  · intro staged
    obtain ⟨parts, parted, split⟩ := staged
    have nonempty := (valid.tiles_of_splitByPower parted).ne_nil
    obtain ⟨part, member⟩ := List.exists_mem_of_ne_nil parts nonempty
    have fits := (splitByPower_isOk_of_mem valid parted secondPositive (by omega) member).mp
      (split part member)
    exact exists_splitByPower_eq_ok_iff.mpr ⟨by omega, bounded, fits⟩

end

/-- Splitting by a sum is splitting the blocks of the first split, which gives the same networks in
the same order. -/
theorem splitByPower_add {network : Network} {first second : Nat} (valid : network.Valid)
    (firstPositive : 1 ≤ first) (secondPositive : 1 ≤ second) (bounded : first + second ≤ 30) :
    ((∃ blocks, network.splitByPower (first + second) = .ok blocks) ↔
      ∃ parts, network.splitByPower first = .ok parts ∧
        ∀ part ∈ parts, ∃ pieces, part.splitByPower second = .ok pieces) ∧
    ∀ blocks, network.splitByPower (first + second) = .ok blocks →
      ∃ parts pieces, network.splitByPower first = .ok parts ∧
        parts.mapM (·.splitByPower second) = .ok pieces ∧
        List.Forall₂ (· ≈ ·) blocks pieces.flatten := by
  have accepted_iff :=
    exists_splitByPower_add_iff valid firstPositive secondPositive bounded
  refine ⟨accepted_iff, fun blocks accepted => ?_⟩
  obtain ⟨parts, parted, partsSplit⟩ := accepted_iff.mp ⟨blocks, accepted⟩
  obtain ⟨pieces, split⟩ := exists_mapM_eq_ok partsSplit
  refine ⟨parts, pieces, parted, split, ?_⟩
  have tiles := valid.tiles_of_splitByPower accepted
  have flatTiles := tiles_flatten_of_splitByPower valid parted split
  exact tiles.row.forall₂_equiv flatTiles.row (tiles.length_eq.trans flatTiles.length_eq.symm)

/-- The upper half of the IPv4 space in two stages. The last block of each chain ends the space. -/
theorem splitByPower_add_upperHalf :
    (⟨.v4 0x80000000, 1⟩ : Network).Valid ∧
      ∃ blocks parts pieces, splitByPower ⟨.v4 0x80000000, 1⟩ 30 = .ok blocks ∧
        splitByPower ⟨.v4 0x80000000, 1⟩ 13 = .ok parts ∧
        parts.mapM (·.splitByPower 17) = .ok pieces ∧
        List.Forall₂ (· ≈ ·) blocks pieces.flatten := by
  have valid : (⟨.v4 0x80000000, 1⟩ : Network).Valid := by decide
  have accepted : splitByPower ⟨.v4 0x80000000, 1⟩ (13 + 17) = .ok _ :=
    splitByPower_eq_ok (by decide) (by decide) (by decide)
  obtain ⟨parts, pieces, parted, split, same⟩ :=
    (splitByPower_add valid (by decide) (by decide) (by decide)).2 _ accepted
  exact ⟨valid, _, parts, pieces, accepted, parted, split, same⟩

-- The blocks agree up to marks only: `::1:0:0/97` is marked by the block before it in one chain, and
-- starts a chain of its own in two stages.
example :
    splitByPower ⟨.v6 0 false, 95⟩ 2 =
        .ok [⟨.v6 0 false, 97⟩, ⟨.v6 (1 <<< 31) true, 97⟩, ⟨.v6 (1 <<< 32) true, 97⟩,
          ⟨.v6 (3 <<< 31) true, 97⟩] ∧
      splitByPower ⟨.v6 (1 <<< 32) false, 96⟩ 1 =
        .ok [⟨.v6 (1 <<< 32) false, 97⟩, ⟨.v6 (3 <<< 31) false, 97⟩] := by decide

/-!
### Merges
-/

/-- The last network of all is that of the last row. -/
theorem getLast?_mark_flatten {rows : List (List Network)} {supernets : List Network}
    (marks : List.Forall₂ (fun supernet row =>
      row.getLast?.map (·.base.mark) = some supernet.base.mark) supernets rows) :
    rows.flatten.getLast?.map (·.base.mark) = supernets.getLast?.map (·.base.mark) := by
  induction marks with
  | nil => rfl
  | @cons supernet row supernets rows mark_eq _ ih =>
      rw [List.flatten_cons, List.getLast?_append, List.getLast?_cons]
      cases found : supernets.getLast? with
      | none =>
          rw [found, Option.map_none, Option.map_eq_none_iff] at ih
          rw [ih, Option.none_or]
          exact mark_eq
      | some last =>
          rw [found, Option.map_some] at ih
          obtain ⟨lastNetwork, lastFound, last_eq⟩ := Option.map_eq_some_iff.mp ih
          rw [lastFound, Option.some_or]
          exact congrArg some last_eq

section

variable {rows : List (List Network)} {merged : Network} {power runPower : Nat}
  (valid : ∀ network ∈ rows.flatten, network.Valid)
  (sameLength : ∀ row ∈ rows, row.length = 2 ^ runPower) (positive : 1 ≤ runPower)

include valid sameLength positive

/-- What the merges of the rows keep of them. -/
theorem forall₂_of_mapM_merge {supernets : List Network}
    (merges : rows.mapM merge = .ok supernets) :
    List.Forall₂ (fun supernet row => Tiles supernet runPower row ∧ supernet.Valid ∧
      row.getLast?.map (·.base.mark) = some supernet.base.mark) supernets rows := by
  have related := mapM_eq_ok_iff.mp merges
  refine forall₂_iff_getElem?.mpr ⟨related.length_eq.symm, ?_⟩
  intro place supernet row found rowFound
  have member := List.mem_of_getElem? rowFound
  have rowValid : ∀ network ∈ row, network.Valid := fun network inRow =>
    valid network (List.mem_flatten_of_mem member inRow)
  have accepted := (forall₂_iff_getElem?.mp related).2 place row supernet rowFound found
  obtain ⟨tiles, supernetValid, _, last⟩ :=
    (merge_eq_ok_iff_tiles_of_length_eq rowValid (sameLength row member) positive).mp accepted
  exact ⟨tiles, supernetValid, last⟩

/-- Rows that can be merged one by one can be replaced by their merges. -/
theorem merge_flatten_eq_ok_iff {supernets : List Network}
    (merges : rows.mapM merge = .ok supernets) (length_eq : rows.length = 2 ^ power)
    (powerPositive : 1 ≤ power) :
    merge rows.flatten = .ok merged ↔ merge supernets = .ok merged := by
  have related := forall₂_of_mapM_merge valid sameLength positive merges
  have tiled : List.Forall₂ (Tiles · runPower) supernets rows :=
    related.imp fun _ _ facts => facts.1
  have marks := getLast?_mark_flatten (related.imp fun _ _ facts => facts.2.2)
  have supernets_length : supernets.length = 2 ^ power := related.length_eq.trans length_eq
  have supernetsValid : ∀ supernet ∈ supernets, supernet.Valid := by
    intro supernet member
    obtain ⟨place, found⟩ := List.getElem?_of_mem member
    obtain ⟨_, _, _, supernetValid, _⟩ := exists_getElem?_of_forall₂ related found
    exact supernetValid
  have flatten_length : rows.flatten.length = 2 ^ (power + runPower) := by
    rw [length_flatten_of_length_eq sameLength, length_eq, Nat.pow_add]
  have tiles_iff : Tiles merged (power + runPower) rows.flatten ↔ Tiles merged power supernets :=
    ⟨fun flatTiles => flatTiles.of_flatten tiled supernets_length,
      fun tiles => tiles.flatten tiled⟩
  rw [merge_eq_ok_iff_tiles_of_length_eq valid flatten_length (by omega),
    merge_eq_ok_iff_tiles_of_length_eq supernetsValid supernets_length powerPositive, marks,
    tiles_iff]

/-- If all rows together merge, then so does each of them. -/
theorem exists_mapM_merge_eq_ok (accepted : merge rows.flatten = .ok merged)
    (length_eq : rows.length = 2 ^ power) :
    ∃ supernets, rows.mapM merge = .ok supernets := by
  have flatten_length : rows.flatten.length = 2 ^ (power + runPower) := by
    rw [length_flatten_of_length_eq sameLength, length_eq, Nat.pow_add]
  obtain ⟨flatTiles, mergedValid, positivePrefix, _⟩ :=
    (merge_eq_ok_iff_tiles_of_length_eq valid flatten_length (by omega)).mp accepted
  have fits := flatTiles.fits
  have tiles : Tiles merged power _ := mergedValid.tiles_chain (by omega)
  have tiled := tiles.forall₂_of_flatten flatTiles sameLength length_eq
  refine exists_mapM_eq_ok fun row member => ?_
  obtain ⟨place, found⟩ := List.getElem?_of_mem member
  obtain ⟨part, partFound, partTiles⟩ := exists_getElem?_of_forall₂ tiled.flip found
  have partMember := List.mem_of_getElem? partFound
  have prefixLen_eq := tiles.prefixLen_eq partMember
  have partValid := tiles.valid_of_mem mergedValid partMember
  obtain ⟨_, _, rowAccepted⟩ := partTiles.merge_eq_ok partValid positive (by omega)
  exact ⟨_, rowAccepted⟩

end

/-- Merging the runs of a list, and then what they merge to, gives what the list merges to, mark
included. -/
theorem merge_runs {networks : List Network} {power runPower : Nat}
    (valid : ∀ network ∈ networks, network.Valid) (length_eq : networks.length = 2 ^ power)
    (positive : 1 ≤ runPower) (shorter : runPower < power) :
    (runs (2 ^ runPower) (2 ^ (power - runPower)) networks).flatten = networks ∧
    (∀ run ∈ runs (2 ^ runPower) (2 ^ (power - runPower)) networks, run.length = 2 ^ runPower) ∧
    ∀ merged, merge networks = .ok merged ↔
      ∃ supernets, (runs (2 ^ runPower) (2 ^ (power - runPower)) networks).mapM merge =
        .ok supernets ∧ merge supernets = .ok merged := by
  have cut_length : networks.length = 2 ^ (power - runPower) * 2 ^ runPower := by
    rw [length_eq, ← Nat.pow_add, Nat.sub_add_cancel shorter.le]
  have flatten_eq := flatten_runs cut_length
  have sameLength : ∀ run ∈ runs (2 ^ runPower) (2 ^ (power - runPower)) networks,
      run.length = 2 ^ runPower := fun _ member => length_of_mem_runs cut_length member
  refine ⟨flatten_eq, sameLength, fun merged => ?_⟩
  have runsLength := length_runs (2 ^ runPower) (2 ^ (power - runPower)) networks
  rw [← flatten_eq] at valid
  constructor
  · intro accepted
    rw [← flatten_eq] at accepted
    obtain ⟨supernets, merges⟩ :=
      exists_mapM_merge_eq_ok valid sameLength positive accepted runsLength
    exact ⟨supernets, merges, (merge_flatten_eq_ok_iff valid sameLength positive merges runsLength
      (by omega)).mp accepted⟩
  · intro staged
    obtain ⟨supernets, merges, accepted⟩ := staged
    rw [← flatten_eq]
    exact (merge_flatten_eq_ok_iff valid sameLength positive merges runsLength (by omega)).mpr
      accepted

/-- Quarters of `::/95`. Its lower half is marked by them and its upper half is not. -/
private def unevenQuarters : List Network :=
  [⟨.v6 0 false, 97⟩, ⟨.v6 (1 <<< 31) true, 97⟩, ⟨.v6 (1 <<< 32) true, 97⟩,
    ⟨.v6 (3 <<< 31) false, 97⟩]

/-- The mark of the lower half is gone after the second stage, as it is when all four are merged. -/
theorem merge_runs_quarters :
    (∀ network ∈ unevenQuarters, network.Valid) ∧
      merge unevenQuarters = .ok ⟨.v6 0 false, 95⟩ ∧
      ∃ supernets, (runs (2 ^ 1) (2 ^ (2 - 1)) unevenQuarters).mapM merge = .ok supernets ∧
        merge supernets = .ok ⟨.v6 0 false, 95⟩ := by
  have valid : ∀ network ∈ unevenQuarters, network.Valid := by decide
  have accepted : merge unevenQuarters = .ok ⟨.v6 0 false, 95⟩ := by decide
  have positive : 1 ≤ 1 := by decide
  have shorter : 1 < 2 := by decide
  have staged := (merge_runs valid rfl positive shorter).2.2 ⟨.v6 0 false, 95⟩
  exact ⟨valid, accepted, staged.mp accepted⟩

end Netblock.Network
