import Netblock.Proofs.Tiling
/-!
# Tilings of tilings

A row of blocks is tiled by tiling each of them: the blocks of the blocks, one after another, are
a tiling of the whole. Cutting a tiling into runs of equal length goes the other way.
-/

set_option autoImplicit false

namespace Netblock

section

variable {α : Type}

/-- The first `count` runs of `size` consecutive elements. -/
def runs (size : Nat) : Nat → List α → List (List α)
  | 0, _ => []
  | count + 1, elements => elements.take size :: runs size count (elements.drop size)

@[simp]
theorem length_runs (size count : Nat) (elements : List α) :
    (runs size count elements).length = count := by
  induction count generalizing elements with
  | zero => rfl
  | succ count ih => rw [runs, List.length_cons, ih]

theorem flatten_runs {size count : Nat} {elements : List α}
    (length_eq : elements.length = count * size) :
    (runs size count elements).flatten = elements := by
  induction count generalizing elements with
  | zero =>
      rw [Nat.zero_mul] at length_eq
      exact (List.length_eq_zero_iff.mp length_eq).symm
  | succ count ih =>
      have rest_length : (elements.drop size).length = count * size := by
        rw [List.length_drop, length_eq, Nat.succ_mul, Nat.add_sub_cancel]
      rw [runs, List.flatten_cons, ih rest_length, List.take_append_drop]

theorem length_of_mem_runs {size count : Nat} {elements run : List α}
    (length_eq : elements.length = count * size) (member : run ∈ runs size count elements) :
    run.length = size := by
  induction count generalizing elements with
  | zero => cases member
  | succ count ih =>
      rw [Nat.succ_mul] at length_eq
      rcases List.mem_cons.mp member with rfl | later
      · rw [List.length_take]
        omega
      · refine ih ?_ later
        rw [List.length_drop, length_eq, Nat.add_sub_cancel]

theorem forall₂_iff_getElem? {β : Type} {relation : α → β → Prop} {left : List α}
    {right : List β} :
    List.Forall₂ relation left right ↔ left.length = right.length ∧
      ∀ (place : Nat) (first : α) (second : β), left[place]? = some first →
        right[place]? = some second → relation first second := by
  rw [List.forall₂_iff_get]
  refine and_congr_right fun sameLength => ⟨?_, ?_⟩
  · intro related place first second found otherFound
    obtain ⟨inRange, rfl⟩ := List.getElem?_eq_some_iff.mp found
    obtain ⟨otherInRange, rfl⟩ := List.getElem?_eq_some_iff.mp otherFound
    exact related place inRange otherInRange
  · intro related place inRange otherInRange
    exact related place _ _ (List.getElem?_eq_getElem inRange)
      (List.getElem?_eq_getElem otherInRange)

theorem exists_getElem?_of_forall₂ {β : Type} {relation : α → β → Prop} {left : List α}
    {right : List β} (related : List.Forall₂ relation left right) {place : Nat} {first : α}
    (found : left[place]? = some first) :
    ∃ second, right[place]? = some second ∧ relation first second := by
  obtain ⟨sameLength, related⟩ := forall₂_iff_getElem?.mp related
  have inRange : place < right.length := by
    rw [← sameLength]
    exact (List.getElem?_eq_some_iff.mp found).1
  have otherFound := List.getElem?_eq_getElem inRange
  exact ⟨_, otherFound, related place first _ found otherFound⟩

variable {size : Nat} {rows : List (List α)}

theorem length_flatten_of_length_eq (sameLength : ∀ row ∈ rows, row.length = size) :
    rows.flatten.length = rows.length * size := by
  rw [List.length_flatten, List.map_congr_left sameLength, List.map_const', List.sum_replicate_nat]

/-- Rows of one length are found in their concatenation by quotient and remainder. -/
theorem getElem?_flatten_of_length_eq (sameLength : ∀ row ∈ rows, row.length = size)
    {place offset : Nat} (offset_lt : offset < size) :
    rows.flatten[place * size + offset]? = rows[place]?.bind fun row => row[offset]? := by
  induction rows generalizing place with
  | nil => simp
  | cons row rows ih =>
      have row_length := sameLength row List.mem_cons_self
      rw [List.flatten_cons]
      cases place with
      | zero =>
          rw [Nat.zero_mul, Nat.zero_add, List.getElem?_append_left (by omega)]
          rfl
      | succ place =>
          have rest : rows.flatten[place * size + offset]? =
              rows[place]?.bind fun row => row[offset]? :=
            ih fun row member => sameLength row (List.mem_cons_of_mem _ member)
          rw [Nat.succ_mul, List.getElem?_append_right (by omega), row_length,
            List.getElem?_cons_succ, ← rest]
          congr 1
          omega

end

namespace Network

theorem firstBlock_firstBlock (whole : Network) (power innerPower : Nat) :
    (whole.firstBlock power).firstBlock innerPower = whole.firstBlock (power + innerPower) := by
  rw [firstBlock, firstBlock, firstBlock, Nat.add_assoc]

/-- A block stands in the finer row at its place in the coarser one, times the number of fine
blocks in a coarse one. -/
theorem isBlockAt_firstBlock_iff {first block : Network} {place power : Nat}
    (fits : first.prefixLen + power ≤ first.width) :
    (first.firstBlock power).IsBlockAt (place * 2 ^ power) (block.firstBlock power) ↔
      first.IsBlockAt place block := by
  have coarse : first.base.toNat + place * 2 ^ power * (first.firstBlock power).size =
      first.base.toNat + place * first.size := by
    rw [size_eq_mul_firstBlock fits, Nat.mul_assoc]
  constructor
  · intro located
    exact ⟨located.family_eq, Nat.add_right_cancel located.prefixLen_eq,
      located.base_eq.trans coarse⟩
  · intro located
    exact ⟨located.family_eq, congrArg (· + power) located.prefixLen_eq,
      located.base_eq.trans coarse.symm⟩

variable {whole : Network} {power innerPower : Nat} {parts : List Network}
  {rows : List (List Network)}

/-- A block of a coarser row starts a run of the finer one. -/
theorem isBlockAt_firstBlock_add_iff (fits : whole.prefixLen + (power + innerPower) ≤ whole.width)
    {place : Nat} {part : Network} :
    (whole.firstBlock (power + innerPower)).IsBlockAt (place * 2 ^ innerPower)
        (part.firstBlock innerPower) ↔
      (whole.firstBlock power).IsBlockAt place part := by
  have partFits : whole.prefixLen + power + innerPower ≤ whole.width := by omega
  rw [← firstBlock_firstBlock]
  exact isBlockAt_firstBlock_iff partFits

section

variable (tiled : List.Forall₂ (Tiles · innerPower) parts rows)

include tiled

theorem length_eq_of_tiled : ∀ row ∈ rows, row.length = 2 ^ innerPower := by
  intro row member
  obtain ⟨place, found⟩ := List.getElem?_of_mem member
  obtain ⟨_, _, rowTiles⟩ := exists_getElem?_of_forall₂ tiled.flip found
  exact rowTiles.length_eq

/-- One tiling of each block of a tiling makes up a tiling of the whole. -/
theorem Tiles.flatten (tiles : Tiles whole power parts) :
    Tiles whole (power + innerPower) rows.flatten := by
  have sameLength := length_eq_of_tiled tiled
  have fits : whole.prefixLen + (power + innerPower) ≤ whole.width := by
    obtain ⟨part, member⟩ := List.exists_mem_of_ne_nil parts tiles.ne_nil
    obtain ⟨place, found⟩ := List.getElem?_of_mem member
    obtain ⟨_, _, partTiles⟩ := exists_getElem?_of_forall₂ tiled found
    have partFits := partTiles.fits
    rw [tiles.prefixLen_eq member, tiles.width_eq member, Nat.add_assoc] at partFits
    exact partFits
  refine ⟨fits, ?_, isRow_iff_getElem?.mpr fun index block found => ?_⟩
  · rw [length_flatten_of_length_eq sameLength, ← tiled.length_eq, tiles.length_eq, Nat.pow_add]
  · have positive := Nat.two_pow_pos innerPower
    rw [← Nat.div_add_mod' index (2 ^ innerPower),
      getElem?_flatten_of_length_eq sameLength (Nat.mod_lt index positive)] at found
    obtain ⟨row, rowFound, blockFound⟩ := Option.bind_eq_some_iff.mp found
    obtain ⟨part, partFound, partTiles⟩ := exists_getElem?_of_forall₂ tiled.flip rowFound
    have located := isRow_iff_getElem?.mp tiles.row _ part partFound
    have inPart := isRow_iff_getElem?.mp partTiles.row _ block blockFound
    have inWhole := ((isBlockAt_firstBlock_add_iff fits).mpr located).add inPart
    rwa [Nat.div_add_mod'] at inWhole

/-- Blocks whose tilings make up a tiling are a tiling themselves. -/
theorem Tiles.of_flatten (flatTiles : Tiles whole (power + innerPower) rows.flatten)
    (length_eq : parts.length = 2 ^ power) : Tiles whole power parts := by
  have sameLength := length_eq_of_tiled tiled
  have fits := flatTiles.fits
  have coarseFits : whole.prefixLen + power ≤ whole.width := by omega
  refine ⟨coarseFits, length_eq, isRow_iff_getElem?.mpr fun place part found => ?_⟩
  obtain ⟨row, rowFound, partTiles⟩ := exists_getElem?_of_forall₂ tiled found
  have nonempty := List.length_pos_iff.mpr partTiles.ne_nil
  have firstFound := List.getElem?_eq_getElem nonempty
  have flatFound : rows.flatten[place * 2 ^ innerPower + 0]? = some row[0] := by
    rw [getElem?_flatten_of_length_eq sameLength (Nat.two_pow_pos innerPower), rowFound]
    exact firstFound
  -- The first block of the run stands where the part does.
  have inWhole := isRow_iff_getElem?.mp flatTiles.row _ _ flatFound
  have inPart := isRow_iff_getElem?.mp partTiles.row 0 _ firstFound
  have same := inPart.equiv (.zero _)
  exact (isBlockAt_firstBlock_add_iff fits).mp (inWhole.congr same)

end

/-- The runs of a tiling tile the blocks of a coarser one. -/
theorem Tiles.forall₂_of_flatten (tiles : Tiles whole power parts)
    (flatTiles : Tiles whole (power + innerPower) rows.flatten)
    (sameLength : ∀ row ∈ rows, row.length = 2 ^ innerPower)
    (length_eq : rows.length = 2 ^ power) :
    List.Forall₂ (Tiles · innerPower) parts rows := by
  refine forall₂_iff_getElem?.mpr ⟨tiles.length_eq.trans length_eq.symm, ?_⟩
  intro place part row partFound rowFound
  have located := isRow_iff_getElem?.mp tiles.row place part partFound
  have member := List.mem_of_getElem? partFound
  have row_length := sameLength row (List.mem_of_getElem? rowFound)
  have fits := flatTiles.fits
  have partFits : part.prefixLen + innerPower ≤ part.width := by
    rw [tiles.prefixLen_eq member, tiles.width_eq member, Nat.add_assoc]
    exact fits
  refine ⟨partFits, row_length, isRow_iff_getElem?.mpr ?_⟩
  intro offset block found
  have offset_lt : offset < 2 ^ innerPower := by
    rw [← row_length]
    exact (List.getElem?_eq_some_iff.mp found).1
  have flatFound : rows.flatten[place * 2 ^ innerPower + offset]? = some block := by
    rw [getElem?_flatten_of_length_eq sameLength offset_lt, rowFound]
    exact found
  have inWhole := isRow_iff_getElem?.mp flatTiles.row _ block flatFound
  exact ((isBlockAt_firstBlock_add_iff fits).mpr located).sub inWhole

end Network

end Netblock
