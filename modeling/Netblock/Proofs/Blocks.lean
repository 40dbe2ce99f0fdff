import Mathlib.Data.List.Chain
import Mathlib.Data.List.Forall2
import Netblock.Network.Split
import Netblock.Proofs.Bounds
/-!
# Rows of blocks

A row is a list of equal blocks without gaps. Both the blocks of a chain and the lists in which
each network is followed by the next one are rows, so that the place of every member follows
from its index.
-/

set_option autoImplicit false

namespace Netblock.Network

/-- The block at a distance of `index` blocks above the first one of a row. -/
structure IsBlockAt (first : Network) (index : Nat) (block : Network) : Prop where
  family_eq : block.family = first.family
  prefixLen_eq : block.prefixLen = first.prefixLen
  base_eq : block.base.toNat = first.base.toNat + index * first.size

def IsRow (first : Network) (blocks : List Network) : Prop :=
  ∀ index (inRange : index < blocks.length), first.IsBlockAt index blocks[index]

theorem isRow_iff_getElem? {first : Network} {blocks : List Network} :
    first.IsRow blocks ↔
      ∀ index block, blocks[index]? = some block → first.IsBlockAt index block := by
  constructor
  · intro row index block found
    obtain ⟨inRange, rfl⟩ := List.getElem?_eq_some_iff.mp found
    exact row index inRange
  · intro located index inRange
    exact located index _ (List.getElem?_eq_getElem inRange)

namespace IsBlockAt

variable {first block : Network} {index : Nat}

theorem width_eq (located : first.IsBlockAt index block) : block.width = first.width :=
  congrArg Family.width located.family_eq

theorem size_eq (located : first.IsBlockAt index block) : block.size = first.size := by
  rw [size, size, hostBits, hostBits, located.width_eq, located.prefixLen_eq]

theorem zero (first : Network) : first.IsBlockAt 0 first :=
  ⟨rfl, rfl, by rw [Nat.zero_mul, Nat.add_zero]⟩

theorem add {next : Network} {distance : Nat} (located : first.IsBlockAt index block)
    (following : block.IsBlockAt distance next) : first.IsBlockAt (index + distance) next where
  family_eq := following.family_eq.trans located.family_eq
  prefixLen_eq := following.prefixLen_eq.trans located.prefixLen_eq
  base_eq := by
    rw [following.base_eq, located.base_eq, located.size_eq, Nat.add_mul, Nat.add_assoc]

/-- The distance of two blocks of a row is that of their indices. -/
theorem sub {next : Network} {distance : Nat} (located : first.IsBlockAt index block)
    (following : first.IsBlockAt (index + distance) next) : block.IsBlockAt distance next where
  family_eq := following.family_eq.trans located.family_eq.symm
  prefixLen_eq := following.prefixLen_eq.trans located.prefixLen_eq.symm
  base_eq := by
    rw [following.base_eq, located.base_eq, located.size_eq, Nat.add_mul, Nat.add_assoc]

theorem equiv {other : Network} (located : first.IsBlockAt index block)
    (otherLocated : first.IsBlockAt index other) : block ≈ other := by
  refine ⟨⟨?_, ?_⟩, ?_⟩
  · exact located.family_eq.trans otherLocated.family_eq.symm
  · exact located.base_eq.trans otherLocated.base_eq.symm
  · exact located.prefixLen_eq.trans otherLocated.prefixLen_eq.symm

theorem congr {other : Network} (located : first.IsBlockAt index block)
    (same : block ≈ other) : first.IsBlockAt index other where
  family_eq := same.1.1.symm.trans located.family_eq
  prefixLen_eq := same.2.symm.trans located.prefixLen_eq
  base_eq := same.1.2.symm.trans located.base_eq

theorem of_equiv {other : Network} (located : first.IsBlockAt index block)
    (same : other ≈ first) : other.IsBlockAt index block := by
  have shifted := ((zero other).congr same).add located
  rwa [Nat.zero_add] at shifted

theorem first_equiv {other : Network} (located : first.IsBlockAt index block)
    (otherLocated : other.IsBlockAt index block) : first ≈ other := by
  have sameFamily := located.family_eq.symm.trans otherLocated.family_eq
  have samePrefix := located.prefixLen_eq.symm.trans otherLocated.prefixLen_eq
  have sameEnd := located.base_eq.symm.trans otherLocated.base_eq
  have sameSize := located.size_eq.symm.trans otherLocated.size_eq
  refine ⟨⟨sameFamily, ?_⟩, samePrefix⟩
  rw [sameSize] at sameEnd
  exact Nat.add_right_cancel sameEnd

theorem valid (located : first.IsBlockAt index block) (firstValid : first.Valid) :
    block.Valid where
  prefixLen_le := by
    rw [located.prefixLen_eq, located.width_eq]
    exact firstValid.prefixLen_le
  aligned := by
    have divides : block.size ∣ block.base.toNat := by
      rw [located.size_eq, located.base_eq]
      exact Nat.dvd_add firstValid.size_dvd_base (Nat.dvd_mul_left _ _)
    exact Nat.mod_eq_zero_of_dvd divides

theorem first_valid (located : first.IsBlockAt index block) (blockValid : block.Valid) :
    first.Valid where
  prefixLen_le := by
    rw [← located.prefixLen_eq, ← located.width_eq]
    exact blockValid.prefixLen_le
  aligned := by
    have divides : first.size ∣ first.base.toNat + index * first.size := by
      rw [← located.base_eq, ← located.size_eq]
      exact blockValid.size_dvd_base
    exact Nat.mod_eq_zero_of_dvd ((Nat.dvd_add_iff_left (Nat.dvd_mul_left _ _)).mpr divides)

/-- A block covers the addresses for which division by its size gives its index. -/
theorem covers_iff {address : Address} (located : first.IsBlockAt index block)
    (firstValid : first.Valid) :
    block.Covers address ↔
      address.family = first.family ∧ first.base.toNat ≤ address.toNat ∧
        (address.toNat - first.base.toNat) / first.size = index := by
  have positive := first.size_pos
  rw [Network.covers_iff (located.valid firstValid), located.family_eq, located.base_eq,
    located.size_eq, Nat.div_eq_iff positive]
  constructor
  · intro inside
    exact ⟨inside.1, by omega, by omega⟩
  · intro inside
    exact ⟨inside.1, by omega, by omega⟩

end IsBlockAt

theorem nextBlock?_eq_some_iff {network next : Network} :
    network.nextBlock? = some next ↔
      network.base.toNat + network.size < 2 ^ network.width ∧
        next = ⟨network.base.withValue (network.base.toNat + network.size),
          network.prefixLen⟩ := by
  unfold nextBlock?
  by_cases room : network.base.toNat + network.size < 2 ^ network.width
  · simp [room, eq_comm]
  · simp [room]

theorem previousBlock?_eq_some_iff {network previous : Network} :
    network.previousBlock? = some previous ↔
      network.size ≤ network.base.toNat ∧
        previous = ⟨network.base.withValue (network.base.toNat - network.size),
          network.prefixLen⟩ := by
  unfold previousBlock?
  by_cases room : network.size ≤ network.base.toNat
  · simp [room, eq_comm]
  · simp [room]

theorem isBlockAt_one_of_nextBlock? {network next : Network}
    (found : network.nextBlock? = some next) : network.IsBlockAt 1 next := by
  obtain ⟨room, rfl⟩ := nextBlock?_eq_some_iff.mp found
  refine ⟨Address.family_withValue _ _, rfl, ?_⟩
  rw [Nat.one_mul]
  exact Address.toNat_withValue room

theorem isBlockAt_one_of_previousBlock? {network previous : Network}
    (found : network.previousBlock? = some previous) : previous.IsBlockAt 1 network := by
  obtain ⟨room, rfl⟩ := previousBlock?_eq_some_iff.mp found
  have below : network.base.toNat < 2 ^ network.base.width := network.base.toNat_lt
  have fits : network.base.toNat - network.size < 2 ^ network.base.width :=
    Nat.lt_of_le_of_lt (Nat.sub_le _ _) below
  constructor
  case family_eq => exact (Address.family_withValue _ _).symm
  case prefixLen_eq => rfl
  case base_eq =>
    have size_eq : size ⟨network.base.withValue (network.base.toNat - network.size),
        network.prefixLen⟩ = network.size := by
      simp only [size, hostBits, width, Address.width_withValue]
    rw [size_eq, Nat.one_mul, Address.toNat_withValue fits, Nat.sub_add_cancel room]

theorem nextBlock?_valid {network next : Network} (valid : network.Valid)
    (found : network.nextBlock? = some next) : next.Valid :=
  (isBlockAt_one_of_nextBlock? found).valid valid

theorem previousBlock?_valid {network previous : Network} (valid : network.Valid)
    (found : network.previousBlock? = some previous) : previous.Valid :=
  (isBlockAt_one_of_previousBlock? found).first_valid valid

/-- A mark is handed on to the next block. -/
theorem mark_of_nextBlock? {network next : Network} (found : network.nextBlock? = some next)
    (marked : network.base.mark = true) : next.base.mark = true := by
  obtain ⟨_, rfl⟩ := nextBlock?_eq_some_iff.mp found
  simp [Address.mark_withValue, marked]

theorem isFollowedBy_iff {network following : Network} :
    network.IsFollowedBy following ↔ network.IsBlockAt 1 following := by
  constructor
  · intro followed
    obtain ⟨block, found, same⟩ := followed
    exact (isBlockAt_one_of_nextBlock? found).congr same
  · intro located
    -- A network that starts where the next block would proves that there is room for one.
    have below : following.base.toNat < 2 ^ following.width := following.base.toNat_lt
    have room : network.base.toNat + network.size < 2 ^ network.width := by
      rw [← located.width_eq]
      calc network.base.toNat + network.size
          = following.base.toNat := by rw [located.base_eq, Nat.one_mul]
        _ < 2 ^ following.width := below
    have found := nextBlock?_eq_some_iff.mpr ⟨room, rfl⟩
    exact ⟨_, found, (isBlockAt_one_of_nextBlock? found).equiv located⟩

theorem isChain_isFollowedBy_iff {first : Network} {rest : List Network} :
    (first :: rest).IsChain IsFollowedBy ↔ first.IsRow (first :: rest) := by
  rw [List.isChain_iff_getElem]
  constructor
  · intro followed index inRange
    induction index with
    | zero => exact .zero first
    | succ index ih =>
        have located := ih (by omega)
        exact located.add (isFollowedBy_iff.mp (followed index inRange))
  · intro row index inRange
    have located := row index (by omega)
    exact isFollowedBy_iff.mpr (located.sub (row (index + 1) inRange))

theorem isChain_chain (count : Nat) (first : Network) :
    (chain count first).IsChain fun block next => block.nextBlock? = some next := by
  induction count generalizing first with
  | zero => exact .nil
  | succ count ih =>
      rw [chain_succ]
      cases found : first.nextBlock? with
      | none => exact .singleton _
      | some next =>
          cases count with
          | zero => exact .singleton _
          | succ count =>
              have chained := ih next
              rw [chain_succ] at chained
              simp only [Option.map_some, Option.getD_some, chain_succ]
              exact .cons_cons found chained

theorem isRow_chain (count : Nat) (first : Network) : first.IsRow (chain count first) := by
  cases count with
  | zero =>
      intro index inRange
      exact absurd inRange (Nat.not_lt_zero index)
  | succ count =>
      have chained := isChain_chain (count + 1) first
      rw [chain_succ] at chained ⊢
      exact isChain_isFollowedBy_iff.mp
        (chained.imp fun _ next found => ⟨next, found, Setoid.refl next⟩)

/-- A chain is as long as asked for when the address space has room for all of its blocks. The
last of them may end the space. -/
theorem length_chain {count : Nat} {first : Network}
    (room : first.base.toNat + count * first.size ≤ 2 ^ first.width) :
    (chain count first).length = count := by
  induction count generalizing first with
  | zero => rfl
  | succ count ih =>
      rw [chain_succ]
      rw [Nat.succ_mul] at room
      cases found : first.nextBlock? with
      | none =>
          have ended : ¬ first.base.toNat + first.size < 2 ^ first.width := by
            intro roomForNext
            rw [nextBlock?_eq_some_iff.mpr ⟨roomForNext, rfl⟩] at found
            cases found
          have noneLeft : count * first.size = 0 := by omega
          have count_eq : count = 0 :=
            (Nat.mul_eq_zero.mp noneLeft).resolve_right first.size_pos.ne'
          rw [count_eq]
          rfl
      | some next =>
          have located := isBlockAt_one_of_nextBlock? found
          have nextBase : next.base.toNat = first.base.toNat + 1 * first.size :=
            located.base_eq
          have roomFromNext : next.base.toNat + count * next.size ≤ 2 ^ next.width := by
            rw [located.size_eq, located.width_eq]
            omega
          simp [ih roomFromNext]

theorem mark_of_mem_chain {count : Nat} {first block : Network}
    (marked : first.base.mark = true) (member : block ∈ chain count first) :
    block.base.mark = true := by
  induction count generalizing first with
  | zero => cases member
  | succ count ih =>
      rw [chain_succ] at member
      rcases List.mem_cons.mp member with rfl | later
      · exact marked
      · cases found : first.nextBlock? with
        | none => simp [found] at later
        | some next =>
            simp only [found, Option.map_some, Option.getD_some] at later
            exact ih (mark_of_nextBlock? found marked) later

namespace IsRow

variable {first : Network} {blocks : List Network}

theorem valid (row : first.IsRow blocks) (firstValid : first.Valid) :
    ∀ block ∈ blocks, block.Valid := by
  intro block member
  obtain ⟨index, inRange, rfl⟩ := List.getElem_of_mem member
  exact (row index inRange).valid firstValid

theorem of_equiv {other : Network} (row : first.IsRow blocks) (same : other ≈ first) :
    other.IsRow blocks := by
  intro index inRange
  exact (row index inRange).of_equiv same

theorem congr {others : List Network} (row : first.IsRow blocks)
    (same : List.Forall₂ (· ≈ ·) blocks others) : first.IsRow others := by
  intro index inRange
  have blockInRange : index < blocks.length := by rwa [same.length_eq]
  exact (row index blockInRange).congr (same.get blockInRange inRange)

theorem pairwise_lt (row : first.IsRow blocks) : blocks.Pairwise (· < ·) := by
  rw [List.pairwise_iff_getElem]
  intro lower upper lowerInRange upperInRange below
  have lowerAt := row lower lowerInRange
  have upperAt := row upper upperInRange
  have apart : lower * first.size < upper * first.size :=
    Nat.mul_lt_mul_of_pos_right below first.size_pos
  refine lt_iff.mpr (.inl (Address.lt_iff.mpr (.inr ⟨?_, ?_⟩)))
  · exact lowerAt.family_eq.trans upperAt.family_eq.symm
  · rw [lowerAt.base_eq, upperAt.base_eq]
    omega

theorem forall₂_equiv {others : List Network} (row : first.IsRow blocks)
    (otherRow : first.IsRow others) (sameLength : blocks.length = others.length) :
    List.Forall₂ (· ≈ ·) blocks others := by
  rw [List.forall₂_iff_get]
  refine ⟨sameLength, ?_⟩
  intro index inRange otherInRange
  exact (row index inRange).equiv (otherRow index otherInRange)

end IsRow

end Netblock.Network
