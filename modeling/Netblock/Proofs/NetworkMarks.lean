import Netblock.Network.Usable
import Netblock.Proofs.EmbeddingMark
import Netblock.Proofs.Merge
import Netblock.Proofs.SlashLiteral
/-!
# Marks of networks

The bases of networks mark their embedding as far as the addresses that they come from do. Merging
is the one case that needs more: the mark is that of the last network, while the bits are those of
the first. If the first embeds IPv4, then so does everything in the network that it starts.
-/

set_option autoImplicit false

namespace Netblock

theorem isEmbedding_iff {value : Nat} :
    IsEmbedding value ↔
      (value / 2 ^ 32 = 0 ∨ value / 2 ^ 32 = 0xFFFF) ∧ 2 ^ 24 ≤ value % 2 ^ 32 := by
  unfold IsEmbedding
  omega

/-- An aligned block does not cross a boundary of the larger blocks around it. -/
theorem div_two_pow_eq_of_aligned {hostBits width base value : Nat} (fits : hostBits ≤ width)
    (aligned : 2 ^ hostBits ∣ base) (above : base ≤ value) (below : value < base + 2 ^ hostBits) :
    value / 2 ^ width = base / 2 ^ width := by
  obtain ⟨block, rfl⟩ := aligned
  have sameBlock : value / 2 ^ hostBits = block := by
    rw [Nat.div_eq_iff (Nat.two_pow_pos hostBits), Nat.mul_comm]
    omega
  have power_eq : 2 ^ width = 2 ^ hostBits * 2 ^ (width - hostBits) := by
    rw [← Nat.pow_add, Nat.add_sub_cancel' fits]
  rw [power_eq, ← Nat.div_div_eq_div_mul, ← Nat.div_div_eq_div_mul, sameBlock,
    Nat.mul_div_cancel_left block (Nat.two_pow_pos hostBits)]

namespace IsEmbedding

variable {base : Nat}

/-- The embedded address has a bit set, so the base is not aligned to all of it. -/
theorem hostBits_lt {hostBits : Nat} (embedding : IsEmbedding base)
    (aligned : 2 ^ hostBits ∣ base) : hostBits < 32 := by
  by_contra wide
  have divides : 2 ^ 32 ∣ base :=
    Nat.dvd_trans (Nat.pow_dvd_pow 2 (Nat.le_of_not_lt wide)) aligned
  have cleared : base % 2 ^ 32 = 0 := Nat.mod_eq_zero_of_dvd divides
  have set := (isEmbedding_iff.mp embedding).2
  omega

/-- Aligned blocks of less than 32 bits do not reach the octets before the embedded address. -/
theorem of_lt_add {hostBits value : Nat} (embedding : IsEmbedding base)
    (aligned : 2 ^ hostBits ∣ base) (above : base ≤ value) (below : value < base + 2 ^ hostBits) :
    IsEmbedding value := by
  have narrow := embedding.hostBits_lt aligned
  have samePrefix := div_two_pow_eq_of_aligned narrow.le aligned above below
  rw [isEmbedding_iff] at embedding ⊢
  omega

end IsEmbedding

namespace Network

/-- A network that starts with an embedding address covers no others. -/
theorem Valid.embeds_of_covers {network : Network} {address : Address} (valid : network.Valid)
    (embeds : Octets.Embeds network.base.octets) (covered : network.Covers address) :
    Octets.Embeds address.octets := by
  obtain ⟨sameFamily, above, below⟩ := (covers_iff valid).mp covered
  obtain ⟨family_eq, embedding⟩ := Address.embeds_octets_iff.mp embeds
  exact Address.embeds_octets_iff.mpr
    ⟨sameFamily.trans family_eq, embedding.of_lt_add valid.size_dvd_base above below⟩

theorem marksEmbedding_of_merge {blocks : List Network} {merged : Network}
    (valid : ∀ block ∈ blocks, block.Valid)
    (marked : ∀ block ∈ blocks, block.base.MarksEmbedding)
    (accepted : merge blocks = .ok merged) : merged.base.MarksEmbedding := by
  intro embeds
  obtain ⟨power, _, tiles, mergedValid, _, lastMark⟩ := (merge_eq_ok_iff_tiles valid).mp accepted
  obtain ⟨last, found, mark_eq⟩ := Option.map_eq_some_iff.mp lastMark
  have member : last ∈ blocks := List.mem_of_getLast? found
  have covered : merged.Covers last.base :=
    tiles.covers_of_mem mergedValid member (valid last member).covers_base
  have lastEmbeds := mergedValid.embeds_of_covers embeds covered
  exact mark_eq.symm.trans (marked last member lastEmbeds)

theorem marksEmbedding_of_nextBlock? {network next : Network}
    (found : network.nextBlock? = some next) : next.base.MarksEmbedding := by
  obtain ⟨_, rfl⟩ := nextBlock?_eq_some_iff.mp found
  exact Address.marksEmbedding_withValue _ _

theorem marksEmbedding_of_previousBlock? {network previous : Network}
    (found : network.previousBlock? = some previous) : previous.base.MarksEmbedding := by
  obtain ⟨_, rfl⟩ := previousBlock?_eq_some_iff.mp found
  exact Address.marksEmbedding_withValue _ _

theorem marksEmbedding_of_mem_chain {count : Nat} {first block : Network}
    (marked : first.base.MarksEmbedding) (member : block ∈ chain count first) :
    block.base.MarksEmbedding := by
  induction count generalizing first with
  | zero => cases member
  | succ count ih =>
      rw [chain_succ] at member
      rcases List.mem_cons.mp member with rfl | later
      · exact marked
      · cases found : first.nextBlock? with
        | none => simp [found] at later
        | some next =>
            simp only [found, Option.map_some, Option.getD_some] at later
            exact ih (marksEmbedding_of_nextBlock? found) later

theorem marksEmbedding_of_splitByPower {network : Network} {power : Nat} {blocks : List Network}
    (marked : network.base.MarksEmbedding) (accepted : network.splitByPower power = .ok blocks) :
    ∀ block ∈ blocks, block.base.MarksEmbedding := by
  obtain ⟨_, _, _, rfl⟩ := splitByPower_eq_ok_iff.mp accepted
  have firstMarked : (network.firstBlock power).base.MarksEmbedding := marked
  intro block member
  exact marksEmbedding_of_mem_chain firstMarked member

theorem marksEmbedding_lowestUsableWith (network : Network) (rule : UsableRule) :
    (network.lowestUsableWith rule).MarksEmbedding := by
  unfold lowestUsableWith
  split
  · exact Address.marksEmbedding_withValue _ _
  · exact Address.marksEmbedding_withValue _ _

theorem marksEmbedding_highestUsableWith (network : Network) (rule : UsableRule) :
    (network.highestUsableWith rule).MarksEmbedding := by
  unfold highestUsableWith
  split
  · exact Address.marksEmbedding_withValue _ _
  · exact Address.marksEmbedding_withValue _ _

theorem marksEmbedding_of_broadcast? {network : Network} {address : Address}
    (found : network.broadcast? = some address) : address.MarksEmbedding := by
  have isHigh : address = network.high := by
    unfold broadcast? at found
    split at found
    · cases found
      rfl
    · split at found
      · cases found
        rfl
      · cases found
  rw [isHigh]
  exact Address.marksEmbedding_withValue _ _

end Network

theorem marksEmbedding_of_readSides {kind : LiteralKind} {literal : List Char}
    {address : Address} {prefixText? : Option (List Char)}
    (accepted : readSides kind literal = .ok (address, prefixText?)) : address.MarksEmbedding := by
  obtain ⟨_, _, continued⟩ := bind_eq_ok_iff.mp accepted
  obtain ⟨_, readAddress, finished⟩ := bind_eq_ok_iff.mp continued
  cases finished
  exact (Address.spells_of_read_eq_ok readAddress).marksEmbedding

theorem Network.marksEmbedding_of_parse {literal : String} {network : Network}
    (accepted : Network.parse literal = .ok network) : network.base.MarksEmbedding := by
  obtain ⟨_, sides, _⟩ := Network.parse_eq_ok_iff.mp accepted
  exact marksEmbedding_of_readSides sides

theorem Interface.marksEmbedding_of_parse {literal : String} {interface : Interface}
    (accepted : Interface.parse literal = .ok interface) : interface.address.MarksEmbedding := by
  obtain ⟨_, sides, _⟩ := Interface.parse_eq_ok_iff.mp accepted
  exact marksEmbedding_of_readSides sides

end Netblock
