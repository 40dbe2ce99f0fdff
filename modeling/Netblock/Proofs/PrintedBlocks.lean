import Netblock.CommandLine
import Netblock.Proofs.NetworkMarks
import Netblock.Proofs.RoundTrip
/-!
# Printed blocks

The lines that a run prints for the blocks of a split are network literals, and merging what they
stand for gives the network of the arguments. The exception are IPv4 hosts, whose lines show no
prefix length: if the first of them is the base of a classful network, its line stands for that
network, and the merge stops at the second line.
-/

set_option autoImplicit false

namespace Netblock

/-- An aligned block with a multiple of a power of two in it starts with one. -/
theorem mod_two_pow_eq_zero_of_aligned {base hostBits width value : Nat}
    (aligned : 2 ^ hostBits ∣ base) (above : base ≤ value) (below : value < base + 2 ^ hostBits)
    (cleared : value % 2 ^ width = 0) : base % 2 ^ width = 0 := by
  rcases Nat.le_total hostBits width with fits | wide
  · have sameUpper := div_two_pow_eq_of_aligned fits aligned above below
    have value_eq := Nat.div_add_mod value (2 ^ width)
    have base_eq := Nat.div_add_mod base (2 ^ width)
    rw [sameUpper] at value_eq
    omega
  · exact Nat.mod_eq_zero_of_dvd (Nat.dvd_trans (Nat.pow_dvd_pow 2 wide) aligned)

namespace Network

/-- The network that comes back from the text of a valid one. -/
def readBack (network : Network) : Network :=
  ⟨network.base.withValue network.base.toNat, network.restoredPrefixLen⟩

theorem family_readBack (network : Network) : network.readBack.family = network.family :=
  Address.family_withValue _ _

theorem Valid.readBack_equiv_iff {network : Network} (valid : network.Valid) :
    network.readBack ≈ network ↔
      ¬ (network.family = .v4 ∧ network.prefixLen = 32 ∧ IsClassBase network.base) := by
  rw [← valid.restoredPrefixLen_eq_iff]
  exact ⟨fun same => same.2, fun same => ⟨network.base.isReadBack_withValue.equiv, same⟩⟩

theorem forall₂_parse_text {blocks : List Network} (valid : ∀ block ∈ blocks, block.Valid) :
    List.Forall₂ (fun line network => parse line = .ok network) (blocks.map text)
      (blocks.map readBack) := by
  rw [List.forall₂_map_left_iff, List.forall₂_map_right_iff, List.forall₂_same]
  exact fun block member => parse_text (valid block member)

theorem isClassBase_iff {address : Address} (isV4 : address.family = .v4) :
    IsClassBase address ↔ address.toNat % 2 ^ 8 = 0 ∧ address.toNat / 2 ^ 24 ≤ 223 := by
  cases address with
  | v4 bits => exact isClassBase_v4_iff
  | v6 bits mark => cases isV4

/-- The blocks are IPv4 hosts, and the line of the first one stands for a classful network. -/
structure StartsWithClass (network : Network) (count : Nat) : Prop where
  isV4 : network.family = .v4
  allHosts : count = network.size
  classBase : IsClassBase network.base

section

variable {network : Network} {power : Nat} {blocks : List Network}

theorem Tiles.length_eq_size_iff (tiles : Tiles network power blocks) :
    blocks.length = network.size ↔ network.prefixLen + power = network.width := by
  have fits := tiles.fits
  have powers : (2 : Nat) ^ power = 2 ^ network.hostBits ↔ power = network.hostBits :=
    (Nat.pow_right_injective (Nat.le_refl 2)).eq_iff
  rw [tiles.length_eq, size, powers, hostBits]
  omega

/-- If the line of any block stands for a larger network, then that of the first block does. -/
theorem Tiles.startsWithClass_of_mem (tiles : Tiles network power blocks) (valid : network.Valid)
    {block : Network} (member : block ∈ blocks)
    (lost : block.family = .v4 ∧ block.prefixLen = 32 ∧ IsClassBase block.base) :
    network.StartsWithClass blocks.length := by
  obtain ⟨blockIsV4, prefixLen_eq, classBlock⟩ := lost
  have isV4 : network.family = .v4 := (tiles.family_eq member).symm.trans blockIsV4
  have width_eq : network.width = 32 := congrArg Family.width isV4
  obtain ⟨_, above, below⟩ := (covers_iff valid).mp (tiles.covers_base valid member)
  obtain ⟨lastOctet, firstOctet⟩ := (isClassBase_iff blockIsV4).mp classBlock
  refine ⟨isV4, ?_, (isClassBase_iff isV4).mpr ⟨?_, ?_⟩⟩
  · obtain ⟨index, inRange, rfl⟩ := List.getElem_of_mem member
    rw [tiles.length_eq_size_iff, width_eq, ← prefixLen_eq, (tiles.row index inRange).prefixLen_eq]
    rfl
  · exact mod_two_pow_eq_zero_of_aligned valid.size_dvd_base above below lastOctet
  · exact Nat.le_trans (Nat.div_le_div_right above) firstOctet

theorem Tiles.readBack (tiles : Tiles network power blocks) (valid : network.Valid)
    (kept : ¬ network.StartsWithClass blocks.length) :
    Tiles network power (blocks.map Network.readBack) := by
  apply tiles.congr
  rw [List.forall₂_map_right_iff, List.forall₂_same]
  intro block member
  have blockValid := tiles.row.valid (valid.firstBlock tiles.fits) block member
  apply Setoid.symm
  rw [blockValid.readBack_equiv_iff]
  intro lost
  exact kept (tiles.startsWithClass_of_mem valid member lost)

theorem StartsWithClass.host_getElem (starts : network.StartsWithClass blocks.length)
    (tiles : Tiles network power blocks) {index : Nat} (inRange : index < blocks.length) :
    blocks[index].family = .v4 ∧ blocks[index].prefixLen = 32 ∧
      blocks[index].base.toNat = network.base.toNat + index := by
  have isV4 := starts.isV4
  have width_eq : network.width = 32 := congrArg Family.width isV4
  have full := tiles.length_eq_size_iff.mp starts.allHosts
  rw [width_eq] at full
  refine ⟨(tiles.family_eq (List.getElem_mem inRange)).trans isV4, ?_, ?_⟩
  · rw [(tiles.row index inRange).prefixLen_eq, ← full]
    rfl
  · rw [tiles.base_eq inRange, width_eq, Nat.sub_sub, full, Nat.sub_self, Nat.pow_zero, Nat.mul_one]

theorem StartsWithClass.restoredPrefixLen_getElem_iff
    (starts : network.StartsWithClass blocks.length) (tiles : Tiles network power blocks)
    (valid : network.Valid) {index : Nat} (inRange : index < blocks.length) :
    blocks[index].restoredPrefixLen = 32 ↔
      ¬ ((network.base.toNat + index) % 2 ^ 8 = 0 ∧
        (network.base.toNat + index) / 2 ^ 24 ≤ 223) := by
  obtain ⟨isV4, prefixLen_eq, base_eq⟩ := starts.host_getElem tiles inRange
  have blockValid := (tiles.row index inRange).valid (valid.firstBlock tiles.fits)
  have restored_iff := blockValid.restoredPrefixLen_eq_iff
  rw [prefixLen_eq, isClassBase_iff isV4, base_eq] at restored_iff
  simpa [isV4] using restored_iff

/-- The first line stands for a network with a shorter prefix than the second. -/
theorem StartsWithClass.merge_readBack (starts : network.StartsWithClass blocks.length)
    (tiles : Tiles network power blocks) (valid : network.Valid) (positive : 1 ≤ power) :
    merge (blocks.map Network.readBack) = .error (.mergeOrder blocks.length 1) := by
  obtain ⟨lastOctet, firstOctet⟩ := (isClassBase_iff starts.isV4).mp starts.classBase
  have length_eq := tiles.length_eq
  have atLeastTwo : 2 ^ 1 ≤ 2 ^ power := Nat.pow_le_pow_right (by decide) positive
  cases blocks with
  | nil => exact absurd rfl tiles.ne_nil
  | cons first rest =>
      cases rest with
      | nil =>
          rw [List.length_singleton] at length_eq
          omega
      | cons second rest =>
          have firstInRange : 0 < (first :: second :: rest).length := by simp
          have secondInRange : 1 < (first :: second :: rest).length := by simp
          have firstLost : first.restoredPrefixLen ≠ 32 := by
            intro kept
            exact (starts.restoredPrefixLen_getElem_iff tiles valid firstInRange).mp kept
              ⟨lastOctet, firstOctet⟩
          have secondKept : second.restoredPrefixLen = 32 := by
            apply (starts.restoredPrefixLen_getElem_iff tiles valid secondInRange).mpr
            omega
          have sameFamily : first.readBack.family = second.readBack.family := by
            rw [family_readBack, family_readBack]
            exact (tiles.family_eq (List.getElem_mem firstInRange)).trans
              (tiles.family_eq (List.getElem_mem secondInRange)).symm
          rw [length_eq]
          apply merge_eq_mergeOrder_one
          · simpa using length_eq
          · exact positive
          · exact sameFamily
          · exact fun same => firstLost (same.symm.trans secondKept)

end

/-- The lines of a split are merged into the network again, unless the first of them stands for a
classful network. -/
theorem Tiles.merge_readBack {network : Network} {power : Nat} {blocks : List Network}
    (tiles : Tiles network power blocks) (valid : network.Valid) (positive : 1 ≤ power)
    (positivePrefix : 1 ≤ network.prefixLen) (kept : ¬ network.StartsWithClass blocks.length) :
    ∃ merged, merge (blocks.map Network.readBack) = .ok merged ∧ merged ≈ network := by
  obtain ⟨last, _, accepted⟩ :=
    (tiles.readBack valid kept).merge_eq_ok valid positive positivePrefix
  exact ⟨_, accepted, Address.withMark_equiv _ _, rfl⟩

end Network

namespace CommandLine

variable {readOperands? : OperandReader}

/-- All that a run takes from the arguments are its operands. -/
theorem runWith?_of_operands {arguments operands : List String}
    (given : readOperands? arguments = some operands) :
    runWith? readOperands? arguments = (Request.ofOperands? operands).map Request.run := by
  rw [runWith?, Request.ofArguments?, given, Option.bind_some]

theorem runWith?_eq {arguments : List String} {literal countText : String} {network : Network}
    (given : readOperands? arguments = some [literal, countText])
    (parsed : Network.parse literal = .ok network) :
    runWith? readOperands? arguments = (readCount? countText.toList).map fun count =>
      Request.run ⟨network, some count⟩ := by
  have toOption_eq : (Network.parse literal).toOption = some network := by rw [parsed]; rfl
  rw [runWith?_of_operands given, Request.ofOperands?, toOption_eq]
  cases readCount? countText.toList with
  | none => rfl
  | some count => rfl

theorem exists_blocks_of_exitCode_eq_zero {network : Network} {count : Nat}
    (succeeded : exitCode (some (Request.run ⟨network, some count⟩)) = 0) :
    ∃ blocks, network.splitByCount count = .ok blocks ∧
      Request.run ⟨network, some count⟩ = ⟨network.report ++ blocks.map Network.text, none⟩ := by
  cases split : network.splitByCount count with
  | error error => simp [Request.run, exitCode, split] at succeeded
  | ok blocks => exact ⟨blocks, rfl, by simp only [Request.run, split]⟩

/-- Every line that a run prints for a block can be read, and merging gives the network of the
arguments, unless the first line is a host that is read as a classful network. This holds with any
reader of operands. -/
theorem merge_printed_blocks {arguments : List String} {literal countText : String}
    {network : Network} (given : readOperands? arguments = some [literal, countText])
    (parsed : Network.parse literal = .ok network) (positivePrefix : 1 ≤ network.prefixLen)
    (succeeded : exitCode (runWith? readOperands? arguments) = 0) :
    ∃ count lines restored, readCount? countText.toList = some count ∧
      runWith? readOperands? arguments = some ⟨network.report ++ lines, none⟩ ∧
      lines.length = count ∧
      List.Forall₂ (fun line block => Network.parse line = .ok block) lines restored ∧
      (¬ network.StartsWithClass count →
        ∃ merged, Network.merge restored = .ok merged ∧ merged ≈ network) ∧
      (network.StartsWithClass count →
        Network.merge restored = .error (.mergeOrder count 1)) := by
  rw [runWith?_eq given parsed] at succeeded ⊢
  cases counted : readCount? countText.toList with
  | none =>
      rw [counted] at succeeded
      cases succeeded
  | some count =>
      rw [counted] at succeeded
      obtain ⟨blocks, splitByCount, ran⟩ := exists_blocks_of_exitCode_eq_zero succeeded
      obtain ⟨power, rfl, accepted⟩ := Network.exists_power_of_splitByCount splitByCount
      have valid := Network.parse_valid parsed
      have positive := (Network.splitByPower_eq_ok_iff.mp accepted).1
      have tiles := valid.tiles_of_splitByPower accepted
      have blocksValid := tiles.row.valid (valid.firstBlock tiles.fits)
      refine ⟨_, _, _, rfl, congrArg some ran, ?_, Network.forall₂_parse_text blocksValid, ?_, ?_⟩
      · rw [List.length_map, tiles.length_eq]
      · rw [← tiles.length_eq]
        exact tiles.merge_readBack valid positive positivePrefix
      · rw [← tiles.length_eq]
        exact fun starts => starts.merge_readBack tiles valid positive

/-- The hosts of `10.0.0.2/31` are not read as larger networks. -/
theorem merge_printed_blocks_hosts :
    operands? ["--", "10.0.0.2/31", "+2"] = some ["10.0.0.2/31", "+2"] ∧
      Network.parse "10.0.0.2/31" = .ok ⟨.v4 0x0A000002, 31⟩ ∧
      exitCode (run? ["--", "10.0.0.2/31", "+2"]) = 0 ∧
      ∃ restored merged, List.Forall₂ (fun line block => Network.parse line = .ok block)
          ["10.0.0.2", "10.0.0.3"] restored ∧
        Network.merge restored = .ok merged ∧ merged ≈ ⟨.v4 0x0A000002, 31⟩ := by
  have given : operands? ["--", "10.0.0.2/31", "+2"] = some ["10.0.0.2/31", "+2"] := by decide
  have parsed : Network.parse "10.0.0.2/31" = .ok ⟨.v4 0x0A000002, 31⟩ := by decide
  have succeeded : exitCode (run? ["--", "10.0.0.2/31", "+2"]) = 0 := by decide
  have printed : runWith? operands? ["--", "10.0.0.2/31", "+2"] =
      some ⟨Network.report ⟨.v4 0x0A000002, 31⟩ ++ ["10.0.0.2", "10.0.0.3"], none⟩ := by decide
  obtain ⟨count, lines, restored, _, ran, _, readLines, joined, _⟩ :=
    merge_printed_blocks given parsed (by decide) succeeded
  rw [printed, Option.some_inj, Output.mk.injEq, List.append_cancel_left_eq] at ran
  have kept : ¬ Network.StartsWithClass ⟨.v4 0x0A000002, 31⟩ count := by
    intro starts
    exact absurd ((Network.isClassBase_iff rfl).mp starts.classBase).1 (by decide)
  obtain ⟨merged, accepted, same⟩ := joined kept
  exact ⟨given, parsed, succeeded, restored, merged, ran.1 ▸ readLines, accepted, same⟩

/-- The first line for `10.0.0.0/31` is read as `10.0.0.0/8`, which no merge gives back. So the
lines cannot always be merged, whatever reader gives these operands. -/
theorem not_forall_merge_printed_blocks :
    ¬ ∃ readOperands? : OperandReader,
      (∃ arguments, readOperands? arguments = some ["10.0.0.0/31", "2"]) ∧
      ∀ (arguments : List String) (literal countText : String) (network : Network)
        (lines : List String), readOperands? arguments = some [literal, countText] →
        Network.parse literal = .ok network → 1 ≤ network.prefixLen →
        runWith? readOperands? arguments = some ⟨network.report ++ lines, none⟩ →
        ∃ restored merged,
          List.Forall₂ (fun line block => Network.parse line = .ok block) lines restored ∧
          Network.merge restored = .ok merged ∧ merged ≈ network := by
  rintro ⟨readOperands?, ⟨arguments, given⟩, claimed⟩
  have parsed : Network.parse "10.0.0.0/31" = .ok ⟨.v4 0x0A000000, 31⟩ := by decide
  have printed : runWith? readOperands? arguments =
      some ⟨Network.report ⟨.v4 0x0A000000, 31⟩ ++ ["10.0.0.0", "10.0.0.1"], none⟩ := by
    rw [runWith?_eq given parsed]
    decide
  obtain ⟨restored, merged, readLines, accepted, _⟩ :=
    claimed arguments _ _ _ _ given parsed (by decide) printed
  have readAgain : ["10.0.0.0", "10.0.0.1"].mapM Network.parse =
      .ok [⟨.v4 0x0A000000, 8⟩, ⟨.v4 0x0A000001, 32⟩] := by decide
  rw [mapM_eq_ok_iff.mpr readLines, Except.ok.injEq] at readAgain
  have refused : Network.merge [⟨.v4 0x0A000000, 8⟩, ⟨.v4 0x0A000001, 32⟩] =
      .error (.mergeOrder 2 1) := by decide
  rw [readAgain, refused] at accepted
  cases accepted

end CommandLine

end Netblock
