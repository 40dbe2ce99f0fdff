import Netblock.Proofs.ErrorContents
import Netblock.Proofs.Merge
/-!
# Validity in sessions

Whatever operations are performed in a row, every network and every interface that they give is
valid. For most of them this needs valid operands, so the proof is by induction on the session.
-/

set_option autoImplicit false

namespace Netblock

namespace Network

theorem Valid.testBit_eq_false {network : Network} {position : Nat} (valid : network.Valid)
    (after : position < network.hostBits) : network.base.toNat.testBit position = false :=
  Address.isAligned_iff_testBit.mp valid.aligned position after

theorem splitByPower_valid {network : Network} (valid : network.Valid) {power : Nat}
    {blocks : List Network} (accepted : network.splitByPower power = .ok blocks) :
    ∀ block ∈ blocks, block.Valid := by
  obtain ⟨_, _, fits, rfl⟩ := splitByPower_eq_ok_iff.mp accepted
  exact (isRow_chain _ _).valid (valid.firstBlock fits)

theorem merge_valid {blocks : List Network} (valid : ∀ block ∈ blocks, block.Valid)
    {merged : Network} (accepted : merge blocks = .ok merged) : merged.Valid := by
  obtain ⟨_, _, _, mergedValid, _⟩ := (merge_eq_ok_iff_tiles valid).mp accepted
  exact mergedValid

end Network

namespace Interface

theorem ofAddress_valid {address : Address} {prefixLen : Nat} {interface : Interface}
    (built : ofAddress address prefixLen = .ok interface) : interface.Valid := by
  obtain ⟨_, checked, made⟩ := bind_eq_ok_iff.mp built
  cases made
  exact Address.checkPrefixLen_eq_ok_iff.mp checked

theorem Valid.network {interface : Interface} (valid : interface.Valid) :
    interface.network.Valid where
  prefixLen_le := by
    have width_eq : interface.network.width = interface.address.width :=
      Address.width_truncate _ _
    rw [width_eq]
    exact valid
  aligned := Address.isAligned_truncate _ _

end Interface

namespace Session

def Value.Valid : Value → Prop
  | .address _ => True
  | .network whole => whole.Valid
  | .interface placed => placed.Valid

theorem holds_valid_address (address : Address) : Holds Value.Valid address :=
  holds_address.mpr trivial

theorem holds_valid_address? (address? : Option Address) : Holds Value.Valid address? :=
  holds_option.mpr fun address _ => holds_valid_address address

theorem holds_valid_outcome {outcome : Except Error Address}
    (inError : HoldsInError Value.Valid outcome) : Holds Value.Valid outcome :=
  holds_outcome inError fun address _ => holds_valid_address address

variable {α : Type} {library : PrefixLibrary α}

/-- Networks are valid where they are made, and remain so where they are made from valid ones. -/
theorem Operation.keeps_valid
    (bounded : ∀ kept, library.prefixLen kept ≤ (library.address kept).width)
    (operation : Operation α) : operation.Keeps library Value.Valid := by
  intro taken
  cases operation with
  -- Whatever address is given is valid.
  | v4 | v6 | ofV6 | zero | ofPlain | linkLocal | withMark => exact holds_valid_address _
  | base | netmask | wildcard | low | high | interfaceAddress => exact holds_valid_address _
  | lowestUsable | highestUsable | lowestUsableWith | highestUsableWith =>
      exact holds_valid_address _
  | next | previous | embeddedV4 | solicitedNode | broadcast => exact holds_valid_address? _
  | usableRange network =>
      refine holds_option.mpr ?_
      intro range _
      exact holds_pair.mpr ⟨holds_valid_address range.1, holds_valid_address range.2⟩
  | ofOctets octets => exact holds_valid_outcome (ofOctets_holdsInError octets)
  | ofNat family value => exact holds_valid_outcome (ofNat_holdsInError trivial value)
  | ofInt family value => exact holds_valid_outcome (ofInt_holdsInError trivial value)
  | parseAddress kind literal => exact holds_valid_outcome (parseAddress_holdsInError kind literal)
  | receiveAddress message => exact holds_valid_outcome (parseAddress_holdsInError .host message)
  | add address offset => exact holds_valid_outcome (add_holdsInError trivial offset)
  | sub address offset => exact holds_valid_outcome (add_holdsInError trivial (-offset))
  -- A comparison gives no network, and only addresses when it is refused.
  | difference | compareWithin | contains | containsNetwork | compareSpan =>
      exact holds_comparison trivial trivial nofun
  | ofBase address prefixLen =>
      refine holds_outcome (ofBase_holdsInError address prefixLen) ?_
      intro network built
      exact holds_network.mpr (Network.ofBase_eq_ok_iff.mp built).2
  | covering address prefixLen =>
      refine holds_outcome (covering_holdsInError address prefixLen) ?_
      intro network covered
      exact holds_network.mpr (Network.covering_valid covered)
  | parseNetwork literal | receiveNetwork literal =>
      refine holds_outcome (parseNetwork_holdsInError literal) ?_
      intro network accepted
      exact holds_network.mpr (Network.parse_valid accepted)
  | plainNetwork kept =>
      refine holds_outcome (ofBase_holdsInError _ _) ?_
      intro network built
      exact holds_network.mpr (Network.ofBase_eq_ok_iff.mp built).2
  | interfaceNetwork interface =>
      have valid : interface.Valid := holds_interface.mp taken
      exact holds_network.mpr valid.network
  | nextBlock network =>
      have valid : network.Valid := holds_network.mp taken
      refine holds_option.mpr ?_
      intro next found
      exact holds_network.mpr (Network.nextBlock?_valid valid found)
  | previousBlock network =>
      have valid : network.Valid := holds_network.mp taken
      refine holds_option.mpr ?_
      intro previous found
      exact holds_network.mpr (Network.previousBlock?_valid valid found)
  | splitByPower network power =>
      have valid : network.Valid := holds_network.mp taken
      refine holds_outcome (splitByPower_holdsInError valid power) ?_
      intro blocks accepted
      exact holds_networks.mpr (Network.splitByPower_valid valid accepted)
  | splitByCount network count =>
      have valid : network.Valid := holds_network.mp taken
      refine holds_outcome (splitByCount_holdsInError valid count) ?_
      intro blocks accepted
      exact holds_networks.mpr (Network.splitByPower_valid valid
        (Network.splitByPower_log2_of_splitByCount accepted))
  | split network =>
      have valid : network.Valid := holds_network.mp taken
      refine holds_outcome (splitByPower_holdsInError valid 1) ?_
      intro blocks accepted
      exact holds_networks.mpr (Network.splitByPower_valid valid accepted)
  | merge networks =>
      have valid := holds_networks.mp taken
      refine holds_outcome (merge_holdsInError fun _ _ => trivial) ?_
      intro merged accepted
      exact holds_network.mpr (Network.merge_valid valid accepted)
  | summary network =>
      have valid : network.Valid := holds_network.mp taken
      exact holds_summary.mpr ⟨valid, trivial, trivial, holds_valid_address? _⟩
  | ofAddress address prefixLen =>
      refine holds_outcome (ofAddress_holdsInError address prefixLen) ?_
      intro interface built
      exact holds_interface.mpr (Interface.ofAddress_valid built)
  | host address => exact holds_interface.mpr (Interface.host_valid address)
  | parseInterface literal | receiveInterface literal =>
      refine holds_outcome (parseInterface_holdsInError literal) ?_
      intro interface accepted
      exact holds_interface.mpr (Interface.parse_valid accepted)
  | plainInterface kept => exact holds_interface.mpr (bounded kept)

theorem valid_of_mem_run
    (bounded : ∀ kept, library.prefixLen kept ≤ (library.address kept).width)
    {operations : List (Operation α)} {value : Value} (member : value ∈ run library operations) :
    value.Valid :=
  forall_mem_run (fun operation _ => operation.keeps_valid bounded) value member

/-- However operations are combined, no network has a prefix longer than its base or a bit set
after the prefix, and no interface has a prefix longer than its address. The other library's
prefixes must not be longer than their addresses either. -/
theorem wellFormed_of_mem_run
    (bounded : ∀ kept, library.prefixLen kept ≤ (library.address kept).width)
    (operations : List (Operation α)) :
    (∀ network, .network network ∈ run library operations →
      network.prefixLen ≤ network.width ∧
        ∀ position, position < network.hostBits →
          network.base.toNat.testBit position = false) ∧
    (∀ interface, .interface interface ∈ run library operations →
      interface.prefixLen ≤ interface.address.width) := by
  constructor
  · intro network member
    have valid : network.Valid := valid_of_mem_run bounded member
    exact ⟨valid.prefixLen_le, fun _ after => valid.testBit_eq_false after⟩
  · intro interface member
    exact valid_of_mem_run bounded member

/-- A network that comes from a merge alone, and the interfaces that a text and another library's
prefix give. -/
theorem wellFormed_of_mem_run_merged :
    (Value.network ⟨.v4 0x0A000000, 8⟩ ∈
        run PlainPrefix.library [.parseNetwork "10.0.0.0/9", .nextBlock ⟨.v4 0x0A000000, 9⟩,
          .merge [⟨.v4 0x0A000000, 9⟩, ⟨.v4 0x0A800000, 9⟩]] ∧
      ∀ position, position < 24 → Nat.testBit 0x0A000000 position = false) ∧
    (Value.interface ⟨.v4 0x0A010203, 8⟩ ∈
        run PlainPrefix.library [.parseInterface "10.1.2.3/8"] ∧ 8 ≤ 32) ∧
    (Value.interface ⟨.v4 0x0A010203, 32⟩ ∈
        run PlainPrefix.library [.plainInterface ⟨.v4 0x0A010203, 32, by decide⟩] ∧ 32 ≤ 32) := by
  have merged : Value.network ⟨.v4 0x0A000000, 8⟩ ∈
      run PlainPrefix.library [.parseNetwork "10.0.0.0/9", .nextBlock ⟨.v4 0x0A000000, 9⟩,
        .merge [⟨.v4 0x0A000000, 9⟩, ⟨.v4 0x0A800000, 9⟩]] := by
    decide
  have parsed : Value.interface ⟨.v4 0x0A010203, 8⟩ ∈
      run PlainPrefix.library [.parseInterface "10.1.2.3/8"] := by
    decide
  have came : Value.interface ⟨.v4 0x0A010203, 32⟩ ∈
      run PlainPrefix.library [.plainInterface ⟨.v4 0x0A010203, 32, by decide⟩] := by
    decide
  refine ⟨⟨merged, ?_⟩, ⟨parsed, ?_⟩, came, ?_⟩
  · exact ((wellFormed_of_mem_run PlainPrefix.prefixLen_le _).1 _ merged).2
  · exact (wellFormed_of_mem_run PlainPrefix.prefixLen_le _).2 _ parsed
  · exact (wellFormed_of_mem_run PlainPrefix.prefixLen_le _).2 _ came

end Session

end Netblock
