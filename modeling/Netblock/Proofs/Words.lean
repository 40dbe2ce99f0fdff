import Netblock.Proofs.Words.Blocks
import Netblock.Proofs.Words.Literals
/-!
# No word is too narrow

On words of a fixed width, every operation that puts an address, a mask or an array together comes
to an end without a fault, whatever its other arguments are. What it gives is the exact result, so
no bit of it was cut off on the way. The remaining operations only compare what these give.
-/

set_option autoImplicit false

namespace Netblock.Words

/-- The computations on words agree with the exact operations and have no faults. -/
structure Faultless : Prop where
  addressOfWord : ∀ (family : Family) (word : BitVec 128),
    addressOfWord family word = settled (Address.ofNat family word.toNat)
  addressOfInt : ∀ (family : Family) (value : Int),
    addressOfInt family value = settled (Address.ofInt family value)
  addOffset : ∀ (address : Address) (offset : Int),
    addOffset address offset = settled (address.add offset)
  nextAddress? : ∀ address : Address, nextAddress? address = .ok address.next?
  previousAddress? : ∀ address : Address, previousAddress? address = .ok address.previous?
  ofBase : ∀ (base : Address) (len : BitVec 8),
    ofBase base len = settled (Network.ofBase base len.toNat)
  covering : ∀ (address : Address) (len : BitVec 8),
    covering address len = settled (Network.covering address len.toNat)
  interfaceNetwork : ∀ interface : Interface, interface.Valid →
    interfaceNetwork interface = .ok interface.network
  hostBits : ∀ network : Network, network.Valid →
    hostBits network = .ok (BitVec.ofNat 8 network.hostBits)
  size : ∀ network : Network, network.Valid → size network = .ok network.size
  netmask : ∀ network : Network, network.Valid → netmask network = .ok network.netmask
  wildcard : ∀ network : Network, network.Valid → wildcard network = .ok network.wildcard
  low : ∀ network : Network, network.Valid → low network = .ok network.low
  high : ∀ network : Network, network.Valid → high network = .ok network.high
  lowestUsableWith : ∀ (network : Network) (rule : UsableRule), network.Valid →
    lowestUsableWith network rule = .ok (network.lowestUsableWith rule)
  highestUsableWith : ∀ (network : Network) (rule : UsableRule), network.Valid →
    highestUsableWith network rule = .ok (network.highestUsableWith rule)
  nextBlock? : ∀ network : Network, network.Valid → nextBlock? network = .ok network.nextBlock?
  previousBlock? : ∀ network : Network, network.Valid →
    previousBlock? network = .ok network.previousBlock?
  splitByPower : ∀ (network : Network) (power : BitVec 32), network.Valid →
    splitByPower network power = settled (network.splitByPower power.toNat)
  splitByCount : ∀ (network : Network) (count : BitVec 64), network.Valid →
    splitByCount network count = settled (network.splitByCount count.toNat)
  merge : ∀ networks : List Network, (∀ network ∈ networks, network.Valid) →
    merge networks = settled (Network.merge networks)
  parseAddress : ∀ (kind : LiteralKind) (literal : String),
    parseAddress kind literal = settled (Address.parse kind literal)
  parseNetwork : ∀ literal : String, parseNetwork literal = settled (Network.parse literal)
  parseInterface : ∀ literal : String, parseInterface literal = settled (Interface.parse literal)

theorem faultless : Faultless where
  addressOfWord := addressOfWord_eq_settled
  addressOfInt := addressOfInt_eq_settled
  addOffset := addOffset_eq_settled
  nextAddress? := nextAddress?_eq_ok
  previousAddress? := previousAddress?_eq_ok
  ofBase := ofBase_eq_settled
  covering := covering_eq_settled
  interfaceNetwork := fun _ valid => interfaceNetwork_eq_ok valid
  hostBits := fun _ valid => hostBits_eq_ok valid
  size := fun _ valid => size_eq_ok valid
  netmask := fun _ valid => netmask_eq_ok valid
  wildcard := fun _ valid => wildcard_eq_ok valid
  low := fun _ valid => low_eq_ok valid
  high := fun _ valid => high_eq_ok valid
  lowestUsableWith := fun _ rule valid => lowestUsableWith_eq_ok valid rule
  highestUsableWith := fun _ rule valid => highestUsableWith_eq_ok valid rule
  nextBlock? := fun _ valid => nextBlock?_eq_ok valid
  previousBlock? := fun _ valid => previousBlock?_eq_ok valid
  splitByPower := fun _ power valid => splitByPower_eq_settled valid power
  splitByCount := fun _ count valid => splitByCount_eq_settled valid count
  merge := fun _ valid => merge_eq_settled valid
  parseAddress := parseAddress_eq_settled
  parseNetwork := parseNetwork_eq_settled
  parseInterface := parseInterface_eq_settled

/-- The whole IPv6 space has a size of 129 bits, the last two IPv4 addresses have none above them,
and no network has room for the largest power. -/
theorem faultless_edges :
    (⟨.v6 0 false, 0⟩ : Network).Valid ∧ (⟨.v4 0xFFFFFFFE, 31⟩ : Network).Valid ∧
      nextBlock? ⟨.v6 0 false, 0⟩ = .ok none ∧
      highestUsableWith ⟨.v4 0xFFFFFFFE, 31⟩ .excludeEdges = .ok (.v4 0xFFFFFFFE) ∧
      splitByPower ⟨.v6 0 false, 0⟩ (BitVec.ofNat 32 (2 ^ 32 - 1)) =
        settled (.error (.splitPower ⟨.v6 0 false, 0⟩ (2 ^ 32 - 1))) := by
  have spaceValid : (⟨.v6 0 false, 0⟩ : Network).Valid := by decide
  have lastValid : (⟨.v4 0xFFFFFFFE, 31⟩ : Network).Valid := by decide
  have noNext : (⟨.v6 0 false, 0⟩ : Network).nextBlock? = none := by decide
  have highest : (⟨.v4 0xFFFFFFFE, 31⟩ : Network).highestUsableWith .excludeEdges =
      .v4 0xFFFFFFFE := by decide
  refine ⟨spaceValid, lastValid, ?_, ?_, ?_⟩
  · rw [faultless.nextBlock? _ spaceValid, noNext]
  · rw [faultless.highestUsableWith _ _ lastValid, highest]
  · exact faultless.splitByPower _ _ spaceValid

end Netblock.Words
