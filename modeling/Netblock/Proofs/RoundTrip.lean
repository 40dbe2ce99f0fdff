import Netblock.Proofs.EmbeddingMark
import Netblock.Proofs.SlashLiteral
import Netblock.Proofs.WrittenForm
import Netblock.Textual
/-!
# Texts that are read back

Addresses and interfaces come back from their text, and no two of them share one. A network comes
back with its base, but an IPv4 host network, whose text shows no prefix length, may come back as
the network of its class.
-/

set_option autoImplicit false

namespace Netblock

open Netblock.Text

namespace Address

theorem parse_text (kind : LiteralKind) (address : Address) :
    parse kind address.text = .ok (address.withValue address.toNat) := by
  rw [parse_eq_ok_iff, toList_text, trim_write, read_write]

/-- An address on its own is written like one with a prefix of full length. -/
theorem elim_cidrText (address : Address) (prefixLen? : Option Nat) :
    prefixLen?.elim address.text address.cidrText =
      address.cidrText (prefixLen?.getD address.width) := by
  cases prefixLen? with
  | none => exact (cidrText_eq_text (Nat.le_refl _)).symm
  | some prefixLen => rfl

theorem cidrText_eq_iff {left right : Address} {leftLen rightLen : Nat}
    (leftFits : leftLen ≤ left.width) (rightFits : rightLen ≤ right.width) :
    left.cidrText leftLen = right.cidrText rightLen ↔ left = right ∧ leftLen = rightLen := by
  constructor
  · intro same
    exact writeCidr_injective leftFits rightFits (String.ofList_injective same)
  · rintro ⟨rfl, rfl⟩
    rfl

theorem isAligned_width (address : Address) : address.IsAligned address.width := by
  rw [IsAligned, Nat.sub_self, Nat.pow_zero, Nat.mod_one]

theorem exists_octets_v4 (bits : BitVec 32) :
    ∃ a b c d : Octet, (v4 bits).octets = [a, b, c, d] ∧
      bits.toNat = ((a.toNat * 256 + b.toNat) * 256 + c.toNat) * 256 + d.toNat := by
  obtain ⟨a, b, c, d, octets_eq⟩ := List.length_eq_four.mp (length_octets_v4 bits)
  have below : bits.toNat < 256 ^ 4 := bits.isLt
  have decoded := congrArg Octets.toNat octets_eq
  rw [octets_v4, Octets.toNat_ofNat, Nat.mod_eq_of_lt below] at decoded
  exact ⟨a, b, c, d, octets_eq, by simpa [Octets.toNat, Positional.decode] using decoded⟩

theorem IsAligned.of_equiv {left right : Address} {prefixLen : Nat}
    (aligned : left.IsAligned prefixLen) (same : left ≈ right) : right.IsAligned prefixLen := by
  have sameWidth : left.width = right.width := congrArg Family.width same.1
  unfold IsAligned at aligned ⊢
  rwa [← same.2, ← sameWidth]

/-- A prefix length of full length is not written, and the implied one is read in its place. -/
theorem givenPrefixLen_writtenPrefixLen? (literal : List Char) (address : Address)
    {prefixLen : Nat} (fits : prefixLen ≤ address.width) (implied : Nat) :
    givenPrefixLen literal address.width implied (address.writtenPrefixLen? prefixLen) =
      .ok (if prefixLen < address.width then prefixLen else implied) := by
  unfold writtenPrefixLen?
  split
  · exact readPrefixLen_write literal fits
  · rfl

end Address

theorem Interface.parse_text {interface : Interface} (valid : interface.Valid) :
    parse interface.text =
      .ok ⟨interface.address.withValue interface.address.toNat, interface.prefixLen⟩ := by
  have fits : interface.prefixLen ≤ interface.address.width := valid
  have given := Address.givenPrefixLen_writtenPrefixLen? interface.text.toList
    interface.address fits interface.address.width
  have restored : (if interface.prefixLen < interface.address.width then interface.prefixLen
      else interface.address.width) = interface.prefixLen := by
    split
    · rfl
    · omega
  rw [restored] at given
  rw [parse_eq_ok_iff]
  refine ⟨interface.address.writtenPrefixLen? interface.prefixLen, ?_, ?_⟩
  · rw [text, Address.toList_cidrText, Address.readSides_writeCidr]
  · rw [Address.width_withValue]
    exact given

namespace Network

/-- The implied length never meets host bits. -/
theorem isAligned_impliedPrefixLen (address : Address) :
    address.IsAligned (impliedPrefixLen address) := by
  cases address with
  | v4 bits =>
      unfold impliedPrefixLen classfulPrefixLen
      dsimp only
      split
      · next classA => exact classA.2
      · split
        · next classB => exact classB.2
        · split
          · next classC => exact classC.2
          · exact Address.isAligned_width (.v4 bits)
  | v6 bits mark => exact Address.isAligned_width (.v6 bits mark)

theorem impliedPrefixLen_eq_of_equiv {left right : Address} (same : left ≈ right) :
    impliedPrefixLen left = impliedPrefixLen right := by
  cases left with
  | v4 _ =>
      cases right with
      | v4 _ => exact congrArg classfulPrefixLen (BitVec.eq_of_toNat_eq same.2)
      | v6 _ _ => cases same.1
  | v6 _ _ =>
      cases right with
      | v4 _ => cases same.1
      | v6 _ _ => rfl

/-- The prefix length of the network that is read from the text of `network`. -/
def restoredPrefixLen (network : Network) : Nat :=
  if network.prefixLen < network.width then network.prefixLen else impliedPrefixLen network.base

theorem Valid.isAligned_restoredPrefixLen {network : Network} (valid : network.Valid) :
    network.base.IsAligned network.restoredPrefixLen := by
  unfold restoredPrefixLen
  split
  · exact valid.aligned
  · exact isAligned_impliedPrefixLen network.base

theorem parse_text {network : Network} (valid : network.Valid) :
    parse network.text =
      .ok ⟨network.base.withValue network.base.toNat, network.restoredPrefixLen⟩ := by
  have same : network.base.withValue network.base.toNat ≈ network.base :=
    network.base.isReadBack_withValue.equiv
  have given := Address.givenPrefixLen_writtenPrefixLen? network.text.toList network.base
    valid.prefixLen_le (impliedPrefixLen network.base)
  rw [parse_eq_ok_iff]
  refine ⟨network.base.writtenPrefixLen? network.prefixLen, ?_, ?_, ?_⟩
  · rw [text, Address.toList_cidrText, Address.readSides_writeCidr]
  · rw [width, Address.width_withValue, impliedPrefixLen_eq_of_equiv same]
    exact given
  · exact valid.isAligned_restoredPrefixLen.of_equiv (Setoid.symm same)

theorem classfulPrefixLen_eq_width_iff {bits : BitVec 32} :
    classfulPrefixLen bits = 32 ↔ ¬ (bits.toNat % 2 ^ 8 = 0 ∧ bits.toNat / 2 ^ 24 ≤ 223) := by
  unfold classfulPrefixLen
  dsimp only
  split
  · omega
  · split
    · omega
    · split
      · omega
      · omega

/-- An IPv4 address of class A, B or C whose last octet is zero. -/
def IsClassBase (address : Address) : Prop :=
  ∃ a b c : Octet, address.octets = [a, b, c, 0] ∧ a.toNat ≤ 223

theorem isClassBase_v4_iff {bits : BitVec 32} :
    IsClassBase (.v4 bits) ↔ bits.toNat % 2 ^ 8 = 0 ∧ bits.toNat / 2 ^ 24 ≤ 223 := by
  obtain ⟨a, b, c, d, octets_eq, value_eq⟩ := Address.exists_octets_v4 bits
  have bBelow := b.isLt
  have cBelow := c.isLt
  have dBelow := d.isLt
  have first_eq : bits.toNat / 2 ^ 24 = a.toNat := by omega
  have last_eq : bits.toNat % 2 ^ 8 = d.toNat := by omega
  rw [first_eq, last_eq]
  constructor
  · intro classBase
    obtain ⟨_, _, _, sameOctets, small⟩ := classBase
    rw [octets_eq] at sameOctets
    cases sameOctets
    exact ⟨rfl, small⟩
  · intro bounds
    obtain rfl : d = 0 := BitVec.eq_of_toNat_eq bounds.1
    exact ⟨a, b, c, octets_eq, bounds.2⟩

/-- The prefix length is lost for some IPv4 host networks and for no other network. -/
theorem Valid.restoredPrefixLen_eq_iff {network : Network} (valid : network.Valid) :
    network.restoredPrefixLen = network.prefixLen ↔
      ¬ (network.family = .v4 ∧ network.prefixLen = 32 ∧ IsClassBase network.base) := by
  obtain ⟨base, prefixLen⟩ := network
  have fits : prefixLen ≤ base.width := valid.prefixLen_le
  unfold restoredPrefixLen
  dsimp only
  split
  · next shorter =>
      have notFull : ¬ (base.family = .v4 ∧ prefixLen = 32 ∧ IsClassBase base) := by
        rintro ⟨isV4, rfl, _⟩
        have width_eq : base.width = 32 := congrArg Family.width isV4
        change 32 < base.width at shorter
        omega
      exact ⟨fun _ => notFull, fun _ => rfl⟩
  · next full =>
      have full_eq : prefixLen = base.width := Nat.le_antisymm fits (Nat.le_of_not_lt full)
      subst full_eq
      cases base with
      | v4 bits =>
          change classfulPrefixLen bits = 32 ↔ _
          rw [classfulPrefixLen_eq_width_iff, ← isClassBase_v4_iff]
          exact not_congr ⟨fun classBase => ⟨rfl, rfl, classBase⟩, fun host => host.2.2⟩
      | v6 bits mark => exact ⟨fun _ lost => (nomatch lost.1), fun _ => rfl⟩

end Network

/-- Reading undoes writing for every address and every valid interface, up to the mark that the
octets call for. No text belongs to two addresses or to two prefix lengths. -/
theorem hostText_roundTrip :
    (∀ address : Address, ∃ back, (∀ kind, Address.parse kind address.text = .ok back) ∧
      Textual.parse (Textual.text address) = .ok back ∧ address.IsReadBack back ∧
      (address.MarksEmbedding → back = address)) ∧
    (∀ interface : Interface, interface.Valid → ∃ back : Interface,
      Interface.parse interface.text = .ok back ∧
      Textual.parse (Textual.text interface) = .ok back ∧
      back.prefixLen = interface.prefixLen ∧ interface.address.IsReadBack back.address ∧
      (interface.address.MarksEmbedding → back = interface)) ∧
    (∀ (left right : Address) (leftLen? rightLen? : Option Nat),
      (∀ prefixLen ∈ leftLen?, prefixLen ≤ left.width) →
      (∀ prefixLen ∈ rightLen?, prefixLen ≤ right.width) →
      (leftLen?.elim left.text left.cidrText = rightLen?.elim right.text right.cidrText ↔
        left = right ∧ leftLen?.getD left.width = rightLen?.getD right.width)) := by
  refine ⟨?_, ?_, ?_⟩
  · intro address
    have readBack := address.isReadBack_withValue
    exact ⟨_, fun kind => Address.parse_text kind address, Address.parse_text .host address,
      readBack, readBack.eq⟩
  · intro interface valid
    have readBack := interface.address.isReadBack_withValue
    have parsed := Interface.parse_text valid
    refine ⟨_, parsed, parsed, rfl, readBack, ?_⟩
    intro marked
    rw [readBack.eq marked]
  · intro left right leftLen? rightLen? leftFits rightFits
    have leftLen_le : leftLen?.getD left.width ≤ left.width := by
      cases leftLen? with
      | none => exact Nat.le_refl _
      | some leftLen => exact leftFits leftLen rfl
    have rightLen_le : rightLen?.getD right.width ≤ right.width := by
      cases rightLen? with
      | none => exact Nat.le_refl _
      | some rightLen => exact rightFits rightLen rfl
    rw [Address.elim_cidrText, Address.elim_cidrText]
    exact Address.cidrText_eq_iff leftLen_le rightLen_le

/-- `2002::123.45.67.64/122` keeps a mark that its octets do not call for, and `10.0.0.0` has one
text with and without its full prefix length. -/
theorem hostText_roundTrip_marked :
    (⟨.v6 0x2002000000000000000000007b2d4340 true, 122⟩ : Interface).Valid ∧
      (∃ back, Interface.parse "2002:0000:0000:0000:0000:0000:123.45.67.64/122" = .ok back ∧
        back = ⟨.v6 0x2002000000000000000000007b2d4340 true, 122⟩) ∧
      (Address.v4 0x0A000000).text = (Address.v4 0x0A000000).cidrText 32 := by
  obtain ⟨_, interfaces, texts⟩ := hostText_roundTrip
  refine ⟨by decide, ?_, ?_⟩
  · have shown : Interface.text ⟨.v6 0x2002000000000000000000007b2d4340 true, 122⟩ =
        "2002:0000:0000:0000:0000:0000:123.45.67.64/122" := by decide
    obtain ⟨back, parsed, _, _, _, restored⟩ :=
      interfaces ⟨.v6 0x2002000000000000000000007b2d4340 true, 122⟩ (by decide)
    rw [shown] at parsed
    exact ⟨back, parsed, restored fun _ => rfl⟩
  · exact (texts (.v4 0x0A000000) (.v4 0x0A000000) none (some 32) nofun (by decide)).mpr
      ⟨rfl, rfl⟩

/-- Every valid network comes back with its base. Its prefix length comes back unless its text
shows none and stands for a larger network. -/
theorem Network.exists_parse_text {network : Network} (valid : network.Valid) :
    ∃ back : Network, parse network.text = .ok back ∧
      Textual.parse (Textual.text network) = .ok back ∧
      network.base.IsReadBack back.base ∧
      (¬ (network.family = .v4 ∧ network.prefixLen = 32) →
        back.prefixLen = network.prefixLen) ∧
      (∀ bits, network = ⟨.v4 bits, 32⟩ → back.prefixLen = classfulPrefixLen bits) ∧
      (back ≈ network ↔
        ¬ (network.family = .v4 ∧ network.prefixLen = 32 ∧ IsClassBase network.base)) := by
  have readBack := network.base.isReadBack_withValue
  have parsed := parse_text valid
  refine ⟨_, parsed, parsed, readBack, ?_, ?_, ?_⟩
  · intro notHost
    apply valid.restoredPrefixLen_eq_iff.mpr
    intro lost
    exact notHost ⟨lost.1, lost.2.1⟩
  · rintro bits rfl
    rfl
  · rw [← valid.restoredPrefixLen_eq_iff]
    exact ⟨fun same => same.2, fun samePrefix => ⟨readBack.equiv, samePrefix⟩⟩

/-- The host network `10.0.0.0` comes back as `10.0.0.0/8`. -/
theorem Network.exists_parse_text_classA :
    (⟨.v4 0x0A000000, 32⟩ : Network).Valid ∧
      ∃ back, parse "10.0.0.0" = .ok back ∧ back.prefixLen = 8 ∧
        ¬ back ≈ ⟨.v4 0x0A000000, 32⟩ := by
  have valid : (⟨.v4 0x0A000000, 32⟩ : Network).Valid := by decide
  obtain ⟨back, parsed, _, _, _, classful, same_iff⟩ := exists_parse_text valid
  have shown : text ⟨.v4 0x0A000000, 32⟩ = "10.0.0.0" := by decide
  rw [shown] at parsed
  refine ⟨valid, back, parsed, classful 0x0A000000 rfl, ?_⟩
  rw [same_iff, not_not]
  exact ⟨rfl, rfl, 10, 0, 0, by decide, by decide⟩

end Netblock
