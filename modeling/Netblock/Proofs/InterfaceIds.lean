import Netblock.MacAddress.InterfaceId
import Netblock.Proofs.Bounds
import Netblock.Proofs.NumericOrder
/-!
# Interface identifiers there and back

A MAC address goes into an identifier octet by octet, and the identifier of any address that holds
one gives it back. The group that the owner of the address joins keeps its last three octets only,
and leads back to no MAC address.
-/

set_option autoImplicit false

namespace Netblock

/-!
### Octets of identifiers
-/

theorem Octets.toNat_injective {left right : List Octet} (sameLength : left.length = right.length)
    (sameValue : toNat left = toNat right) : left = right := by
  rw [← ofNat_toNat left, ← ofNat_toNat right, sameLength, sameValue]

/-- What is left of a numeral without its first octets is a remainder of its value. -/
theorem Octets.toNat_drop (octets : List Octet) (count : Nat) :
    toNat (octets.drop count) = toNat octets % 256 ^ (octets.length - count) := by
  have parted := toNat_append (octets.take count) (octets.drop count)
  have below := toNat_lt (octets.drop count)
  rw [List.take_append_drop, List.length_drop] at parted
  rw [List.length_drop] at below
  rw [parted, Nat.mul_comm, Nat.mul_add_mod, Nat.mod_eq_of_lt below]

/-- The universal bit is the second lowest one of the first octet. -/
theorem flipUniversal_toNat (first second third : Octet) :
    flipUniversal (Octets.toNat [first, second, third]) =
      Octets.toNat [first ^^^ 0x02, second, third] := by
  have below : Octets.toNat [second, third] < 2 ^ 16 := by
    simpa using Octets.toNat_lt [second, third]
  have cons_eq : ∀ octet : Octet, Octets.toNat [octet, second, third] =
      2 ^ 16 * octet.toNat + Octets.toNat [second, third] := by
    intro octet
    rw [Octets.toNat_cons, Nat.mul_comm]
    simp
  have universal : 0x020000 = 2 ^ 16 * 2 + 0 := by decide
  apply Nat.eq_of_testBit_eq
  intro position
  rw [flipUniversal, universal, cons_eq, cons_eq, Nat.testBit_xor,
    Nat.testBit_two_pow_mul_add _ below, Nat.testBit_two_pow_mul_add _ below,
    Nat.testBit_two_pow_mul_add _ (by decide : 0 < 2 ^ 16)]
  split <;> simp

namespace MacAddress

/-- The octets of a MAC address, and those of the identifier that is made from it. -/
inductive IsIdentifier : List Octet → List Octet → Prop where
  | of (a b c d e f : Octet) :
      IsIdentifier [a, b, c, d, e, f] [a ^^^ 0x02, b, c, 0xFF, 0xFE, d, e, f]

variable {mac : MacAddress}

@[simp]
theorem length_octets (mac : MacAddress) : mac.octets.length = 6 :=
  Octets.length_ofNat 6 _

theorem toNat_octets (mac : MacAddress) : Octets.toNat mac.octets = mac.toNat :=
  (Octets.toNat_ofNat 6 _).trans (Nat.mod_eq_of_lt mac.toNat_lt)

theorem exists_isIdentifier (mac : MacAddress) :
    ∃ identifier, IsIdentifier mac.octets identifier := by
  match octets_eq : mac.octets, mac.length_octets with
  | [a, b, c, d, e, f], _ => exact ⟨_, .of a b c d e f⟩

theorem IsIdentifier.length_eq {octets identifier : List Octet}
    (made : IsIdentifier octets identifier) : identifier.length = 8 := by
  cases made
  rfl

theorem IsIdentifier.toNat_eq {identifier : List Octet}
    (made : IsIdentifier mac.octets identifier) :
    Octets.toNat identifier = mac.interfaceId := by
  have value_eq := mac.toNat_octets
  generalize mac.octets = octets at made value_eq
  cases made with
  | of a b c d e f =>
      have device_lt := Octets.toNat_lt [d, e, f]
      have joined := Octets.toNat_append [a, b, c] [d, e, f]
      have parted := Octets.toNat_append [a ^^^ 0x02, b, c] [0xFF, 0xFE, d, e, f]
      have marked := Octets.toNat_append [0xFF, 0xFE] [d, e, f]
      have marker : Octets.toNat [0xFF, 0xFE] = 0xFFFE := rfl
      simp only [List.cons_append, List.nil_append, List.length_cons, List.length_nil,
        Nat.zero_add, Nat.reduceAdd, marker] at device_lt joined parted marked
      rw [value_eq] at joined
      have vendor_eq : mac.toNat / 2 ^ 24 = Octets.toNat [a, b, c] := by omega
      have device_eq : mac.toNat % 2 ^ 24 = Octets.toNat [d, e, f] := by omega
      rw [interfaceId, vendor_eq, device_eq, flipUniversal_toNat, parted, marked]
      omega

/-- A MAC address has one identifier. -/
theorem isIdentifier_iff {octets : List Octet} :
    IsIdentifier mac.octets octets ↔
      octets.length = 8 ∧ Octets.toNat octets = mac.interfaceId := by
  constructor
  · exact fun made => ⟨made.length_eq, made.toNat_eq⟩
  · rintro ⟨length_eq, value_eq⟩
    obtain ⟨identifier, made⟩ := mac.exists_isIdentifier
    have same : octets = identifier :=
      Octets.toNat_injective (length_eq.trans made.length_eq.symm)
        (value_eq.trans made.toNat_eq.symm)
    rw [same]
    exact made

/-- An identifier is made from one MAC address at most. -/
theorem ofInterfaceId?_eq_some_iff {id : Nat} (below : id < 2 ^ 64) :
    ofInterfaceId? id = some mac ↔ mac.interfaceId = id := by
  constructor
  · intro found
    unfold ofInterfaceId? at found
    split at found
    · next middle =>
        cases found
        have flipped : flipUniversal (id / 2 ^ 40) < 2 ^ 24 := flipUniversal_lt (by omega)
        have value_eq : toNat ⟨BitVec.ofNat 48
            (flipUniversal (id / 2 ^ 40) * 2 ^ 24 + id % 2 ^ 24)⟩ =
              flipUniversal (id / 2 ^ 40) * 2 ^ 24 + id % 2 ^ 24 := by
          rw [toNat, BitVec.toNat_ofNat, Nat.mod_eq_of_lt (by omega)]
        have vendor : (flipUniversal (id / 2 ^ 40) * 2 ^ 24 + id % 2 ^ 24) / 2 ^ 24 =
            flipUniversal (id / 2 ^ 40) := by omega
        rw [interfaceId, value_eq, vendor, flipUniversal_flipUniversal]
        omega
    · cases found
  · rintro rfl
    exact mac.ofInterfaceId?_interfaceId

end MacAddress

/-!
### Link-local addresses
-/

theorem MacAddress.toNat_linkLocal (mac : MacAddress) :
    mac.linkLocal.toNat = 0xFE80 * 2 ^ 112 + mac.interfaceId := by
  have below := mac.interfaceId_lt
  have toNat_eq : mac.linkLocal.toNat =
      (BitVec.ofNat 128 (0xFE80 * 2 ^ 112 + mac.interfaceId)).toNat := rfl
  rw [toNat_eq, BitVec.toNat_ofNat, Nat.mod_eq_of_lt (by omega)]

namespace Address

theorem octets_ofV6 {octets : List Octet} (length_eq : octets.length = 16) :
    (ofV6 (BitVec.ofNat 128 (Octets.toNat octets))).octets = octets :=
  (Octets.ofNat_toNat_eq_iff length_eq rfl).mpr rfl

theorem mac?_eq_some_iff {address : Address} {mac : MacAddress} :
    address.mac? = some mac ↔
      address.family = .v6 ∧ ¬ IsMulticast address.toNat ∧
        mac.interfaceId = address.toNat % 2 ^ 64 := by
  cases address with
  | v4 bits => exact ⟨nofun, nofun⟩
  | v6 bits mark =>
      have below : bits.toNat % 2 ^ 64 < 2 ^ 64 := Nat.mod_lt _ (by decide)
      change (if IsMulticast bits.toNat then none else _) = some mac ↔
        _ ∧ ¬ IsMulticast bits.toNat ∧ _
      split
      · next multicast => exact ⟨nofun, fun found => absurd multicast found.2.1⟩
      · next unicast =>
          rw [MacAddress.ofInterfaceId?_eq_some_iff below]
          exact ⟨fun found => ⟨rfl, unicast, found⟩, fun found => found.2.2⟩

theorem solicitedNode?_eq_some_iff {address group : Address} :
    address.solicitedNode? = some group ↔
      address.family = .v6 ∧ ¬ IsMulticast address.toNat ∧ 1 < address.toNat ∧
        group = ofV6 (BitVec.ofNat 128
          (0xFF02 * 2 ^ 112 + 0x1FF * 2 ^ 24 + address.toNat % 2 ^ 24)) := by
  cases address with
  | v4 bits => exact ⟨nofun, nofun⟩
  | v6 bits mark =>
      change (if IsMulticast bits.toNat ∨ bits.toNat ≤ 1 then none else some _) = some group ↔
        _ ∧ ¬ IsMulticast bits.toNat ∧ 1 < bits.toNat ∧ _
      split
      · next refused =>
          refine ⟨nofun, fun found => ?_⟩
          rcases refused with multicast | small
          · exact absurd multicast found.2.1
          · exact absurd found.2.2.1 (Nat.not_lt.mpr small)
      · next accepted =>
          obtain ⟨unicast, large⟩ := not_or.mp accepted
          rw [Option.some_inj]
          exact ⟨fun same => ⟨rfl, unicast, Nat.lt_of_not_le large, same.symm⟩,
            fun found => found.2.2.2.symm⟩

/-- Multicast shows in the first octet. -/
theorem isMulticast_iff_of_octets {address : Address} {first : Octet} {rest : List Octet}
    (octets_eq : address.octets = first :: rest) (length_eq : rest.length = 15) :
    IsMulticast address.toNat ↔ first = 0xFF := by
  have value_eq := Octets.toNat_cons first rest
  have below := Octets.toNat_lt rest
  have full : (0xFF : Octet).toNat = 0xFF := rfl
  rw [← octets_eq, toNat_octets, length_eq] at value_eq
  rw [length_eq] at below
  rw [IsMulticast, ← BitVec.toNat_inj, full]
  omega

theorem family_eq_of_length_octets {address : Address} (length_eq : address.octets.length = 16) :
    address.family = .v6 := by
  cases address with
  | v4 bits =>
      rw [length_octets_v4] at length_eq
      cases length_eq
  | v6 bits mark => rfl

theorem exists_octets_eq_of_v6 {address : Address} (isV6 : address.family = .v6) :
    ∃ first rest low, address.octets = first :: (rest ++ low) ∧ rest.length = 7 ∧
      low.length = 8 := by
  have length_eq : address.octets.length = 16 := by
    rw [address.isBigEndian_octets.length_eq, width, isV6]
    rfl
  cases octets_eq : address.octets with
  | nil =>
      rw [octets_eq] at length_eq
      cases length_eq
  | cons first others =>
      rw [octets_eq, List.length_cons] at length_eq
      refine ⟨first, others.take 7, others.drop 7, ?_, ?_, ?_⟩
      · rw [List.take_append_drop]
      · rw [List.length_take]
        omega
      · rw [List.length_drop]
        omega

theorem mac?_eq_some_iff_of_octets {address : Address} {mac : MacAddress} {first : Octet}
    {rest low : List Octet} (octets_eq : address.octets = first :: (rest ++ low))
    (restLength : rest.length = 7) (lowLength : low.length = 8) :
    address.mac? = some mac ↔ first ≠ 0xFF ∧ MacAddress.IsIdentifier mac.octets low := by
  have length_eq : (rest ++ low).length = 15 := by
    rw [List.length_append, restLength, lowLength]
  have isV6 : address.family = .v6 := by
    apply family_eq_of_length_octets
    rw [octets_eq, List.length_cons, length_eq]
  have low_eq : address.toNat % 2 ^ 64 = Octets.toNat low := by
    have parted := Octets.toNat_append (first :: rest) low
    have below := Octets.toNat_lt low
    rw [List.cons_append, ← octets_eq, toNat_octets, lowLength] at parted
    rw [lowLength] at below
    omega
  rw [mac?_eq_some_iff, isMulticast_iff_of_octets octets_eq length_eq, low_eq,
    MacAddress.isIdentifier_iff]
  exact ⟨fun found => ⟨found.2.1, lowLength, found.2.2.symm⟩,
    fun held => ⟨isV6, held.1, held.2.2.symm⟩⟩

/-- The address holds the octets of an identifier after eight others, the first of which is not
`ff`. -/
theorem mac?_eq_some_iff_exists_octets {address : Address} {mac : MacAddress} :
    address.mac? = some mac ↔
      ∃ first rest low, address.octets = first :: (rest ++ low) ∧ rest.length = 7 ∧
        first ≠ 0xFF ∧ MacAddress.IsIdentifier mac.octets low := by
  constructor
  · intro found
    obtain ⟨first, rest, low, octets_eq, restLength, lowLength⟩ :=
      exists_octets_eq_of_v6 (mac?_eq_some_iff.mp found).1
    obtain ⟨unicast, made⟩ :=
      (mac?_eq_some_iff_of_octets octets_eq restLength lowLength).mp found
    exact ⟨first, rest, low, octets_eq, restLength, unicast, made⟩
  · rintro ⟨first, rest, low, octets_eq, restLength, unicast, made⟩
    exact (mac?_eq_some_iff_of_octets octets_eq restLength made.length_eq).mpr ⟨unicast, made⟩

theorem mac?_eq_none_of_isMulticast {address : Address} (multicast : IsMulticast address.toNat) :
    address.mac? = none := by
  rw [Option.eq_none_iff_forall_ne_some]
  intro mac found
  exact (mac?_eq_some_iff.mp found).2.1 multicast

theorem solicitedNode?_eq_none_of_isMulticast {address : Address}
    (multicast : IsMulticast address.toNat) : address.solicitedNode? = none := by
  rw [Option.eq_none_iff_forall_ne_some]
  intro group found
  exact (solicitedNode?_eq_some_iff.mp found).2.1 multicast

end Address

namespace MacAddress

variable {mac : MacAddress}

theorem octets_linkLocal {identifier : List Octet} (made : IsIdentifier mac.octets identifier) :
    mac.linkLocal.octets = [0xFE, 0x80, 0, 0, 0, 0, 0, 0] ++ identifier := by
  have value_eq : Octets.toNat ([0xFE, 0x80, 0, 0, 0, 0, 0, 0] ++ identifier) =
      0xFE80 * 2 ^ 112 + mac.interfaceId := by
    rw [Octets.toNat_append, made.length_eq, made.toNat_eq]
    rfl
  rw [linkLocal, ← value_eq]
  apply Address.octets_ofV6
  rw [List.length_append, made.length_eq]
  rfl

theorem not_isMulticast_linkLocal (mac : MacAddress) :
    ¬ Address.IsMulticast mac.linkLocal.toNat := by
  have below := mac.interfaceId_lt
  rw [Address.IsMulticast, toNat_linkLocal]
  omega

theorem mac?_linkLocal (mac : MacAddress) : mac.linkLocal.mac? = some mac := by
  have below := mac.interfaceId_lt
  rw [Address.mac?_eq_some_iff]
  refine ⟨rfl, mac.not_isMulticast_linkLocal, ?_⟩
  rw [toNat_linkLocal]
  omega

theorem linkLocal_equiv_iff {other : MacAddress} :
    mac.linkLocal ≈ other.linkLocal ↔ mac = other := by
  constructor
  · intro same
    have found : other.linkLocal.mac? = some mac := by
      rw [Address.mac?_eq_some_iff, ← same.1, ← same.2, ← Address.mac?_eq_some_iff]
      exact mac.mac?_linkLocal
    rw [mac?_linkLocal] at found
    exact (Option.some.inj found).symm
  · rintro rfl
    exact Setoid.refl _

/-- `fe80::/64`. -/
def linkLocalNetwork : Network :=
  ⟨.v6 (0xFE80 <<< 112) false, 64⟩

theorem linkLocalNetwork_covers_iff {address : Address} :
    linkLocalNetwork.Covers address ↔
      address.family = .v6 ∧ address.toNat / 2 ^ 64 = 0xFE80 * 2 ^ 48 := by
  have valid : linkLocalNetwork.Valid := by decide
  have base_eq : linkLocalNetwork.base.toNat = 0xFE80 * 2 ^ 112 := by decide
  have size_eq : linkLocalNetwork.size = 2 ^ 64 := by decide
  rw [Network.covers_iff valid, base_eq, size_eq]
  exact and_congr_right fun _ => by omega

/-- Where an identifier leads back to a MAC address, it is the one that is made from it. What comes
before it tells whether the address is link-local. -/
theorem linkLocal_of_mac? {address : Address} (found : address.mac? = some mac) :
    mac.linkLocal.toNat % 2 ^ 64 = address.toNat % 2 ^ 64 ∧
      (mac.linkLocal ≈ address ↔ linkLocalNetwork.Covers address) := by
  have below := mac.interfaceId_lt
  obtain ⟨family_eq, _, id_eq⟩ := Address.mac?_eq_some_iff.mp found
  have value_eq := mac.toNat_linkLocal
  constructor
  · omega
  · rw [linkLocalNetwork_covers_iff]
    constructor
    · intro same
      have sameValue : mac.linkLocal.toNat = address.toNat := same.2
      exact ⟨family_eq, by omega⟩
    · intro covered
      exact ⟨family_eq.symm, by omega⟩

/-!
### Groups of link-local addresses
-/

/-- The group `ff02::1:ff00:0` with the last three octets of the MAC address. Neither a MAC address
nor another group comes of it, with any mark. -/
structure IsSolicitedBy (mac : MacAddress) (group : Address) : Prop where
  octets_eq : group.octets =
    [0xFF, 0x02, 0, 0, 0, 0, 0, 0, 0, 0, 0, 0x01, 0xFF] ++ mac.octets.drop 3
  mac?_eq_none : ∀ address, address ≈ group → address.mac? = none
  solicitedNode?_eq_none : ∀ address, address ≈ group → address.solicitedNode? = none

theorem IsSolicitedBy.of_octets {group : Address} (octets_eq : group.octets =
    [0xFF, 0x02, 0, 0, 0, 0, 0, 0, 0, 0, 0, 0x01, 0xFF] ++ mac.octets.drop 3) :
    mac.IsSolicitedBy group := by
  have multicast : ∀ address, address ≈ group → Address.IsMulticast address.toNat := by
    intro address same
    rw [same.2]
    apply (Address.isMulticast_iff_of_octets octets_eq _).mpr rfl
    simp
  exact ⟨octets_eq, fun _ same => Address.mac?_eq_none_of_isMulticast (multicast _ same),
    fun _ same => Address.solicitedNode?_eq_none_of_isMulticast (multicast _ same)⟩

theorem exists_solicitedNode? (mac : MacAddress) :
    ∃ group, mac.linkLocal.solicitedNode? = some group ∧ mac.IsSolicitedBy group := by
  have below := mac.interfaceId_lt
  have value_eq := mac.toNat_linkLocal
  have device_eq : Octets.toNat (mac.octets.drop 3) = mac.linkLocal.toNat % 2 ^ 24 := by
    rw [Octets.toNat_drop, length_octets, toNat_octets, value_eq, interfaceId]
    omega
  have group_eq : Octets.toNat ([0xFF, 0x02, 0, 0, 0, 0, 0, 0, 0, 0, 0, 0x01, 0xFF] ++
      mac.octets.drop 3) = 0xFF02 * 2 ^ 112 + 0x1FF * 2 ^ 24 + mac.linkLocal.toNat % 2 ^ 24 := by
    rw [Octets.toNat_append, List.length_drop, length_octets, device_eq]
    rfl
  refine ⟨_, Address.solicitedNode?_eq_some_iff.mpr
    ⟨rfl, mac.not_isMulticast_linkLocal, by omega, rfl⟩, .of_octets ?_⟩
  rw [← group_eq]
  apply Address.octets_ofV6
  simp

theorem IsSolicitedBy.equiv_iff {other : MacAddress} {group otherGroup : Address}
    (solicited : mac.IsSolicitedBy group) (otherSolicited : other.IsSolicitedBy otherGroup) :
    group ≈ otherGroup ↔ mac.octets.drop 3 = other.octets.drop 3 := by
  rw [Address.equiv_iff_octets_eq, solicited.octets_eq, otherSolicited.octets_eq,
    List.append_cancel_left_eq]

/-- What is made from a MAC address and what comes back from it. -/
structure IsRecovered (mac : MacAddress) : Prop where
  octets_linkLocal : ∃ identifier, IsIdentifier mac.octets identifier ∧
    mac.linkLocal.octets = [0xFE, 0x80, 0, 0, 0, 0, 0, 0] ++ identifier
  mac?_iff_octets : ∀ address : Address, address.mac? = some mac ↔
    ∃ first rest low, address.octets = first :: (rest ++ low) ∧ rest.length = 7 ∧
      first ≠ 0xFF ∧ IsIdentifier mac.octets low
  mac?_linkLocal : mac.linkLocal.mac? = some mac
  linkLocal_injective : ∀ other : MacAddress, mac.linkLocal ≈ other.linkLocal → mac = other
  of_mac? : ∀ address : Address, address.mac? = some mac →
    mac.linkLocal.toNat % 2 ^ 64 = address.toNat % 2 ^ 64 ∧
      (mac.linkLocal ≈ address ↔ linkLocalNetwork.Covers address)
  solicits : ∃ group, mac.linkLocal.solicitedNode? = some group ∧ mac.IsSolicitedBy group
  same_group_iff : ∀ (other : MacAddress) group otherGroup,
    mac.linkLocal.solicitedNode? = some group →
    other.linkLocal.solicitedNode? = some otherGroup →
      (group ≈ otherGroup ↔ mac.octets.drop 3 = other.octets.drop 3)

end MacAddress

open MacAddress

/-- Making an identifier and taking the MAC address out of it undo each other, and the group that
goes with it shows the last three octets. -/
theorem identifiersInvert (mac : MacAddress) : mac.IsRecovered where
  octets_linkLocal := by
    obtain ⟨identifier, made⟩ := mac.exists_isIdentifier
    exact ⟨identifier, made, octets_linkLocal made⟩
  mac?_iff_octets := fun _ => Address.mac?_eq_some_iff_exists_octets
  mac?_linkLocal := mac.mac?_linkLocal
  linkLocal_injective := fun _ => linkLocal_equiv_iff.mp
  of_mac? := fun _ => linkLocal_of_mac?
  solicits := mac.exists_solicitedNode?
  same_group_iff := by
    intro other group otherGroup found otherFound
    obtain ⟨_, solicited, shown⟩ := mac.exists_solicitedNode?
    obtain ⟨_, otherSolicited, otherShown⟩ := other.exists_solicitedNode?
    rw [solicited] at found
    rw [otherSolicited] at otherFound
    cases found
    cases otherFound
    exact shown.equiv_iff otherShown

/-- `2001:db8::20e:cff:fe33:d204` holds `00:0e:0c:33:d2:04` outside of `fe80::/64`, and another
vendor's `00:00:00:33:d2:04` shares its group. -/
theorem identifiersInvert_outside :
    Address.mac? (.v6 0x20010DB800000000020E0CFFFE33D204 true) = some ⟨0x000E0C33D204⟩ ∧
      ¬ linkLocal ⟨0x000E0C33D204⟩ ≈ .v6 0x20010DB800000000020E0CFFFE33D204 true ∧
      ∃ group otherGroup, Address.solicitedNode? (linkLocal ⟨0x000E0C33D204⟩) = some group ∧
        Address.solicitedNode? (linkLocal ⟨0x00000033D204⟩) = some otherGroup ∧
        group ≈ otherGroup := by
  have recovered := identifiersInvert ⟨0x000E0C33D204⟩
  have found : Address.mac? (.v6 0x20010DB800000000020E0CFFFE33D204 true) =
      some ⟨0x000E0C33D204⟩ := by decide
  obtain ⟨group, solicited, _⟩ := recovered.solicits
  obtain ⟨otherGroup, otherSolicited, _⟩ := exists_solicitedNode? ⟨0x00000033D204⟩
  refine ⟨found, ?_, group, otherGroup, solicited, otherSolicited, ?_⟩
  · rw [(recovered.of_mac? _ found).2]
    decide
  · exact (recovered.same_group_iff _ _ _ solicited otherSolicited).mpr (by decide)

end Netblock
