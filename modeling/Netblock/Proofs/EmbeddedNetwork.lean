import Netblock.Proofs.EmbeddingMark
import Netblock.Proofs.Split
import Netblock.Proofs.UsableHosts
import Netblock.Proofs.WrittenForm
/-!
# The IPv4 network inside an IPv6 network

A marked IPv6 network with a prefix longer than 96 is its first twelve octets and the IPv4 network
in the last four. Bounds, usable hosts, membership and blocks are those of the IPv4 network, behind
the same twelve octets: nothing that is computed in the network reaches them.
-/

set_option autoImplicit false

namespace Netblock

namespace Octets

theorem ofNat_add (leading trailing value : Nat) :
    ofNat (leading + trailing) value =
      ofNat leading (value / 256 ^ trailing) ++ ofNat trailing value := by
  rw [ofNat, Positional.encode_add, List.map_append]
  rfl

end Octets

namespace Address

/-- The first twelve octets of an IPv6 address. -/
def front (address : Address) : List Octet :=
  address.octets.take 12

/-- The IPv4 address in the last four octets of an IPv6 address. -/
def tail (address : Address) : Address :=
  .v4 (BitVec.ofNat 32 (Octets.toNat (address.octets.drop 12)))

/-- The marked IPv6 address of twelve octets with an IPv4 address behind them. -/
def behind (front : List Octet) (tail : Address) : Address :=
  .v6 (BitVec.ofNat 128 (Octets.toNat (front ++ tail.octets))) true

section

variable {address : Address}

theorem front_eq (isV6 : address.family = .v6) :
    address.front = Octets.ofNat 12 (address.toNat / 2 ^ 32) := by
  cases address with
  | v4 bits => cases isV6
  | v6 bits mark =>
      rw [front, octets_v6, Octets.ofNat_add 12 4]
      exact List.take_left' (Octets.length_ofNat _ _)

theorem toNat_tail (isV6 : address.family = .v6) : address.tail.toNat = address.toNat % 2 ^ 32 := by
  cases address with
  | v4 bits => cases isV6
  | v6 bits mark =>
      have dropped : (v6 bits mark).octets.drop 12 = Octets.ofNat 4 bits.toNat := by
        rw [octets_v6, Octets.ofNat_add 12 4]
        exact List.drop_left' (Octets.length_ofNat _ _)
      rw [tail, dropped, Octets.toNat_ofNat]
      exact Nat.mod_mod_of_dvd _ (Nat.dvd_refl _)

theorem toNat_div_lt (isV6 : address.family = .v6) : address.toNat / 2 ^ 32 < 256 ^ 12 := by
  cases address with
  | v4 bits => cases isV6
  | v6 bits mark =>
      have below : bits.toNat < 2 ^ 128 := bits.isLt
      change bits.toNat / 2 ^ 32 < 256 ^ 12
      omega

/-- Equal first octets are equal quotients. -/
theorem front_eq_iff {other : Address} (isV6 : address.family = .v6)
    (otherIsV6 : other.family = .v6) :
    address.front = other.front ↔ address.toNat / 2 ^ 32 = other.toNat / 2 ^ 32 := by
  rw [front_eq isV6, front_eq otherIsV6]
  constructor
  · intro same
    have sameValue := congrArg Octets.toNat same
    rwa [Octets.toNat_ofNat, Octets.toNat_ofNat, Nat.mod_eq_of_lt (toNat_div_lt isV6),
      Nat.mod_eq_of_lt (toNat_div_lt otherIsV6)] at sameValue
  · intro sameQuotient
    rw [sameQuotient]

theorem toNat_behind_front {tail : Address} (isV6 : address.family = .v6)
    (tailIsV4 : tail.family = .v4) :
    (behind address.front tail).toNat = address.toNat / 2 ^ 32 * 2 ^ 32 + tail.toNat := by
  cases tail with
  | v6 bits mark => cases tailIsV4
  | v4 bits =>
      have quotient_lt := toNat_div_lt isV6
      have below : bits.toNat < 256 ^ 4 := bits.isLt
      have spelled : Octets.toNat (address.front ++ (v4 bits).octets) =
          address.toNat / 2 ^ 32 * 256 ^ 4 + bits.toNat := by
        rw [Octets.toNat_append, front_eq isV6, octets_v4, Octets.length_ofNat, Octets.toNat_ofNat,
          Octets.toNat_ofNat, Nat.mod_eq_of_lt quotient_lt, Nat.mod_eq_of_lt below]
      change Octets.toNat (address.front ++ (v4 bits).octets) % 2 ^ 128 = _
      rw [spelled]
      change (address.toNat / 2 ^ 32 * 256 ^ 4 + bits.toNat) % 2 ^ 128 =
        address.toNat / 2 ^ 32 * 2 ^ 32 + bits.toNat
      omega

end

theorem toNat_lt_of_isV4 {address : Address} (isV4 : address.family = .v4) :
    address.toNat < 2 ^ 32 := by
  have below := address.toNat_lt
  rwa [width, isV4] at below

/-- IPv4 addresses have no marks to tell equivalent ones apart. -/
theorem eq_of_equiv {left right : Address} (same : left ≈ right) (isV4 : right.family = .v4) :
    left = right := by
  cases left with
  | v4 _ =>
      cases right with
      | v4 _ => exact congrArg v4 (BitVec.eq_of_toNat_eq same.2)
      | v6 _ _ => cases isV4
  | v6 _ _ => cases same.1.trans isV4

end Address

namespace Network

/-- The IPv4 network in the last four octets of an IPv6 network longer than 96. -/
def embedded (network : Network) : Network :=
  ⟨network.base.tail, network.prefixLen - 96⟩

/-- A marked IPv6 network that lies within an embedded IPv4 address space. -/
structure EmbedsNetwork (network : Network) : Prop where
  valid : network.Valid
  isV6 : network.family = .v6
  marked : network.base.mark = true
  long : 97 ≤ network.prefixLen

namespace EmbedsNetwork

variable {network : Network}

theorem width_eq (embeds : network.EmbedsNetwork) : network.width = 128 :=
  congrArg Family.width embeds.isV6

theorem prefixLen_le (embeds : network.EmbedsNetwork) : network.prefixLen ≤ 128 := by
  rw [← embeds.width_eq]
  exact embeds.valid.prefixLen_le

theorem hostBits_embedded (embeds : network.EmbedsNetwork) :
    network.embedded.hostBits = network.hostBits := by
  have long := embeds.long
  have prefixLen_le := embeds.prefixLen_le
  change 32 - (network.prefixLen - 96) = network.width - network.prefixLen
  rw [embeds.width_eq]
  omega

theorem size_embedded (embeds : network.EmbedsNetwork) : network.embedded.size = network.size :=
  congrArg (2 ^ ·) embeds.hostBits_embedded

theorem isHost_embedded_iff (embeds : network.EmbedsNetwork) :
    network.embedded.IsHost ↔ network.IsHost := by
  have long := embeds.long
  have prefixLen_le := embeds.prefixLen_le
  change network.prefixLen - 96 = 32 ↔ network.prefixLen = network.width
  rw [embeds.width_eq]
  omega

theorem toNat_base_embedded (embeds : network.EmbedsNetwork) :
    network.embedded.base.toNat = network.base.toNat % 2 ^ 32 :=
  Address.toNat_tail embeds.isV6

theorem valid_embedded (embeds : network.EmbedsNetwork) : network.embedded.Valid where
  prefixLen_le := by
    have prefixLen_le := embeds.prefixLen_le
    change network.prefixLen - 96 ≤ 32
    omega
  aligned := by
    have divides_space : network.embedded.size ∣ 2 ^ 32 := Valid.size_dvd_space network.embedded
    have divides : network.embedded.size ∣ network.base.toNat % 2 ^ 32 := by
      rw [Nat.dvd_mod_iff divides_space, embeds.size_embedded]
      exact embeds.valid.size_dvd_base
    rw [← embeds.toNat_base_embedded] at divides
    exact Nat.mod_eq_zero_of_dvd divides

theorem usableRule_eq (embeds : network.EmbedsNetwork) : network.usableRule = .excludeEdges := by
  obtain ⟨base, prefixLen⟩ := network
  cases base with
  | v4 bits => rfl
  | v6 bits mark =>
      have mark_eq : mark = true := embeds.marked
      rw [mark_eq]
      rfl

/-- Both networks keep their edges, unless both are hosts. -/
theorem margin_embedded (embeds : network.EmbedsNetwork) :
    network.embedded.margin network.embedded.usableRule = network.margin network.usableRule := by
  have innerRule : network.embedded.usableRule = .excludeEdges := rfl
  simp only [margin, innerRule, embeds.usableRule_eq, embeds.isHost_embedded_iff]

theorem mark_low (embeds : network.EmbedsNetwork) : network.low.mark = true :=
  Address.mark_withValue_iff.mpr (.inl embeds.marked)

theorem mark_high (embeds : network.EmbedsNetwork) : network.high.mark = true :=
  Address.mark_withValue_iff.mpr (.inl embeds.marked)

theorem mark_lowestUsable (embeds : network.EmbedsNetwork) : network.lowestUsable.mark = true := by
  unfold lowestUsable lowestUsableWith
  split
  · exact Address.mark_withValue_iff.mpr (.inl embeds.mark_low)
  · exact embeds.mark_low

theorem mark_highestUsable (embeds : network.EmbedsNetwork) :
    network.highestUsable.mark = true := by
  unfold highestUsable highestUsableWith
  split
  · exact Address.mark_withValue_iff.mpr (.inl embeds.mark_high)
  · exact embeds.mark_high

/-- At any distance from the base within the network the first twelve octets stay. -/
theorem eq_behind (embeds : network.EmbedsNetwork) {whole tail : Address} {distance : Nat}
    (sameFamily : whole.family = network.family) (marked : whole.mark = true)
    (tailIsV4 : tail.family = .v4) (whole_eq : whole.toNat = network.base.toNat + distance)
    (tail_eq : tail.toNat = network.embedded.base.toNat + distance) :
    whole = Address.behind network.base.front tail := by
  refine Address.ext (sameFamily.trans embeds.isV6) ?_ marked
  have split := Nat.div_add_mod network.base.toNat (2 ^ 32)
  rw [Address.toNat_behind_front embeds.isV6 tailIsV4, whole_eq, tail_eq,
    embeds.toNat_base_embedded]
  omega

theorem low_eq (embeds : network.EmbedsNetwork) :
    network.low = .behind network.base.front network.embedded.low := by
  have distance_eq := embeds.valid.toNat_low.trans (Nat.add_zero _).symm
  have innerDistance_eq := embeds.valid_embedded.toNat_low.trans (Nat.add_zero _).symm
  exact embeds.eq_behind (family_low network) embeds.mark_low (family_low network.embedded)
    distance_eq innerDistance_eq

theorem high_eq (embeds : network.EmbedsNetwork) :
    network.high = .behind network.base.front network.embedded.high := by
  refine embeds.eq_behind (family_high network) embeds.mark_high (family_high network.embedded)
    embeds.valid.toNat_high ?_
  rw [embeds.valid_embedded.toNat_high, embeds.size_embedded]

theorem lowestUsable_eq (embeds : network.EmbedsNetwork) :
    network.lowestUsable = .behind network.base.front network.embedded.lowestUsable := by
  refine embeds.eq_behind (family_lowestUsableWith network _) embeds.mark_lowestUsable
    (family_lowestUsableWith network.embedded _) (embeds.valid.toNat_lowestUsableWith _) ?_
  rw [← embeds.margin_embedded]
  exact embeds.valid_embedded.toNat_lowestUsableWith _

theorem highestUsable_eq (embeds : network.EmbedsNetwork) :
    network.highestUsable = .behind network.base.front network.embedded.highestUsable := by
  refine embeds.eq_behind (family_highestUsableWith network _) embeds.mark_highestUsable
    (family_highestUsableWith network.embedded _) (embeds.valid.toNat_highestUsableWith _) ?_
  rw [← embeds.margin_embedded, ← embeds.size_embedded]
  exact embeds.valid_embedded.toNat_highestUsableWith _

theorem broadcast?_eq (embeds : network.EmbedsNetwork) :
    network.broadcast? = network.embedded.broadcast?.map (.behind network.base.front) := by
  have found : network.broadcast? = some network.high := by
    obtain ⟨base, prefixLen⟩ := network
    cases base with
    | v4 bits => rfl
    | v6 bits mark => exact if_pos ⟨embeds.marked, embeds.long⟩
  rw [found, embeds.high_eq]
  rfl

theorem usableRange?_eq (embeds : network.EmbedsNetwork) :
    network.usableRange? = network.embedded.usableRange?.map fun range =>
      (.behind network.base.front range.1, .behind network.base.front range.2) := by
  have sameCondition : network.embedded.lowestUsable ≤ network.embedded.highestUsable ↔
      network.lowestUsable ≤ network.highestUsable := by
    rw [embeds.valid.lowestUsable_le_highestUsable_iff,
      embeds.valid_embedded.lowestUsable_le_highestUsable_iff, embeds.margin_embedded,
      embeds.size_embedded]
  unfold usableRange?
  by_cases nonempty : network.lowestUsable ≤ network.highestUsable
  · rw [if_pos nonempty, if_pos (sameCondition.mpr nonempty), embeds.lowestUsable_eq,
      embeds.highestUsable_eq]
    rfl
  · rw [if_neg nonempty, if_neg (mt sameCondition.mp nonempty)]
    rfl

theorem contains_iff (embeds : network.EmbedsNetwork) {address : Address}
    (isV6 : address.family = .v6) :
    network.contains address = .ok true ↔
      address.front = network.base.front ∧
        network.embedded.contains address.tail = .ok true := by
  have inner : network.embedded.base.toNat + network.embedded.size ≤ 2 ^ 32 :=
    embeds.valid_embedded.base_add_size_le
  rw [embeds.toNat_base_embedded, embeds.size_embedded] at inner
  rw [embeds.valid.contains_eq_ok_true_iff, embeds.valid_embedded.contains_eq_ok_true_iff,
    Address.front_eq_iff isV6 embeds.isV6, Address.toNat_tail isV6, embeds.margin_embedded,
    embeds.toNat_base_embedded, embeds.size_embedded]
  constructor
  · intro inside
    obtain ⟨_, above, below⟩ := inside
    exact ⟨by omega, rfl, by omega, by omega⟩
  · intro inside
    obtain ⟨sameUpper, _, above, below⟩ := inside
    exact ⟨isV6.trans embeds.isV6.symm, by omega, by omega⟩

theorem splitByPower_isOk_iff (embeds : network.EmbedsNetwork) (power : Nat) :
    (∃ blocks, network.splitByPower power = .ok blocks) ↔
      ∃ blocks, network.embedded.splitByPower power = .ok blocks := by
  have long := embeds.long
  have fits_iff : network.prefixLen + power ≤ network.width ↔
      network.embedded.prefixLen + power ≤ network.embedded.width := by
    change _ ↔ network.prefixLen - 96 + power ≤ 32
    rw [embeds.width_eq]
    omega
  simp only [splitByPower_eq_ok_iff, fits_iff, exists_and_left, exists_eq]

section

variable {power index : Nat} {blocks inner : List Network}

/-- Blocks at the same place of the two splits have the same bits after the first twelve octets. -/
theorem toNat_getElem_splitByPower (embeds : network.EmbedsNetwork)
    (accepted : network.splitByPower power = .ok blocks)
    (innerAccepted : network.embedded.splitByPower power = .ok inner)
    (inRange : index < blocks.length) (innerInRange : index < inner.length) :
    blocks[index].base.toNat =
      network.base.toNat / 2 ^ 32 * 2 ^ 32 + inner[index].base.toNat := by
  have base_eq := (embeds.valid.tiles_of_splitByPower accepted).base_eq inRange
  have innerBase_eq :=
    (embeds.valid_embedded.tiles_of_splitByPower innerAccepted).base_eq innerInRange
  have sameHostBits : network.embedded.width - network.embedded.prefixLen =
      network.width - network.prefixLen := embeds.hostBits_embedded
  rw [sameHostBits, embeds.toNat_base_embedded] at innerBase_eq
  have split := Nat.div_add_mod network.base.toNat (2 ^ 32)
  omega

theorem family_getElem_splitByPower (embeds : network.EmbedsNetwork)
    (accepted : network.splitByPower power = .ok blocks) (inRange : index < blocks.length) :
    blocks[index].base.family = .v6 := by
  have tiles := embeds.valid.tiles_of_splitByPower accepted
  exact (tiles.family_eq (List.getElem_mem inRange)).trans embeds.isV6

theorem family_getElem_splitByPower_embedded (embeds : network.EmbedsNetwork)
    (innerAccepted : network.embedded.splitByPower power = .ok inner)
    (innerInRange : index < inner.length) : inner[index].base.family = .v4 :=
  (embeds.valid_embedded.tiles_of_splitByPower innerAccepted).family_eq
    (List.getElem_mem innerInRange)

theorem embedded_getElem_splitByPower (embeds : network.EmbedsNetwork)
    (accepted : network.splitByPower power = .ok blocks)
    (innerAccepted : network.embedded.splitByPower power = .ok inner)
    (inRange : index < blocks.length) (innerInRange : index < inner.length) :
    blocks[index].embedded = inner[index] := by
  have isV4 := embeds.family_getElem_splitByPower_embedded innerAccepted innerInRange
  have below := Address.toNat_lt_of_isV4 isV4
  have sameBase : blocks[index].base.tail ≈ inner[index].base := by
    refine ⟨isV4.symm, ?_⟩
    rw [Address.toNat_tail (embeds.family_getElem_splitByPower accepted inRange),
      embeds.toNat_getElem_splitByPower accepted innerAccepted inRange innerInRange]
    omega
  have samePrefixLen : blocks[index].prefixLen - 96 = inner[index].prefixLen := by
    have located := (embeds.valid.tiles_of_splitByPower accepted).row index inRange
    have innerLocated :=
      (embeds.valid_embedded.tiles_of_splitByPower innerAccepted).row index innerInRange
    have long := embeds.long
    rw [located.prefixLen_eq, innerLocated.prefixLen_eq]
    change network.prefixLen + power - 96 = network.prefixLen - 96 + power
    omega
  rw [embedded, Address.eq_of_equiv sameBase isV4, samePrefixLen]

/-- The blocks embed the blocks of the embedded network, in the same order. -/
theorem splitByPower_embedded (embeds : network.EmbedsNetwork)
    (accepted : network.splitByPower power = .ok blocks) :
    network.embedded.splitByPower power = .ok (blocks.map embedded) := by
  obtain ⟨inner, innerAccepted⟩ := (embeds.splitByPower_isOk_iff power).mp ⟨blocks, accepted⟩
  have sameLength : (blocks.map embedded).length = inner.length := by
    rw [List.length_map, (embeds.valid.tiles_of_splitByPower accepted).length_eq,
      (embeds.valid_embedded.tiles_of_splitByPower innerAccepted).length_eq]
  have same : blocks.map embedded = inner := by
    apply List.ext_getElem sameLength
    intro index mappedInRange innerInRange
    have inRange : index < blocks.length := by rwa [List.length_map] at mappedInRange
    rw [List.getElem_map]
    exact embeds.embedded_getElem_splitByPower accepted innerAccepted inRange innerInRange
  rw [innerAccepted, same]

theorem mark_of_mem_splitByPower (embeds : network.EmbedsNetwork)
    (accepted : network.splitByPower power = .ok blocks) {block : Network}
    (member : block ∈ blocks) : block.base.mark = true := by
  obtain ⟨_, _, _, rfl⟩ := splitByPower_eq_ok_iff.mp accepted
  have marked : (network.firstBlock power).base.mark = true := embeds.marked
  exact mark_of_mem_chain marked member

theorem front_of_mem_splitByPower (embeds : network.EmbedsNetwork)
    (accepted : network.splitByPower power = .ok blocks) {block : Network}
    (member : block ∈ blocks) : block.base.front = network.base.front := by
  obtain ⟨index, inRange, rfl⟩ := List.getElem_of_mem member
  have innerAccepted := embeds.splitByPower_embedded accepted
  have innerInRange : index < (blocks.map embedded).length := by rwa [List.length_map]
  have below := Address.toNat_lt_of_isV4
    (embeds.family_getElem_splitByPower_embedded innerAccepted innerInRange)
  rw [Address.front_eq_iff (embeds.family_getElem_splitByPower accepted inRange) embeds.isV6,
    embeds.toNat_getElem_splitByPower accepted innerAccepted inRange innerInRange]
  omega

end

end EmbedsNetwork

/-- An IPv6 network does what an IPv4 network does, behind its own first twelve octets. -/
structure Mirrors (network inner : Network) : Prop where
  valid : inner.Valid
  isV4 : inner.family = .v4
  low_eq : network.low = .behind network.base.front inner.low
  high_eq : network.high = .behind network.base.front inner.high
  lowestUsable_eq : network.lowestUsable = .behind network.base.front inner.lowestUsable
  highestUsable_eq : network.highestUsable = .behind network.base.front inner.highestUsable
  broadcast?_eq : network.broadcast? = inner.broadcast?.map (.behind network.base.front)
  usableRange?_eq : network.usableRange? = inner.usableRange?.map fun range =>
    (.behind network.base.front range.1, .behind network.base.front range.2)
  hostBits_eq : network.hostBits = inner.hostBits
  size_eq : network.size = inner.size
  isHost_iff : network.IsHost ↔ inner.IsHost
  contains_iff : ∀ address : Address, address.family = .v6 →
    (network.contains address = .ok true ↔
      address.front = network.base.front ∧ inner.contains address.tail = .ok true)
  splitByPower_isOk_iff : ∀ power, (∃ blocks, network.splitByPower power = .ok blocks) ↔
    ∃ blocks, inner.splitByPower power = .ok blocks
  splitByPower_eq : ∀ power blocks, network.splitByPower power = .ok blocks →
    inner.splitByPower power = .ok (blocks.map embedded) ∧
      ∀ block ∈ blocks, block.base.mark = true ∧ block.base.front = network.base.front

/-- A marked IPv6 network with a prefix longer than 96 does what the IPv4 network in its last
four octets does. -/
theorem mirrors_embedded {network : Network} (embeds : network.EmbedsNetwork) :
    network.Mirrors network.embedded where
  valid := embeds.valid_embedded
  isV4 := rfl
  low_eq := embeds.low_eq
  high_eq := embeds.high_eq
  lowestUsable_eq := embeds.lowestUsable_eq
  highestUsable_eq := embeds.highestUsable_eq
  broadcast?_eq := embeds.broadcast?_eq
  usableRange?_eq := embeds.usableRange?_eq
  hostBits_eq := embeds.hostBits_embedded.symm
  size_eq := embeds.size_embedded.symm
  isHost_iff := embeds.isHost_embedded_iff.symm
  contains_iff := fun _ isV6 => embeds.contains_iff isV6
  splitByPower_isOk_iff := embeds.splitByPower_isOk_iff
  splitByPower_eq := fun _ _ accepted =>
    ⟨embeds.splitByPower_embedded accepted, fun _ member =>
      ⟨embeds.mark_of_mem_splitByPower accepted member,
        embeds.front_of_mem_splitByPower accepted member⟩⟩

/-- 2002::123.45.67.64/122 does what 123.45.67.64/26 does. -/
theorem mirrors_embedded_outside_rule :
    (⟨.v6 0x2002000000000000000000007b2d4340 true, 122⟩ : Network).EmbedsNetwork ∧
      (⟨.v6 0x2002000000000000000000007b2d4340 true, 122⟩ : Network).Mirrors
        ⟨.v4 0x7b2d4340, 26⟩ := by
  have embeds : (⟨.v6 0x2002000000000000000000007b2d4340 true, 122⟩ : Network).EmbedsNetwork :=
    ⟨by decide, rfl, rfl, by decide⟩
  exact ⟨embeds, mirrors_embedded embeds⟩

end Network

end Netblock
