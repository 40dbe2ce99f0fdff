import Mathlib.Order.Bounds.Basic
import Netblock.Proofs.RoundTrip
/-!
# Classful prefix lengths

The prefix length that a network literal stands for when it gives none. An IPv4 address takes the
shortest length of a class that its own class allows and that leaves no host bits; an address for
which there is none, and every IPv6 address, stands for itself.
-/

set_option autoImplicit false

namespace Netblock

/-- The shortest prefix length of class A, B or C by the first octet of an address. From 224 on
there is no class. -/
def classMinimum? (first : Octet) : Option Nat :=
  if first.toNat ≤ 127 then some 8
  else if first.toNat ≤ 191 then some 16
  else if first.toNat ≤ 223 then some 24
  else none

/-- The lengths of a class that an address may have: none below that of its own class, and none
that leaves host bits. -/
def classLengths (address : Address) : Set Nat :=
  {len | len ∈ [8, 16, 24] ∧ address.IsAligned len ∧
    ∃ first ∈ address.octets.head?, ∃ shortest ∈ classMinimum? first, shortest ≤ len}

inductive IsImpliedPrefixLen (address : Address) (prefixLen : Nat) : Prop where
  | v6 (family_eq : address.family = .v6) (full : prefixLen = 128)
  | classful (family_eq : address.family = .v4) (least : IsLeast (classLengths address) prefixLen)
  | host (family_eq : address.family = .v4) (classless : classLengths address = ∅)
      (full : prefixLen = 32)

/-- No address stands for two networks. -/
theorem IsImpliedPrefixLen.unique {address : Address} {left right : Nat}
    (leftImplied : IsImpliedPrefixLen address left)
    (rightImplied : IsImpliedPrefixLen address right) : left = right := by
  cases leftImplied with
  | v6 isV6 leftFull =>
      cases rightImplied with
      | v6 _ rightFull => exact leftFull.trans rightFull.symm
      | classful isV4 _ => exact nomatch isV6.symm.trans isV4
      | host isV4 _ _ => exact nomatch isV6.symm.trans isV4
  | classful isV4 leftLeast =>
      cases rightImplied with
      | v6 isV6 _ => exact nomatch isV6.symm.trans isV4
      | classful _ rightLeast => exact leftLeast.unique rightLeast
      | host _ classless _ => exact absurd leftLeast.1 (classless ▸ Set.notMem_empty left)
  | host isV4 classless leftFull =>
      cases rightImplied with
      | v6 isV6 _ => exact nomatch isV6.symm.trans isV4
      | classful _ rightLeast => exact absurd rightLeast.1 (classless ▸ Set.notMem_empty right)
      | host _ _ rightFull => exact leftFull.trans rightFull.symm

theorem exists_classMinimum?_le_iff {first : Octet} {len : Nat} :
    (∃ shortest ∈ classMinimum? first, shortest ≤ len) ↔
      first.toNat ≤ 127 ∧ 8 ≤ len ∨ first.toNat ≤ 191 ∧ 16 ≤ len ∨
        first.toNat ≤ 223 ∧ 24 ≤ len := by
  unfold classMinimum?
  split
  · simp only [Option.mem_some_iff, exists_eq_left']
    omega
  · split
    · simp only [Option.mem_some_iff, exists_eq_left']
      omega
    · split
      · simp only [Option.mem_some_iff, exists_eq_left']
        omega
      · simp only [Option.not_mem_none, false_and, exists_false, false_iff]
        omega

theorem mem_classLengths_iff {bits : BitVec 32} {len : Nat} :
    len ∈ classLengths (.v4 bits) ↔
      len = 8 ∧ bits.toNat / 2 ^ 24 < 128 ∧ bits.toNat % 2 ^ 24 = 0 ∨
      len = 16 ∧ bits.toNat / 2 ^ 24 < 192 ∧ bits.toNat % 2 ^ 16 = 0 ∨
      len = 24 ∧ bits.toNat / 2 ^ 24 < 224 ∧ bits.toNat % 2 ^ 8 = 0 := by
  obtain ⟨first, b, c, d, octets_eq, value_eq⟩ := Address.exists_octets_v4 bits
  have bBelow := b.isLt
  have cBelow := c.isLt
  have dBelow := d.isLt
  have first_eq : bits.toNat / 2 ^ 24 = first.toNat := by omega
  have aligned_iff : (Address.v4 bits).IsAligned len ↔ bits.toNat % 2 ^ (32 - len) = 0 := Iff.rfl
  simp only [classLengths, Set.mem_ofPred_eq, octets_eq, List.head?_cons, Option.mem_some_iff,
    exists_eq_left', exists_classMinimum?_le_iff, aligned_iff, first_eq, List.mem_cons,
    List.not_mem_nil, or_false]
  constructor
  · rintro ⟨rfl | rfl | rfl, cleared, allowed⟩
    · exact .inl ⟨rfl, by omega, cleared⟩
    · exact .inr (.inl ⟨rfl, by omega, cleared⟩)
    · exact .inr (.inr ⟨rfl, by omega, cleared⟩)
  · rintro (⟨rfl, allowed, cleared⟩ | ⟨rfl, allowed, cleared⟩ | ⟨rfl, allowed, cleared⟩)
    · exact ⟨by decide, cleared, by omega⟩
    · exact ⟨by decide, cleared, by omega⟩
    · exact ⟨by decide, cleared, by omega⟩

namespace Network

/-- The classes are tried from the shortest length on, so the first that fits is the least. -/
theorem isImpliedPrefixLen_classfulPrefixLen (bits : BitVec 32) :
    IsImpliedPrefixLen (.v4 bits) (classfulPrefixLen bits) := by
  unfold classfulPrefixLen
  dsimp only
  split
  · next classA =>
      refine .classful rfl ⟨mem_classLengths_iff.mpr (.inl ⟨rfl, classA⟩), ?_⟩
      intro len member
      rcases mem_classLengths_iff.mp member with other | other | other
      all_goals omega
  · next notA =>
      split
      · next classB =>
          refine .classful rfl ⟨mem_classLengths_iff.mpr (.inr (.inl ⟨rfl, classB⟩)), ?_⟩
          intro len member
          rcases mem_classLengths_iff.mp member with other | other | other
          · exact absurd other.2 notA
          all_goals omega
      · next notB =>
          split
          · next classC =>
              refine .classful rfl ⟨mem_classLengths_iff.mpr (.inr (.inr ⟨rfl, classC⟩)), ?_⟩
              intro len member
              rcases mem_classLengths_iff.mp member with other | other | other
              · exact absurd other.2 notA
              · exact absurd other.2 notB
              · omega
          · next notC =>
              refine .host rfl (Set.eq_empty_iff_forall_notMem.mpr ?_) rfl
              intro len member
              rcases mem_classLengths_iff.mp member with other | other | other
              · exact notA other.2
              · exact notB other.2
              · exact notC other.2

theorem isImpliedPrefixLen_iff {address : Address} {prefixLen : Nat} :
    IsImpliedPrefixLen address prefixLen ↔ impliedPrefixLen address = prefixLen := by
  have implied : IsImpliedPrefixLen address (impliedPrefixLen address) := by
    cases address with
    | v4 bits => exact isImpliedPrefixLen_classfulPrefixLen bits
    | v6 bits mark => exact .v6 rfl rfl
  constructor
  · intro other
    exact implied.unique other
  · intro implied_eq
    exact implied_eq ▸ implied

end Network

end Netblock
