import Netblock.Address.Text
/-!
# Networks

A network is a base address and the length of the prefix that its addresses share. `Valid`
networks keep the prefix within the address and clear every bit of the base after it; the
operations on networks promise their results for valid ones.
-/

set_option autoImplicit false

namespace Netblock

namespace Address

/-- No bit is set after the prefix. -/
def IsAligned (address : Address) (prefixLen : Nat) : Prop :=
  address.toNat % 2 ^ (address.width - prefixLen) = 0

instance (address : Address) (prefixLen : Nat) : Decidable (address.IsAligned prefixLen) :=
  inferInstanceAs (Decidable (_ = _))

/-- The address with all bits after the prefix cleared. -/
def truncate (address : Address) (prefixLen : Nat) : Address :=
  address.withValue (address.toNat - address.toNat % 2 ^ (address.width - prefixLen))

@[simp]
theorem family_truncate (address : Address) (prefixLen : Nat) :
    (address.truncate prefixLen).family = address.family :=
  family_withValue _ _

@[simp]
theorem width_truncate (address : Address) (prefixLen : Nat) :
    (address.truncate prefixLen).width = address.width :=
  width_withValue _ _

theorem toNat_truncate (address : Address) (prefixLen : Nat) :
    (address.truncate prefixLen).toNat =
      address.toNat - address.toNat % 2 ^ (address.width - prefixLen) := by
  have below := address.toNat_lt
  exact toNat_withValue (by omega)

theorem isAligned_truncate (address : Address) (prefixLen : Nat) :
    (address.truncate prefixLen).IsAligned prefixLen := by
  rw [IsAligned, toNat_truncate, width_truncate]
  exact Nat.mod_eq_zero_of_dvd (Nat.dvd_sub_mod _)

/-- Truncation changes no address that is aligned already, apart from its mark. -/
theorem truncate_equiv_iff {address : Address} {prefixLen : Nat} :
    address.truncate prefixLen ≈ address ↔ address.IsAligned prefixLen := by
  constructor
  · intro same
    have sameValue : (address.truncate prefixLen).toNat = address.toNat := same.2
    have bound := Nat.mod_le address.toNat (2 ^ (address.width - prefixLen))
    rw [toNat_truncate] at sameValue
    rw [IsAligned]
    omega
  · intro aligned
    refine ⟨family_truncate _ _, ?_⟩
    rw [toNat_truncate, show address.toNat % 2 ^ (address.width - prefixLen) = 0 from aligned,
      Nat.sub_zero]

/-- An aligned address has no bit after the prefix, seen one bit at a time. -/
theorem isAligned_iff_testBit {address : Address} {prefixLen : Nat} :
    address.IsAligned prefixLen ↔
      ∀ position, position < address.width - prefixLen →
        address.toNat.testBit position = false := by
  unfold IsAligned
  constructor
  · intro cleared position after
    have bit := Nat.testBit_mod_two_pow address.toNat (address.width - prefixLen) position
    rw [cleared, Nat.zero_testBit, decide_eq_true after, Bool.true_and] at bit
    exact bit.symm
  · intro cleared
    apply Nat.eq_of_testBit_eq
    intro position
    rw [Nat.testBit_mod_two_pow, Nat.zero_testBit]
    by_cases after : position < address.width - prefixLen
    · rw [cleared position after, Bool.and_false]
    · rw [decide_eq_false after, Bool.false_and]

/-- The bits of the prefix stay and the others are cleared. -/
theorem testBit_truncate (address : Address) (prefixLen position : Nat) :
    (address.truncate prefixLen).toNat.testBit position =
      (decide (address.width - prefixLen ≤ position) && address.toNat.testBit position) := by
  have quotient : address.toNat - address.toNat % 2 ^ (address.width - prefixLen) =
      2 ^ (address.width - prefixLen) * (address.toNat / 2 ^ (address.width - prefixLen)) := by
    have split := Nat.div_add_mod address.toNat (2 ^ (address.width - prefixLen))
    omega
  rw [toNat_truncate, quotient, Nat.testBit_two_pow_mul, Nat.testBit_div_two_pow]
  by_cases kept : address.width - prefixLen ≤ position
  · rw [Nat.sub_add_cancel kept]
  · rw [decide_eq_false kept, Bool.false_and, Bool.false_and]

end Address

structure Network where
  base : Address
  prefixLen : Nat
  deriving DecidableEq

namespace Network

def family (network : Network) : Family :=
  network.base.family

def width (network : Network) : Nat :=
  network.base.width

/-- Number of bits after the prefix. -/
def hostBits (network : Network) : Nat :=
  network.width - network.prefixLen

/-- Number of addresses. -/
def size (network : Network) : Nat :=
  2 ^ network.hostBits

/-- A network of one address. -/
def IsHost (network : Network) : Prop :=
  network.prefixLen = network.width

instance (network : Network) : Decidable network.IsHost :=
  inferInstanceAs (Decidable (_ = _))

structure Valid (network : Network) : Prop where
  prefixLen_le : network.prefixLen ≤ network.width
  aligned : network.base.IsAligned network.prefixLen

theorem valid_iff {network : Network} :
    network.Valid ↔
      network.prefixLen ≤ network.width ∧ network.base.IsAligned network.prefixLen :=
  ⟨fun valid => ⟨valid.prefixLen_le, valid.aligned⟩, fun valid => ⟨valid.1, valid.2⟩⟩

instance (network : Network) : Decidable network.Valid :=
  decidable_of_iff _ valid_iff.symm

/-- Equivalent networks have equivalent bases and the same prefix length. -/
instance : Setoid Network where
  r left right := left.base ≈ right.base ∧ left.prefixLen = right.prefixLen
  iseqv :=
    { refl := fun _ => ⟨Setoid.refl _, rfl⟩
      symm := fun same => ⟨Setoid.symm same.1, same.2.symm⟩
      trans := fun first second =>
        ⟨Setoid.trans first.1 second.1, first.2.trans second.2⟩ }

instance (left right : Network) : Decidable (left ≈ right) :=
  inferInstanceAs (Decidable (_ ∧ _))

theorem equiv_iff {left right : Network} :
    left ≈ right ↔ left.base ≈ right.base ∧ left.prefixLen = right.prefixLen :=
  Iff.rfl

/-- By base address, then the shorter prefix first. -/
instance : Ord Network := ⟨compareLex (compareOn base) (compareOn prefixLen)⟩

instance : LE Network := leOfOrd

instance : LT Network := ltOfOrd

def text (network : Network) : String :=
  network.base.cidrText network.prefixLen

end Network

end Netblock
