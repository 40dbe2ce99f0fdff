import Netblock.Family
import Netblock.Octets
/-!
# Addresses

An address is a word of its family's width. IPv6 addresses carry a mark besides: it tells that
the last 32 bits stand for an embedded IPv4 address. The mark decides how an address is shown
and which hosts of a network count as usable. It takes no part in equivalence or order.
-/

set_option autoImplicit false

namespace Netblock

inductive Address where
  | v4 (bits : BitVec 32)
  | v6 (bits : BitVec 128) (mark : Bool)
  deriving DecidableEq

/-- The values of `::a.b.c.d` and `::ffff:a.b.c.d`, unless `a` is zero: the first ten octets are
zero, the next two are both zero or both `ff`, and the one after them is not zero. -/
def IsEmbedding (value : Nat) : Prop :=
  (value / 2 ^ 32 = 0 ∨ value / 2 ^ 32 = 0xFFFF) ∧ value / 2 ^ 24 % 2 ^ 8 ≠ 0

instance : DecidablePred IsEmbedding :=
  fun _ => inferInstanceAs (Decidable (_ ∧ _))

namespace Address

def family : Address → Family
  | .v4 _ => .v4
  | .v6 _ _ => .v6

def width (address : Address) : Nat :=
  address.family.width

/-- The address as an unsigned number. -/
def toNat : Address → Nat
  | .v4 bits => bits.toNat
  | .v6 bits _ => bits.toNat

/-- Whether the address is marked as embedding IPv4. IPv4 addresses are not. -/
def mark : Address → Bool
  | .v4 _ => false
  | .v6 _ mark => mark

/-- The same bits under another mark. IPv4 addresses have none to change. -/
def withMark (mark : Bool) : Address → Address
  | .v4 bits => .v4 bits
  | .v6 bits _ => .v6 bits mark

/-- An IPv6 address whose mark comes from its bits alone. -/
def ofV6 (bits : BitVec 128) : Address :=
  .v6 bits (decide (IsEmbedding bits.toNat))

def zero : Family → Address
  | .v4 => .v4 0
  | .v6 => .v6 0 false

/-- The address of the same family with another value, which must lie below `2 ^ width`. A mark
is kept, and the bits of the new value may set one. -/
def withValue (value : Nat) : Address → Address
  | .v4 _ => .v4 (BitVec.ofNat 32 value)
  | .v6 _ mark =>
      let bits := BitVec.ofNat 128 value
      .v6 bits (mark || decide (IsEmbedding bits.toNat))

/-- The last 32 bits of an IPv6 address whose bits embed IPv4, whatever its mark. -/
def embeddedV4? : Address → Option Address
  | .v4 _ => none
  | .v6 bits _ => if IsEmbedding bits.toNat then some (.v4 (bits.setWidth 32)) else none

/-- Equivalent addresses have the same family and the same bits. -/
instance : Setoid Address where
  r left right := left.family = right.family ∧ left.toNat = right.toNat
  iseqv :=
    { refl := fun _ => ⟨rfl, rfl⟩
      symm := fun same => ⟨same.1.symm, same.2.symm⟩
      trans := fun first second => ⟨first.1.trans second.1, first.2.trans second.2⟩ }

instance (left right : Address) : Decidable (left ≈ right) :=
  inferInstanceAs (Decidable (_ ∧ _))

/-- IPv4 before IPv6, and by value within a family. -/
instance : Ord Address := ⟨compareLex (compareOn family) (compareOn toNat)⟩

instance : LE Address := leOfOrd

instance : LT Address := ltOfOrd

/-- The octets in network order: four of them, or sixteen. -/
def octets : Address → List Octet
  | .v4 bits => Octets.ofNat 4 bits.toNat
  | .v6 bits _ => Octets.ofNat 16 bits.toNat

/-- The address that four or sixteen octets spell. -/
def ofOctets? (octets : List Octet) : Option Address :=
  match octets.length with
  | 4 => some (.v4 (BitVec.ofNat 32 (Octets.toNat octets)))
  | 16 => some (ofV6 (BitVec.ofNat 128 (Octets.toNat octets)))
  | _ => none

theorem equiv_iff {left right : Address} :
    left ≈ right ↔ left.family = right.family ∧ left.toNat = right.toNat :=
  Iff.rfl

theorem toNat_lt (address : Address) : address.toNat < 2 ^ address.width := by
  cases address with
  | v4 bits => exact bits.isLt
  | v6 bits _ => exact bits.isLt

@[ext]
theorem ext {left right : Address} (sameFamily : left.family = right.family)
    (sameValue : left.toNat = right.toNat) (sameMark : left.mark = right.mark) :
    left = right := by
  cases left <;> cases right <;> simp_all [family, toNat, mark, BitVec.toNat_inj]

@[simp]
theorem family_zero (family : Family) : (zero family).family = family := by
  cases family <;> rfl

@[simp]
theorem toNat_zero (family : Family) : (zero family).toNat = 0 := by
  cases family <;> rfl

@[simp]
theorem mark_zero (family : Family) : (zero family).mark = false := by
  cases family <;> rfl

@[simp]
theorem family_withValue (address : Address) (value : Nat) :
    (address.withValue value).family = address.family := by
  cases address <;> rfl

@[simp]
theorem width_withValue (address : Address) (value : Nat) :
    (address.withValue value).width = address.width := by
  simp [width]

/-- A value of the family's width is taken as it is. -/
theorem toNat_withValue {address : Address} {value : Nat} (fits : value < 2 ^ address.width) :
    (address.withValue value).toNat = value := by
  cases address <;> exact Nat.mod_eq_of_lt fits

/-- The new mark: the old one, or that of the new bits. -/
theorem mark_withValue (address : Address) (value : Nat) :
    (address.withValue value).mark =
      (address.mark ||
        decide (address.family = .v6 ∧ IsEmbedding (address.withValue value).toNat)) := by
  cases address <;> simp [withValue, mark, family, toNat]

@[simp]
theorem family_withMark (address : Address) (mark : Bool) :
    (address.withMark mark).family = address.family := by
  cases address <;> rfl

@[simp]
theorem toNat_withMark (address : Address) (mark : Bool) :
    (address.withMark mark).toNat = address.toNat := by
  cases address <;> rfl

/-- No mark tells equivalent addresses apart. -/
theorem withMark_equiv (address : Address) (mark : Bool) : address.withMark mark ≈ address :=
  ⟨family_withMark address mark, toNat_withMark address mark⟩

end Address

end Netblock
