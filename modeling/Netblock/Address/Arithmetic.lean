import Netblock.Error
/-!
# Addresses as numbers

Offsets are exact integers: a result outside of the address space is an error and never wraps
around. Operands of two families are an error as well.
-/

set_option autoImplicit false

namespace Netblock.Address

def ofNat (family : Family) (value : Nat) : Except Error Address :=
  if value < 2 ^ family.width then
    .ok ((zero family).withValue value)
  else
    .error (.outsideSpace (zero family) value)

def ofInt (family : Family) : Int → Except Error Address
  | .ofNat value => ofNat family value
  | .negSucc value => .error (.outsideSpace (zero family) (.negSucc value))

/-- The address at an offset, marked like this one or by its own bits. -/
def add (address : Address) (offset : Int) : Except Error Address :=
  let value := (address.toNat : Int) + offset
  if 0 ≤ value ∧ value.toNat < 2 ^ address.width then
    .ok (address.withValue value.toNat)
  else
    .error (.outsideSpace address offset)

def sub (address : Address) (offset : Int) : Except Error Address :=
  address.add (-offset)

def checkSameFamily (left right : Address) : Except Error Unit :=
  if left.family = right.family then .ok () else .error (.mixedFamilies left right)

def difference (left right : Address) : Except Error Int := do
  checkSameFamily left right
  return (left.toNat : Int) - right.toNat

/-- The order of addresses where mixing families is an error. -/
def compareWithin (left right : Address) : Except Error Ordering := do
  checkSameFamily left right
  return compare left right

/-- The following address; there is none after all ones. -/
def next? (address : Address) : Option Address :=
  if address.toNat + 1 < 2 ^ address.width then
    some (address.withValue (address.toNat + 1))
  else
    none

/-- The preceding address; there is none before zero. -/
def previous? (address : Address) : Option Address :=
  if address.toNat = 0 then none else some (address.withValue (address.toNat - 1))

theorem next?_eq_none_iff {address : Address} :
    address.next? = none ↔ address.toNat = 2 ^ address.width - 1 := by
  have below := address.toNat_lt
  unfold next?
  split <;> simp <;> omega

theorem previous?_eq_none_iff {address : Address} :
    address.previous? = none ↔ address.toNat = 0 := by
  unfold previous?
  split <;> simp_all

theorem checkSameFamily_eq_ok_iff {left right : Address} :
    checkSameFamily left right = .ok () ↔ left.family = right.family := by
  unfold checkSameFamily
  split <;> simp_all

section

variable {α : Type} {left right : Address} {next : Unit → Except Error α}

theorem checkSameFamily_bind_of_eq (sameFamily : left.family = right.family) :
    checkSameFamily left right >>= next = next () := by
  rw [checkSameFamily_eq_ok_iff.mpr sameFamily]
  rfl

theorem checkSameFamily_bind_of_ne (otherFamily : left.family ≠ right.family) :
    checkSameFamily left right >>= next = .error (.mixedFamilies left right) := by
  rw [checkSameFamily, if_neg otherFamily]
  rfl

end

end Netblock.Address
