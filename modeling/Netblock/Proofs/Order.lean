import Netblock.Network.Basic
/-!
# Orders by number

The orders of addresses and of networks, told as comparisons of family, value and prefix length.
A mark takes no part in either: both are total orders up to equivalence.
-/

set_option autoImplicit false

namespace Netblock

/-- A total order in which just the equivalent elements are equal. -/
structure IsTotallyOrdered (α : Type) [Ord α] [LE α] [LT α] [Setoid α] : Prop where
  total : ∀ left right : α, left ≤ right ∨ right ≤ left
  trans : ∀ left middle right : α, left ≤ middle → middle ≤ right → left ≤ right
  antisymm : ∀ left right : α, left ≤ right → right ≤ left → left ≈ right
  compare_swap : ∀ left right : α, compare right left = (compare left right).swap
  compare_eq_lt_iff : ∀ left right : α, compare left right = .lt ↔ left < right
  compare_eq_eq_iff : ∀ left right : α, compare left right = .eq ↔ left ≈ right

theorem IsTotallyOrdered.of_compare {α : Type} [Ord α] [LE α] [LT α] [Setoid α] [Std.TransOrd α]
    [Std.LawfulOrderOrd α] [Std.LawfulOrderLT α]
    (compare_eq_eq_iff : ∀ left right : α, compare left right = .eq ↔ left ≈ right) :
    IsTotallyOrdered α := by
  have linear : Std.IsLinearPreorder α := .of_ord
  constructor
  case total => exact fun _ _ => Std.le_total
  case trans => exact fun _ _ _ => Std.le_trans
  case antisymm =>
    intro left right below above
    refine (compare_eq_eq_iff left right).mp (Std.OrientedCmp.isLE_antisymm ?_ ?_)
    · exact Std.isLE_compare.mpr below
    · exact Std.isLE_compare.mpr above
  case compare_swap => exact fun _ _ => Std.OrientedOrd.eq_swap
  case compare_eq_lt_iff => exact fun _ _ => Std.compare_eq_lt
  case compare_eq_eq_iff => exact compare_eq_eq_iff

instance : Std.TransOrd Family :=
  inferInstanceAs (Std.TransCmp (compareOn Family.width))

namespace Address

instance : Std.TransOrd Address :=
  inferInstanceAs (Std.TransCmp (compareLex (compareOn family) (compareOn toNat)))

theorem compare_eq (left right : Address) :
    compare left right =
      (compare left.width right.width).then (compare left.toNat right.toNat) :=
  rfl

theorem width_eq_iff {left right : Address} :
    left.width = right.width ↔ left.family = right.family :=
  ⟨Family.width_injective, fun same => congrArg Family.width same⟩

theorem compare_eq_eq_iff {left right : Address} :
    compare left right = .eq ↔ left ≈ right := by
  rw [compare_eq, Ordering.then_eq_eq, Nat.compare_eq_eq, Nat.compare_eq_eq, width_eq_iff,
    equiv_iff]

instance : Std.IsLinearPreorder Address := .of_ord

theorem isTotallyOrdered : IsTotallyOrdered Address :=
  .of_compare fun _ _ => compare_eq_eq_iff

theorem lt_iff {left right : Address} :
    left < right ↔
      left.width < right.width ∨ left.family = right.family ∧ left.toNat < right.toNat := by
  change compare left right = .lt ↔ _
  rw [compare_eq, Ordering.then_eq_lt, Nat.compare_eq_lt, Nat.compare_eq_eq,
    Nat.compare_eq_lt, width_eq_iff]

theorem le_iff {left right : Address} :
    left ≤ right ↔
      left.width < right.width ∨ left.family = right.family ∧ left.toNat ≤ right.toNat := by
  change (compare left right).isLE = true ↔ _
  rw [compare_eq, Ordering.isLE_then_iff_or, Nat.compare_eq_lt, Nat.compare_eq_eq,
    Nat.isLE_compare, width_eq_iff]

/-- Within a family addresses are ordered by value. -/
theorem le_iff_toNat_le {left right : Address} (sameFamily : left.family = right.family) :
    left ≤ right ↔ left.toNat ≤ right.toNat := by
  have sameWidth : left.width = right.width := width_eq_iff.mpr sameFamily
  rw [le_iff]
  constructor
  · intro ordered
    rcases ordered with narrower | ⟨_, below⟩
    · omega
    · exact below
  · intro below
    exact .inr ⟨sameFamily, below⟩

/-- Only addresses of one family lie between two addresses of that family. -/
theorem family_eq_of_le_of_le {lower upper address : Address}
    (sameFamily : lower.family = upper.family) (above : lower ≤ address)
    (below : address ≤ upper) : address.family = lower.family := by
  have sameWidth : lower.width = upper.width := width_eq_iff.mpr sameFamily
  rcases le_iff.mp above with wider | ⟨same, _⟩
  · rcases le_iff.mp below with narrower | ⟨same, _⟩
    · omega
    · exact same.trans sameFamily.symm
  · exact same.symm

end Address

namespace Network

instance : Std.TransOrd Network :=
  inferInstanceAs (Std.TransCmp (compareLex (compareOn base) (compareOn prefixLen)))

theorem compare_eq (left right : Network) :
    compare left right =
      (compare left.base right.base).then (compare left.prefixLen right.prefixLen) :=
  rfl

theorem compare_eq_eq_iff {left right : Network} :
    compare left right = .eq ↔ left ≈ right := by
  rw [compare_eq, Ordering.then_eq_eq, Address.compare_eq_eq_iff, Nat.compare_eq_eq, equiv_iff]

instance : Std.IsLinearPreorder Network := .of_ord

theorem isTotallyOrdered : IsTotallyOrdered Network :=
  .of_compare fun _ _ => compare_eq_eq_iff

theorem lt_iff {left right : Network} :
    left < right ↔
      left.base < right.base ∨ left.base ≈ right.base ∧ left.prefixLen < right.prefixLen := by
  change compare left right = .lt ↔ _
  rw [compare_eq, Ordering.then_eq_lt, Address.compare_eq_eq_iff, Nat.compare_eq_lt]
  rfl

theorem base_le_of_le {left right : Network} (ordered : left ≤ right) :
    left.base ≤ right.base := by
  change (compare left right).isLE = true at ordered
  rw [compare_eq] at ordered
  exact Ordering.isLE_left_of_isLE_then ordered

/-- Two lists in ascending order that hold the same networks are the same list. -/
theorem eq_of_perm_of_pairwise_lt {left right : List Network} (permuted : left.Perm right)
    (leftAscending : left.Pairwise (· < ·)) (rightAscending : right.Pairwise (· < ·)) :
    left = right := by
  refine permuted.eq_of_pairwise ?_ leftAscending rightAscending
  intro lower upper _ _ below above
  exact absurd above (Std.not_gt_of_lt below)

end Network

end Netblock
