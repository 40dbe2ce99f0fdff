/-!
# Sorted lists

Lists in ascending order, where elements of equal rank keep their places.
-/

set_option autoImplicit false

namespace Netblock

def ascending {α : Type} [Ord α] (elements : List α) : List α :=
  elements.mergeSort fun left right => (compare left right).isLE

/-- Number of elements no two of which are equivalent. -/
def distinctCount {α : Type} [HasEquiv α] [∀ left right : α, Decidable (left ≈ right)]
    (elements : List α) : Nat :=
  (elements.eraseDupsBy fun left right => decide (left ≈ right)).length

end Netblock
