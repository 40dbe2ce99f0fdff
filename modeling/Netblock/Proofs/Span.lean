import Netblock.Proofs.Nesting
import Netblock.Proofs.Split
/-!
# Order by span

The span of a network is the sum of its bounds. Networks that are apart have spans in the order of
their addresses, and a network within another one has the smaller span in the lower half and the
larger span in the upper half. Since networks are nested or apart, the spans of different networks
differ, and their order is that in which the tree of networks is walked from left to right.
-/

set_option autoImplicit false

namespace Netblock.Network

def span (network : Network) : Nat :=
  network.low.toNat + network.high.toNat

theorem Valid.span_eq {network : Network} (valid : network.Valid) :
    network.span = 2 * network.base.toNat + (network.size - 1) := by
  rw [span, valid.toNat_low, valid.toNat_high]
  omega

variable {left right outer inner : Network}

theorem compareSpan_eq (sameFamily : left.family = right.family) :
    left.compareSpan right = .ok (compare left.span right.span) :=
  Address.checkSameFamily_bind_of_eq sameFamily

theorem compareSpan_eq_mixedFamilies (otherFamily : left.family ≠ right.family) :
    left.compareSpan right = .error (.mixedFamilies left.base right.base) :=
  Address.checkSameFamily_bind_of_ne otherFamily

theorem compareSpan_eq_lt_iff (sameFamily : left.family = right.family) :
    left.compareSpan right = .ok .lt ↔ left.span < right.span := by
  rw [compareSpan_eq sameFamily, Except.ok.injEq, Nat.compare_eq_lt]

theorem compareSpan_eq_gt_iff (sameFamily : left.family = right.family) :
    left.compareSpan right = .ok .gt ↔ right.span < left.span := by
  rw [compareSpan_eq sameFamily, Except.ok.injEq, Nat.compare_eq_gt]

theorem compareSpan_eq_eq_iff (sameFamily : left.family = right.family) :
    left.compareSpan right = .ok .eq ↔ left.span = right.span := by
  rw [compareSpan_eq sameFamily, Except.ok.injEq, Nat.compare_eq_eq]

/-- Exchanging the networks reverses the order. -/
theorem compareSpan_swap (sameFamily : left.family = right.family) :
    right.compareSpan left = (left.compareSpan right).map Ordering.swap := by
  rw [compareSpan_eq sameFamily, compareSpan_eq sameFamily.symm, Except.map, Nat.compare_swap]

/-!
### Networks that are apart
-/

theorem span_lt_span_of_high_lt_low (leftValid : left.Valid) (rightValid : right.Valid)
    (sameFamily : left.family = right.family) (before : left.high < right.low) :
    left.span < right.span := by
  have sameWidth : left.high.width = right.low.width :=
    congrArg Family.width ((family_high left).trans (sameFamily.trans (family_low right).symm))
  rcases Address.lt_iff.mp before with narrower | ⟨_, below⟩
  · omega
  · rw [leftValid.toNat_high, rightValid.toNat_low] at below
    rw [leftValid.span_eq, rightValid.span_eq]
    omega

theorem high_lt_low_of_not_covers (leftValid : left.Valid) (rightValid : right.Valid)
    (sameFamily : left.family = right.family) (leftFirst : left.base.toNat ≤ right.base.toNat)
    (outside : ¬ left.Covers right.base) : left.high < right.low := by
  have positive := left.size_pos
  have beyond : left.base.toNat + left.size ≤ right.base.toNat := by
    by_contra within
    exact outside ((covers_iff leftValid).mpr ⟨sameFamily.symm, leftFirst, by omega⟩)
  rw [Address.lt_iff, family_high, family_low, leftValid.toNat_high, rightValid.toNat_low]
  exact .inr ⟨sameFamily, by omega⟩

theorem high_lt_low_of_apart (leftValid : left.Valid) (rightValid : right.Valid)
    (sameFamily : left.family = right.family)
    (apart : ∀ address, ¬ (left.Covers address ∧ right.Covers address)) :
    left.high < right.low ∨ right.high < left.low := by
  rcases Nat.le_total left.base.toNat right.base.toNat with leftFirst | rightFirst
  · left
    refine high_lt_low_of_not_covers leftValid rightValid sameFamily leftFirst ?_
    intro covered
    exact apart _ ⟨covered, rightValid.covers_base⟩
  · right
    refine high_lt_low_of_not_covers rightValid leftValid sameFamily.symm rightFirst ?_
    intro covered
    exact apart _ ⟨leftValid.covers_base, covered⟩

/-!
### Halves
-/

/-- What a split into two says about the halves, in numbers. -/
structure IsHalved (whole lower upper : Network) : Prop where
  lowerValid : lower.Valid
  upperValid : upper.Valid
  lower_prefixLen : lower.prefixLen = whole.prefixLen + 1
  upper_prefixLen : upper.prefixLen = whole.prefixLen + 1
  lower_family : lower.family = whole.family
  upper_family : upper.family = whole.family
  lower_base : lower.base.toNat = whole.base.toNat
  upper_base : upper.base.toNat = whole.base.toNat + lower.size
  size_eq : whole.size = 2 * lower.size
  upper_size : upper.size = lower.size

section

variable {whole lower upper : Network}

theorem isHalved_of_split (valid : whole.Valid) (accepted : whole.split = .ok [lower, upper]) :
    whole.IsHalved lower upper := by
  have tiles := valid.tiles_of_splitByPower accepted
  have blockValid := tiles.row.valid (valid.firstBlock tiles.fits)
  have lowerAt : (whole.firstBlock 1).IsBlockAt 0 lower := tiles.row 0 (by simp)
  have upperAt : (whole.firstBlock 1).IsBlockAt 1 upper := tiles.row 1 (by simp)
  have size_eq := tiles.size_eq
  constructor
  case lowerValid => exact blockValid lower (by simp)
  case upperValid => exact blockValid upper (by simp)
  case lower_prefixLen => exact lowerAt.prefixLen_eq
  case upper_prefixLen => exact upperAt.prefixLen_eq
  case lower_family => exact lowerAt.family_eq
  case upper_family => exact upperAt.family_eq
  case lower_base => rw [lowerAt.base_eq, Nat.zero_mul, Nat.add_zero, firstBlock]
  case upper_base => rw [upperAt.base_eq, lowerAt.size_eq, Nat.one_mul, firstBlock]
  case size_eq => exact size_eq.trans (congrArg (2 * ·) lowerAt.size_eq.symm)
  case upper_size => rw [upperAt.size_eq, lowerAt.size_eq]

theorem exists_split (valid : whole.Valid) (shorter : whole.prefixLen < whole.width) :
    ∃ lower upper, whole.split = .ok [lower, upper] := by
  have accepted : whole.split = .ok (chain (2 ^ 1) (whole.firstBlock 1)) :=
    splitByPower_eq_ok (Nat.le_refl 1) (by decide) shorter
  have length_eq := (valid.tiles_of_splitByPower accepted).length_eq
  obtain ⟨lower, upper, blocks_eq⟩ := List.length_eq_two.mp length_eq
  rw [blocks_eq] at accepted
  exact ⟨lower, upper, accepted⟩

namespace IsHalved

theorem span_lt_of_lower (halved : whole.IsHalved lower upper) (valid : whole.Valid)
    (innerValid : inner.Valid) (contained : lower.containsNetwork inner = .ok true) :
    inner.span < whole.span := by
  obtain ⟨_, above, below⟩ :=
    (containsNetwork_eq_ok_true_iff halved.lowerValid innerValid).mp contained
  have lower_base := halved.lower_base
  have size_eq := halved.size_eq
  have positive := inner.size_pos
  rw [innerValid.span_eq, valid.span_eq]
  omega

theorem lt_span_of_upper (halved : whole.IsHalved lower upper) (valid : whole.Valid)
    (innerValid : inner.Valid) (contained : upper.containsNetwork inner = .ok true) :
    whole.span < inner.span := by
  obtain ⟨_, above, below⟩ :=
    (containsNetwork_eq_ok_true_iff halved.upperValid innerValid).mp contained
  have upper_base := halved.upper_base
  have size_eq := halved.size_eq
  have positive := whole.size_pos
  rw [innerValid.span_eq, valid.span_eq]
  omega

theorem covers_iff (halved : whole.IsHalved lower upper) (valid : whole.Valid)
    {address : Address} :
    whole.Covers address ↔ lower.Covers address ∨ upper.Covers address := by
  have lower_base := halved.lower_base
  have upper_base := halved.upper_base
  have size_eq := halved.size_eq
  have upper_size := halved.upper_size
  rw [Network.covers_iff valid, Network.covers_iff halved.lowerValid,
    Network.covers_iff halved.upperValid, halved.lower_family, halved.upper_family, ← and_or_left]
  refine and_congr_right fun _ => ?_
  omega

end IsHalved

end

/-!
### Networks within one another
-/

/-- Inside a network, only the network itself has its prefix length. -/
theorem prefixLen_lt_of_containsNetwork (outerValid : outer.Valid) (innerValid : inner.Valid)
    (contained : outer.containsNetwork inner = .ok true) (different : ¬ inner ≈ outer) :
    outer.prefixLen < inner.prefixLen := by
  obtain ⟨shorter, covered⟩ :=
    (containsNetwork_iff_covers_base outerValid innerValid).mp contained
  refine Nat.lt_of_le_of_ne shorter fun sameLen => different ?_
  have containing := containsNetwork_of_shared innerValid outerValid sameLen.ge
    innerValid.covers_base covered
  exact equiv_of_containsNetwork_of_containsNetwork innerValid outerValid containing contained

/-- A network within another one lies in one of its halves. -/
theorem exists_half_containsNetwork (outerValid : outer.Valid) (innerValid : inner.Valid)
    (contained : outer.containsNetwork inner = .ok true) (different : ¬ inner ≈ outer) :
    ∃ lower upper, outer.split = .ok [lower, upper] ∧
      (lower.containsNetwork inner = .ok true ∨ upper.containsNetwork inner = .ok true) := by
  have longer := prefixLen_lt_of_containsNetwork outerValid innerValid contained different
  have sameWidth : outer.width = inner.width := congrArg Family.width
    ((containsNetwork_eq_ok_true_iff outerValid innerValid).mp contained).1
  have innerFits := innerValid.prefixLen_le
  obtain ⟨lower, upper, accepted⟩ := exists_split outerValid (by omega)
  have halved := isHalved_of_split outerValid accepted
  refine ⟨lower, upper, accepted, ?_⟩
  have covered := covers_base_of_containsNetwork outerValid innerValid contained
  rcases (halved.covers_iff outerValid).mp covered with inLower | inUpper
  · left
    exact containsNetwork_of_shared halved.lowerValid innerValid
      (halved.lower_prefixLen ▸ longer) inLower innerValid.covers_base
  · right
    exact containsNetwork_of_shared halved.upperValid innerValid
      (halved.upper_prefixLen ▸ longer) inUpper innerValid.covers_base

theorem span_ne_of_containsNetwork (outerValid : outer.Valid) (innerValid : inner.Valid)
    (contained : outer.containsNetwork inner = .ok true) (different : ¬ inner ≈ outer) :
    inner.span ≠ outer.span := by
  obtain ⟨lower, upper, accepted, inHalf⟩ :=
    exists_half_containsNetwork outerValid innerValid contained different
  have halved := isHalved_of_split outerValid accepted
  rcases inHalf with inLower | inUpper
  · exact (halved.span_lt_of_lower outerValid innerValid inLower).ne
  · exact (halved.lt_span_of_upper outerValid innerValid inUpper).ne'

/-- Nested or apart, different networks have different spans. -/
theorem span_eq_iff (leftValid : left.Valid) (rightValid : right.Valid)
    (sameFamily : left.family = right.family) : left.span = right.span ↔ left ≈ right := by
  constructor
  · intro sameSpan
    by_contra different
    by_cases inLeft : left.containsNetwork right = .ok true
    · exact span_ne_of_containsNetwork leftValid rightValid inLeft
        (fun same => different (Setoid.symm same)) sameSpan.symm
    · by_cases inRight : right.containsNetwork left = .ok true
      · exact span_ne_of_containsNetwork rightValid leftValid inRight different sameSpan
      · have apart := not_covers_of_not_containsNetwork leftValid rightValid inLeft inRight
        rcases high_lt_low_of_apart leftValid rightValid sameFamily apart with before | after
        · exact (span_lt_span_of_high_lt_low leftValid rightValid sameFamily before).ne sameSpan
        · exact (span_lt_span_of_high_lt_low rightValid leftValid sameFamily.symm after).ne'
            sameSpan
  · intro same
    have sameWidth : left.width = right.width := congrArg Family.width sameFamily
    have sameSize : left.size = right.size := by
      rw [size, size, hostBits, hostBits, sameWidth, same.2]
    rw [leftValid.span_eq, rightValid.span_eq, same.1.2, sameSize]

/-- The first network is not ordered after the second. -/
def SpanLE (left right : Network) : Prop :=
  ∃ order, left.compareSpan right = .ok order ∧ order.isLE = true

theorem spanLE_iff (sameFamily : left.family = right.family) :
    left.SpanLE right ↔ left.span ≤ right.span := by
  rw [SpanLE, compareSpan_eq sameFamily]
  simp [Nat.isLE_compare]

/-- The order by span is total on the valid networks of a family and walks their tree in order. -/
structure InOrderTraversal : Prop where
  total : ∀ left right : Network, left.family = right.family →
    left.SpanLE right ∨ right.SpanLE left
  trans : ∀ left middle right : Network, left.family = middle.family →
    middle.family = right.family → left.SpanLE middle → middle.SpanLE right → left.SpanLE right
  antisymm : ∀ left right : Network, left.Valid → right.Valid → left.family = right.family →
    left.SpanLE right → right.SpanLE left → left ≈ right
  swap : ∀ left right : Network, left.family = right.family →
    right.compareSpan left = (left.compareSpan right).map Ordering.swap
  eq_iff : ∀ left right : Network, left.Valid → right.Valid → left.family = right.family →
    (left.compareSpan right = .ok .eq ↔ left ≈ right)
  apart : ∀ left right : Network, left.Valid → right.Valid → left.family = right.family →
    left.high < right.low → left.compareSpan right = .ok .lt
  nested : ∀ outer inner : Network, outer.Valid → inner.Valid →
    outer.containsNetwork inner = .ok true → ¬ inner ≈ outer →
      ∃ lower upper, outer.split = .ok [lower, upper] ∧
        (lower.containsNetwork inner = .ok true ∨ upper.containsNetwork inner = .ok true) ∧
        (lower.containsNetwork inner = .ok true → inner.compareSpan outer = .ok .lt) ∧
        (upper.containsNetwork inner = .ok true → inner.compareSpan outer = .ok .gt)
  halves : ∀ whole lower upper : Network, whole.Valid → whole.split = .ok [lower, upper] →
    lower.compareSpan whole = .ok .lt ∧ whole.compareSpan upper = .ok .lt
  mixed : ∀ left right : Network, left.family ≠ right.family →
    left.compareSpan right = .error (.mixedFamilies left.base right.base)

theorem inOrderTraversal : InOrderTraversal where
  total := by
    intro left right sameFamily
    rw [spanLE_iff sameFamily, spanLE_iff sameFamily.symm]
    exact Nat.le_total _ _
  trans := by
    intro left middle right sameFamily followingFamily first second
    rw [spanLE_iff sameFamily] at first
    rw [spanLE_iff followingFamily] at second
    exact (spanLE_iff (sameFamily.trans followingFamily)).mpr (Nat.le_trans first second)
  antisymm := by
    intro left right leftValid rightValid sameFamily first second
    rw [spanLE_iff sameFamily] at first
    rw [spanLE_iff sameFamily.symm] at second
    exact (span_eq_iff leftValid rightValid sameFamily).mp (Nat.le_antisymm first second)
  swap := fun _ _ sameFamily => compareSpan_swap sameFamily
  eq_iff := by
    intro left right leftValid rightValid sameFamily
    rw [compareSpan_eq_eq_iff sameFamily, span_eq_iff leftValid rightValid sameFamily]
  apart := by
    intro left right leftValid rightValid sameFamily before
    rw [compareSpan_eq_lt_iff sameFamily]
    exact span_lt_span_of_high_lt_low leftValid rightValid sameFamily before
  nested := by
    intro outer inner outerValid innerValid contained different
    have sameFamily := ((containsNetwork_eq_ok_true_iff outerValid innerValid).mp contained).1.symm
    obtain ⟨lower, upper, accepted, inHalf⟩ :=
      exists_half_containsNetwork outerValid innerValid contained different
    have halved := isHalved_of_split outerValid accepted
    refine ⟨lower, upper, accepted, inHalf, ?_, ?_⟩
    · intro inLower
      exact (compareSpan_eq_lt_iff sameFamily).mpr
        (halved.span_lt_of_lower outerValid innerValid inLower)
    · intro inUpper
      exact (compareSpan_eq_gt_iff sameFamily).mpr
        (halved.lt_span_of_upper outerValid innerValid inUpper)
  halves := by
    intro whole lower upper valid accepted
    have halved := isHalved_of_split valid accepted
    have ownLower := containsNetwork_refl halved.lowerValid
    have ownUpper := containsNetwork_refl halved.upperValid
    rw [compareSpan_eq_lt_iff halved.lower_family, compareSpan_eq_lt_iff halved.upper_family.symm]
    exact ⟨halved.span_lt_of_lower valid halved.lowerValid ownLower,
      halved.lt_span_of_upper valid halved.upperValid ownUpper⟩
  mixed := fun _ _ otherFamily => compareSpan_eq_mixedFamilies otherFamily

/-- The whole space of IPv6, whose bounds have a sum of 128 bits, is between its halves. -/
theorem inOrderTraversal_wholeSpace :
    (⟨.v6 0 false, 0⟩ : Network).Valid ∧
      (⟨.v6 0 false, 1⟩ : Network).compareSpan ⟨.v6 0 false, 0⟩ = .ok .lt ∧
      (⟨.v6 0 false, 0⟩ : Network).compareSpan ⟨.v6 (1 <<< 127) false, 1⟩ = .ok .lt := by
  have valid : (⟨.v6 0 false, 0⟩ : Network).Valid := by decide
  have accepted : (⟨.v6 0 false, 0⟩ : Network).split =
      .ok [⟨.v6 0 false, 1⟩, ⟨.v6 (1 <<< 127) false, 1⟩] := by decide
  exact ⟨valid, inOrderTraversal.halves _ _ _ valid accepted⟩

end Netblock.Network
