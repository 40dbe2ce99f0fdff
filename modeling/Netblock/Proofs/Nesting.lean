import Mathlib.Data.Nat.ModEq
import Netblock.Proofs.Membership
import Netblock.Interface
/-!
# Networks are nested or apart

Of two networks that share an address, the one with the longer prefix lies within the other. So
containment is told by the prefix lengths and the network around a base, networks that are not
nested are apart, and clearing host bits in two steps is the same as in one.
-/

set_option autoImplicit false

namespace Netblock

namespace Network

/-- A block that shares a value with a block of a multiple of its size lies within it. -/
theorem within_of_shared {outerSize innerSize outerBase innerBase value : Nat}
    (sizes : innerSize ∣ outerSize) (outerAligned : outerSize ∣ outerBase)
    (innerAligned : innerSize ∣ innerBase)
    (inOuter : outerBase ≤ value ∧ value < outerBase + outerSize)
    (inInner : innerBase ≤ value ∧ value < innerBase + innerSize) :
    outerBase ≤ innerBase ∧ innerBase + innerSize ≤ outerBase + outerSize := by
  have startAligned : innerSize ∣ outerBase := Nat.dvd_trans sizes outerAligned
  have endAligned : innerSize ∣ outerBase + outerSize := Nat.dvd_add startAligned sizes
  -- The inner base and both ends of the outer block are multiples of the inner size.
  have congruent : ∀ boundary, innerSize ∣ boundary → innerBase ≡ boundary [MOD innerSize] :=
    fun boundary aligned => (Nat.modEq_zero_iff_dvd.mpr innerAligned).trans
      (Nat.modEq_zero_iff_dvd.mpr aligned).symm
  constructor
  · by_contra starts
    have endsBefore := (congruent _ startAligned).add_le_of_lt (Nat.lt_of_not_le starts)
    omega
  · exact (congruent _ endAligned).add_le_of_lt (by omega)

variable {outer inner : Network}

theorem size_dvd_size_iff (outerValid : outer.Valid) (innerValid : inner.Valid)
    (sameFamily : outer.family = inner.family) :
    inner.size ∣ outer.size ↔ outer.prefixLen ≤ inner.prefixLen := by
  have sameWidth : outer.width = inner.width := congrArg Family.width sameFamily
  have outerFits := outerValid.prefixLen_le
  have innerFits := innerValid.prefixLen_le
  rw [size, size, Nat.pow_dvd_pow_iff_le_right (by decide), hostBits, hostBits]
  omega

/-- Two networks that share an address are nested in the order of their prefix lengths. -/
theorem containsNetwork_of_shared (outerValid : outer.Valid) (innerValid : inner.Valid)
    (shorter : outer.prefixLen ≤ inner.prefixLen) {address : Address}
    (inOuter : outer.Covers address) (inInner : inner.Covers address) :
    outer.containsNetwork inner = .ok true := by
  obtain ⟨outerFamily, inOuter⟩ := (covers_iff outerValid).mp inOuter
  obtain ⟨innerFamily, inInner⟩ := (covers_iff innerValid).mp inInner
  have sameFamily := outerFamily.symm.trans innerFamily
  have sizes := (size_dvd_size_iff outerValid innerValid sameFamily).mpr shorter
  rw [containsNetwork_eq_ok_true_iff outerValid innerValid]
  exact ⟨sameFamily, within_of_shared sizes outerValid.size_dvd_base innerValid.size_dvd_base
    inOuter inInner⟩

theorem prefixLen_le_of_containsNetwork (outerValid : outer.Valid) (innerValid : inner.Valid)
    (contained : outer.containsNetwork inner = .ok true) : outer.prefixLen ≤ inner.prefixLen := by
  obtain ⟨sameFamily, above, below⟩ :=
    (containsNetwork_eq_ok_true_iff outerValid innerValid).mp contained
  have sameWidth : outer.width = inner.width := congrArg Family.width sameFamily
  have outerFits := outerValid.prefixLen_le
  have smaller : 2 ^ inner.hostBits ≤ 2 ^ outer.hostBits := by
    change inner.size ≤ outer.size
    omega
  have fewerBits := (Nat.pow_le_pow_iff_right (by decide)).mp smaller
  rw [hostBits, hostBits] at fewerBits
  omega

theorem covers_base_of_containsNetwork (outerValid : outer.Valid) (innerValid : inner.Valid)
    (contained : outer.containsNetwork inner = .ok true) : outer.Covers inner.base := by
  obtain ⟨sameFamily, above, below⟩ :=
    (containsNetwork_eq_ok_true_iff outerValid innerValid).mp contained
  have positive := inner.size_pos
  exact (covers_iff outerValid).mpr ⟨sameFamily.symm, above, by omega⟩

theorem containsNetwork_iff_covers_base (outerValid : outer.Valid) (innerValid : inner.Valid) :
    outer.containsNetwork inner = .ok true ↔
      outer.prefixLen ≤ inner.prefixLen ∧ outer.Covers inner.base := by
  constructor
  · intro contained
    exact ⟨prefixLen_le_of_containsNetwork outerValid innerValid contained,
      covers_base_of_containsNetwork outerValid innerValid contained⟩
  · intro shorterAround
    obtain ⟨shorter, covered⟩ := shorterAround
    exact containsNetwork_of_shared outerValid innerValid shorter covered innerValid.covers_base

theorem containsNetwork_isOk (sameFamily : outer.family = inner.family) :
    ∃ verdict, outer.containsNetwork inner = .ok verdict :=
  ⟨_, Address.checkSameFamily_bind_of_eq sameFamily⟩

/-!
### The order of containment
-/

theorem containsNetwork_refl (valid : outer.Valid) : outer.containsNetwork outer = .ok true :=
  (containsNetwork_eq_ok_true_iff valid valid).mpr ⟨rfl, Nat.le_refl _, Nat.le_refl _⟩

theorem containsNetwork_trans {middle : Network} (outerValid : outer.Valid)
    (middleValid : middle.Valid) (innerValid : inner.Valid)
    (first : outer.containsNetwork middle = .ok true)
    (second : middle.containsNetwork inner = .ok true) :
    outer.containsNetwork inner = .ok true := by
  obtain ⟨outerFamily, outerAbove, outerBelow⟩ :=
    (containsNetwork_eq_ok_true_iff outerValid middleValid).mp first
  obtain ⟨innerFamily, innerAbove, innerBelow⟩ :=
    (containsNetwork_eq_ok_true_iff middleValid innerValid).mp second
  rw [containsNetwork_eq_ok_true_iff outerValid innerValid]
  exact ⟨outerFamily.trans innerFamily, by omega, by omega⟩

theorem equiv_of_containsNetwork_of_containsNetwork (outerValid : outer.Valid)
    (innerValid : inner.Valid) (contained : outer.containsNetwork inner = .ok true)
    (containing : inner.containsNetwork outer = .ok true) : outer ≈ inner := by
  obtain ⟨sameFamily, above, _⟩ :=
    (containsNetwork_eq_ok_true_iff outerValid innerValid).mp contained
  obtain ⟨_, below, _⟩ := (containsNetwork_eq_ok_true_iff innerValid outerValid).mp containing
  have shorter := prefixLen_le_of_containsNetwork outerValid innerValid contained
  have longer := prefixLen_le_of_containsNetwork innerValid outerValid containing
  exact ⟨⟨sameFamily, by omega⟩, by omega⟩

/-- Networks do not overlap in part. -/
theorem not_covers_of_not_containsNetwork (outerValid : outer.Valid) (innerValid : inner.Valid)
    (notInner : outer.containsNetwork inner ≠ .ok true)
    (notOuter : inner.containsNetwork outer ≠ .ok true) (address : Address) :
    ¬ (outer.Covers address ∧ inner.Covers address) := by
  intro shared
  obtain ⟨inOuter, inInner⟩ := shared
  rcases Nat.le_total outer.prefixLen inner.prefixLen with shorter | longer
  · exact notInner (containsNetwork_of_shared outerValid innerValid shorter inOuter inInner)
  · exact notOuter (containsNetwork_of_shared innerValid outerValid longer inInner inOuter)

/-!
### Networks around one address
-/

section

variable {address : Address} {prefixLen : Nat} {around : Network}

theorem covers_of_covering (covered : covering address prefixLen = .ok around) :
    around.Covers address := by
  rw [(covering_valid covered).covers_iff_covering]
  obtain ⟨_, rfl⟩ := covering_eq_ok_iff.mp covered
  exact ⟨_, covered, Setoid.refl _⟩

theorem containsNetwork_of_covering {longerLen : Nat} {longer : Network}
    (covered : covering address prefixLen = .ok around)
    (longerCovered : covering address longerLen = .ok longer) (shorter : prefixLen ≤ longerLen) :
    around.containsNetwork longer = .ok true := by
  refine containsNetwork_of_shared (covering_valid covered) (covering_valid longerCovered) ?_
    (covers_of_covering covered) (covers_of_covering longerCovered)
  obtain ⟨_, rfl⟩ := covering_eq_ok_iff.mp covered
  obtain ⟨_, rfl⟩ := covering_eq_ok_iff.mp longerCovered
  exact shorter

/-- Clearing the host bits of a longer prefix first changes nothing. -/
theorem exists_covering_base_of_covering {longerLen : Nat} {longer : Network}
    (covered : covering address prefixLen = .ok around)
    (longerCovered : covering address longerLen = .ok longer) (shorter : prefixLen ≤ longerLen) :
    ∃ again, covering longer.base prefixLen = .ok again ∧ again ≈ around := by
  have aroundValid := covering_valid covered
  have contained := containsNetwork_of_covering covered longerCovered shorter
  have inside := covers_base_of_containsNetwork aroundValid (covering_valid longerCovered) contained
  obtain ⟨_, rfl⟩ := covering_eq_ok_iff.mp covered
  exact aroundValid.covers_iff_covering.mp inside

end

end Network

theorem Interface.Valid.covering_eq {interface : Interface} (valid : interface.Valid) :
    Network.covering interface.address interface.prefixLen = .ok interface.network :=
  Network.covering_eq_ok_iff.mpr ⟨valid, rfl⟩

namespace Network

/-- Networks of one family form a tree under containment. -/
structure Laminar : Prop where
  containsNetwork_isOk : ∀ outer inner : Network, outer.family = inner.family →
    ∃ verdict, outer.containsNetwork inner = .ok verdict
  containsNetwork_iff : ∀ outer inner : Network, outer.Valid → inner.Valid →
    (outer.containsNetwork inner = .ok true ↔
      outer.prefixLen ≤ inner.prefixLen ∧
        ∃ around, covering inner.base outer.prefixLen = .ok around ∧ around ≈ outer)
  refl : ∀ network : Network, network.Valid → network.containsNetwork network = .ok true
  trans : ∀ outer middle inner : Network, outer.Valid → middle.Valid → inner.Valid →
    outer.containsNetwork middle = .ok true → middle.containsNetwork inner = .ok true →
      outer.containsNetwork inner = .ok true
  antisymm : ∀ outer inner : Network, outer.Valid → inner.Valid →
    outer.containsNetwork inner = .ok true → inner.containsNetwork outer = .ok true →
      outer ≈ inner
  apart : ∀ left right : Network, left.Valid → right.Valid →
    left.containsNetwork right ≠ .ok true → right.containsNetwork left ≠ .ok true →
      ∀ address, ¬ (left.Covers address ∧ right.Covers address)
  covering_covering : ∀ (address : Address) (shortLen longLen : Nat), shortLen ≤ longLen →
    longLen ≤ address.width →
      ∃ short long, covering address shortLen = .ok short ∧ covering address longLen = .ok long ∧
        short.containsNetwork long = .ok true ∧
        ∃ again, covering long.base shortLen = .ok again ∧ again ≈ short
  covering_interface : ∀ interface : Interface, interface.Valid →
    covering interface.address interface.prefixLen = .ok interface.network

theorem laminar : Laminar where
  containsNetwork_isOk := fun _ _ sameFamily => containsNetwork_isOk sameFamily
  containsNetwork_iff := by
    intro outer inner outerValid innerValid
    rw [containsNetwork_iff_covers_base outerValid innerValid, outerValid.covers_iff_covering]
  refl := fun _ valid => containsNetwork_refl valid
  trans := fun _ _ _ outerValid middleValid innerValid first second =>
    containsNetwork_trans outerValid middleValid innerValid first second
  antisymm := fun _ _ outerValid innerValid contained containing =>
    equiv_of_containsNetwork_of_containsNetwork outerValid innerValid contained containing
  apart := fun _ _ leftValid rightValid notRight notLeft =>
    not_covers_of_not_containsNetwork leftValid rightValid notRight notLeft
  covering_covering := by
    intro address shortLen longLen shorter fits
    have covered := covering_eq_ok_iff.mpr ⟨Nat.le_trans shorter fits, rfl⟩
    have longCovered := covering_eq_ok_iff.mpr ⟨fits, rfl⟩
    exact ⟨_, _, covered, longCovered,
      containsNetwork_of_covering covered longCovered shorter,
      exists_covering_base_of_covering covered longCovered shorter⟩
  covering_interface := fun _ valid => valid.covering_eq

/-- The halves of 10.0.0.0/8 are within it and apart. -/
theorem laminar_halves :
    (⟨.v4 0x0A000000, 8⟩ : Network).containsNetwork ⟨.v4 0x0A800000, 9⟩ = .ok true ∧
      ∀ address, ¬ ((⟨.v4 0x0A000000, 9⟩ : Network).Covers address ∧
        (⟨.v4 0x0A800000, 9⟩ : Network).Covers address) := by
  have lowerValid : (⟨.v4 0x0A000000, 9⟩ : Network).Valid := by decide
  have upperValid : (⟨.v4 0x0A800000, 9⟩ : Network).Valid := by decide
  constructor
  · exact (laminar.containsNetwork_iff _ _ (by decide) upperValid).mpr
      ⟨by decide, _, rfl, by decide⟩
  · exact laminar.apart _ _ lowerValid upperValid (by decide) (by decide)

end Network

end Netblock
