import Netblock.Proofs.EmbeddingMark
/-!
# Offsets between addresses

An offset moves an address along the numbers of its family. It leads to an address exactly when
the sum is one of these numbers, so offsets add up, can be taken back, and every two addresses of
a family are one offset apart. Apart from marks, nothing depends on the way that was taken.
-/

set_option autoImplicit false

namespace Netblock

/-- The family has an address of this value. -/
def Family.InSpace (family : Family) (value : Int) : Prop :=
  0 ≤ value ∧ value < (2 ^ family.width : Nat)

theorem Family.InSpace.toNat_lt {family : Family} {value : Int} (inSpace : family.InSpace value) :
    value.toNat < 2 ^ family.width := by
  obtain ⟨above, below⟩ := inSpace
  omega

namespace Address

theorem inSpace_toNat (address : Address) : address.family.InSpace address.toNat := by
  have below : address.toNat < 2 ^ address.family.width := address.toNat_lt
  exact ⟨by omega, by omega⟩

/-- The second address lies at that distance above the first one, whatever their marks are. -/
structure IsShiftedBy (address : Address) (offset : Int) (shifted : Address) : Prop where
  family_eq : shifted.family = address.family
  toNat_eq : (shifted.toNat : Int) = address.toNat + offset

namespace IsShiftedBy

variable {address shifted other : Address} {offset further : Int}

theorem refl (address : Address) : address.IsShiftedBy 0 address :=
  ⟨rfl, by omega⟩

theorem symm (first : address.IsShiftedBy offset shifted) :
    shifted.IsShiftedBy (-offset) address := by
  have toNat_eq := first.toNat_eq
  exact ⟨first.family_eq.symm, by omega⟩

theorem trans (first : address.IsShiftedBy offset shifted)
    (second : shifted.IsShiftedBy further other) :
    address.IsShiftedBy (offset + further) other := by
  have toNat_eq := first.toNat_eq
  have further_eq := second.toNat_eq
  exact ⟨second.family_eq.trans first.family_eq, by omega⟩

theorem equiv (first : address.IsShiftedBy offset shifted)
    (second : address.IsShiftedBy offset other) : shifted ≈ other := by
  have toNat_eq := first.toNat_eq
  have other_eq := second.toNat_eq
  exact ⟨first.family_eq.trans second.family_eq.symm, by omega⟩

theorem inSpace (first : address.IsShiftedBy offset shifted) :
    address.family.InSpace (address.toNat + offset) := by
  rw [← first.toNat_eq, ← first.family_eq]
  exact shifted.inSpace_toNat

theorem of_difference {left right : Address} (sameFamily : left.family = right.family) :
    right.IsShiftedBy (left.toNat - right.toNat) left :=
  ⟨sameFamily, by omega⟩

end IsShiftedBy

/-!
### Moving by an offset
-/

variable {address shifted : Address} {offset : Int}

theorem add_eq_withValue (inSpace : address.family.InSpace (address.toNat + offset)) :
    address.add offset = .ok (address.withValue (address.toNat + offset : Int).toNat) :=
  if_pos ⟨inSpace.1, inSpace.toNat_lt⟩

theorem add_eq_outsideSpace (outside : ¬ address.family.InSpace (address.toNat + offset)) :
    address.add offset = .error (.outsideSpace address offset) := by
  refine if_neg fun inside => outside ?_
  obtain ⟨above, below⟩ := inside
  rw [width] at below
  exact ⟨above, by omega⟩

/-- What an offset leads to is known in full: only marks that the address has or that the new
octets call for are set. -/
theorem add_eq_ok_iff :
    address.add offset = .ok shifted ↔
      address.IsShiftedBy offset shifted ∧
        (shifted.mark = true ↔ address.mark = true ∨ Octets.Embeds shifted.octets) := by
  by_cases inSpace : address.family.InSpace (address.toNat + offset)
  · have above := inSpace.1
    have value_eq : (address.withValue (address.toNat + offset : Int).toNat).toNat = _ :=
      toNat_withValue inSpace.toNat_lt
    have moved : address.IsShiftedBy offset
        (address.withValue (address.toNat + offset : Int).toNat) :=
      ⟨family_withValue _ _, by omega⟩
    rw [add_eq_withValue inSpace, Except.ok.injEq]
    constructor
    · rintro rfl
      exact ⟨moved, mark_withValue_iff⟩
    · intro result
      obtain ⟨shiftedMoved, mark_iff⟩ := result
      have same := moved.equiv shiftedMoved
      refine Address.ext same.1 same.2 ?_
      rw [Bool.eq_iff_iff, mark_withValue_iff, mark_iff, octets_eq_of_equiv same]
  · rw [add_eq_outsideSpace inSpace]
    exact ⟨nofun, fun result => absurd result.1.inSpace inSpace⟩

theorem add_isOk_iff :
    (∃ shifted, address.add offset = .ok shifted) ↔
      address.family.InSpace (address.toNat + offset) := by
  constructor
  · intro accepted
    obtain ⟨shifted, added⟩ := accepted
    exact (add_eq_ok_iff.mp added).1.inSpace
  · intro inSpace
    exact ⟨_, add_eq_withValue inSpace⟩

/-- Where an address lies, the offset leads to it, up to its mark. -/
theorem IsShiftedBy.exists_add_eq_ok (moved : address.IsShiftedBy offset shifted) :
    ∃ reached, address.add offset = .ok reached ∧ reached ≈ shifted := by
  have added := add_eq_withValue moved.inSpace
  exact ⟨_, added, (add_eq_ok_iff.mp added).1.equiv moved⟩

/-- Two offsets, one after the other, lead where their sum does, or both leave the space. -/
theorem IsShiftedBy.add_add (moved : address.IsShiftedBy offset shifted) (further : Int) :
    (∃ twice once, shifted.add further = .ok twice ∧ address.add (offset + further) = .ok once ∧
      twice ≈ once) ∨
    (shifted.add further = .error (.outsideSpace shifted further) ∧
      address.add (offset + further) = .error (.outsideSpace address (offset + further))) := by
  have sum_eq : (shifted.toNat : Int) + further = address.toNat + (offset + further) := by
    rw [moved.toNat_eq, Int.add_assoc]
  by_cases inSpace : shifted.family.InSpace (shifted.toNat + further)
  · left
    have added := add_eq_withValue inSpace
    have total := moved.trans (add_eq_ok_iff.mp added).1
    obtain ⟨once, addedOnce, same⟩ := total.exists_add_eq_ok
    exact ⟨_, once, added, addedOnce, Setoid.symm same⟩
  · right
    refine ⟨add_eq_outsideSpace inSpace, add_eq_outsideSpace ?_⟩
    rwa [← sum_eq, ← moved.family_eq]

theorem difference_eq_ok {left right : Address} (sameFamily : left.family = right.family) :
    left.difference right = .ok ((left.toNat : Int) - right.toNat) :=
  checkSameFamily_bind_of_eq sameFamily

theorem IsShiftedBy.difference_eq (moved : address.IsShiftedBy offset shifted) :
    shifted.difference address = .ok offset := by
  have toNat_eq := moved.toNat_eq
  rw [difference_eq_ok moved.family_eq]
  congr 1
  omega

theorem difference_eq_mixedFamilies {left right : Address}
    (otherFamily : left.family ≠ right.family) :
    left.difference right = .error (.mixedFamilies left right) :=
  checkSameFamily_bind_of_ne otherFamily

/-- Offsets act on the addresses of a family as whole numbers do on one another. -/
structure OffsetsAct : Prop where
  add_isOk_iff : ∀ (address : Address) (offset : Int),
    (∃ shifted, address.add offset = .ok shifted) ↔
      0 ≤ (address.toNat : Int) + offset ∧
        (address.toNat : Int) + offset < (2 ^ address.width : Nat)
  add_ok : ∀ (address : Address) (offset : Int) (shifted : Address),
    address.add offset = .ok shifted →
      shifted.family = address.family ∧ (shifted.toNat : Int) = address.toNat + offset ∧
        (shifted.mark = true ↔ address.mark = true ∨ Octets.Embeds shifted.octets)
  add_outsideSpace : ∀ (address : Address) (offset : Int),
    (¬ ∃ shifted, address.add offset = .ok shifted) →
      address.add offset = .error (.outsideSpace address offset)
  sub_eq : ∀ (address : Address) (offset : Int), address.sub offset = address.add (-offset)
  sub_add : ∀ (address : Address) (offset : Int) (shifted : Address),
    address.add offset = .ok shifted →
      ∃ back, shifted.sub offset = .ok back ∧ back ≈ address
  difference_add : ∀ (address : Address) (offset : Int) (shifted : Address),
    address.add offset = .ok shifted → shifted.difference address = .ok offset
  add_add : ∀ (address : Address) (offset : Int) (shifted : Address),
    address.add offset = .ok shifted → ∀ further : Int,
      (∃ twice once, shifted.add further = .ok twice ∧ address.add (offset + further) = .ok once ∧
        twice ≈ once) ∨
      (shifted.add further = .error (.outsideSpace shifted further) ∧
        address.add (offset + further) = .error (.outsideSpace address (offset + further)))
  add_difference : ∀ left right : Address, left.family = right.family →
    ∃ distance back, left.difference right = .ok distance ∧ right.add distance = .ok back ∧
      back ≈ left
  difference_mixed : ∀ left right : Address, left.family ≠ right.family →
    left.difference right = .error (.mixedFamilies left right)

theorem offsetsAct : OffsetsAct where
  add_isOk_iff := fun _ _ => add_isOk_iff
  add_ok := by
    intro address offset shifted added
    obtain ⟨moved, mark_iff⟩ := add_eq_ok_iff.mp added
    exact ⟨moved.family_eq, moved.toNat_eq, mark_iff⟩
  add_outsideSpace := by
    intro address offset refused
    rw [add_isOk_iff] at refused
    exact add_eq_outsideSpace refused
  sub_eq := fun _ _ => rfl
  sub_add := by
    intro address offset shifted added
    exact (add_eq_ok_iff.mp added).1.symm.exists_add_eq_ok
  difference_add := by
    intro address offset shifted added
    exact (add_eq_ok_iff.mp added).1.difference_eq
  add_add := by
    intro address offset shifted added further
    exact (add_eq_ok_iff.mp added).1.add_add further
  add_difference := by
    intro left right sameFamily
    obtain ⟨back, added, same⟩ := (IsShiftedBy.of_difference sameFamily).exists_add_eq_ok
    exact ⟨_, back, difference_eq_ok sameFamily, added, same⟩
  difference_mixed := fun _ _ otherFamily => difference_eq_mixedFamilies otherFamily

/-- From the last IPv4 address back to the first one, below which there is none. -/
theorem offsetsAct_allOnes :
    (v4 0xFFFFFFFF).add (-0xFFFFFFFF) = .ok (v4 0) ∧
      (∃ back, (v4 0).sub (-0xFFFFFFFF) = .ok back ∧ back ≈ v4 0xFFFFFFFF) ∧
      (v4 0).difference (v4 0xFFFFFFFF) = .ok (-0xFFFFFFFF) ∧
      (v4 0).add (-1) = .error (.outsideSpace (v4 0) (-1)) := by
  have added : (v4 0xFFFFFFFF).add (-0xFFFFFFFF) = .ok (v4 0) := by decide
  have below : ¬ ∃ shifted, (v4 0).add (-1) = .ok shifted := by
    rw [offsetsAct.add_isOk_iff]
    decide
  exact ⟨added, offsetsAct.sub_add _ _ _ added, offsetsAct.difference_add _ _ _ added,
    offsetsAct.add_outsideSpace _ _ below⟩

end Address

end Netblock
