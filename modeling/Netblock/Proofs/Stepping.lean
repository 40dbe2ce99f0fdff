import Mathlib.Order.Bounds.Defs
import Netblock.Proofs.Offsets
import Netblock.Proofs.Order
/-!
# Steps along the addresses

A step to the following or the preceding address is an offset by one. Steps taken one after the
other end where their number leads as an offset, and stop short of the end of the space just when
that offset does. A step forward goes to the next address in order, and one back returns from it.
-/

set_option autoImplicit false

namespace Netblock.Address

/-- Takes one step after the other, for as long as there is one to take. -/
def walk (step : Address → Option Address) (address : Address) : Nat → Option Address
  | 0 => some address
  | count + 1 => (walk step address count).bind step

/-- A step by this offset, wherever it leads to an address. -/
def MovesBy (offset : Int) (step : Address → Option Address) : Prop :=
  ∀ address, step address = (address.add offset).toOption

theorem movesBy_next? : MovesBy 1 next? := by
  intro address
  have value_eq : ((address.toNat : Int) + 1).toNat = address.toNat + 1 := by omega
  simp only [next?, add, value_eq]
  by_cases room : address.toNat + 1 < 2 ^ address.width
  · rw [if_pos room, if_pos ⟨by omega, room⟩]
    rfl
  · rw [if_neg room, if_neg fun inSpace => room inSpace.2]
    rfl

theorem movesBy_previous? : MovesBy (-1) previous? := by
  intro address
  have below := address.toNat_lt
  have value_eq : ((address.toNat : Int) + -1).toNat = address.toNat - 1 := by omega
  simp only [previous?, add, value_eq]
  by_cases zero : address.toNat = 0
  · rw [if_pos zero, if_neg (by omega)]
    rfl
  · rw [if_neg zero, if_pos ⟨by omega, by omega⟩]
    rfl

/-!
### Walks
-/

/-- A multiple of an offset that stays in the space passes through it all the way. -/
theorem inSpace_of_inSpace_add {family : Family} {start offset : Int} {count : Nat}
    (started : family.InSpace start) (ended : family.InSpace (start + (count + 1 : Nat) * offset)) :
    family.InSpace (start + count * offset) := by
  have product_eq : ((count + 1 : Nat) : Int) * offset = count * offset + offset := by
    rw [Int.natCast_succ, Int.add_mul, Int.one_mul]
  obtain ⟨startAbove, startBelow⟩ := started
  obtain ⟨endAbove, endBelow⟩ := ended
  rw [product_eq] at endAbove endBelow
  rcases Int.le_total 0 offset with upwards | downwards
  · have passed : 0 ≤ count * offset := Int.mul_nonneg (Int.natCast_nonneg count) upwards
    exact ⟨by omega, by omega⟩
  · have passed : count * offset ≤ 0 :=
      Int.mul_nonpos_of_nonneg_of_nonpos (Int.natCast_nonneg count) downwards
    exact ⟨by omega, by omega⟩

namespace MovesBy

variable {offset : Int} {step : Address → Option Address} {address next : Address}

theorem eq_some_iff (moves : MovesBy offset step) :
    step address = some next ↔ address.add offset = .ok next := by
  rw [moves address]
  cases address.add offset with
  | error error => exact ⟨nofun, nofun⟩
  | ok shifted => exact ⟨fun found => congrArg _ (Option.some.inj found),
      fun added => congrArg some (Except.ok.inj added)⟩

theorem isShiftedBy (moves : MovesBy offset step) (found : step address = some next) :
    address.IsShiftedBy offset next :=
  (add_eq_ok_iff.mp (moves.eq_some_iff.mp found)).1

theorem exists_eq_some (moves : MovesBy offset step) (moved : address.IsShiftedBy offset next) :
    ∃ reached, step address = some reached ∧ reached ≈ next := by
  obtain ⟨reached, added, same⟩ := moved.exists_add_eq_ok
  exact ⟨reached, moves.eq_some_iff.mpr added, same⟩

theorem isShiftedBy_of_walk (moves : MovesBy offset step) {count : Nat} {reached : Address}
    (walked : address.walk step count = some reached) :
    address.IsShiftedBy (count * offset) reached := by
  induction count generalizing reached with
  | zero =>
      cases walked
      simpa using IsShiftedBy.refl address
  | succ count ih =>
      obtain ⟨before, walkedBefore, found⟩ := Option.bind_eq_some_iff.mp walked
      have moved := (ih walkedBefore).trans (moves.isShiftedBy found)
      rwa [Int.natCast_succ, Int.add_mul, Int.one_mul]

theorem exists_walk_eq_some (moves : MovesBy offset step) {count : Nat}
    (inSpace : address.family.InSpace (address.toNat + count * offset)) :
    ∃ reached, address.walk step count = some reached := by
  induction count with
  | zero => exact ⟨address, rfl⟩
  | succ count ih =>
      obtain ⟨before, walkedBefore⟩ := ih (inSpace_of_inSpace_add address.inSpace_toNat inSpace)
      have moved := moves.isShiftedBy_of_walk walkedBefore
      have room : before.family.InSpace (before.toNat + offset) := by
        rw [moved.family_eq, moved.toNat_eq, Int.add_assoc]
        rwa [Int.natCast_succ, Int.add_mul, Int.one_mul] at inSpace
      obtain ⟨reached, added⟩ := add_isOk_iff.mpr room
      refine ⟨reached, ?_⟩
      rw [walk, walkedBefore]
      exact moves.eq_some_iff.mpr added

/-- A walk ends where its length leads as an offset, or leaves the space with it. -/
theorem rel_walk_add (moves : MovesBy offset step) (address : Address) (count : Nat) :
    Option.Rel (· ≈ ·) (address.walk step count) (address.add (count * offset)).toOption := by
  cases walked : address.walk step count with
  | none =>
      have outside : ¬ address.family.InSpace (address.toNat + count * offset) := by
        intro inSpace
        obtain ⟨reached, found⟩ := moves.exists_walk_eq_some inSpace
        rw [walked] at found
        cases found
      rw [add_eq_outsideSpace outside]
      exact .none
  | some reached =>
      obtain ⟨shifted, added, same⟩ := (moves.isShiftedBy_of_walk walked).exists_add_eq_ok
      rw [added]
      exact .some (Setoid.symm same)

end MovesBy

/-!
### Neighbours in order
-/

variable {address next previous : Address}

theorem isLeast_next? (found : address.next? = some next) :
    IsLeast {other | other.family = address.family ∧ address < other} next := by
  have moved := movesBy_next?.isShiftedBy found
  have toNat_eq := moved.toNat_eq
  constructor
  · refine ⟨moved.family_eq, lt_iff.mpr (.inr ⟨moved.family_eq.symm, by omega⟩)⟩
  · intro other later
    obtain ⟨sameFamily, above⟩ := later
    rcases lt_iff.mp above with wider | ⟨_, above⟩
    · exact absurd (width_eq_iff.mpr sameFamily) (Nat.ne_of_gt wider)
    · rw [le_iff_toNat_le (moved.family_eq.trans sameFamily.symm)]
      omega

theorem isGreatest_previous? (found : address.previous? = some previous) :
    IsGreatest {other | other.family = address.family ∧ other < address} previous := by
  have moved := movesBy_previous?.isShiftedBy found
  have toNat_eq := moved.toNat_eq
  constructor
  · refine ⟨moved.family_eq, lt_iff.mpr (.inr ⟨moved.family_eq, by omega⟩)⟩
  · intro other earlier
    obtain ⟨sameFamily, below⟩ := earlier
    rcases lt_iff.mp below with narrower | ⟨_, below⟩
    · exact absurd (width_eq_iff.mpr sameFamily) (Nat.ne_of_lt narrower)
    · rw [le_iff_toNat_le (sameFamily.trans moved.family_eq.symm)]
      omega

/-- Steps forward and back agree with offsets and with the order of addresses. -/
structure StepsAgree : Prop where
  walk_next? : ∀ (address : Address) (count : Nat),
    Option.Rel (· ≈ ·) (address.walk next? count) (address.add count).toOption
  walk_previous? : ∀ (address : Address) (count : Nat),
    Option.Rel (· ≈ ·) (address.walk previous? count) (address.sub count).toOption
  isLeast_next? : ∀ address next : Address, address.next? = some next →
    IsLeast {other | other.family = address.family ∧ address < other} next
  isGreatest_previous? : ∀ address previous : Address, address.previous? = some previous →
    IsGreatest {other | other.family = address.family ∧ other < address} previous
  previous?_next? : ∀ address next : Address, address.next? = some next →
    ∃ back, next.previous? = some back ∧ back ≈ address
  next?_previous? : ∀ address previous : Address, address.previous? = some previous →
    ∃ back, previous.next? = some back ∧ back ≈ address
  next?_eq_none_iff : ∀ address : Address,
    address.next? = none ↔ address.toNat = 2 ^ address.width - 1
  previous?_eq_none_iff : ∀ address : Address, address.previous? = none ↔ address.toNat = 0

theorem stepsAgree : StepsAgree where
  walk_next? := by
    intro address count
    simpa using movesBy_next?.rel_walk_add address count
  walk_previous? := by
    intro address count
    have walked := movesBy_previous?.rel_walk_add address count
    rwa [Int.mul_neg, Int.mul_one] at walked
  isLeast_next? := fun _ _ found => isLeast_next? found
  isGreatest_previous? := fun _ _ found => isGreatest_previous? found
  previous?_next? := by
    intro address next found
    exact movesBy_previous?.exists_eq_some (movesBy_next?.isShiftedBy found).symm
  next?_previous? := by
    intro address previous found
    exact movesBy_next?.exists_eq_some (movesBy_previous?.isShiftedBy found).symm
  next?_eq_none_iff := fun _ => next?_eq_none_iff
  previous?_eq_none_iff := fun _ => previous?_eq_none_iff

/-- Past the mapped addresses a mark stays with the steps forward, and with the step back. -/
theorem stepsAgree_afterMapped :
    (v6 0xFFFFFFFFFFFF true).next? = some (v6 0x1000000000000 true) ∧
      IsLeast {other | other.family = (v6 0xFFFFFFFFFFFF true).family ∧
        v6 0xFFFFFFFFFFFF true < other} (v6 0x1000000000000 true) ∧
      ∃ back, (v6 0x1000000000000 true).previous? = some back ∧
        back ≈ v6 0xFFFFFFFFFFFF true := by
  have found : (v6 0xFFFFFFFFFFFF true).next? = some (v6 0x1000000000000 true) := by decide
  exact ⟨found, stepsAgree.isLeast_next? _ _ found, stepsAgree.previous?_next? _ _ found⟩

end Netblock.Address
