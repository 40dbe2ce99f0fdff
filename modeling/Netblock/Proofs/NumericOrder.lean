import Netblock.Proofs.Offsets
import Netblock.Proofs.Order
/-!
# Addresses as numbers in order

The addresses of a family are the numbers below `2 ^ width`, up to marks. Their order is that of
the numbers and, since octets are written from the most significant one down, that in which lists
of octets are compared. Equivalence is equality of octets, across both families, so whatever is
computed from the octets of an address, such as a hash, respects it.
-/

set_option autoImplicit false

namespace Netblock

/-!
### Octets of a number
-/

namespace Positional

theorem getElem_encode {base len value index : Nat}
    (inRange : index < (encode base len value).length) :
    (encode base len value)[index] = value / base ^ (len - 1 - index) % base := by
  induction len generalizing value with
  | zero => exact absurd inRange (Nat.not_lt_zero index)
  | succ len ih =>
      simp only [encode]
      rw [length_encode] at inRange
      rcases Nat.lt_or_eq_of_le (Nat.le_of_lt_succ inRange) with earlier | rfl
      · have before : index < (encode base len (value / base)).length := by
          rwa [length_encode]
        have shifted : (len - 1 - index).succ = len + 1 - 1 - index := by omega
        rw [List.getElem_append_left before, ih before, Nat.div_div_eq_div_mul, ← Nat.pow_succ',
          shifted]
      · simp

/-- Numbers in two digits of any base are compared by the upper digit first. -/
theorem compare_mul_add {base upper upper' lower lower' : Nat} (below : lower < base)
    (below' : lower' < base) :
    compare (upper * base + lower) (upper' * base + lower') =
      (compare upper upper').then (compare lower lower') := by
  have step : ∀ smaller larger digit digit' : Nat, smaller < larger → digit < base →
      smaller * base + digit < larger * base + digit' := by
    intro smaller larger digit digit' apart digitBelow
    calc smaller * base + digit
        < smaller * base + base := Nat.add_lt_add_left digitBelow _
      _ = (smaller + 1) * base := (Nat.succ_mul smaller base).symm
      _ ≤ larger * base := Nat.mul_le_mul_right base apart
      _ ≤ larger * base + digit' := Nat.le_add_right _ _
  rcases Nat.lt_trichotomy upper upper' with before | rfl | after
  · rw [Nat.compare_eq_lt.mpr before, Nat.compare_eq_lt.mpr (step _ _ _ _ before below)]
    rfl
  · rw [Nat.compare_eq_eq.mpr rfl, Ordering.eq_then]
    rcases Nat.lt_trichotomy lower lower' with before | rfl | after
    · rw [Nat.compare_eq_lt.mpr before, Nat.compare_eq_lt.mpr (by omega)]
    · rw [Nat.compare_eq_eq.mpr rfl, Nat.compare_eq_eq.mpr rfl]
    · rw [Nat.compare_eq_gt.mpr after, Nat.compare_eq_gt.mpr (by omega)]
  · rw [Nat.compare_eq_gt.mpr after, Nat.compare_eq_gt.mpr (step _ _ _ _ after below')]
    rfl

end Positional

namespace Octets

/-- The octets of a number in a fixed length, the most significant one first. -/
structure IsBigEndian (value len : Nat) (octets : List Octet) : Prop where
  length_eq : octets.length = len
  toNat_getElem : ∀ index (inRange : index < octets.length),
    octets[index].toNat = value / 256 ^ (len - 1 - index) % 256

theorem isBigEndian_ofNat (len value : Nat) : IsBigEndian value len (ofNat len value) where
  length_eq := length_ofNat len value
  toNat_getElem := by
    intro index inRange
    have encoded : index < (Positional.encode 256 len value).length := by
      rwa [Positional.length_encode, ← length_ofNat len value]
    have digit_eq := Positional.getElem_encode encoded
    simp only [ofNat, List.getElem_map, BitVec.toNat_ofNat, digit_eq, Nat.reducePow, Nat.mod_mod]

theorem toNat_cons (first : Octet) (rest : List Octet) :
    toNat (first :: rest) = first.toNat * 256 ^ rest.length + toNat rest := by
  have single : toNat [first] = first.toNat := by simp [toNat, Positional.decode]
  rw [← single, ← toNat_append, List.singleton_append]

theorem compare_octet (left right : Octet) :
    compare left right = compare left.toNat right.toNat := by
  simp [compare, compareOfLessAndEq, BitVec.lt_def, ← BitVec.toNat_inj]

/-- Among octets of one length the order of the lists is that of the numbers. -/
theorem compare_toNat {left right : List Octet} (sameLength : left.length = right.length) :
    compare (toNat left) (toNat right) = compare left right := by
  induction left generalizing right with
  | nil =>
      cases right with
      | nil => rfl
      | cons first rest => cases sameLength
  | cons first rest ih =>
      cases right with
      | nil => cases sameLength
      | cons other others =>
          have restLength : rest.length = others.length := Nat.succ.inj sameLength
          have below : toNat rest < 256 ^ others.length := restLength ▸ toNat_lt rest
          rw [toNat_cons, toNat_cons, restLength,
            Positional.compare_mul_add below (toNat_lt others), ih restLength,
            List.compare_cons_cons, compare_octet]

end Octets

namespace Address

theorem isBigEndian_octets (address : Address) :
    Octets.IsBigEndian address.toNat (address.width / 8) address.octets := by
  cases address with
  | v4 bits =>
      have count_eq : (v4 bits).width / 8 = 4 := by simp [width, family, Family.width]
      exact count_eq ▸ Octets.isBigEndian_ofNat 4 bits.toNat
  | v6 bits mark =>
      have count_eq : (v6 bits mark).width / 8 = 16 := by simp [width, family, Family.width]
      exact count_eq ▸ Octets.isBigEndian_ofNat 16 bits.toNat

theorem toNat_octets (address : Address) : Octets.toNat address.octets = address.toNat := by
  cases address with
  | v4 bits => exact (Octets.toNat_ofNat 4 bits.toNat).trans (Nat.mod_eq_of_lt bits.isLt)
  | v6 bits mark => exact (Octets.toNat_ofNat 16 bits.toNat).trans (Nat.mod_eq_of_lt bits.isLt)

/-- The length of the octets tells the family, and they spell the number. -/
theorem equiv_iff_octets_eq {left right : Address} :
    left ≈ right ↔ left.octets = right.octets := by
  constructor
  · exact octets_eq_of_equiv
  · intro sameOctets
    constructor
    · have sameLength := congrArg List.length sameOctets
      rw [left.isBigEndian_octets.length_eq, right.isBigEndian_octets.length_eq] at sameLength
      cases left <;> cases right <;> simp_all [width, family, Family.width]
    · rw [← toNat_octets, sameOctets, toNat_octets]

/-!
### From numbers
-/

variable {address : Address} {family : Family} {value : Int}

/-- A number is the offset of its address from zero. -/
theorem ofInt_eq_add (family : Family) (value : Int) :
    ofInt family value = (zero family).add value := by
  cases value with
  | ofNat value =>
      rw [ofInt, ofNat, add, toNat_zero, width, family_zero]
      simp
  | negSucc value =>
      rw [add_eq_outsideSpace]
      · rfl
      · rw [toNat_zero]
        intro inSpace
        have above := inSpace.1
        omega

theorem ofInt_eq_ok_iff :
    ofInt family value = .ok address ↔
      address.family = family ∧ (address.toNat : Int) = value ∧
        (address.mark = true ↔ Octets.Embeds address.octets) := by
  rw [ofInt_eq_add, add_eq_ok_iff, mark_zero]
  simp only [Bool.false_eq_true, false_or]
  constructor
  · intro accepted
    obtain ⟨moved, mark_iff⟩ := accepted
    have toNat_eq := moved.toNat_eq
    rw [toNat_zero] at toNat_eq
    exact ⟨moved.family_eq.trans (family_zero family), by omega, mark_iff⟩
  · intro result
    obtain ⟨family_eq, toNat_eq, mark_iff⟩ := result
    refine ⟨⟨family_eq.trans (family_zero family).symm, ?_⟩, mark_iff⟩
    rw [toNat_zero]
    omega

theorem ofInt_isOk_iff :
    (∃ address, ofInt family value = .ok address) ↔ family.InSpace value := by
  simp [ofInt_eq_add, add_isOk_iff]

theorem ofInt_eq_outsideSpace (outside : ¬ family.InSpace value) :
    ofInt family value = .error (.outsideSpace (zero family) value) := by
  rw [ofInt_eq_add]
  refine add_eq_outsideSpace ?_
  simpa using outside

theorem exists_ofNat_toNat (address : Address) :
    ∃ back, ofNat address.family address.toNat = .ok back ∧ back ≈ address := by
  have moved : (zero address.family).IsShiftedBy address.toNat address :=
    ⟨(family_zero address.family).symm, by simp⟩
  obtain ⟨back, added, same⟩ := moved.exists_add_eq_ok
  rw [← ofInt_eq_add] at added
  exact ⟨back, added, same⟩

/-!
### Order
-/

variable {left right : Address}

theorem lt_of_v4_of_v6 (leftFamily : left.family = .v4) (rightFamily : right.family = .v6) :
    left < right := by
  refine lt_iff.mpr (.inl ?_)
  rw [width, width, leftFamily, rightFamily]
  decide

theorem compare_eq_compare_toNat (sameFamily : left.family = right.family) :
    compare left right = compare left.toNat right.toNat := by
  rw [compare_eq, Nat.compare_eq_eq.mpr (width_eq_iff.mpr sameFamily), Ordering.eq_then]

theorem compare_octets (sameFamily : left.family = right.family) :
    compare left.octets right.octets = compare left right := by
  have sameLength : left.octets.length = right.octets.length := by
    rw [left.isBigEndian_octets.length_eq, right.isBigEndian_octets.length_eq,
      width_eq_iff.mpr sameFamily]
  rw [← Octets.compare_toNat sameLength, toNat_octets, toNat_octets,
    compare_eq_compare_toNat sameFamily]

theorem compareWithin_eq_ok (sameFamily : left.family = right.family) :
    left.compareWithin right = .ok (compare left right) :=
  checkSameFamily_bind_of_eq sameFamily

theorem compareWithin_eq_mixedFamilies (otherFamily : left.family ≠ right.family) :
    left.compareWithin right = .error (.mixedFamilies left right) :=
  checkSameFamily_bind_of_ne otherFamily

/-- Addresses stand for the numbers of their family, in the same order. -/
structure OrderIsomorphism : Prop where
  ofInt_isOk_iff : ∀ (family : Family) (value : Int),
    (∃ address, ofInt family value = .ok address) ↔ 0 ≤ value ∧ value < (2 ^ family.width : Nat)
  ofInt_outsideSpace : ∀ (family : Family) (value : Int),
    (¬ ∃ address, ofInt family value = .ok address) →
      ofInt family value = .error (.outsideSpace (zero family) value)
  ofInt_ok : ∀ (family : Family) (value : Int) (address : Address),
    ofInt family value = .ok address →
      address.family = family ∧ (address.toNat : Int) = value ∧
        Octets.IsBigEndian value.toNat (family.width / 8) address.octets ∧
        (address.mark = true ↔ Octets.Embeds address.octets)
  ofNat_eq : ∀ (family : Family) (value : Nat), ofNat family value = ofInt family value
  ofNat_toNat : ∀ address : Address,
    ∃ back, ofNat address.family address.toNat = .ok back ∧ back ≈ address
  order : IsTotallyOrdered Address
  v4_lt_v6 : ∀ left right : Address, left.family = .v4 → right.family = .v6 → left < right
  compare_toNat : ∀ left right : Address, left.family = right.family →
    compare left right = compare left.toNat right.toNat
  compare_octets : ∀ left right : Address, left.family = right.family →
    compare left right = compare left.octets right.octets
  equiv_iff_octets : ∀ left right : Address, left ≈ right ↔ left.octets = right.octets
  compareWithin_ok : ∀ left right : Address, left.family = right.family →
    left.compareWithin right = .ok (compare left right)
  compareWithin_mixed : ∀ left right : Address, left.family ≠ right.family →
    left.compareWithin right = .error (.mixedFamilies left right)

theorem orderIsomorphism : OrderIsomorphism where
  ofInt_isOk_iff := fun _ _ => ofInt_isOk_iff
  ofInt_outsideSpace := by
    intro family value refused
    rw [ofInt_isOk_iff] at refused
    exact ofInt_eq_outsideSpace refused
  ofInt_ok := by
    intro family value address accepted
    obtain ⟨family_eq, toNat_eq, mark_iff⟩ := ofInt_eq_ok_iff.mp accepted
    have value_eq : address.toNat = value.toNat := by omega
    have bigEndian := address.isBigEndian_octets
    rw [value_eq, width, family_eq] at bigEndian
    exact ⟨family_eq, toNat_eq, bigEndian, mark_iff⟩
  ofNat_eq := fun _ _ => rfl
  ofNat_toNat := exists_ofNat_toNat
  order := isTotallyOrdered
  v4_lt_v6 := fun _ _ leftFamily rightFamily => lt_of_v4_of_v6 leftFamily rightFamily
  compare_toNat := fun _ _ sameFamily => compare_eq_compare_toNat sameFamily
  compare_octets := fun _ _ sameFamily => (compare_octets sameFamily).symm
  equiv_iff_octets := fun _ _ => equiv_iff_octets_eq
  compareWithin_ok := fun _ _ sameFamily => compareWithin_eq_ok sameFamily
  compareWithin_mixed := fun _ _ otherFamily => compareWithin_eq_mixedFamilies otherFamily

/-- The last mapped address by its number, and the first number without an IPv4 address. -/
theorem orderIsomorphism_edges :
    ofInt .v6 0xFFFFFFFFFFFF = .ok (v6 0xFFFFFFFFFFFF true) ∧
      Octets.IsBigEndian 0xFFFFFFFFFFFF 16 (v6 0xFFFFFFFFFFFF true).octets ∧
      ofInt .v4 0x100000000 = .error (.outsideSpace (v4 0) 0x100000000) ∧
      v4 0xFFFFFFFF < v6 0 false := by
  have accepted : ofInt .v6 0xFFFFFFFFFFFF = .ok (v6 0xFFFFFFFFFFFF true) := by decide
  have outside : ¬ ∃ address, ofInt .v4 0x100000000 = .ok address := by
    rw [orderIsomorphism.ofInt_isOk_iff]
    decide
  exact ⟨accepted, (orderIsomorphism.ofInt_ok _ _ _ accepted).2.2.1,
    orderIsomorphism.ofInt_outsideSpace _ _ outside, orderIsomorphism.v4_lt_v6 _ _ rfl rfl⟩

end Address

end Netblock
