import Mathlib.Data.List.Forall2
import Netblock.Interface
import Netblock.MacAddress.InterfaceId
import Netblock.Network.Merge
import Netblock.Network.Split
import Netblock.Network.Usable
import Netblock.Proofs.Order
/-!
# Operations that ignore marks

Two runs of an operation whose arguments differ in marks alone end alike: their results differ in
marks alone, or both fail with the same error. `Alike` relates the values of two runs, type by
type, and operations are alike that take alike arguments to alike results. So an operation ignores
marks when it is alike itself, and one that is put together from others that do ignores them too.

Texts and the rule of a network for its usable hosts are what marks are for.
-/

set_option autoImplicit false

namespace Netblock

/-!
### Values of two runs
-/

/-- When the values of two runs differ in marks alone. -/
class TwoRuns (α : Type) where
  Alike : α → α → Prop

export TwoRuns (Alike)

/-- Arguments that differ in marks alone give results that differ in marks alone. -/
def IgnoresMarks {α : Type} [TwoRuns α] (operation : α) : Prop :=
  Alike operation operation

instance : TwoRuns Prop := ⟨Iff⟩

instance : TwoRuns Unit := ⟨Eq⟩

instance : TwoRuns Bool := ⟨Eq⟩

instance : TwoRuns Nat := ⟨Eq⟩

instance : TwoRuns Int := ⟨Eq⟩

instance : TwoRuns Ordering := ⟨Eq⟩

instance : TwoRuns UsableRule := ⟨Eq⟩

instance : TwoRuns MacAddress := ⟨Eq⟩

instance : TwoRuns Address := ⟨(· ≈ ·)⟩

instance : TwoRuns Network := ⟨(· ≈ ·)⟩

instance : TwoRuns Interface := ⟨(· ≈ ·)⟩

/-- Errors of one cause with alike operands. The texts in them show marks. -/
inductive Error.Alike : Error → Error → Prop where
  | malformed {left right : String} {reason : Text.Malformation} :
      Alike (.malformed left reason) (.malformed right reason)
  | prefixLen {left right given : String} : Alike (.prefixLen left given) (.prefixLen right given)
  | hostBits {left right : String} : Alike (.hostBits left) (.hostBits right)
  | mixedFamilies {left left' right right' : Address} (same : left ≈ left')
      (otherSame : right ≈ right') : Alike (.mixedFamilies left right) (.mixedFamilies left' right')
  | outsideSpace {base base' : Address} {offset : Int} (same : base ≈ base') :
      Alike (.outsideSpace base offset) (.outsideSpace base' offset)
  | tooFewHostBits {network network' : Network} {power : Nat} (same : network ≈ network') :
      Alike (.tooFewHostBits network power) (.tooFewHostBits network' power)
  | splitCountTooLow {network network' : Network} {count : Nat} (same : network ≈ network') :
      Alike (.splitCountTooLow network count) (.splitCountTooLow network' count)
  | splitCountTooHigh {network network' : Network} {count : Nat} (same : network ≈ network') :
      Alike (.splitCountTooHigh network count) (.splitCountTooHigh network' count)
  | splitCountNotPowerOfTwo {network network' : Network} {count : Nat}
      (same : network ≈ network') :
      Alike (.splitCountNotPowerOfTwo network count) (.splitCountNotPowerOfTwo network' count)
  | splitPower {network network' : Network} {power : Nat} (same : network ≈ network') :
      Alike (.splitPower network power) (.splitPower network' power)
  | mergeCount {count : Nat} : Alike (.mergeCount count) (.mergeCount count)
  | mergeAnyAddress {count : Nat} : Alike (.mergeAnyAddress count) (.mergeAnyAddress count)
  | mergeOrder {count index : Nat} : Alike (.mergeOrder count index) (.mergeOrder count index)

/-- Both runs succeed with alike results, or both fail with alike errors. -/
inductive AlikeOutcomes {α : Type} [TwoRuns α] : Except Error α → Except Error α → Prop where
  | ok {left right : α} (alike : Alike left right) : AlikeOutcomes (.ok left) (.ok right)
  | error {left right : Error} (alike : left.Alike right) :
      AlikeOutcomes (.error left) (.error right)

section

variable {α β : Type} [TwoRuns α] [TwoRuns β]

instance : TwoRuns (Option α) := ⟨Option.Rel Alike⟩

instance : TwoRuns (List α) := ⟨List.Forall₂ Alike⟩

instance : TwoRuns (Except Error α) := ⟨AlikeOutcomes⟩

instance : TwoRuns (α → β) :=
  ⟨fun operation other => ∀ ⦃left right⦄, Alike left right → Alike (operation left) (other right)⟩

theorem alike_ite {condition condition' : Prop} [Decidable condition] [Decidable condition']
    {left left' right right' : α} (same : condition ↔ condition') (alike : Alike left left')
    (otherAlike : Alike right right') :
    Alike (if condition then left else right) (if condition' then left' else right') := by
  by_cases holds : condition
  · rw [if_pos holds, if_pos (same.mp holds)]
    exact alike
  · rw [if_neg holds, if_neg (mt same.mpr holds)]
    exact otherAlike

theorem alike_exists_mem {found found' : Option α} {property property' : α → Prop}
    (alike : Alike found found') (propertyAlike : Alike property property') :
    (∃ value ∈ found, property value) ↔ ∃ value ∈ found', property' value := by
  cases alike with
  | none => simp
  | @some value value' alike =>
      have same : property value ↔ property' value' := propertyAlike alike
      simpa using same

theorem alike_getD_map {found found' : Option α} {rest rest' : α → List β}
    (alike : Alike found found') (restAlike : Alike rest rest') :
    Alike ((found.map rest).getD []) ((found'.map rest').getD []) := by
  cases alike with
  | none => exact .nil
  | some alike => exact restAlike alike

theorem AlikeOutcomes.bind {first first' : Except Error α} {next next' : α → Except Error β}
    (alike : AlikeOutcomes first first') (nextAlike : Alike next next') :
    AlikeOutcomes (first >>= next) (first' >>= next') := by
  cases alike with
  | ok alike => exact nextAlike alike
  | error alike => exact .error alike

end

/-!
### Addresses
-/

namespace Address

/-- Equivalent addresses have the same bits, under any two marks. -/
theorem ignoresMarks_of_bits {β : Type} [TwoRuns β] {operation : Address → β}
    (onV4 : ∀ bits, Alike (operation (v4 bits)) (operation (v4 bits)))
    (onV6 : ∀ bits mark otherMark,
      Alike (operation (v6 bits mark)) (operation (v6 bits otherMark))) :
    IgnoresMarks operation := by
  intro left right same
  cases left with
  | v4 bits =>
      cases right with
      | v4 otherBits =>
          obtain rfl : bits = otherBits := BitVec.eq_of_toNat_eq same.2
          exact onV4 bits
      | v6 otherBits mark => cases same.1
  | v6 bits mark =>
      cases right with
      | v4 otherBits => cases same.1
      | v6 otherBits otherMark =>
          obtain rfl : bits = otherBits := BitVec.eq_of_toNat_eq same.2
          exact onV6 bits mark otherMark

theorem ignoresMarks_toNat : IgnoresMarks toNat := by
  intro left right same
  exact same.2

theorem width_eq_of_equiv {left right : Address} (same : left ≈ right) :
    left.width = right.width :=
  congrArg Family.width same.1

theorem ignoresMarks_compare : IgnoresMarks (compare : Address → Address → Ordering) := by
  intro left left' same right right' otherSame
  change compare left right = compare left' right'
  rw [compare_eq, compare_eq, width_eq_of_equiv same, width_eq_of_equiv otherSame, same.2,
    otherSame.2]

theorem ignoresMarks_le : IgnoresMarks fun left right : Address => left ≤ right := by
  intro left left' same right right' otherSame
  have compared : compare left right = compare left' right' := ignoresMarks_compare same otherSame
  change (compare left right).isLE = true ↔ (compare left' right').isLE = true
  rw [compared]

theorem ignoresMarks_equiv : IgnoresMarks fun left right : Address => left ≈ right := by
  intro left left' same right right' otherSame
  change left ≈ right ↔ left' ≈ right'
  rw [equiv_iff, equiv_iff, same.1, same.2, otherSame.1, otherSame.2]

theorem ignoresMarks_isAligned : IgnoresMarks IsAligned := by
  intro left right same prefixLen _ rfl
  change left.toNat % 2 ^ (left.width - prefixLen) = 0 ↔
    right.toNat % 2 ^ (right.width - prefixLen) = 0
  rw [same.2, width_eq_of_equiv same]

theorem withValue_equiv {left right : Address} (same : left ≈ right) (value : Nat) :
    left.withValue value ≈ right.withValue value := by
  have ignores : IgnoresMarks (withValue value) :=
    ignoresMarks_of_bits (fun _ => Setoid.refl _) fun _ _ _ => ⟨rfl, rfl⟩
  exact ignores same

theorem truncate_equiv {left right : Address} (same : left ≈ right) (prefixLen : Nat) :
    left.truncate prefixLen ≈ right.truncate prefixLen := by
  rw [truncate, truncate, width_eq_of_equiv same, same.2]
  exact withValue_equiv same _

theorem ignoresMarks_add : IgnoresMarks add := by
  intro left right same offset _ rfl
  unfold add
  rw [same.2, width_eq_of_equiv same]
  refine alike_ite Iff.rfl (.ok ?_) (.error (.outsideSpace same))
  exact withValue_equiv same _

theorem ignoresMarks_sub : IgnoresMarks sub := by
  intro left right same offset _ rfl
  exact ignoresMarks_add same rfl

theorem ignoresMarks_next? : IgnoresMarks next? := by
  intro left right same
  unfold next?
  rw [same.2, width_eq_of_equiv same]
  exact alike_ite Iff.rfl (.some (withValue_equiv same _)) .none

theorem ignoresMarks_previous? : IgnoresMarks previous? := by
  intro left right same
  unfold previous?
  rw [same.2]
  exact alike_ite Iff.rfl .none (.some (withValue_equiv same _))

theorem ignoresMarks_checkSameFamily : IgnoresMarks checkSameFamily := by
  intro left left' same right right' otherSame
  unfold checkSameFamily
  rw [same.1, otherSame.1]
  exact alike_ite Iff.rfl (.ok rfl) (.error (.mixedFamilies same otherSame))

theorem ignoresMarks_difference : IgnoresMarks difference := by
  intro left left' same right right' otherSame
  refine (ignoresMarks_checkSameFamily same otherSame).bind fun _ _ _ => .ok ?_
  rw [same.2, otherSame.2]
  rfl

theorem ignoresMarks_compareWithin : IgnoresMarks compareWithin := by
  intro left left' same right right' otherSame
  refine (ignoresMarks_checkSameFamily same otherSame).bind fun _ _ _ => .ok ?_
  exact ignoresMarks_compare same otherSame

theorem ignoresMarks_checkPrefixLen : IgnoresMarks checkPrefixLen := by
  intro left right same prefixLen _ rfl
  unfold checkPrefixLen
  rw [width_eq_of_equiv same]
  exact alike_ite Iff.rfl (.ok rfl) (.error .prefixLen)

theorem ignoresMarks_embeddedV4? : IgnoresMarks embeddedV4? := by
  refine ignoresMarks_of_bits (fun _ => .none) fun bits _ _ => ?_
  exact alike_ite Iff.rfl (.some (Setoid.refl _)) .none

theorem ignoresMarks_mac? : IgnoresMarks mac? := by
  refine ignoresMarks_of_bits (fun _ => .none) fun bits _ _ => ?_
  exact alike_ite Iff.rfl .none (alike_ite Iff.rfl (.some rfl) .none)

theorem ignoresMarks_solicitedNode? : IgnoresMarks solicitedNode? := by
  refine ignoresMarks_of_bits (fun _ => .none) fun bits _ _ => ?_
  exact alike_ite Iff.rfl .none (.some (Setoid.refl _))

end Address

/-!
### Bounds and usable hosts
-/

namespace Network

theorem family_eq_of_equiv {left right : Network} (same : left ≈ right) :
    left.family = right.family :=
  same.1.1

theorem width_eq_of_equiv {left right : Network} (same : left ≈ right) :
    left.width = right.width :=
  Address.width_eq_of_equiv same.1

theorem ignoresMarks_size : IgnoresMarks size := by
  intro left right same
  change 2 ^ (left.width - left.prefixLen) = 2 ^ (right.width - right.prefixLen)
  rw [width_eq_of_equiv same, same.2]

theorem size_eq_of_equiv {left right : Network} (same : left ≈ right) : left.size = right.size :=
  ignoresMarks_size same

theorem ignoresMarks_isHost : IgnoresMarks IsHost := by
  intro left right same
  change left.prefixLen = left.width ↔ right.prefixLen = right.width
  rw [width_eq_of_equiv same, same.2]

theorem ignoresMarks_compare : IgnoresMarks (compare : Network → Network → Ordering) := by
  intro left left' same right right' otherSame
  have sameBases : compare left.base right.base = compare left'.base right'.base :=
    Address.ignoresMarks_compare same.1 otherSame.1
  change (compare left.base right.base).then (compare left.prefixLen right.prefixLen) =
    (compare left'.base right'.base).then (compare left'.prefixLen right'.prefixLen)
  rw [sameBases, same.2, otherSame.2]

theorem ignoresMarks_equiv : IgnoresMarks fun left right : Network => left ≈ right := by
  intro left left' same right right' otherSame
  have sameBases : left.base ≈ right.base ↔ left'.base ≈ right'.base :=
    Address.ignoresMarks_equiv same.1 otherSame.1
  change left ≈ right ↔ left' ≈ right'
  rw [equiv_iff, equiv_iff, sameBases, same.2, otherSame.2]

theorem ignoresMarks_ofBase : IgnoresMarks ofBase := by
  intro left right same prefixLen _ rfl
  refine (Address.ignoresMarks_checkPrefixLen same rfl).bind fun _ _ _ => ?_
  exact alike_ite (Address.ignoresMarks_isAligned same rfl) (.ok ⟨same, rfl⟩) (.error .hostBits)

theorem ignoresMarks_covering : IgnoresMarks covering := by
  intro left right same prefixLen _ rfl
  refine (Address.ignoresMarks_checkPrefixLen same rfl).bind fun _ _ _ => .ok ?_
  exact ⟨Address.truncate_equiv same prefixLen, rfl⟩

theorem ignoresMarks_netmask : IgnoresMarks netmask := by
  intro left right same
  unfold netmask
  rw [family_eq_of_equiv same, width_eq_of_equiv same, size_eq_of_equiv same]
  exact Setoid.refl _

theorem ignoresMarks_wildcard : IgnoresMarks wildcard := by
  intro left right same
  unfold wildcard
  rw [family_eq_of_equiv same, size_eq_of_equiv same]
  exact Setoid.refl _

theorem ignoresMarks_low : IgnoresMarks low := by
  intro left right same
  unfold low
  rw [same.2]
  exact Address.truncate_equiv same.1 _

theorem ignoresMarks_high : IgnoresMarks high := by
  intro left right same
  have sameLow : left.low ≈ right.low := ignoresMarks_low same
  unfold high
  rw [sameLow.2, size_eq_of_equiv same]
  exact Address.withValue_equiv same.1 _

theorem ignoresMarks_lowestUsableWith : IgnoresMarks lowestUsableWith := by
  intro left right same rule _ rfl
  have sameLow : left.low ≈ right.low := ignoresMarks_low same
  unfold lowestUsableWith
  rw [sameLow.2]
  exact alike_ite (and_congr_right' (not_congr (ignoresMarks_isHost same)))
    (Address.withValue_equiv sameLow _) sameLow

theorem ignoresMarks_highestUsableWith : IgnoresMarks highestUsableWith := by
  intro left right same rule _ rfl
  have sameHigh : left.high ≈ right.high := ignoresMarks_high same
  unfold highestUsableWith
  rw [sameHigh.2]
  exact alike_ite (and_congr_right' (not_congr (ignoresMarks_isHost same)))
    (Address.withValue_equiv sameHigh _) sameHigh

theorem ignoresMarks_containsNetwork : IgnoresMarks containsNetwork := by
  intro outer outer' same inner inner' otherSame
  refine (Address.ignoresMarks_checkSameFamily same.1 otherSame.1).bind fun _ _ _ => .ok ?_
  exact decide_eq_decide.mpr
    (and_congr (Address.ignoresMarks_le (ignoresMarks_low same) (ignoresMarks_low otherSame))
      (Address.ignoresMarks_le (ignoresMarks_high otherSame) (ignoresMarks_high same)))

theorem ignoresMarks_compareSpan : IgnoresMarks compareSpan := by
  intro left left' same right right' otherSame
  refine (Address.ignoresMarks_checkSameFamily same.1 otherSame.1).bind fun _ _ _ => .ok ?_
  have span_eq : left.low.toNat + left.high.toNat = left'.low.toNat + left'.high.toNat :=
    congrArg₂ (· + ·) (ignoresMarks_low same).2 (ignoresMarks_high same).2
  have otherSpan_eq : right.low.toNat + right.high.toNat = right'.low.toNat + right'.high.toNat :=
    congrArg₂ (· + ·) (ignoresMarks_low otherSame).2 (ignoresMarks_high otherSame).2
  rw [span_eq, otherSpan_eq]
  rfl

/-!
### Blocks
-/

theorem ignoresMarks_nextBlock? : IgnoresMarks nextBlock? := by
  intro left right same
  unfold nextBlock?
  rw [same.1.2, size_eq_of_equiv same, width_eq_of_equiv same]
  exact alike_ite Iff.rfl (.some ⟨Address.withValue_equiv same.1 _, same.2⟩) .none

theorem ignoresMarks_previousBlock? : IgnoresMarks previousBlock? := by
  intro left right same
  unfold previousBlock?
  rw [same.1.2, size_eq_of_equiv same]
  exact alike_ite Iff.rfl (.some ⟨Address.withValue_equiv same.1 _, same.2⟩) .none

/-- The chains of two runs grow alike, block by block, and end together. -/
theorem ignoresMarks_chain : IgnoresMarks chain := by
  intro count _ rfl
  induction count with
  | zero =>
      intro left right same
      exact .nil
  | succ count ih =>
      intro left right same
      rw [chain_succ, chain_succ]
      exact .cons same (alike_getD_map (ignoresMarks_nextBlock? same) ih)

theorem ignoresMarks_splitByPower : IgnoresMarks splitByPower := by
  intro left right same power _ rfl
  unfold splitByPower
  rw [width_eq_of_equiv same, same.2]
  refine alike_ite Iff.rfl (.error (.splitPower same)) ?_
  refine alike_ite Iff.rfl (.error (.tooFewHostBits same)) (.ok ?_)
  exact ignoresMarks_chain rfl ⟨same.1, rfl⟩

theorem ignoresMarks_splitByCount : IgnoresMarks splitByCount := by
  intro left right same count _ rfl
  unfold splitByCount
  refine alike_ite Iff.rfl (.error (.splitCountTooLow same)) ?_
  refine alike_ite Iff.rfl (.error (.splitCountTooHigh same)) ?_
  refine alike_ite Iff.rfl (.error (.splitCountNotPowerOfTwo same)) ?_
  exact ignoresMarks_splitByPower same rfl

theorem ignoresMarks_isFollowedBy : IgnoresMarks IsFollowedBy := by
  intro left left' same following following' followingSame
  refine alike_exists_mem (ignoresMarks_nextBlock? same) ?_
  intro block block' blockSame
  exact ignoresMarks_equiv blockSame followingSame

/-- The checks of two runs pass and fail at the same place. -/
theorem ignoresMarks_checkChain : IgnoresMarks checkChain := by
  intro count _ rfl index _ rfl networks networks' same
  induction same generalizing index with
  | nil => exact .ok rfl
  | cons firstSame restSame ih =>
      cases restSame with
      | nil => exact .ok rfl
      | cons followingSame restSame =>
          rw [checkChain, checkChain, family_eq_of_equiv firstSame,
            family_eq_of_equiv followingSame]
          refine alike_ite Iff.rfl (.error (.mixedFamilies firstSame.1 followingSame.1)) ?_
          refine alike_ite (not_congr (ignoresMarks_isFollowedBy firstSame followingSame))
            (.error .mergeOrder) ?_
          exact @ih (index + 1)

theorem ignoresMarks_merge : IgnoresMarks merge := by
  intro networks networks' same
  cases same with
  | nil => exact .error .mergeCount
  | @cons first first' rest rest' firstSame restSame =>
      rw [merge, merge, restSame.length_eq, firstSame.2]
      refine alike_ite Iff.rfl (.error .mergeCount) ?_
      refine (ignoresMarks_checkChain rfl rfl (.cons firstSame restSame)).bind fun _ _ _ => ?_
      refine alike_ite Iff.rfl (.error .mergeAnyAddress) ?_
      refine alike_ite (not_congr (Address.ignoresMarks_isAligned firstSame.1 rfl))
        (.error .mergeOrder) (.ok ⟨?_, rfl⟩)
      -- The last network gives nothing but its mark.
      have remarked := Address.withMark_equiv first.base (rest.getLastD first).base.mark
      have remarked' := Address.withMark_equiv first'.base (rest'.getLastD first').base.mark
      exact Setoid.trans remarked (Setoid.trans firstSame.1 (Setoid.symm remarked'))

end Network

/-!
### Interfaces
-/

namespace Interface

theorem ignoresMarks_compare : IgnoresMarks (compare : Interface → Interface → Ordering) := by
  intro left left' same right right' otherSame
  have sameAddresses : compare left.address right.address = compare left'.address right'.address :=
    Address.ignoresMarks_compare same.1 otherSame.1
  change (compare left.address right.address).then (compare left.prefixLen right.prefixLen) =
    (compare left'.address right'.address).then (compare left'.prefixLen right'.prefixLen)
  rw [sameAddresses, same.2, otherSame.2]

theorem ignoresMarks_equiv : IgnoresMarks fun left right : Interface => left ≈ right := by
  intro left left' same right right' otherSame
  have sameAddresses : left.address ≈ right.address ↔ left'.address ≈ right'.address :=
    Address.ignoresMarks_equiv same.1 otherSame.1
  change left.address ≈ right.address ∧ left.prefixLen = right.prefixLen ↔
    left'.address ≈ right'.address ∧ left'.prefixLen = right'.prefixLen
  rw [sameAddresses, same.2, otherSame.2]

theorem ignoresMarks_network : IgnoresMarks network := by
  intro left right same
  refine ⟨?_, same.2⟩
  change left.address.truncate left.prefixLen ≈ right.address.truncate right.prefixLen
  rw [same.2]
  exact Address.truncate_equiv same.1 _

end Interface

/-!
### All operations that decide nothing by marks
-/

/-- The operations in which marks do not interfere. -/
structure MarkIndependence : Prop where
  compareAddresses : IgnoresMarks (compare : Address → Address → Ordering)
  compareNetworks : IgnoresMarks (compare : Network → Network → Ordering)
  compareInterfaces : IgnoresMarks (compare : Interface → Interface → Ordering)
  equivAddresses : IgnoresMarks fun left right : Address => decide (left ≈ right)
  equivNetworks : IgnoresMarks fun left right : Network => decide (left ≈ right)
  equivInterfaces : IgnoresMarks fun left right : Interface => decide (left ≈ right)
  compareWithin : IgnoresMarks Address.compareWithin
  difference : IgnoresMarks Address.difference
  toNat : IgnoresMarks Address.toNat
  add : IgnoresMarks Address.add
  sub : IgnoresMarks Address.sub
  next? : IgnoresMarks Address.next?
  previous? : IgnoresMarks Address.previous?
  embeddedV4? : IgnoresMarks Address.embeddedV4?
  mac? : IgnoresMarks Address.mac?
  solicitedNode? : IgnoresMarks Address.solicitedNode?
  ofBase : IgnoresMarks Network.ofBase
  covering : IgnoresMarks Network.covering
  interfaceNetwork : IgnoresMarks Interface.network
  low : IgnoresMarks Network.low
  high : IgnoresMarks Network.high
  netmask : IgnoresMarks Network.netmask
  wildcard : IgnoresMarks Network.wildcard
  size : IgnoresMarks Network.size
  lowestUsableWith : IgnoresMarks Network.lowestUsableWith
  highestUsableWith : IgnoresMarks Network.highestUsableWith
  containsNetwork : IgnoresMarks Network.containsNetwork
  compareSpan : IgnoresMarks Network.compareSpan
  nextBlock? : IgnoresMarks Network.nextBlock?
  previousBlock? : IgnoresMarks Network.previousBlock?
  splitByPower : IgnoresMarks Network.splitByPower
  splitByCount : IgnoresMarks Network.splitByCount
  merge : IgnoresMarks Network.merge

/-- A decision ignores marks when what it decides does. -/
theorem ignoresMarks_decide {α : Type} [TwoRuns α] {relation : α → α → Prop}
    [∀ left right, Decidable (relation left right)] (ignores : IgnoresMarks relation) :
    IgnoresMarks fun left right => decide (relation left right) := by
  intro left left' same right right' otherSame
  exact decide_eq_decide.mpr (ignores same otherSame)

theorem markIndependence : MarkIndependence where
  compareAddresses := Address.ignoresMarks_compare
  compareNetworks := Network.ignoresMarks_compare
  compareInterfaces := Interface.ignoresMarks_compare
  equivAddresses := ignoresMarks_decide Address.ignoresMarks_equiv
  equivNetworks := ignoresMarks_decide Network.ignoresMarks_equiv
  equivInterfaces := ignoresMarks_decide Interface.ignoresMarks_equiv
  compareWithin := Address.ignoresMarks_compareWithin
  difference := Address.ignoresMarks_difference
  toNat := Address.ignoresMarks_toNat
  add := Address.ignoresMarks_add
  sub := Address.ignoresMarks_sub
  next? := Address.ignoresMarks_next?
  previous? := Address.ignoresMarks_previous?
  embeddedV4? := Address.ignoresMarks_embeddedV4?
  mac? := Address.ignoresMarks_mac?
  solicitedNode? := Address.ignoresMarks_solicitedNode?
  ofBase := Network.ignoresMarks_ofBase
  covering := Network.ignoresMarks_covering
  interfaceNetwork := Interface.ignoresMarks_network
  low := Network.ignoresMarks_low
  high := Network.ignoresMarks_high
  netmask := Network.ignoresMarks_netmask
  wildcard := Network.ignoresMarks_wildcard
  size := Network.ignoresMarks_size
  lowestUsableWith := Network.ignoresMarks_lowestUsableWith
  highestUsableWith := Network.ignoresMarks_highestUsableWith
  containsNetwork := Network.ignoresMarks_containsNetwork
  compareSpan := Network.ignoresMarks_compareSpan
  nextBlock? := Network.ignoresMarks_nextBlock?
  previousBlock? := Network.ignoresMarks_previousBlock?
  splitByPower := Network.ignoresMarks_splitByPower
  splitByCount := Network.ignoresMarks_splitByCount
  merge := Network.ignoresMarks_merge

/-- The rule of a network reads its mark: only a marked ::/120 keeps `::` for itself. -/
theorem not_ignoresMarks_lowestUsable : ¬ IgnoresMarks Network.lowestUsable := by
  intro ignores
  have same : (⟨.v6 0 false, 120⟩ : Network) ≈ ⟨.v6 0 true, 120⟩ := by decide
  have alike : Network.lowestUsable ⟨.v6 0 false, 120⟩ ≈ Network.lowestUsable ⟨.v6 0 true, 120⟩ :=
    ignores same
  exact absurd alike (by decide)

end Netblock
