import Netblock.Interface
import Netblock.Proofs.UsableHosts
import Netblock.Proofs.Words.Mask
/-!
# Addresses and bounds as words

The operations on addresses, and the masks and bounds of a network, as computations on words. For
a valid network they come to an end without a fault and with the exact result: at neither end of
the address space is there a carry, a borrow or a bit too much.
-/

set_option autoImplicit false

namespace Netblock.Words

section Addresses

/-- The word of a number, unless the number is negative or takes more bits. -/
def word? (value : Int) : Option (BitVec 128) :=
  if 0 ≤ value ∧ value.toNat < 2 ^ 128 then some (BitVec.ofNat 128 value.toNat) else none

/-- The address with a word. Every word is an IPv6 address, and marked by its bits alone. -/
def wordAddress : Family → BitVec 128 → Checked Address
  | .v4, word => derive (.zero .v4) word
  | .v6, word => .ok (.ofV6 word)

def addressOfWord (family : Family) (word : BitVec 128) : ExceptT Error Checked Address := do
  let highest ← mask (widthWord family) (widthWord family)
  if highest < word then
    settled (.error (.outsideSpace (.zero family) word.toNat))
  else
    wordAddress family word

def addressOfInt (family : Family) (value : Int) : ExceptT Error Checked Address :=
  match word? value with
  | some word => addressOfWord family word
  | none => settled (.error (.outsideSpace (.zero family) value))

def addOffset (address : Address) (offset : Int) : ExceptT Error Checked Address :=
  match word? (address.toNat + offset) with
  | some word => do
      let highest ← mask (widthWord address.family) (widthWord address.family)
      if word ≤ highest then
        derive address word
      else
        settled (.error (.outsideSpace address offset))
  | none => settled (.error (.outsideSpace address offset))

def nextAddress? (address : Address) : Checked (Option Address) := do
  let highest ← mask (widthWord address.family) (widthWord address.family)
  if toWord address < highest then
    let value ← add (toWord address) (BitVec.ofNat 128 1)
    let next ← derive address value
    return some next
  else
    return none

def previousAddress? (address : Address) : Checked (Option Address) :=
  match (sub (toWord address) (BitVec.ofNat 128 1)).toOption with
  | some value => some <$> derive address value
  | none => .ok none

variable {family : Family}

theorem allOnes_lt_iff {word : BitVec 128} :
    BitVec.ofNat 128 (2 ^ family.width - 1) < word ↔ ¬ word.toNat < 2 ^ family.width := by
  have positive := Nat.two_pow_pos family.width
  have inSpace := two_pow_width_le family
  rw [BitVec.lt_def, BitVec.toNat_ofNat, Nat.mod_eq_of_lt (by omega)]
  omega

theorem allOnes_lt_ofNat_iff {value : Nat} (fits : value < 2 ^ 128) :
    BitVec.ofNat 128 (2 ^ family.width - 1) < BitVec.ofNat 128 value ↔
      ¬ value < 2 ^ family.width := by
  rw [allOnes_lt_iff, BitVec.toNat_ofNat, Nat.mod_eq_of_lt fits]

theorem wordAddress_eq_ok {word : BitVec 128} (fits : word.toNat < 2 ^ family.width) :
    wordAddress family word = .ok ((Address.zero family).withValue word.toNat) := by
  cases family with
  | v4 => exact if_pos fits
  | v6 => simp [wordAddress, Address.zero, Address.withValue, Address.ofV6]

theorem addressOfWord_eq_settled (family : Family) (word : BitVec 128) :
    addressOfWord family word = settled (Address.ofNat family word.toNat) := by
  rw [addressOfWord, mask_widthWord, lift_ok_bind, Address.ofNat]
  by_cases fits : word.toNat < 2 ^ family.width
  · rw [if_neg (allOnes_lt_iff.not.mpr (not_not.mpr fits)), if_pos fits, wordAddress_eq_ok fits]
    rfl
  · rw [if_pos (allOnes_lt_iff.mpr fits), if_neg fits]

theorem addressOfInt_eq_settled (family : Family) (value : Int) :
    addressOfInt family value = settled (Address.ofInt family value) := by
  have inSpace := two_pow_width_le family
  cases value with
  | ofNat value =>
      rw [addressOfInt, word?, Address.ofInt]
      by_cases fits : value < 2 ^ 128
      · rw [if_pos ⟨Int.natCast_nonneg value, fits⟩]
        refine (addressOfWord_eq_settled family _).trans ?_
        rw [BitVec.toNat_ofNat, Int.ofNat_eq_natCast, Int.toNat_natCast, Nat.mod_eq_of_lt fits]
      · rw [if_neg fun wide => fits wide.2, Address.ofNat, if_neg (by omega)]
        rfl
  | negSucc value => rfl

theorem addOffset_eq_settled (address : Address) (offset : Int) :
    addOffset address offset = settled (address.add offset) := by
  have inSpace := two_pow_width_le address.family
  rw [addOffset, word?, Address.add, Address.width]
  generalize (address.toNat : Int) + offset = value
  by_cases inWord : 0 ≤ value ∧ value.toNat < 2 ^ 128
  · rw [if_pos inWord]
    simp only [mask_widthWord, lift_ok_bind]
    by_cases fits : value.toNat < 2 ^ address.family.width
    · have atMost := BitVec.not_lt.mp
        ((allOnes_lt_ofNat_iff inWord.2).not.mpr (not_not.mpr fits))
      rw [if_pos atMost, derive_ofNat fits, if_pos ⟨inWord.1, fits⟩]
      rfl
    · have above := BitVec.not_le.mpr ((allOnes_lt_ofNat_iff inWord.2).mpr fits)
      rw [if_neg above, if_neg fun inside => fits inside.2]
  · rw [if_neg inWord, if_neg (by omega)]

theorem toWord_lt_allOnes_iff {address : Address} :
    toWord address < BitVec.ofNat 128 (2 ^ address.family.width - 1) ↔
      address.toNat + 1 < 2 ^ address.width := by
  have positive := Nat.two_pow_pos address.family.width
  have inSpace := two_pow_width_le address.family
  rw [BitVec.lt_def, toNat_toWord, BitVec.toNat_ofNat, Nat.mod_eq_of_lt (by omega), Address.width]
  omega

theorem nextAddress?_eq_ok (address : Address) : nextAddress? address = .ok address.next? := by
  rw [nextAddress?, mask_widthWord, ok_bind, Address.next?]
  by_cases room : address.toNat + 1 < 2 ^ address.width
  · have inSpace := Nat.lt_of_lt_of_le room (two_pow_width_le address.family)
    rw [if_pos (toWord_lt_allOnes_iff.mpr room), if_pos room, toWord_eq, add_ofNat_eq_ok inSpace,
      ok_bind, derive_ofNat room]
    rfl
  · rw [if_neg (toWord_lt_allOnes_iff.not.mpr room), if_neg room]
    rfl

theorem previousAddress?_eq_ok (address : Address) :
    previousAddress? address = .ok address.previous? := by
  have below := address.toNat_lt
  rw [previousAddress?, Address.previous?, toWord_eq, sub_ofNat (toNat_lt address) (by decide)]
  by_cases zero : address.toNat = 0
  · rw [if_neg (by omega), if_pos zero]
    rfl
  · rw [if_pos (by omega), if_neg zero]
    exact congrArg (some <$> ·) (derive_ofNat (by omega))

end Addresses

section Networks

variable {network : Network}

def lenWord (network : Network) : BitVec 8 :=
  BitVec.ofNat 8 network.prefixLen

def hostBits (network : Network) : Checked (BitVec 8) :=
  sub (widthWord network.family) (lenWord network)

def size (network : Network) : Checked Nat := do
  let free ← hostBits network
  return 2 ^ free.toNat

def ofBase (base : Address) (len : BitVec 8) : ExceptT Error Checked Network := do
  settled (base.checkPrefixLen len.toNat)
  let aligned ← isAligned base len
  if aligned then
    return ⟨base, len.toNat⟩
  else
    settled (.error (.hostBits (base.cidrText len.toNat)))

def covering (address : Address) (len : BitVec 8) : ExceptT Error Checked Network := do
  settled (address.checkPrefixLen len.toNat)
  let base ← truncate address len
  return ⟨base, len.toNat⟩

def interfaceNetwork (interface : Interface) : Checked Network := do
  let base ← truncate interface.address (BitVec.ofNat 8 interface.prefixLen)
  return ⟨base, interface.prefixLen⟩

def netmask (network : Network) : Checked Address := do
  let kept ← mask (widthWord network.family) (lenWord network)
  derive (.zero network.family) kept

/-- The bits after the prefix, none of them beyond the width of the family. -/
def freeMask (network : Network) : Checked (BitVec 128) := do
  let kept ← mask (widthWord network.family) (lenWord network)
  let all ← mask (widthWord network.family) (widthWord network.family)
  return ~~~kept &&& all

def wildcard (network : Network) : Checked Address := do
  let free ← freeMask network
  derive (.zero network.family) free

def low (network : Network) : Checked Address :=
  truncate network.base (lenWord network)

def high (network : Network) : Checked Address := do
  let free ← freeMask network
  derive network.base (toWord network.base ||| free)

def lowestUsableWith (network : Network) (rule : UsableRule) : Checked Address := do
  let lowest ← low network
  if rule = .excludeEdges ∧ ¬ network.IsHost then
    let value ← add (toWord lowest) (BitVec.ofNat 128 1)
    derive lowest value
  else
    return lowest

def highestUsableWith (network : Network) (rule : UsableRule) : Checked Address := do
  let highest ← high network
  if rule = .excludeEdges ∧ ¬ network.IsHost then
    let value ← sub (toWord highest) (BitVec.ofNat 128 1)
    derive highest value
  else
    return highest

theorem ofBase_eq_settled (base : Address) (len : BitVec 8) :
    ofBase base len = settled (Network.ofBase base len.toNat) := by
  refine settled_bind fun _ _ => ?_
  rw [isAligned_eq_ok, lift_ok_bind]
  by_cases aligned : base.IsAligned len.toNat
  · rw [if_pos (decide_eq_true aligned), if_pos aligned]
    rfl
  · rw [decide_eq_false aligned, if_neg Bool.false_ne_true, if_neg aligned]
    rfl

theorem covering_eq_settled (address : Address) (len : BitVec 8) :
    covering address len = settled (Network.covering address len.toNat) := by
  refine settled_bind fun _ _ => ?_
  rw [truncate_eq_ok]
  rfl

section Valid

theorem prefixLen_le (valid : network.Valid) : network.prefixLen ≤ 128 :=
  Nat.le_trans valid.prefixLen_le (width_le network.family)

theorem toNat_lenWord (valid : network.Valid) : (lenWord network).toNat = network.prefixLen := by
  have atMost := prefixLen_le valid
  exact Nat.mod_eq_of_lt (by omega)

@[simp]
theorem toNat_hostBits (network : Network) :
    (BitVec.ofNat 8 network.hostBits).toNat = network.hostBits := by
  have widthFits := width_le network.family
  have atMost : network.hostBits ≤ network.family.width := Nat.sub_le _ _
  exact Nat.mod_eq_of_lt (by omega)

theorem hostBits_eq_ok (valid : network.Valid) :
    hostBits network = .ok (BitVec.ofNat 8 network.hostBits) := by
  have widthFits := width_le network.family
  exact sub_ofNat_eq_ok (by omega) valid.prefixLen_le

/-- A prefix that is longer than the address would leave less than no bits after it. -/
example : hostBits ⟨.v4 0, 33⟩ = .error .subtraction := rfl

theorem size_eq_ok (valid : network.Valid) : size network = .ok network.size := by
  rw [size, hostBits_eq_ok valid, ok_bind, toNat_hostBits]
  rfl

theorem interfaceNetwork_eq_ok {interface : Interface} (valid : interface.Valid) :
    interfaceNetwork interface = .ok interface.network := by
  have prefixFits : interface.prefixLen ≤ interface.address.width := valid
  have widthFits : interface.address.width ≤ 128 := width_le interface.family
  have toNat_len : (BitVec.ofNat 8 interface.prefixLen).toNat = interface.prefixLen :=
    Nat.mod_eq_of_lt (by omega)
  rw [interfaceNetwork, truncate_eq_ok, ok_bind, toNat_len]
  rfl

theorem freeMask_eq_ok (valid : network.Valid) :
    freeMask network = .ok (BitVec.ofNat 128 (network.size - 1)) := by
  rw [freeMask, mask_eq_ok, ok_bind, mask_widthWord, ok_bind, not_leadingBits_and_allOnes,
    toNat_lenWord valid]
  rfl

theorem netmask_eq_ok (valid : network.Valid) : netmask network = .ok network.netmask := by
  rw [netmask, mask_eq_ok, ok_bind, toNat_lenWord valid]
  exact derive_ofNat (by rw [Address.width, Address.family_zero]; exact leadingBits_lt _ _)

theorem size_sub_one_lt (network : Network) : network.size - 1 < 2 ^ network.width := by
  have atMost := Nat.le_of_dvd (Nat.two_pow_pos _) (Network.Valid.size_dvd_space network)
  have positive := network.size_pos
  omega

theorem wildcard_eq_ok (valid : network.Valid) : wildcard network = .ok network.wildcard := by
  rw [wildcard, freeMask_eq_ok valid, ok_bind]
  exact derive_ofNat (by rw [Address.width, Address.family_zero]; exact size_sub_one_lt network)

theorem low_eq_ok (valid : network.Valid) : low network = .ok network.low := by
  rw [low, truncate_eq_ok, toNat_lenWord valid]
  rfl

/-- The bits of an aligned base and the free bits do not meet, so that they add up. -/
theorem toWord_base_or_free (valid : network.Valid) :
    toWord network.base ||| BitVec.ofNat 128 (network.size - 1) =
      BitVec.ofNat 128 (network.base.toNat + (network.size - 1)) := by
  obtain ⟨blocksBefore, base_eq⟩ := valid.size_dvd_base
  have free_lt : network.size - 1 < 2 ^ network.hostBits :=
    Nat.sub_lt network.size_pos Nat.one_pos
  rw [toWord_eq, ← BitVec.ofNat_or, base_eq]
  congr 1
  exact (Nat.two_pow_add_eq_or_of_lt free_lt blocksBefore).symm

theorem high_eq_ok (valid : network.Valid) : high network = .ok network.high := by
  have room : network.base.toNat + network.size ≤ 2 ^ network.base.width :=
    valid.base_add_size_le
  have positive := network.size_pos
  rw [high, freeMask_eq_ok valid, ok_bind, toWord_base_or_free valid, derive_ofNat (by omega),
    Network.high, valid.toNat_low]

theorem lowestUsableWith_eq_ok (valid : network.Valid) (rule : UsableRule) :
    lowestUsableWith network rule = .ok (network.lowestUsableWith rule) := by
  rw [lowestUsableWith, low_eq_ok valid, ok_bind, Network.lowestUsableWith]
  by_cases kept : rule = .excludeEdges ∧ ¬ network.IsHost
  · have atLeastTwo := valid.two_le_size kept.2
    have room : network.base.toNat + network.size ≤ 2 ^ network.low.width := by
      rw [Network.low, Address.width_truncate]
      exact valid.base_add_size_le
    have fits : network.low.toNat + 1 < 2 ^ network.low.width := by
      rw [valid.toNat_low]
      omega
    have inSpace := Nat.lt_of_lt_of_le fits (two_pow_width_le _)
    rw [if_pos kept, if_pos kept, toWord_eq, add_ofNat_eq_ok inSpace, ok_bind, derive_ofNat fits]
  · rw [if_neg kept, if_neg kept]
    rfl

theorem highestUsableWith_eq_ok (valid : network.Valid) (rule : UsableRule) :
    highestUsableWith network rule = .ok (network.highestUsableWith rule) := by
  rw [highestUsableWith, high_eq_ok valid, ok_bind, Network.highestUsableWith]
  by_cases kept : rule = .excludeEdges ∧ ¬ network.IsHost
  · have atLeastTwo := valid.two_le_size kept.2
    have notZero : 1 ≤ network.high.toNat := by
      rw [valid.toNat_high]
      omega
    have below := network.high.toNat_lt
    rw [if_pos kept, if_pos kept, toWord_eq, sub_ofNat_eq_ok (toNat_lt _) notZero, ok_bind,
      derive_ofNat (by omega)]
  · rw [if_neg kept, if_neg kept]
    rfl

end Valid

end Networks

end Netblock.Words
