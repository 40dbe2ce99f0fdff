import Netblock.Proofs.Merge
import Netblock.Proofs.Words.Bounds
/-!
# Blocks as words

Neighbours, splits and merges as computations on words. A block that would start outside of the
address space is looked for with arithmetic that may fail and tells so; everything else comes to
an end without a fault. The number of networks of a merge needs no bound, since a row of blocks
has no more members than the space has addresses.
-/

set_option autoImplicit false

namespace Netblock.Words

section Neighbours

def blockSize (free : BitVec 8) : Checked (BitVec 128) :=
  shiftLeft (BitVec.ofNat 128 1) free.toNat

/-- The block at a word, unless the word is beyond the address space of the network. -/
def blockFrom (network : Network) (base : BitVec 128) : Checked (Option Network) := do
  let highest ← mask (widthWord network.family) (widthWord network.family)
  if highest < base then
    return none
  else
    let address ← derive network.base base
    return some ⟨address, network.prefixLen⟩

def nextBlock? (network : Network) : Checked (Option Network) := do
  let free ← hostBits network
  match (blockSize free >>= add (toWord network.base)).toOption with
  | some base => blockFrom network base
  | none => return none

def previousBlock? (network : Network) : Checked (Option Network) := do
  let free ← hostBits network
  match (blockSize free >>= sub (toWord network.base)).toOption with
  | some base =>
      let address ← derive network.base base
      return some ⟨address, network.prefixLen⟩
  | none => return none

variable {network : Network}

/-- Only the size of the whole IPv6 space is not a word. -/
theorem blockSize_hostBits (network : Network) :
    blockSize (BitVec.ofNat 8 network.hostBits) =
      if network.size < 2 ^ 128 then .ok (BitVec.ofNat 128 network.size) else .error .shift := by
  have size_lt_iff : network.size < 2 ^ 128 ↔ network.hostBits < 128 :=
    Nat.pow_lt_pow_iff_right (by decide)
  rw [blockSize, toNat_hostBits]
  by_cases fits : network.hostBits < 128
  · rw [one_shiftLeft fits, if_pos (size_lt_iff.mpr fits)]
    rfl
  · rw [shiftLeft, if_neg fits, if_neg (size_lt_iff.not.mpr fits)]

theorem toOption_blockSize_add (network : Network) :
    (blockSize (BitVec.ofNat 8 network.hostBits) >>= add (toWord network.base)).toOption =
      if network.base.toNat + network.size < 2 ^ 128 then
        some (BitVec.ofNat 128 (network.base.toNat + network.size))
      else none := by
  rw [blockSize_hostBits]
  by_cases fits : network.size < 2 ^ 128
  · rw [if_pos fits, ok_bind, toWord_eq, add_ofNat (toNat_lt _) fits]
    split
    · rfl
    · rfl
  · rw [if_neg fits, if_neg (by omega)]
    rfl

theorem toOption_blockSize_sub (network : Network) :
    (blockSize (BitVec.ofNat 8 network.hostBits) >>= sub (toWord network.base)).toOption =
      if network.size ≤ network.base.toNat then
        some (BitVec.ofNat 128 (network.base.toNat - network.size))
      else none := by
  have below := toNat_lt network.base
  rw [blockSize_hostBits]
  by_cases fits : network.size < 2 ^ 128
  · rw [if_pos fits, ok_bind, toWord_eq, sub_ofNat below fits]
    split
    · rfl
    · rfl
  · rw [if_neg fits, if_neg (by omega)]
    rfl

theorem blockFrom_ofNat {value : Nat} (fits : value < 2 ^ 128) :
    blockFrom network (BitVec.ofNat 128 value) =
      .ok (if value < 2 ^ network.width then
        some ⟨network.base.withValue value, network.prefixLen⟩
      else none) := by
  have beyond_iff : BitVec.ofNat 128 (2 ^ network.family.width - 1) < BitVec.ofNat 128 value ↔
      ¬ value < 2 ^ network.width := allOnes_lt_ofNat_iff fits
  rw [blockFrom, mask_widthWord, ok_bind]
  by_cases inSpace : value < 2 ^ network.width
  · rw [if_neg (beyond_iff.not.mpr (not_not.mpr inSpace)), if_pos inSpace, derive_ofNat inSpace]
    rfl
  · rw [if_pos (beyond_iff.mpr inSpace), if_neg inSpace]
    rfl

theorem nextBlock?_eq_ok (valid : network.Valid) :
    nextBlock? network = .ok network.nextBlock? := by
  have widthFits := two_pow_width_le network.family
  rw [nextBlock?, hostBits_eq_ok valid, ok_bind, toOption_blockSize_add,
    Network.nextBlock?]
  by_cases inWord : network.base.toNat + network.size < 2 ^ 128
  · rw [if_pos inWord]
    exact blockFrom_ofNat inWord
  · have outside : ¬ network.base.toNat + network.size < 2 ^ network.width := by
      intro room
      exact inWord (Nat.lt_of_lt_of_le room widthFits)
    rw [if_neg inWord, if_neg outside]
    rfl

theorem previousBlock?_eq_ok (valid : network.Valid) :
    previousBlock? network = .ok network.previousBlock? := by
  have below := network.base.toNat_lt
  have fits : network.base.toNat - network.size < 2 ^ network.base.width := by omega
  rw [previousBlock?, hostBits_eq_ok valid, ok_bind, toOption_blockSize_sub,
    Network.previousBlock?]
  by_cases above : network.size ≤ network.base.toNat
  · rw [if_pos above, if_pos above]
    simp only [derive_ofNat fits, ok_bind]
    rfl
  · rw [if_neg above, if_neg above]
    rfl

end Neighbours

section Splits

/-- The blocks from a first one upwards. The next block is looked for after the last one too. -/
def chain : Nat → Network → Checked (List Network)
  | 0, _ => .ok []
  | count + 1, block => do
      match ← nextBlock? block with
      | some next =>
          let rest ← chain count next
          return block :: rest
      | none => return [block]

/-- Whether there is no block or more than `2 ^ 30` of them. The shift stops at 63. -/
def isPowerRefused (power : BitVec 32) : Checked Bool :=
  if power = 0 then
    .ok true
  else do
    let count ← shiftLeft (BitVec.ofNat 64 1) (min power.toNat 63)
    return decide (2 ^ 30 < count.toNat)

def splitByPower (network : Network) (power : BitVec 32) :
    ExceptT Error Checked (List Network) := do
  let refused ← isPowerRefused power
  if refused then
    settled (.error (.splitPower network power.toNat))
  else
    let needed ← add ((lenWord network).setWidth 32) power
    if (widthWord network.family).setWidth 32 < needed then
      settled (.error (.tooFewHostBits network power.toNat))
    else
      let count ← shiftLeft (BitVec.ofNat 64 1) power.toNat
      let len ← add (lenWord network) (power.setWidth 8)
      chain count.toNat ⟨network.base, len.toNat⟩

def splitByCount (network : Network) (count : BitVec 64) :
    ExceptT Error Checked (List Network) :=
  if count.toNat < 2 then
    settled (.error (.splitCountTooLow network count.toNat))
  else if 2 ^ 30 < count.toNat then
    settled (.error (.splitCountTooHigh network count.toNat))
  else if ¬ count.toNat.isPowerOfTwo then
    settled (.error (.splitCountNotPowerOfTwo network count.toNat))
  else
    splitByPower network (BitVec.ofNat 32 count.toNat.log2)

variable {network : Network}

theorem chain_eq_ok {count : Nat} {first : Network} (valid : first.Valid) :
    chain count first = .ok (Network.chain count first) := by
  induction count generalizing first with
  | zero => rfl
  | succ count ih =>
      rw [chain, nextBlock?_eq_ok valid, ok_bind, Network.chain_succ]
      cases found : first.nextBlock? with
      | none => rfl
      | some next =>
          have nextValid := (Network.isBlockAt_one_of_nextBlock? found).valid valid
          simp only [ih nextValid, ok_bind]
          rfl

theorem isPowerRefused_ofNat {power : Nat} (fits : power < 2 ^ 32) :
    isPowerRefused (BitVec.ofNat 32 power) = .ok (decide (power = 0 ∨ 30 < power)) := by
  have toNat_power : (BitVec.ofNat 32 power).toNat = power := Nat.mod_eq_of_lt fits
  have zero_iff : BitVec.ofNat 32 power = 0 ↔ power = 0 := by
    rw [← BitVec.toNat_inj, toNat_power]
    rfl
  rw [isPowerRefused, toNat_power]
  by_cases none : power = 0
  · rw [if_pos (zero_iff.mpr none), decide_eq_true (.inl none)]
  · have held : min power 63 < 64 := by omega
    have toNat_count : (BitVec.ofNat 64 (2 ^ min power 63)).toNat = 2 ^ min power 63 :=
      Nat.mod_eq_of_lt (Nat.pow_lt_pow_right (by decide) held)
    have tooMany_iff : 2 ^ 30 < 2 ^ min power 63 ↔ power = 0 ∨ 30 < power := by
      rw [Nat.pow_lt_pow_iff_right (by decide)]
      omega
    rw [if_neg (zero_iff.not.mpr none), one_shiftLeft held, ok_bind, toNat_count]
    exact congrArg Except.ok (decide_eq_decide.mpr tooMany_iff)

theorem neededLen_eq_ok (valid : network.Valid) {power : Nat} (bounded : power ≤ 30) :
    add ((lenWord network).setWidth 32) (BitVec.ofNat 32 power) =
      .ok (BitVec.ofNat 32 (network.prefixLen + power)) := by
  have atMost := prefixLen_le valid
  rw [lenWord, BitVec.setWidth_ofNat_of_le_of_lt (by decide) (by omega), add_ofNat_eq_ok (by omega)]

theorem blockLen_eq_ok (valid : network.Valid) {power : Nat} (bounded : power ≤ 30) :
    add (lenWord network) ((BitVec.ofNat 32 power).setWidth 8) =
      .ok (BitVec.ofNat 8 (network.prefixLen + power)) := by
  have atMost := prefixLen_le valid
  rw [lenWord, BitVec.setWidth_ofNat_of_le (by decide), add_ofNat_eq_ok (by omega)]

theorem widthWord_lt_iff {needed : Nat} (fits : needed < 2 ^ 32) :
    (widthWord network.family).setWidth 32 < BitVec.ofNat 32 needed ↔ network.width < needed := by
  have widthFits := width_le network.family
  rw [BitVec.lt_def, BitVec.toNat_ofNat, Nat.mod_eq_of_lt fits, BitVec.toNat_setWidth,
    toNat_widthWord, Nat.mod_eq_of_lt (by omega)]
  rfl

theorem splitByPower_ofNat (valid : network.Valid) {power : Nat} (fits : power < 2 ^ 32) :
    splitByPower network (BitVec.ofNat 32 power) = settled (network.splitByPower power) := by
  have toNat_power : (BitVec.ofNat 32 power).toNat = power := Nat.mod_eq_of_lt fits
  have atMost := prefixLen_le valid
  rw [splitByPower, isPowerRefused_ofNat fits, lift_ok_bind, Network.splitByPower, toNat_power]
  by_cases refused : power = 0 ∨ 30 < power
  · rw [if_pos (decide_eq_true refused), if_pos refused]
  · have bounded : power ≤ 30 := by omega
    rw [decide_eq_false refused, if_neg Bool.false_ne_true, if_neg refused,
      neededLen_eq_ok valid bounded, lift_ok_bind]
    by_cases tooLong : network.width < network.prefixLen + power
    · rw [if_pos ((widthWord_lt_iff (by omega)).mpr tooLong), if_pos tooLong]
    · have inWord : power < 64 := by omega
      have toNat_count : (BitVec.ofNat 64 (2 ^ power)).toNat = 2 ^ power :=
        Nat.mod_eq_of_lt (Nat.pow_lt_pow_right (by decide) inWord)
      have toNat_len : (BitVec.ofNat 8 (network.prefixLen + power)).toNat =
          network.prefixLen + power := Nat.mod_eq_of_lt (by omega)
      have firstValid := valid.firstBlock (Nat.le_of_not_lt tooLong)
      rw [if_neg ((widthWord_lt_iff (by omega)).not.mpr tooLong), if_neg tooLong,
        one_shiftLeft inWord, lift_ok_bind, blockLen_eq_ok valid bounded, lift_ok_bind,
        toNat_count, toNat_len]
      exact congrArg liftM (chain_eq_ok firstValid)

theorem splitByPower_eq_settled (valid : network.Valid) (power : BitVec 32) :
    splitByPower network power = settled (network.splitByPower power.toNat) := by
  obtain ⟨value, fits, rfl⟩ := exists_ofNat power
  rw [splitByPower_ofNat valid fits, BitVec.toNat_ofNat, Nat.mod_eq_of_lt fits]

theorem splitByCount_eq_settled (valid : network.Valid) (count : BitVec 64) :
    splitByCount network count = settled (network.splitByCount count.toNat) := by
  have log2_lt : count.toNat.log2 < 2 ^ 32 := by
    have below : count.toNat.log2 < 64 := by
      by_cases zero : count.toNat = 0
      · simp [zero]
      · exact (Nat.log2_lt zero).mpr count.isLt
    omega
  rw [splitByCount, Network.splitByCount]
  split
  · rfl
  · split
    · rfl
    · split
      · rfl
      · exact splitByPower_ofNat valid log2_lt

end Splits

section Merges

/-- Whether the second network is the block next to the first, which is looked for only where the
prefix lengths agree. -/
def isFollowedBy (network following : Network) : Checked Bool :=
  if following.prefixLen = network.prefixLen then do
    let next ← nextBlock? network
    return next.any fun block => decide (block ≈ following)
  else
    .ok false

def checkChain (count : Nat) : Nat → List Network → ExceptT Error Checked Unit
  | index, network :: following :: rest =>
      if network.family ≠ following.family then
        settled (.error (.mixedFamilies network.base following.base))
      else do
        let followed ← isFollowedBy network following
        if followed then
          checkChain count (index + 1) (following :: rest)
        else
          settled (.error (.mergeOrder count index))
  | _, _ => settled (.ok ())

/-- The network of a shorter prefix that starts with the first of `count` blocks, marked like the
last of them. -/
def shorten (count : Nat) (first last : Network) (len : BitVec 8) :
    ExceptT Error Checked Network := do
  let kept ← mask (widthWord first.base.family) len
  if toWord first.base &&& kept = toWord first.base then
    let address ← derive first.base (toWord first.base &&& kept)
    return ⟨address.withMark last.base.mark, len.toNat⟩
  else
    settled (.error (.mergeOrder count 0))

def mergeChain (count : Nat) (first last : Network) : ExceptT Error Checked Network := do
  let power := BitVec.ofNat 32 count.log2
  let least ← add power (BitVec.ofNat 32 1)
  if (lenWord first).setWidth 32 < least then
    settled (.error (.mergeAnyAddress count))
  else
    let len ← sub (lenWord first) (power.setWidth 8)
    shorten count first last len

def merge : List Network → ExceptT Error Checked Network
  | [] => settled (.error (.mergeCount 0))
  | first :: rest =>
      let count := rest.length + 1
      if count < 2 ∨ ¬ count.isPowerOfTwo then
        settled (.error (.mergeCount count))
      else do
        checkChain count 1 (first :: rest)
        mergeChain count first (rest.getLastD first)

variable {first : Network} {rest : List Network}

theorem isFollowedBy_eq_ok {network following : Network} (valid : network.Valid) :
    isFollowedBy network following = .ok (decide (network.IsFollowedBy following)) := by
  rw [isFollowedBy]
  by_cases sameLen : following.prefixLen = network.prefixLen
  · rw [if_pos sameLen, nextBlock?_eq_ok valid, ok_bind]
    refine congrArg Except.ok (Bool.eq_iff_iff.mpr ?_)
    simp [Network.IsFollowedBy, Option.any_eq_true]
  · have notFollowed : ¬ network.IsFollowedBy following :=
      fun followed => sameLen (Network.isFollowedBy_iff.mp followed).prefixLen_eq
    rw [if_neg sameLen, decide_eq_false notFollowed]

theorem checkChain_eq_settled {networks : List Network} {count index : Nat}
    (valid : ∀ network ∈ networks, network.Valid) :
    checkChain count index networks = settled (Network.checkChain count index networks) := by
  induction networks generalizing index with
  | nil => rfl
  | cons network rest ih =>
      cases rest with
      | nil => rfl
      | cons following rest =>
          have restChecked : checkChain count (index + 1) (following :: rest) =
              settled (Network.checkChain count (index + 1) (following :: rest)) :=
            ih fun member isMember => valid member (List.mem_cons_of_mem _ isMember)
          rw [checkChain, Network.checkChain]
          split
          · rfl
          · rw [isFollowedBy_eq_ok (valid network List.mem_cons_self), lift_ok_bind]
            by_cases followed : network.IsFollowedBy following
            · rw [if_pos (decide_eq_true followed), if_neg (not_not.mpr followed), restChecked]
            · rw [if_neg (by simpa using followed), if_pos followed]

/-- A row has no more blocks than its space has addresses. -/
theorem log2_length_le (row : first.IsRow (first :: rest)) : (rest.length + 1).log2 ≤ 128 := by
  have lastAt := row rest.length (by simp)
  have below := toNat_lt (first :: rest)[rest.length].base
  have positive := first.size_pos
  have distance_le : rest.length ≤ rest.length * first.size := Nat.le_mul_of_pos_right _ positive
  rw [lastAt.base_eq] at below
  have bounded : rest.length + 1 < 2 ^ 129 := by omega
  have log2_lt := (Nat.log2_lt (by omega)).mpr bounded
  omega

theorem withMark_withValue_toNat (address : Address) (mark : Bool) :
    (address.withValue address.toNat).withMark mark = address.withMark mark := by
  refine Address.ext ?_ ?_ ?_
  · simp
  · simp [Address.toNat_withValue address.toNat_lt]
  · cases address <;> rfl

theorem toWord_and_leadingBits_eq_iff {address : Address} {len : Nat} :
    toWord address &&& BitVec.ofNat 128 (leadingBits address.family len) = toWord address ↔
      address.IsAligned len := by
  rw [toWord_and_leadingBits, ← BitVec.toNat_inj, toNat_toWord, BitVec.toNat_ofNat,
    Nat.mod_eq_of_lt (toNat_lt _), ← Address.truncate_equiv_iff, Address.equiv_iff,
    Address.family_truncate, eq_self, true_and]

theorem shorten_eq_settled (count : Nat) (first last : Network) (len : BitVec 8) :
    shorten count first last len = settled
      (if ¬ first.base.IsAligned len.toNat then
        .error (.mergeOrder count 0)
      else
        .ok ⟨first.base.withMark last.base.mark, len.toNat⟩) := by
  rw [shorten, mask_eq_ok, lift_ok_bind]
  by_cases aligned : first.base.IsAligned len.toNat
  · have base_eq := toWord_and_leadingBits_eq_iff.mpr aligned
    rw [if_pos base_eq, if_neg (not_not.mpr aligned), base_eq, toWord_eq,
      derive_ofNat first.base.toNat_lt, lift_ok_bind, withMark_withValue_toNat]
    rfl
  · rw [if_neg (toWord_and_leadingBits_eq_iff.not.mpr aligned), if_pos aligned]

theorem mergeChain_eq_settled {last : Network} {count : Nat} (valid : first.Valid)
    (bounded : count.log2 ≤ 128) :
    mergeChain count first last = settled
      (if first.prefixLen ≤ count.log2 then
        .error (.mergeAnyAddress count)
      else if ¬ first.base.IsAligned (first.prefixLen - count.log2) then
        .error (.mergeOrder count 0)
      else
        .ok ⟨first.base.withMark last.base.mark, first.prefixLen - count.log2⟩) := by
  have atMost := prefixLen_le valid
  have tooShort_iff : (lenWord first).setWidth 32 < BitVec.ofNat 32 (count.log2 + 1) ↔
      first.prefixLen ≤ count.log2 := by
    rw [BitVec.lt_def, BitVec.toNat_setWidth, toNat_lenWord valid, BitVec.toNat_ofNat,
      Nat.mod_eq_of_lt (by omega), Nat.mod_eq_of_lt (by omega), Nat.lt_succ_iff]
  rw [mergeChain, add_ofNat_eq_ok (by omega), lift_ok_bind]
  by_cases tooShort : first.prefixLen ≤ count.log2
  · rw [if_pos (tooShort_iff.mpr tooShort), if_pos tooShort]
  · have toNat_len : (BitVec.ofNat 8 (first.prefixLen - count.log2)).toNat =
        first.prefixLen - count.log2 := Nat.mod_eq_of_lt (by omega)
    rw [if_neg (tooShort_iff.not.mpr tooShort), if_neg tooShort, lenWord,
      BitVec.setWidth_ofNat_of_le (by decide), sub_ofNat_eq_ok (by omega) (by omega),
      lift_ok_bind, shorten_eq_settled, toNat_len]

theorem merge_eq_settled {networks : List Network} (valid : ∀ network ∈ networks, network.Valid) :
    merge networks = settled (Network.merge networks) := by
  cases networks with
  | nil => rfl
  | cons first rest =>
      rw [merge, Network.merge]
      split
      · rfl
      · rw [checkChain_eq_settled valid]
        refine settled_bind fun _ checked => ?_
        have row := Network.isChain_isFollowedBy_iff.mp (Network.checkChain_eq_ok_iff.mp checked)
        exact mergeChain_eq_settled (valid first List.mem_cons_self) (log2_length_le row)

end Merges

end Netblock.Words
