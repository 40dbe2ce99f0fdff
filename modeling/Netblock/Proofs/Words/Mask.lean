import Netblock.Network.Basic
import Netblock.Proofs.Words.Checked
/-!
# Masks as words

Addresses of both families are handled as words of 128 bits and prefix lengths as words of 8. A
mask is put together from shifts and differences, none of which leaves its width. Under a mask
an address is truncated, outside of it the host bits are left.
-/

set_option autoImplicit false

namespace Netblock.Words

theorem two_pow_sub_two_pow {width low : Nat} (fits : low ≤ width) :
    2 ^ width - 2 ^ low = 2 ^ low * (2 ^ (width - low) - 1) := by
  rw [Nat.mul_sub_one, ← Nat.pow_add, Nat.add_sub_cancel' fits]

/-- The bits from `low` upwards remain. -/
theorem and_two_pow_sub_two_pow {value width low : Nat} (below : value < 2 ^ width)
    (fits : low ≤ width) : value &&& (2 ^ width - 2 ^ low) = value - value % 2 ^ low := by
  have quotient : value - value % 2 ^ low = 2 ^ low * (value / 2 ^ low) := by
    have split := Nat.div_add_mod value (2 ^ low)
    omega
  rw [two_pow_sub_two_pow fits, quotient]
  apply Nat.eq_of_testBit_eq
  intro index
  rw [Nat.testBit_and, Nat.testBit_two_pow_mul, Nat.testBit_two_pow_mul,
    Nat.testBit_two_pow_sub_one, Nat.testBit_div_two_pow]
  by_cases above : low ≤ index
  · by_cases inside : index < width
    · have insideRest : index - low < width - low := by omega
      simp [above, insideRest]
    · have noBit : value.testBit index = false :=
        Nat.testBit_lt_two_pow (Nat.lt_of_lt_of_le below
          (Nat.pow_le_pow_right (by decide) (by omega)))
      simp [above, noBit]
  · simp [above]

section Family

variable (family : Family)

def widthWord : BitVec 8 :=
  BitVec.ofNat 8 family.width

theorem width_le : family.width ≤ 128 := by
  cases family <;> decide

theorem two_pow_width_le : 2 ^ family.width ≤ 2 ^ 128 :=
  Nat.pow_le_pow_right (by decide) (width_le family)

@[simp]
theorem toNat_widthWord : (widthWord family).toNat = family.width := by
  cases family <;> rfl

/-- The leading bits of an address as a number: all but the last `width - len`. -/
def leadingBits (len : Nat) : Nat :=
  2 ^ family.width - 2 ^ (family.width - len)

theorem leadingBits_lt (len : Nat) : leadingBits family len < 2 ^ family.width :=
  Nat.sub_lt (Nat.two_pow_pos _) (Nat.two_pow_pos _)

theorem leadingBits_width : leadingBits family family.width = 2 ^ family.width - 1 := by
  rw [leadingBits, Nat.sub_self, Nat.pow_zero]

end Family

/-- All bits are set: the full word, or a power of two less one. -/
def allOnes (bits : BitVec 8) : Checked (BitVec 128) :=
  if bits = 128 then
    .ok (~~~0)
  else do
    let above ← shiftLeft (BitVec.ofNat 128 1) bits.toNat
    sub above (BitVec.ofNat 128 1)

/-- The word of `bits` bits whose first `len` bits are set. -/
def mask (bits len : BitVec 8) : Checked (BitVec 128) :=
  if len = 0 then
    .ok 0
  else do
    let all ← allOnes bits
    if bits ≤ len then
      return all
    else
      let low ← sub bits len
      let above ← shiftLeft (BitVec.ofNat 128 1) low.toNat
      let free ← sub above (BitVec.ofNat 128 1)
      return all &&& ~~~free

theorem allOnes_eq_ok (family : Family) :
    allOnes (widthWord family) = .ok (BitVec.ofNat 128 (2 ^ family.width - 1)) := by
  cases family <;> rfl

theorem not_ofNat {value : Nat} (fits : value < 2 ^ 128) :
    ~~~(BitVec.ofNat 128 value) = BitVec.ofNat 128 (2 ^ 128 - 1 - value) := by
  apply BitVec.eq_of_toNat_eq
  rw [BitVec.toNat_not, BitVec.toNat_ofNat, BitVec.toNat_ofNat, Nat.mod_eq_of_lt fits,
    Nat.mod_eq_of_lt (by omega)]

theorem allOnes_and_not {family : Family} {low : Nat} (fits : low ≤ family.width) :
    BitVec.ofNat 128 (2 ^ family.width - 1) &&& ~~~(BitVec.ofNat 128 (2 ^ low - 1)) =
      BitVec.ofNat 128 (2 ^ family.width - 2 ^ low) := by
  have inSpace := width_le family
  have spaceFits := two_pow_width_le family
  have lowFits : 2 ^ low ≤ 2 ^ 128 := Nat.pow_le_pow_right (by decide) (by omega)
  have positive := Nat.two_pow_pos family.width
  have lowPositive := Nat.two_pow_pos low
  have complement : 2 ^ 128 - 1 - (2 ^ low - 1) = 2 ^ 128 - 2 ^ low := by omega
  have remainder : (2 ^ family.width - 1) % 2 ^ low = 2 ^ low - 1 := by
    obtain ⟨factor, split⟩ := Nat.pow_dvd_pow 2 fits
    rw [split] at positive ⊢
    rw [Nat.mul_sub_mod positive, Nat.zero_mod]
  rw [not_ofNat (by omega), complement, ← BitVec.ofNat_and,
    and_two_pow_sub_two_pow (by omega) (by omega), remainder]
  congr 1
  omega

theorem mask_ofNat (family : Family) {len : Nat} (fits : len < 2 ^ 8) :
    mask (widthWord family) (BitVec.ofNat 8 len) =
      .ok (BitVec.ofNat 128 (leadingBits family len)) := by
  have widthFits := width_le family
  have toNat_len : (BitVec.ofNat 8 len).toNat = len := Nat.mod_eq_of_lt fits
  -- A shift by all 128 bits would be a fault. It would belong to no prefix at all, which is why
  -- that case comes first.
  by_cases noPrefix : len = 0
  · subst noPrefix
    have noBit : mask (widthWord family) (BitVec.ofNat 8 0) = .ok 0 := rfl
    rw [noBit, leadingBits, Nat.sub_zero, Nat.sub_self]
    rfl
  · have notZero : ¬ BitVec.ofNat 8 len = 0 := by
      intro zero
      exact noPrefix (toNat_len.symm.trans (congrArg BitVec.toNat zero))
    rw [mask, if_neg notZero, allOnes_eq_ok, ok_bind]
    by_cases longest : family.width ≤ len
    · have atMost : widthWord family ≤ BitVec.ofNat 8 len := by
        rwa [BitVec.le_def, toNat_widthWord, toNat_len]
      rw [if_pos atMost, leadingBits, Nat.sub_eq_zero_of_le longest]
      rfl
    · have shorter : ¬ widthWord family ≤ BitVec.ofNat 8 len := by
        rwa [BitVec.le_def, toNat_widthWord, toNat_len]
      have lowFits : family.width - len < 128 := by omega
      have toNat_low : (BitVec.ofNat 8 (family.width - len)).toNat = family.width - len :=
        Nat.mod_eq_of_lt (by omega)
      have powFits : 2 ^ (family.width - len) < 2 ^ 128 :=
        Nat.pow_lt_pow_right (by decide) lowFits
      rw [if_neg shorter, widthWord, sub_ofNat_eq_ok (by omega) (by omega), ok_bind, toNat_low,
        one_shiftLeft lowFits, ok_bind, sub_ofNat_eq_ok powFits (Nat.two_pow_pos _), ok_bind,
        allOnes_and_not (Nat.sub_le _ _)]
      rfl

theorem mask_eq_ok (family : Family) (len : BitVec 8) :
    mask (widthWord family) len = .ok (BitVec.ofNat 128 (leadingBits family len.toNat)) := by
  have masked := mask_ofNat family len.isLt
  rwa [BitVec.ofNat_toNat, BitVec.setWidth_eq] at masked

theorem mask_widthWord (family : Family) :
    mask (widthWord family) (widthWord family) =
      .ok (BitVec.ofNat 128 (2 ^ family.width - 1)) := by
  rw [mask_eq_ok, toNat_widthWord, leadingBits_width]

def toWord : Address → BitVec 128
  | .v4 bits => bits.setWidth 128
  | .v6 bits _ => bits

theorem toWord_eq (address : Address) : toWord address = BitVec.ofNat 128 address.toNat := by
  cases address with
  | v4 bits => exact (BitVec.ofNat_toNat 128 bits).symm
  | v6 bits _ => exact ((BitVec.ofNat_toNat 128 bits).trans (BitVec.setWidth_eq bits)).symm

theorem toNat_lt (address : Address) : address.toNat < 2 ^ 128 :=
  Nat.lt_of_lt_of_le address.toNat_lt (two_pow_width_le address.family)

@[simp]
theorem toNat_toWord (address : Address) : (toWord address).toNat = address.toNat := by
  rw [toWord_eq]
  exact Nat.mod_eq_of_lt (toNat_lt address)

/-- The address of the same family with another word. A word that is wider than the family has
no address. -/
def derive (address : Address) (word : BitVec 128) : Checked Address :=
  if word.toNat < 2 ^ address.width then .ok (address.withValue word.toNat) else .error .tooWide

theorem derive_ofNat {address : Address} {value : Nat} (fits : value < 2 ^ address.width) :
    derive address (BitVec.ofNat 128 value) = .ok (address.withValue value) := by
  have inSpace := Nat.lt_of_lt_of_le fits (two_pow_width_le address.family)
  have toNat_word : (BitVec.ofNat 128 value).toNat = value := Nat.mod_eq_of_lt inSpace
  rw [derive, toNat_word, if_pos fits]

example : derive (.zero .v4) (BitVec.ofNat 128 (2 ^ 32)) = .error .tooWide := rfl

/-- Under a mask an address is truncated. -/
theorem toWord_and_leadingBits (address : Address) (len : Nat) :
    toWord address &&& BitVec.ofNat 128 (leadingBits address.family len) =
      BitVec.ofNat 128 (address.truncate len).toNat := by
  rw [toWord_eq, ← BitVec.ofNat_and, leadingBits, Address.toNat_truncate]
  congr 1
  exact and_two_pow_sub_two_pow address.toNat_lt (Nat.sub_le _ _)

def truncate (address : Address) (len : BitVec 8) : Checked Address := do
  let kept ← mask (widthWord address.family) len
  derive address (toWord address &&& kept)

theorem truncate_eq_ok (address : Address) (len : BitVec 8) :
    truncate address len = .ok (address.truncate len.toNat) := by
  have fits : address.toNat - address.toNat % 2 ^ (address.width - len.toNat) <
      2 ^ address.width := Nat.lt_of_le_of_lt (Nat.sub_le _ _) address.toNat_lt
  rw [truncate, mask_eq_ok, ok_bind, toWord_and_leadingBits, Address.toNat_truncate,
    derive_ofNat fits, Address.truncate]

theorem not_leadingBits_and_allOnes (family : Family) (len : Nat) :
    ~~~(BitVec.ofNat 128 (leadingBits family len)) &&&
        BitVec.ofNat 128 (2 ^ family.width - 1) =
      BitVec.ofNat 128 (2 ^ (family.width - len) - 1) := by
  have positive := Nat.two_pow_pos (family.width - len)
  have atMost : 2 ^ (family.width - len) ≤ 2 ^ family.width :=
    Nat.pow_le_pow_right (by decide) (Nat.sub_le _ _)
  have inSpace := Nat.lt_of_lt_of_le (leadingBits_lt family len) (two_pow_width_le family)
  rw [not_ofNat inSpace, ← BitVec.ofNat_and, Nat.and_two_pow_sub_one_eq_mod, leadingBits]
  congr 1
  generalize 2 ^ (family.width - len) = size at positive atMost ⊢
  cases family with
  | v4 =>
      change size ≤ 2 ^ 32 at atMost
      change (2 ^ 128 - 1 - (2 ^ 32 - size)) % 2 ^ 32 = size - 1
      omega
  | v6 =>
      change size ≤ 2 ^ 128 at atMost
      change (2 ^ 128 - 1 - (2 ^ 128 - size)) % 2 ^ 128 = size - 1
      omega

/-- Outside of a mask only the host bits of an address are left. -/
theorem toWord_and_not_leadingBits (address : Address) (len : Nat) :
    toWord address &&& ~~~(BitVec.ofNat 128 (leadingBits address.family len)) =
      BitVec.ofNat 128 (address.toNat % 2 ^ (address.width - len)) := by
  have within : toWord address &&& BitVec.ofNat 128 (2 ^ address.family.width - 1) =
      toWord address := by
    rw [toWord_eq, ← BitVec.ofNat_and, Nat.and_two_pow_sub_one_eq_mod]
    congr 1
    exact Nat.mod_eq_of_lt address.toNat_lt
  rw [← within, BitVec.and_assoc, BitVec.and_comm (BitVec.ofNat 128 (2 ^ address.family.width - 1)),
    not_leadingBits_and_allOnes, toWord_eq, ← BitVec.ofNat_and, Nat.and_two_pow_sub_one_eq_mod]
  rfl

/-- Whether no bit of an address is outside of a mask. -/
def isAligned (address : Address) (len : BitVec 8) : Checked Bool := do
  let kept ← mask (widthWord address.family) len
  return decide (toWord address &&& ~~~kept = 0)

theorem isAligned_eq_ok (address : Address) (len : BitVec 8) :
    isAligned address len = .ok (decide (address.IsAligned len.toNat)) := by
  have remainder_lt : address.toNat % 2 ^ (address.width - len.toNat) < 2 ^ 128 :=
    Nat.lt_of_le_of_lt (Nat.mod_le _ _) (toNat_lt address)
  rw [isAligned, mask_eq_ok, ok_bind, toWord_and_not_leadingBits]
  refine congrArg Except.ok (decide_eq_decide.mpr ?_)
  rw [← BitVec.toNat_inj, BitVec.toNat_ofNat, Nat.mod_eq_of_lt remainder_lt]
  rfl

end Netblock.Words
