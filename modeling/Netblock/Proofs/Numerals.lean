import Mathlib.Data.List.Induction
import Netblock.Address.Basic
/-!
# Numerals in pieces

The value of numerals one after the other, of octets and of 16-bit words. With it the embedding
pattern, which is defined on values, becomes a pattern of octets.
-/

set_option autoImplicit false

namespace Netblock

namespace Positional

theorem decode_append (base : Nat) (left right : List Nat) :
    decode base (left ++ right) = decode base left * base ^ right.length + decode base right := by
  induction right using List.reverseRecOn with
  | nil => simp
  | append_singleton right last ih =>
      rw [← List.append_assoc, decode_concat, decode_concat, ih, List.length_append,
        List.length_singleton, Nat.pow_succ, Nat.add_mul, Nat.mul_assoc, Nat.add_assoc]

theorem decode_lt {base : Nat} {digits : List Nat} (below : ∀ digit ∈ digits, digit < base) :
    decode base digits < base ^ digits.length := by
  induction digits using List.reverseRecOn with
  | nil => exact Nat.zero_lt_one
  | append_singleton digits last ih =>
      have lastBelow : last < base := below last (by simp)
      have initialBelow := ih fun digit member => below digit (by simp [member])
      have scaled : (decode base digits + 1) * base ≤ base ^ digits.length * base :=
        Nat.mul_le_mul_right base initialBelow
      rw [Nat.succ_mul] at scaled
      rw [decode_concat, List.length_append, List.length_singleton, Nat.pow_succ]
      omega

end Positional

namespace Octets

theorem toNat_append (left right : List Octet) :
    toNat (left ++ right) = toNat left * 256 ^ right.length + toNat right := by
  rw [toNat, List.map_append, Positional.decode_append, List.length_map]
  rfl

theorem toNat_lt (octets : List Octet) : toNat octets < 256 ^ octets.length := by
  have below : ∀ digit ∈ octets.map BitVec.toNat, digit < 256 := by
    intro digit member
    obtain ⟨octet, _, rfl⟩ := List.mem_map.mp member
    exact octet.isLt
  have bound := Positional.decode_lt below
  rwa [List.length_map] at bound

/-- Bits are shown by their octets: as many as fill them spell one value only. -/
theorem ofNat_toNat_eq_iff {width len : Nat} {bits : BitVec width} {octets : List Octet}
    (length_eq : octets.length = len) (fills : 2 ^ width = 256 ^ len) :
    ofNat len bits.toNat = octets ↔ bits = BitVec.ofNat width (toNat octets) := by
  subst length_eq
  constructor
  · intro shown
    have value_eq : toNat octets = bits.toNat := by
      calc toNat octets
          = toNat (ofNat octets.length bits.toNat) := by rw [shown]
        _ = bits.toNat := by
          rw [toNat_ofNat, ← fills]
          exact Nat.mod_eq_of_lt bits.isLt
    rw [value_eq, BitVec.ofNat_toNat, BitVec.setWidth_eq]
  · intro spelled
    have below : toNat octets < 2 ^ width := by
      rw [fills]
      exact toNat_lt octets
    rw [spelled, BitVec.toNat_ofNat, Nat.mod_eq_of_lt below, ofNat_toNat]

theorem toNat_flatMap_ofNat {words : List Nat} (below : ∀ word ∈ words, word < 65536) :
    toNat (words.flatMap (ofNat 2)) = Positional.decode 65536 words := by
  induction words using List.reverseRecOn with
  | nil => simp [toNat]
  | append_singleton words last ih =>
      have lastBelow : last < 65536 := below last (by simp)
      have initial := ih fun word member => below word (by simp [member])
      have square : 256 ^ 2 = 65536 := by decide
      rw [List.flatMap_append, List.flatMap_singleton, toNat_append, initial, length_ofNat,
        toNat_ofNat, square, Positional.decode_concat, Nat.mod_eq_of_lt lastBelow]

@[simp]
theorem length_flatMap_ofNat (words : List Nat) :
    (words.flatMap (ofNat 2)).length = words.length * 2 := by
  induction words with
  | nil => rfl
  | cons word words ih =>
      rw [List.flatMap_cons, List.length_append, length_ofNat, ih, List.length_cons]
      omega

/-- Ten zero octets, two that are both zero or both `ff`, and one after them that is not zero. -/
def Embeds (octets : List Octet) : Prop :=
  ∃ marker first rest, octets = List.replicate 10 0 ++ [marker, marker, first] ++ rest ∧
    (marker = 0 ∨ marker = 0xFF) ∧ first ≠ 0

theorem toNat_embedding (marker first : Octet) (rest : List Octet) :
    toNat (List.replicate 10 0 ++ [marker, marker, first] ++ rest) =
      (marker.toNat * 257 * 256 + first.toNat) * 256 ^ rest.length + toNat rest := by
  have leading : toNat (List.replicate 10 0 ++ [marker, marker, first]) =
      marker.toNat * 257 * 256 + first.toNat := by
    simp only [toNat, Positional.decode, List.replicate, List.cons_append, List.nil_append,
      List.map_cons, List.map_nil, List.foldl_cons, List.foldl_nil]
    have zero : (0 : Octet).toNat = 0 := rfl
    omega
  rw [toNat_append, leading]

theorem embeds_iff {bits : BitVec 128} :
    Embeds (ofNat 16 bits.toNat) ↔ IsEmbedding bits.toNat := by
  constructor
  · intro embeds
    obtain ⟨marker, first, rest, octets_eq, markers, nonzero⟩ := embeds
    have restLength : rest.length = 3 := by
      have total := congrArg List.length octets_eq
      simp only [length_ofNat, List.length_append, List.length_replicate, List.length_cons,
        List.length_nil] at total
      omega
    -- The value is then `(marker * 257 * 2 ^ 8 + first) * 2 ^ 24 + rest`, with `rest < 2 ^ 24`.
    have value_eq := congrArg toNat octets_eq
    have below : bits.toNat < 256 ^ 16 := bits.isLt
    have restBelow := toNat_lt rest
    have markerBelow := marker.isLt
    have firstBelow := first.isLt
    have firstPositive : first.toNat ≠ 0 := by
      intro zero
      exact nonzero (BitVec.eq_of_toNat_eq zero)
    rw [toNat_ofNat, toNat_embedding, restLength, Nat.mod_eq_of_lt below] at value_eq
    rw [restLength] at restBelow
    rcases markers with rfl | rfl
    · have zero : (0 : Octet).toNat = 0 := rfl
      constructor
      · left
        omega
      · omega
    · have full : (0xFF : Octet).toNat = 255 := rfl
      constructor
      · right
        omega
      · omega
  · intro embedding
    obtain ⟨markers, nonzero⟩ := embedding
    have marker : ∃ marker : Octet, (marker = 0 ∨ marker = 0xFF) ∧
        bits.toNat / 2 ^ 32 = marker.toNat * 257 := by
      rcases markers with zero | full
      · exact ⟨0, .inl rfl, zero⟩
      · exact ⟨0xFF, .inr rfl, full⟩
    obtain ⟨marker, markers, high_eq⟩ := marker
    let first : Octet := BitVec.ofNat 8 (bits.toNat / 2 ^ 24)
    have first_eq : first.toNat = bits.toNat / 2 ^ 24 % 2 ^ 8 := rfl
    refine ⟨marker, first, ofNat 3 bits.toNat, ?_, markers, ?_⟩
    · have value_eq := toNat_embedding marker first (ofNat 3 bits.toNat)
      rw [length_ofNat, toNat_ofNat, first_eq] at value_eq
      have bits_eq : bits = BitVec.ofNat 128
          (toNat (List.replicate 10 0 ++ [marker, marker, first] ++ ofNat 3 bits.toNat)) := by
        apply BitVec.eq_of_toNat_eq
        rw [value_eq, BitVec.toNat_ofNat]
        have below := bits.isLt
        omega
      have length_eq : (List.replicate 10 0 ++ [marker, marker, first] ++
          ofNat 3 bits.toNat).length = 16 := by simp
      exact (ofNat_toNat_eq_iff length_eq rfl).mpr bits_eq
    · intro zero
      rw [zero] at first_eq
      exact nonzero first_eq.symm

end Octets

end Netblock
