/-!
# Positional numerals of a fixed length

A value as a big-endian list of digits, leading zeros included. Octets, 16-bit groups and hex
digits are all read and written through this one correspondence: `decode_encode` and
`encode_decode` make it exact for values below `base ^ len`.
-/

set_option autoImplicit false

-- Powers of numbers are the core ones, also where monoids bring in their own.
attribute [instance (high), default_instance (high + 1)] instPowNat

namespace Netblock.Positional

/-- The last `len` digits of a value, most significant first. -/
def encode (base : Nat) : Nat → Nat → List Nat
  | 0, _ => []
  | len + 1, value => encode base len (value / base) ++ [value % base]

/-- The value that a list of digits spells, most significant first. -/
def decode (base : Nat) (digits : List Nat) : Nat :=
  digits.foldl (fun value digit => value * base + digit) 0

@[simp]
theorem length_encode (base len value : Nat) : (encode base len value).length = len := by
  induction len generalizing value with
  | zero => rfl
  | succ len ih => simp [encode, ih]

@[simp]
theorem decode_nil (base : Nat) : decode base [] = 0 := rfl

@[simp]
theorem decode_concat (base : Nat) (digits : List Nat) (last : Nat) :
    decode base (digits ++ [last]) = decode base digits * base + last := by
  simp [decode]

theorem lt_of_mem_encode {base len value digit : Nat} (positive : 0 < base)
    (member : digit ∈ encode base len value) : digit < base := by
  induction len generalizing value with
  | zero => simp [encode] at member
  | succ len ih =>
      rcases List.mem_append.mp member with earlier | last
      · exact ih earlier
      · rw [List.mem_singleton.mp last]
        exact Nat.mod_lt _ positive

theorem decode_encode (base len value : Nat) :
    decode base (encode base len value) = value % base ^ len := by
  induction len generalizing value with
  | zero => simp [encode, Nat.mod_one]
  | succ len ih =>
      rw [encode, decode_concat, ih, Nat.pow_succ', Nat.mod_mul, Nat.mul_comm, Nat.add_comm]

theorem decode_encode_of_lt {base len value : Nat} (fits : value < base ^ len) :
    decode base (encode base len value) = value := by
  rw [decode_encode, Nat.mod_eq_of_lt fits]

/-- Digits below the base come back from the value that they spell. -/
theorem encode_decode {base len : Nat} {digits : List Nat} (sameLength : digits.length = len)
    (below : ∀ digit ∈ digits, digit < base) :
    encode base len (decode base digits) = digits := by
  induction len generalizing digits with
  | zero => rw [List.length_eq_zero_iff.mp sameLength]; rfl
  | succ len ih =>
      obtain ⟨initial, last, rfl⟩ :=
        (List.eq_nil_or_concat digits).resolve_left (by rintro rfl; simp at sameLength)
      have lastBelow : last < base := below last (by simp)
      have initialBelow : ∀ digit ∈ initial, digit < base :=
        fun digit member => below digit (by simp [member])
      have quotient : (decode base initial * base + last) / base = decode base initial := by
        rw [Nat.mul_comm, Nat.mul_add_div (by omega), Nat.div_eq_of_lt lastBelow, Nat.add_zero]
      have remainder : (decode base initial * base + last) % base = last := by
        rw [Nat.mul_comm, Nat.mul_add_mod, Nat.mod_eq_of_lt lastBelow]
      rw [List.concat_eq_append, encode, decode_concat, quotient, remainder,
        ih (by simpa using sameLength) initialBelow]

end Netblock.Positional
