import Netblock.Positional
/-!
# Hexadecimal numerals

Written in lowercase at a fixed length, read at any length and in either case.
-/

set_option autoImplicit false

namespace Netblock.Text.Hex

/-- The value of an ASCII hex digit of either case. -/
def digit? (c : Char) : Option Nat :=
  if '0' ≤ c ∧ c ≤ '9' then some (c.toNat - '0'.toNat)
  else if 'a' ≤ c ∧ c ≤ 'f' then some (c.toNat - 'a'.toNat + 10)
  else if 'A' ≤ c ∧ c ≤ 'F' then some (c.toNat - 'A'.toNat + 10)
  else none

def isDigit (c : Char) : Bool :=
  (digit? c).isSome

/-- The last `len` hex digits of a value, lowercase and padded with zeros. -/
def write (len value : Nat) : List Char :=
  (Positional.encode 16 len value).map Nat.digitChar

/-- Reads one or more hex digits. -/
def read? (text : List Char) : Option Nat :=
  if text ≠ [] ∧ text.all isDigit then
    some (Positional.decode 16 (text.filterMap digit?))
  else none

@[simp]
theorem length_write (len value : Nat) : (write len value).length = len := by
  simp [write]

/-- The digits below sixteen are read in the case in which they are written, and in the other. -/
theorem digit?_eq_some_iff {c : Char} {digit : Nat} :
    digit? c = some digit ↔ digit < 16 ∧ (c = digit.digitChar ∨ c = digit.digitChar.toUpper) := by
  constructor
  · intro found
    have ascii : c.toNat < 128 := by
      unfold digit? at found
      split at found
      · next decimal => exact Nat.lt_of_le_of_lt decimal.2 (by decide)
      · split at found
        · next lowercase => exact Nat.lt_of_le_of_lt lowercase.2 (by decide)
        · split at found
          · next uppercase => exact Nat.lt_of_le_of_lt uppercase.2 (by decide)
          · cases found
    have table : ∀ point < 128, ∀ digit ∈ digit? (Char.ofNat point), digit < 16 ∧
        (Char.ofNat point = digit.digitChar ∨ Char.ofNat point = digit.digitChar.toUpper) := by
      decide
    have checked := table c.toNat ascii
    rw [Char.ofNat_toNat] at checked
    exact checked digit found
  · rintro ⟨below, written⟩
    have table : ∀ digit < 16, digit? digit.digitChar = some digit ∧
        digit? digit.digitChar.toUpper = some digit := by
      decide
    rcases written with rfl | rfl
    · exact (table digit below).1
    · exact (table digit below).2

theorem digit?_digitChar {digit : Nat} (below : digit < 16) :
    digit? digit.digitChar = some digit :=
  digit?_eq_some_iff.mpr ⟨below, .inl rfl⟩

theorem isDigit_digitChar {digit : Nat} (below : digit < 16) :
    isDigit digit.digitChar = true := by
  simp [isDigit, digit?_digitChar below]

private theorem filterMap_digit?_digitChar {digits : List Nat}
    (below : ∀ digit ∈ digits, digit < 16) :
    (digits.map Nat.digitChar).filterMap digit? = digits := by
  induction digits with
  | nil => rfl
  | cons first rest ih =>
      simp [digit?_digitChar (below first (by simp)),
        ih fun digit member => below digit (by simp [member])]

theorem all_isDigit_write (len value : Nat) : (write len value).all isDigit = true := by
  simp only [write, List.all_eq_true, List.mem_map, forall_exists_index, and_imp]
  rintro _ digit member rfl
  exact isDigit_digitChar (Positional.lt_of_mem_encode (by decide) member)

/-- The written form reads back as the digits that it shows. -/
theorem read?_write {len : Nat} (positive : 0 < len) (value : Nat) :
    read? (write len value) = some (value % 16 ^ len) := by
  have nonempty : write len value ≠ [] := by
    rw [← List.length_pos_iff, length_write]; exact positive
  rw [read?, if_pos ⟨nonempty, all_isDigit_write len value⟩, write,
    filterMap_digit?_digitChar fun _ => Positional.lt_of_mem_encode (by decide),
    Positional.decode_encode]

end Netblock.Text.Hex
