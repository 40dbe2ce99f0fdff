/-!
# Decimal numerals

Numerals of ASCII digits. Leading zeros are read and never written; only a negative number is
written with a sign, and none is read with one.
-/

set_option autoImplicit false

namespace Netblock.Text.Decimal

def write (value : Nat) : List Char :=
  Nat.toDigits 10 value

def text (value : Nat) : String :=
  String.ofList (write value)

def signedText : Int → String
  | .ofNat value => text value
  | .negSucc value => "-" ++ text (value + 1)

/-- Reads one or more ASCII digits; nothing else is a numeral, not even a sign. -/
def read? (text : List Char) : Option Nat :=
  if text ≠ [] ∧ text.all Char.isDigit then some (Nat.ofDigitChars 10 text 0) else none

theorem all_isDigit_write (value : Nat) : (write value).all Char.isDigit = true :=
  List.all_eq_true.mpr fun _ member => Nat.isDigit_of_mem_toDigits (by decide) (by decide) member

theorem write_ne_nil (value : Nat) : write value ≠ [] :=
  Nat.toDigits_ne_nil

@[simp]
theorem read?_write (value : Nat) : read? (write value) = some value := by
  rw [read?, if_pos ⟨write_ne_nil value, all_isDigit_write value⟩, write,
    Nat.ofDigitChars_toDigits (by decide) (by decide)]

end Netblock.Text.Decimal
