import Netblock.Address.Basic
import Netblock.Text.ColonHex
/-!
# Written form of an address

The one text of an address: a dotted quad, or eight full hex groups, of which a mark turns the
last two into a dotted quad.
-/

set_option autoImplicit false

namespace Netblock.Address

open Netblock.Text

def write : Address → List Char
  | .v4 bits => DottedQuad.write bits
  | .v6 bits mark => ColonHex.write bits mark

/-- The address and a prefix length. The full length is left out. -/
def writeCidr (address : Address) (prefixLen : Nat) : List Char :=
  if prefixLen < address.width then
    address.write ++ '/' :: Decimal.write prefixLen
  else
    address.write

def text (address : Address) : String :=
  String.ofList address.write

def cidrText (address : Address) (prefixLen : Nat) : String :=
  String.ofList (address.writeCidr prefixLen)

@[simp]
theorem toList_text (address : Address) : address.text.toList = address.write :=
  String.toList_ofList

@[simp]
theorem toList_cidrText (address : Address) (prefixLen : Nat) :
    (address.cidrText prefixLen).toList = address.writeCidr prefixLen :=
  String.toList_ofList

theorem cidrText_eq_text {address : Address} {prefixLen : Nat}
    (full : address.width ≤ prefixLen) : address.cidrText prefixLen = address.text := by
  rw [cidrText, writeCidr, if_neg (by omega), text]

end Netblock.Address
