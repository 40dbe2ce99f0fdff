import Netblock.Error
import Netblock.MacAddress.Basic
import Netblock.Text.Blank
/-!
# MAC address literals

Blanks around a literal are skipped, also in the error that quotes it.
-/

set_option autoImplicit false

namespace Netblock.MacAddress

def parse (literal : String) : Except Error MacAddress :=
  let text := Text.trim literal.toList
  match read? text with
  | some mac => .ok mac
  | none => .error (.malformed (String.ofList text) .mac)

theorem parse_eq_ok_iff {literal : String} {mac : MacAddress} :
    parse literal = .ok mac ↔ read? (Text.trim literal.toList) = some mac := by
  simp only [parse]
  split <;> simp_all

end Netblock.MacAddress
