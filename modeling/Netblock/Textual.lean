import Netblock.Interface
import Netblock.MacAddress.Literal
/-!
# Exchange as text

Addresses, networks, interfaces and MAC addresses are stored and sent as their text.
-/

set_option autoImplicit false

namespace Netblock

class Textual (α : Type) where
  text : α → String
  parse : String → Except Error α

instance : Textual Address := ⟨Address.text, Address.parse .host⟩

instance : Textual Network := ⟨Network.text, Network.parse⟩

instance : Textual Interface := ⟨Interface.text, Interface.parse⟩

instance : Textual MacAddress := ⟨MacAddress.text, MacAddress.parse⟩

/-- A value read from a text and written again. -/
def Textual.normalize (α : Type) [Textual α] (literal : String) : Except Error String :=
  (parse literal : Except Error α).map text

end Netblock
