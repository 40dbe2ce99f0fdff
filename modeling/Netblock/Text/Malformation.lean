/-!
# Malformations

What can be wrong with the form of a literal, apart from the number after its slash.
-/

set_option autoImplicit false

namespace Netblock.Text

inductive Malformation where
  | empty
  | tooManySlashes
  | quadGroupCount
  | quadGroup
  | repeatedShorthand
  | strayColon
  | hexGroupCount
  | hexGroup
  | dottedNotLast
  | mac
  | octetCount
  deriving DecidableEq

def Malformation.description : Malformation → String
  | .empty => "empty literal"
  | .tooManySlashes => "too many slashes"
  | .quadGroupCount => "wrong number of IPv4 groups"
  | .quadGroup => "IPv4 group must be a decimal number <= 255"
  | .repeatedShorthand => "'::' may appear only once"
  | .strayColon => "stray ':' outside of '::'"
  | .hexGroupCount => "wrong number of IPv6 groups"
  | .hexGroup => "IPv6 group must be 1-4 hex digits"
  | .dottedNotLast => "dotted IPv4 suffix must be the last group"
  | .mac => "invalid MAC address"
  | .octetCount => "address must be 4 or 16 bytes long"

end Netblock.Text
