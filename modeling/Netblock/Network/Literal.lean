import Netblock.Address.Literal
/-!
# Network literals

An address and an optional prefix length after a slash. Without one an IPv6 address stands for
itself, and an IPv4 address for the network of its class.
-/

set_option autoImplicit false

namespace Netblock

open Netblock.Text

/-- The two sides of the slash of a literal, without blanks around them. -/
def splitSlash (literal : List Char) : Except Malformation (List Char × Option (List Char)) :=
  match (trim literal).splitOn '/' with
  | [address] => .ok (trim address, none)
  | [address, prefixLen] => .ok (trim address, some (trim prefixLen))
  | _ => .error .tooManySlashes

/-- The address of a literal, and the text of its prefix length if it has one. -/
def readSides (kind : LiteralKind) (literal : List Char) :
    Except Malformation (Address × Option (List Char)) := do
  let (addressText, prefixText?) ← splitSlash literal
  let address ← Address.read kind addressText
  return (address, prefixText?)

/-- A prefix length in decimal, no longer than the address. -/
def readPrefixLen (literal : List Char) (width : Nat) (text : List Char) : Except Error Nat :=
  match Decimal.read? text with
  | some prefixLen =>
      if prefixLen ≤ width then .ok prefixLen else refused
  | none => refused
where
  refused : Except Error Nat :=
    .error (.prefixLen (String.ofList (trim literal)) (String.ofList text))

namespace Network

/-- The shortest of /8, /16 and /24 that leaves no host bits and is not shorter than the class
of the first octet allows: /8 below 128, /16 below 192, /24 below 224. If there is none, /32. -/
def classfulPrefixLen (bits : BitVec 32) : Nat :=
  let value := bits.toNat
  let firstOctet := value / 2 ^ 24
  if firstOctet < 128 ∧ value % 2 ^ 24 = 0 then 8
  else if firstOctet < 192 ∧ value % 2 ^ 16 = 0 then 16
  else if firstOctet < 224 ∧ value % 2 ^ 8 = 0 then 24
  else 32

def impliedPrefixLen : Address → Nat
  | .v4 bits => classfulPrefixLen bits
  | .v6 _ _ => 128

/-- The faults of a literal are told in this order: slashes, address, prefix length, host bits. -/
def parse (literal : String) : Except Error Network := do
  let (base, prefixText?) ← (readSides .network literal.toList).mapError (.malformed literal)
  let prefixLen ← match prefixText? with
    | some text => readPrefixLen literal.toList base.width text
    | none => pure (impliedPrefixLen base)
  if base.IsAligned prefixLen then
    return ⟨base, prefixLen⟩
  else
    throw (.hostBits (String.ofList (trim literal.toList)))

end Network

end Netblock
