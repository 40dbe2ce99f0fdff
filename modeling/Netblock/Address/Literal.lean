import Netblock.Error
import Netblock.Text.Blank
/-!
# Address literals

A literal holds an IPv4 address unless there is a colon in it. Blanks around it are skipped.
-/

set_option autoImplicit false

namespace Netblock

/-- Where a literal stands. In a network literal an IPv4 address may leave out trailing groups,
in a host literal all four have to be there. -/
inductive LiteralKind where
  | network
  | host
  deriving DecidableEq

def LiteralKind.fewestGroups : LiteralKind → Nat
  | .network => 1
  | .host => 4

namespace Address

open Netblock.Text

/-- Reads a literal without blanks around it. A dotted quad in an IPv6 literal sets the mark. -/
def read (kind : LiteralKind) (literal : List Char) : Except Malformation Address :=
  if literal = [] then
    .error .empty
  else if ':' ∈ literal then do
    let (bits, dotted) ← ColonHex.read literal
    return .v6 bits (dotted || decide (IsEmbedding bits.toNat))
  else do
    let bits ← DottedQuad.read kind.fewestGroups literal
    return .v4 bits

def parse (kind : LiteralKind) (literal : String) : Except Error Address :=
  (read kind (trim literal.toList)).mapError (.malformed literal)

/-- Octets as they stand in an error: in brackets, two hex digits each. -/
def octetsText (octets : List Octet) : String :=
  "[" ++ String.intercalate ", " (octets.map fun octet => String.ofList (Hex.write 2 octet.toNat))
    ++ "]"

def ofOctets (octets : List Octet) : Except Error Address :=
  match ofOctets? octets with
  | some address => .ok address
  | none => .error (.malformed (octetsText octets) .octetCount)

theorem parse_eq_ok_iff {kind : LiteralKind} {literal : String} {address : Address} :
    parse kind literal = .ok address ↔ read kind (trim literal.toList) = .ok address := by
  unfold parse
  cases read kind (trim literal.toList) with
  | error _ => exact ⟨nofun, nofun⟩
  | ok _ =>
      constructor
      · intro parsed
        cases parsed
        rfl
      · intro found
        cases found
        rfl

end Address

end Netblock
