import Netblock.Octets
import Netblock.Text.Hex
/-!
# MAC addresses

48-bit addresses and the five layouts in which they are written. Reading takes any of them in
either letter case, in two passes: the first one checks that a text has one of the layouts, and the
second one collects the hex digits from wherever they stand. The text of an address is always
lowercase pairs joined by colons.
-/

set_option autoImplicit false

namespace Netblock

structure MacAddress where
  bits : BitVec 48
  deriving DecidableEq

namespace MacAddress

def toNat (mac : MacAddress) : Nat :=
  mac.bits.toNat

instance : Ord MacAddress := ⟨compareOn toNat⟩

def octets (mac : MacAddress) : List Octet :=
  Octets.ofNat 6 mac.toNat

def ofOctets? (octets : List Octet) : Option MacAddress :=
  if octets.length = 6 then some ⟨BitVec.ofNat 48 (Octets.toNat octets)⟩ else none

/-- Equally long groups of hex digits, joined by one separator. -/
structure Layout where
  groupCount : Nat
  groupLen : Nat
  separator : Char
  deriving DecidableEq

namespace Layout

def pairs : Layout := ⟨6, 2, ':'⟩

def all : List Layout :=
  [pairs, ⟨6, 2, '-'⟩, ⟨2, 6, ':'⟩, ⟨2, 6, '-'⟩, ⟨3, 4, '.'⟩]

def write (layout : Layout) (mac : MacAddress) : List Char :=
  let groups := Positional.encode (16 ^ layout.groupLen) layout.groupCount mac.toNat
  [layout.separator].intercalate (groups.map (Text.Hex.write layout.groupLen))

/-- A text consists of groups of hex digits, as many and as long as the layout says. -/
def Matches (layout : Layout) (text : List Char) : Prop :=
  let groups := text.splitOn layout.separator
  groups.length = layout.groupCount ∧
    ∀ group ∈ groups, group.length = layout.groupLen ∧ group.all Text.Hex.isDigit = true

instance (layout : Layout) : DecidablePred layout.Matches :=
  fun _ => inferInstanceAs (Decidable (_ ∧ _))

end Layout

def text (mac : MacAddress) : String :=
  String.ofList (Layout.pairs.write mac)

/-- As many octets as there is room for, from two digits each. Without digits they are zero. -/
def readOctets? : Nat → List Char → Option (List Octet)
  | 0, _ => some []
  | count + 1, high :: low :: rest => do
      let value ← Text.Hex.read? [high, low]
      return BitVec.ofNat 8 value :: (← readOctets? count rest)
  | count + 1, _ => some (List.replicate (count + 1) 0)

/-- Reads a text without blanks around it. -/
def read? (text : List Char) : Option MacAddress :=
  if ∃ layout ∈ Layout.all, layout.Matches text then do
    ofOctets? (← readOctets? 6 (text.filter Text.Hex.isDigit))
  else
    none

end MacAddress

end Netblock
