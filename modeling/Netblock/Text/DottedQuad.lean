import Netblock.Positional
import Netblock.Text.Decimal
import Netblock.Text.Malformation
/-!
# Dotted quads

Four decimal octets joined by dots. A reader may let trailing groups be left out, which then
count as zero.
-/

set_option autoImplicit false

namespace Netblock.Text.DottedQuad

def write (bits : BitVec 32) : List Char :=
  ['.'].intercalate ((Positional.encode 256 4 bits.toNat).map Decimal.write)

/-- One group: one to three digits, at most 255. -/
def readGroup (group : List Char) : Except Malformation Nat :=
  match Decimal.read? group with
  | some value =>
      if group.length ≤ 3 ∧ value ≤ 255 then .ok value else .error .quadGroup
  | none => .error .quadGroup

/-- Reads at least `fewest` and at most four groups. The number of groups is judged before
any of them is read. -/
def read (fewest : Nat) (text : List Char) : Except Malformation (BitVec 32) :=
  let groups := text.splitOn '.'
  if fewest ≤ groups.length ∧ groups.length ≤ 4 then do
    let octets ← groups.mapM readGroup
    let missing := List.replicate (4 - groups.length) 0
    return BitVec.ofNat 32 (Positional.decode 256 (octets ++ missing))
  else
    .error .quadGroupCount

end Netblock.Text.DottedQuad
