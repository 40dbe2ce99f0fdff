import Netblock.Text.DottedQuad
import Netblock.Text.Hex
/-!
# Colon-separated hex groups

Eight 16-bit groups joined by colons, the last two of which may be a dotted quad. The written
form is full length; the reader also takes one `::` for a run of one or more zero groups.
-/

set_option autoImplicit false

namespace Netblock.Text.ColonHex

/-- All eight groups of four lowercase digits. With `dottedTail` the last two groups are
written as a dotted quad. -/
def write (bits : BitVec 128) (dottedTail : Bool) : List Char :=
  let groups :=
    if dottedTail then
      (Positional.encode 65536 6 (bits.toNat / 2 ^ 32)).map (Hex.write 4) ++
        [DottedQuad.write (bits.setWidth 32)]
    else
      (Positional.encode 65536 8 bits.toNat).map (Hex.write 4)
  [':'].intercalate groups

/-- The 16-bit words that some groups spell, and whether a dotted quad is among them. -/
structure Spelling where
  words : List Nat
  dotted : Bool
  deriving DecidableEq

/-- One group: a dotted quad where one may stand, or one to four hex digits. -/
def readGroup (mayBeDotted : Bool) (group : List Char) : Except Malformation Spelling :=
  if '.' ∈ group then
    if mayBeDotted then do
      let quad ← DottedQuad.read 4 group
      return ⟨Positional.encode 65536 2 quad.toNat, true⟩
    else
      .error .dottedNotLast
  else
    match Hex.read? group with
    | some word => if group.length ≤ 4 then .ok ⟨[word], false⟩ else .error .hexGroup
    | none => .error .hexGroup

/-- Groups from left to right; at most the last of them may be dotted. -/
def readGroups (lastMayBeDotted : Bool) : List (List Char) → Except Malformation Spelling
  | [] => .ok ⟨[], false⟩
  | group :: rest => do
      let first ← readGroup (lastMayBeDotted && rest.isEmpty) group
      let others ← readGroups lastMayBeDotted rest
      return ⟨first.words ++ others.words, first.dotted || others.dotted⟩

/-- The text on one side of a `::`, or the whole text without one: empty, or groups none of
which is empty. -/
def readSide (lastMayBeDotted : Bool) (side : List Char) : Except Malformation Spelling :=
  if side = [] then
    .ok ⟨[], false⟩
  else
    let groups := side.splitOn ':'
    if [] ∈ groups then .error .strayColon else readGroups lastMayBeDotted groups

/-- The text before and after the first `::`. -/
def cutShorthand? : List Char → Option (List Char × List Char)
  | ':' :: ':' :: rest => some ([], rest)
  | c :: rest => (cutShorthand? rest).map fun (before, after) => (c :: before, after)
  | [] => none

/-- Reads a whole text, and tells whether there was a dotted quad in it. `::` stands for at least
one group, and of its two sides only the right one may end in a dotted quad. -/
def read (text : List Char) : Except Malformation (BitVec 128 × Bool) :=
  match cutShorthand? text with
  | none => do
      let whole ← readSide true text
      if whole.words.length = 8 then
        .ok (BitVec.ofNat 128 (Positional.decode 65536 whole.words), whole.dotted)
      else
        .error .hexGroupCount
  | some (before, after) =>
      if (cutShorthand? after).isSome then
        .error .repeatedShorthand
      else do
        let left ← readSide false before
        let right ← readSide true after
        let given := left.words.length + right.words.length
        if given ≤ 7 then
          let words := left.words ++ List.replicate (8 - given) 0 ++ right.words
          .ok (BitVec.ofNat 128 (Positional.decode 65536 words), left.dotted || right.dotted)
        else
          .error .hexGroupCount

end Netblock.Text.ColonHex
