import Netblock.Proofs.ColonHexGrammar
import Netblock.Proofs.SlashLiteral
import Netblock.Proofs.Words.Mask
/-!
# Literals as words

The readers of literals, with the arrays that they fill. The number of groups is checked before
the first one is stored, so that every octet and every word of a literal has its place. What is
read is the value of the octets in the end.
-/

set_option autoImplicit false

namespace Netblock.Words

open Netblock.Text

section Quads

/-- Reads groups and stores their octets from an index on. -/
def storeGroups : Nat → List (List Char) → List Octet → ExceptT Malformation Checked (List Octet)
  | _, [], octets => settled (.ok octets)
  | index, group :: rest, octets => do
      let value ← settled (DottedQuad.readGroup group)
      let stored ← store octets index (BitVec.ofNat 8 value)
      storeGroups (index + 1) rest stored

def readQuad (fewest : Nat) (text : List Char) : ExceptT Malformation Checked (BitVec 32) :=
  let groups := text.splitOn '.'
  if fewest ≤ groups.length ∧ groups.length ≤ 4 then do
    let octets ← storeGroups 0 groups (List.replicate 4 0)
    return BitVec.ofNat 32 (Octets.toNat octets)
  else
    settled (.error .quadGroupCount)

/-- Groups find their places as long as there are as many free ones. -/
theorem storeGroups_eq_settled {groups : List (List Char)} (done : List Octet)
    {free : List Octet} (room : groups.length ≤ free.length) :
    storeGroups done.length groups (done ++ free) = settled (do
      let values ← groups.mapM DottedQuad.readGroup
      return done ++ (values.map (BitVec.ofNat 8) ++ free.drop groups.length)) := by
  induction groups generalizing done free with
  | nil => rfl
  | cons group rest ih =>
      cases free with
      | nil => simp at room
      | cons old free =>
          rw [storeGroups, List.mapM_cons, bind_assoc]
          refine settled_bind fun value _ => ?_
          have extended : done ++ BitVec.ofNat 8 value :: free =
              (done ++ [BitVec.ofNat 8 value]) ++ free := by simp
          have nextIndex : done.length + 1 = (done ++ [BitVec.ofNat 8 value]).length := by simp
          have roomForRest : rest.length ≤ free.length := by simpa using room
          rw [store_append, lift_ok_bind, extended, nextIndex, ih _ roomForRest, bind_assoc]
          simp

/-- The array holds the octets of a quad, and zeros for the groups that were left out. -/
theorem toNat_stored {groups : List (List Char)} {values : List Nat}
    (accepted : groups.mapM DottedQuad.readGroup = .ok values) :
    Octets.toNat (values.map (BitVec.ofNat 8) ++ (List.replicate 4 0).drop groups.length) =
      Positional.decode 256 (values ++ List.replicate (4 - groups.length) 0) := by
  obtain ⟨octets, spelled, rfl⟩ := DottedQuad.mapM_readGroup_eq_ok_iff.mp accepted
  have restored : (octets.map BitVec.toNat).map (BitVec.ofNat 8) = octets := by
    simp [Function.comp_def]
  rw [restored, List.drop_replicate, spelled.length_eq]
  exact DottedQuad.toNat_padded octets

theorem readQuad_eq_settled (fewest : Nat) (text : List Char) :
    readQuad fewest text = settled (DottedQuad.read fewest text) := by
  rw [readQuad, DottedQuad.read]
  by_cases counted : fewest ≤ (text.splitOn '.').length ∧ (text.splitOn '.').length ≤ 4
  · have room : (text.splitOn '.').length ≤ (List.replicate 4 (0 : Octet)).length := by
      simpa using counted.2
    have filled := storeGroups_eq_settled [] room
    rw [List.length_nil, List.nil_append] at filled
    simp only [if_pos counted, filled]
    cases accepted : (text.splitOn '.').mapM DottedQuad.readGroup with
    | error reason => rfl
    | ok values =>
        exact congrArg (fun value => settled (.ok (BitVec.ofNat 32 value))) (toNat_stored accepted)
  · simp only [if_neg counted]

end Quads

section HexGroups

open ColonHex (Spelling)

def readGroup (mayBeDotted : Bool) (group : List Char) : ExceptT Malformation Checked Spelling :=
  if '.' ∈ group ∧ mayBeDotted = true then do
    let quad ← readQuad 4 group
    return ⟨Positional.encode 65536 2 quad.toNat, true⟩
  else
    settled (ColonHex.readGroup mayBeDotted group)

def readGroups (lastMayBeDotted : Bool) :
    List (List Char) → ExceptT Malformation Checked Spelling
  | [] => settled (.ok ⟨[], false⟩)
  | group :: rest => do
      let first ← readGroup (lastMayBeDotted && rest.isEmpty) group
      let others ← readGroups lastMayBeDotted rest
      return ⟨first.words ++ others.words, first.dotted || others.dotted⟩

def readSide (lastMayBeDotted : Bool) (side : List Char) :
    ExceptT Malformation Checked Spelling :=
  if side = [] then
    settled (.ok ⟨[], false⟩)
  else
    let groups := side.splitOn ':'
    if groups.any List.isEmpty then
      settled (.error .strayColon)
    else
      readGroups lastMayBeDotted groups

/-- Eight words, filled from the front and from the back, with zeros in between. -/
def joinSides (head tail : List Nat) : Checked (List Nat) := do
  let front ← copy (List.replicate 8 0) 0 head.length head
  let start ← sub (BitVec.ofNat 64 8) (BitVec.ofNat 64 tail.length)
  copy front start.toNat 8 tail

/-- The octets of each word take the two places behind those of the word before it. -/
def copyWords : Nat → List Nat → List Octet → Checked (List Octet)
  | _, [], octets => .ok octets
  | index, word :: rest, octets => do
      let copied ← copy octets (2 * index) (2 * index + 2) (Octets.ofNat 2 word)
      copyWords (index + 1) rest copied

def assemble (head tail : List Nat) : Checked (List Octet) := do
  let words ← joinSides head tail
  copyWords 0 words (List.replicate 16 0)

/-- The texts before and after the shorthand, if there is one, and whether there is. -/
def sides (text : List Char) : Except Malformation (List Char × List Char × Bool) :=
  match ColonHex.cutShorthand? text with
  | none => .ok (text, [], false)
  | some (before, after) =>
      if (ColonHex.cutShorthand? after).isSome then
        .error .repeatedShorthand
      else
        .ok (before, after, true)

def readHex (text : List Char) : ExceptT Malformation Checked (BitVec 128 × Bool) := do
  let (head, tail, shortened) ← settled (sides text)
  let left ← readSide (!shortened) head
  let right ← readSide shortened tail
  let given := left.words.length + right.words.length
  if (shortened = true ∧ 7 < given) ∨ (shortened = false ∧ given ≠ 8) then
    settled (.error .hexGroupCount)
  else
    let octets ← assemble left.words right.words
    return (BitVec.ofNat 128 (Octets.toNat octets), left.dotted || right.dotted)

theorem readGroup_eq_settled (mayBeDotted : Bool) (group : List Char) :
    readGroup mayBeDotted group = settled (ColonHex.readGroup mayBeDotted group) := by
  rw [readGroup]
  split
  · next quad =>
      rw [ColonHex.readGroup, if_pos quad.1, if_pos quad.2, readQuad_eq_settled]
      exact settled_bind fun _ _ => rfl
  · rfl

theorem readGroups_eq_settled (lastMayBeDotted : Bool) (groups : List (List Char)) :
    readGroups lastMayBeDotted groups = settled (ColonHex.readGroups lastMayBeDotted groups) := by
  induction groups with
  | nil => rfl
  | cons group rest ih =>
      rw [readGroups, ColonHex.readGroups, readGroup_eq_settled, ih]
      exact settled_bind fun _ _ => settled_bind fun _ _ => rfl

theorem readSide_eq_settled (lastMayBeDotted : Bool) (side : List Char) :
    readSide lastMayBeDotted side = settled (ColonHex.readSide lastMayBeDotted side) := by
  have stray_iff : (side.splitOn ':').any List.isEmpty = true ↔ [] ∈ side.splitOn ':' := by simp
  rw [readSide, ColonHex.readSide]
  split
  · rfl
  · simp only [readGroups_eq_settled]
    by_cases stray : [] ∈ side.splitOn ':'
    · rw [if_pos (stray_iff.mpr stray), if_pos stray]
    · rw [if_neg (stray_iff.not.mpr stray), if_neg stray]

theorem joinSides_eq_ok {head tail : List Nat} (room : head.length + tail.length ≤ 8) :
    joinSides head tail =
      .ok (head ++ List.replicate (8 - (head.length + tail.length)) 0 ++ tail) := by
  have front := copy_replicate [] 0 (Nat.le_trans (Nat.le_add_right _ _) room)
  rw [List.length_nil, Nat.zero_add, List.nil_append, List.nil_append] at front
  have toNat_start : (BitVec.ofNat 64 (8 - tail.length)).toNat = 8 - tail.length :=
    Nat.mod_eq_of_lt (by omega)
  -- The zeros behind the head are those that stay and those that the tail replaces.
  have zeros : List.replicate (8 - head.length) 0 =
      List.replicate (8 - (head.length + tail.length)) 0 ++ List.replicate tail.length 0 := by
    rw [List.replicate_append_replicate]
    congr 1
    omega
  have start_eq : (head ++ List.replicate (8 - (head.length + tail.length)) 0).length =
      8 - tail.length := by
    rw [List.length_append, List.length_replicate]
    omega
  have back := copy_replicate (head ++ List.replicate (8 - (head.length + tail.length)) 0) 0
    (Nat.le_refl tail.length)
  rw [start_eq, Nat.sub_add_cancel (by omega), Nat.sub_self, List.replicate_zero,
    List.append_nil] at back
  rw [joinSides, front, ok_bind, sub_ofNat_eq_ok (by decide) (by omega), ok_bind, toNat_start,
    zeros, ← List.append_assoc, back]

theorem copyWords_eq_ok (words : List Nat) {index : Nat} {done : List Octet}
    (placed : done.length = 2 * index) :
    copyWords index words (done ++ List.replicate (2 * words.length) 0) =
      .ok (done ++ words.flatMap (Octets.ofNat 2)) := by
  induction words generalizing index done with
  | nil => rfl
  | cons word rest ih =>
      have room : (Octets.ofNat 2 word).length ≤ 2 * (word :: rest).length := by
        rw [Octets.length_ofNat, List.length_cons]
        omega
      have copied := copy_replicate done 0 room
      have remaining : 2 * (word :: rest).length - 2 = 2 * rest.length := by simp [Nat.mul_add]
      have extended : (done ++ Octets.ofNat 2 word).length = 2 * (index + 1) := by
        simp [placed, Nat.mul_add]
      rw [Octets.length_ofNat, placed, remaining] at copied
      rw [copyWords, copied, ok_bind, ih extended, List.flatMap_cons, List.append_assoc]

theorem assemble_eq_ok {head tail : List Nat} (room : head.length + tail.length ≤ 8) :
    assemble head tail = .ok ((head ++ List.replicate (8 - (head.length + tail.length)) 0 ++
      tail).flatMap (Octets.ofNat 2)) := by
  have octetCount : 2 * (head ++ List.replicate (8 - (head.length + tail.length)) 0 ++
      tail).length = 16 := by
    rw [List.length_append, List.length_append, List.length_replicate]
    omega
  have atStart : ([] : List Octet).length = 2 * 0 := rfl
  have written := copyWords_eq_ok
    (head ++ List.replicate (8 - (head.length + tail.length)) 0 ++ tail) atStart
  rw [octetCount] at written
  rw [assemble, joinSides_eq_ok room, ok_bind]
  exact written

theorem lt_of_readSide {lastMayBeDotted : Bool} {side : List Char} {spelling : Spelling}
    (accepted : ColonHex.readSide lastMayBeDotted side = .ok spelling) :
    ∀ word ∈ spelling.words, word < 65536 := by
  obtain ⟨_, _, spelled⟩ := ColonHex.readSide_eq_ok_iff.mp accepted
  exact spelled.lt

/-- The octets of both sides and of the zeros between them spell one number. -/
theorem assemble_value (head tail : List Nat) (room : head.length + tail.length ≤ 8)
    (headFits : ∀ word ∈ head, word < 65536) (tailFits : ∀ word ∈ tail, word < 65536) :
    ∃ octets, assemble head tail = .ok octets ∧ Octets.toNat octets =
      Positional.decode 65536
        (head ++ List.replicate (8 - (head.length + tail.length)) 0 ++ tail) := by
  refine ⟨_, assemble_eq_ok room, Octets.toNat_flatMap_ofNat ?_⟩
  intro word member
  rcases List.mem_append.mp member with earlier | inTail
  · rcases List.mem_append.mp earlier with inHead | zero
    · exact headFits word inHead
    · rw [List.eq_of_mem_replicate zero]
      decide
  · exact tailFits word inTail

theorem readHex_eq_settled (text : List Char) :
    readHex text = settled (ColonHex.read text) := by
  rw [readHex, ColonHex.read, sides]
  cases ColonHex.cutShorthand? text with
  | none =>
      simp only [settled_ok_bind, readSide_eq_settled, Bool.not_false]
      refine settled_bind fun whole accepted => ?_
      have noTail : ColonHex.readSide false [] = .ok ⟨[], false⟩ := rfl
      rw [noTail, settled_ok_bind]
      by_cases full : whole.words.length = 8
      · obtain ⟨octets, assembled, value_eq⟩ := assemble_value whole.words [] (Nat.le_of_eq full)
          (lt_of_readSide accepted) (List.forall_mem_nil _)
        have noGap : List.replicate (8 - (whole.words.length + 0)) 0 = [] := by rw [full]; rfl
        rw [List.length_nil, noGap, List.append_nil, List.append_nil] at value_eq
        rw [if_neg (by simp [full]), if_pos full, assembled, lift_ok_bind, value_eq, Bool.or_false]
        rfl
      · rw [if_pos (by simp [full]), if_neg full]
  | some cut =>
      obtain ⟨before, after⟩ := cut
      simp only
      by_cases repeated : (ColonHex.cutShorthand? after).isSome = true
      · rw [if_pos repeated, if_pos repeated]
        rfl
      · simp only [if_neg repeated, settled_ok_bind, readSide_eq_settled, Bool.not_true]
        refine settled_bind fun left leftAccepted => ?_
        refine settled_bind fun right rightAccepted => ?_
        by_cases fits : left.words.length + right.words.length ≤ 7
        · obtain ⟨octets, assembled, value_eq⟩ := assemble_value _ _ (by omega)
            (lt_of_readSide leftAccepted) (lt_of_readSide rightAccepted)
          rw [if_neg (by simp [fits]), if_pos fits, assembled, lift_ok_bind, value_eq]
          rfl
        · rw [if_pos (by simpa using fits), if_neg fits]

end HexGroups

section Literals

def read (kind : LiteralKind) (literal : List Char) : ExceptT Malformation Checked Address :=
  if literal = [] then
    settled (.error .empty)
  else if ':' ∈ literal then do
    let (bits, dotted) ← readHex literal
    return .v6 bits (dotted || decide (IsEmbedding bits.toNat))
  else do
    let bits ← readQuad kind.fewestGroups literal
    return .v4 bits

def parseAddress (kind : LiteralKind) (literal : String) : ExceptT Error Checked Address :=
  (read kind (trim literal.toList)).adapt (.malformed literal)

def readSlash (kind : LiteralKind) (literal : String) :
    ExceptT Error Checked (Address × Option (List Char)) :=
  ExceptT.adapt (.malformed literal) do
    let (addressText, prefixText?) ← settled (splitSlash literal.toList)
    let address ← read kind addressText
    return (address, prefixText?)

def parseNetwork (literal : String) : ExceptT Error Checked Network := do
  let (base, prefixText?) ← readSlash .network literal
  let prefixLen ← settled
    (givenPrefixLen literal.toList base.width (Network.impliedPrefixLen base) prefixText?)
  let len := BitVec.ofNat 8 prefixLen
  let aligned ← isAligned base len
  if aligned then
    return ⟨base, len.toNat⟩
  else
    settled (.error (.hostBits (String.ofList (trim literal.toList))))

def parseInterface (literal : String) : ExceptT Error Checked Interface := do
  let (address, prefixText?) ← readSlash .host literal
  let prefixLen ← settled
    (givenPrefixLen literal.toList address.width address.width prefixText?)
  let len := BitVec.ofNat 8 prefixLen
  return ⟨address, len.toNat⟩

theorem read_eq_settled (kind : LiteralKind) (literal : List Char) :
    read kind literal = settled (Address.read kind literal) := by
  rw [read, Address.read, readHex_eq_settled, readQuad_eq_settled]
  split
  · rfl
  · split
    · exact settled_bind fun _ _ => rfl
    · exact settled_bind fun _ _ => rfl

theorem parseAddress_eq_settled (kind : LiteralKind) (literal : String) :
    parseAddress kind literal = settled (Address.parse kind literal) := by
  rw [parseAddress, read_eq_settled, adapt_settled]
  rfl

theorem readSlash_eq_settled (kind : LiteralKind) (literal : String) :
    readSlash kind literal =
      settled ((readSides kind literal.toList).mapError (.malformed literal)) := by
  rw [readSlash, ← adapt_settled, readSides]
  congr 1
  refine settled_bind fun texts _ => ?_
  obtain ⟨addressText, prefixText?⟩ := texts
  simp only [read_eq_settled]
  exact settled_bind fun _ _ => rfl

/-- A prefix length that a literal gives or implies is an octet. -/
theorem toNat_givenPrefixLen {literal : List Char} {address : Address} {implied prefixLen : Nat}
    {prefixText? : Option (List Char)} (impliedFits : implied ≤ address.width)
    (given : givenPrefixLen literal address.width implied prefixText? = .ok prefixLen) :
    (BitVec.ofNat 8 prefixLen).toNat = prefixLen := by
  have atMost := givenPrefixLen_le impliedFits given
  have widthFits : address.width ≤ 128 := width_le address.family
  exact Nat.mod_eq_of_lt (by omega)

theorem parseNetwork_eq_settled (literal : String) :
    parseNetwork literal = settled (Network.parse literal) := by
  rw [parseNetwork, Network.parse_eq, readSlash_eq_settled]
  refine settled_bind fun sides _ => ?_
  obtain ⟨base, prefixText?⟩ := sides
  refine settled_bind fun prefixLen given => ?_
  have toNat_len := toNat_givenPrefixLen (Network.impliedPrefixLen_le base) given
  simp only [isAligned_eq_ok, lift_ok_bind, toNat_len]
  by_cases aligned : base.IsAligned prefixLen
  · rw [if_pos (decide_eq_true aligned), if_pos aligned]
    rfl
  · rw [decide_eq_false aligned, if_neg Bool.false_ne_true, if_neg aligned]

theorem parseInterface_eq_settled (literal : String) :
    parseInterface literal = settled (Interface.parse literal) := by
  rw [parseInterface, Interface.parse_eq, readSlash_eq_settled]
  refine settled_bind fun sides _ => ?_
  obtain ⟨address, prefixText?⟩ := sides
  refine settled_bind fun prefixLen given => ?_
  have toNat_len := toNat_givenPrefixLen (Nat.le_refl _) given
  simp only [toNat_len]
  rfl

end Literals

end Netblock.Words
