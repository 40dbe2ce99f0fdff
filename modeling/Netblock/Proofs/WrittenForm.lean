import Netblock.Proofs.LiteralSides
/-!
# Written forms are literals

What is written for an address is a literal of the grammar that spells the same bits, with a
dotted quad exactly where there is a mark. So reading undoes writing, with or without a prefix
length behind the address.
-/

set_option autoImplicit false

namespace Netblock

namespace Positional

/-- Leading digits and the digits after them are numerals of their own. -/
theorem encode_add (base leading trailing value : Nat) :
    encode base (leading + trailing) value =
      encode base leading (value / base ^ trailing) ++ encode base trailing value := by
  induction trailing generalizing value with
  | zero => simp [encode]
  | succ trailing ih =>
      rw [← Nat.add_assoc, encode, encode, ih, Nat.div_div_eq_div_mul, Nat.pow_succ',
        List.append_assoc]

theorem encode_mod (base len value : Nat) : encode base len (value % base ^ len) =
    encode base len value := by
  induction len generalizing value with
  | zero => rfl
  | succ len ih =>
      rw [encode, encode, Nat.pow_succ', Nat.mod_mul_right_div_self, ih, Nat.mod_mul_right_mod]

end Positional

namespace Text

theorem trim_eq_self_of_forall {text : List Char} (filled : ∀ c ∈ text, isBlank c = false) :
    trim text = text := by
  apply trim_eq_self
  · intro c first
    exact filled c (List.mem_of_mem_head? first)
  · intro c last
    exact filled c (List.mem_of_mem_getLast? last)

/-- A character of joined groups is the separator or stands in one of the groups. -/
theorem eq_or_mem_of_mem_intercalate {separator c : Char} {groups : List (List Char)}
    (member : c ∈ [separator].intercalate groups) : c = separator ∨ ∃ group ∈ groups, c ∈ group := by
  by_cases same : c = separator
  · exact .inl same
  · right
    by_contra absent
    refine not_mem_intercalate same ?_ member
    intro group grouped inGroup
    exact absent ⟨group, grouped, inGroup⟩

theorem Decimal.write_injective {left right : Nat}
    (same : Decimal.write left = Decimal.write right) : left = right := by
  have readBack := congrArg Decimal.read? same
  simpa using readBack

theorem Hex.isDigit_of_isDigit {c : Char} (digit : c.isDigit = true) : Hex.isDigit c = true := by
  have bounds : '0' ≤ c ∧ c ≤ '9' := by
    simpa [Char.isDigit, Char.le_def] using digit
  simp [Hex.isDigit, Hex.digit?, bounds]

theorem Hex.isBlank_of_isDigit {c : Char} (digit : Hex.isDigit c = true) : isBlank c = false := by
  have filled : ∀ value < 16, isBlank value.digitChar = false ∧
      isBlank value.digitChar.toUpper = false := by
    decide
  obtain ⟨value, found⟩ := Option.isSome_iff_exists.mp digit
  obtain ⟨below, rfl | rfl⟩ := Hex.digit?_eq_some_iff.mp found
  · exact (filled value below).1
  · exact (filled value below).2

theorem Decimal.isBlank_of_mem_write {value : Nat} {c : Char} (member : c ∈ write value) :
    isBlank c = false := by
  have digit := List.all_eq_true.mp (all_isDigit_write value) c member
  exact Hex.isBlank_of_isDigit (Hex.isDigit_of_isDigit digit)

theorem Decimal.not_mem_slash_write (value : Nat) : '/' ∉ write value := by
  intro slash
  cases List.all_eq_true.mp (all_isDigit_write value) '/' slash

theorem Decimal.trim_write (value : Nat) : trim (write value) = write value :=
  trim_eq_self_of_forall fun _ member => isBlank_of_mem_write member

namespace DottedQuad

theorem spellsOctet_write {value : Nat} (below : value < 256) :
    SpellsOctet (Decimal.write value) (BitVec.ofNat 8 value) where
  nonempty := Decimal.write_ne_nil value
  length_le := by
    rw [Decimal.write, Nat.length_toDigits_le_iff (by decide) (by decide)]
    omega
  digits := List.all_eq_true.mp (Decimal.all_isDigit_write value)
  value_eq := by
    rw [Decimal.write, Nat.ofDigitChars_toDigits (by decide) (by decide), BitVec.toNat_ofNat,
      Nat.mod_eq_of_lt below]

/-- The written quad spells its four octets in any kind of literal. -/
theorem spells_write {fewest : Nat} (atMostFour : fewest ≤ 4) (bits : BitVec 32) :
    Spells fewest (write bits) (Octets.ofNat 4 bits.toNat) := by
  refine ⟨_, rfl, ?_, ?_, ?_⟩
  · rw [Octets.ofNat, List.forall₂_map_left_iff, List.forall₂_map_right_iff, List.forall₂_same]
    intro digit member
    exact spellsOctet_write (Positional.lt_of_mem_encode (by decide) member)
  · rw [Octets.length_ofNat]
    exact atMostFour
  · exact Nat.le_of_eq (Octets.length_ofNat _ _)

theorem read_write {fewest : Nat} (positive : 1 ≤ fewest) (atMostFour : fewest ≤ 4)
    (bits : BitVec 32) : read fewest (write bits) = .ok bits := by
  rw [read_eq_ok_iff positive]
  refine ⟨_, spells_write atMostFour bits, ?_⟩
  rw [padded, Octets.length_ofNat]
  exact (List.append_nil _).symm

theorem eq_dot_or_isDigit_of_mem_write {bits : BitVec 32} {c : Char}
    (member : c ∈ write bits) : c = '.' ∨ c.isDigit = true := by
  rcases eq_or_mem_of_mem_intercalate member with dot | inGroup
  · exact .inl dot
  · obtain ⟨_, grouped, inGroup⟩ := inGroup
    obtain ⟨octet, _, rfl⟩ := List.mem_map.mp grouped
    exact .inr (List.all_eq_true.mp (Decimal.all_isDigit_write octet) c inGroup)

end DottedQuad

namespace ColonHex

theorem spellsWord_write {word : Nat} (below : word < 65536) :
    SpellsWord (Hex.write 4 word) word := by
  have readBack : Hex.read? (Hex.write 4 word) = some word := by
    rw [Hex.read?_write (by decide), Nat.mod_eq_of_lt below]
  obtain ⟨nonempty, digits, value_eq⟩ := Hex.read?_eq_some_iff.mp readBack
  exact ⟨nonempty, Nat.le_of_eq (Hex.length_write 4 word), digits, value_eq⟩

/-- Written words in front of other groups. -/
theorem SpellsWords.write_append {mayEndDotted dotted : Bool} {groups : List (List Char)}
    {words : List Nat} (others : SpellsWords mayEndDotted groups words dotted)
    {leading : List Nat} (below : ∀ word ∈ leading, word < 65536) :
    SpellsWords mayEndDotted (leading.map (Hex.write 4) ++ groups) (leading ++ words) dotted := by
  induction leading with
  | nil => exact others
  | cons word leading ih =>
      have first := spellsWord_write (below word (by simp))
      exact .hex first (ih fun later member => below later (by simp [member]))

/-- The last 32 bits as a dotted quad spell the last two words. -/
theorem spellsWords_quad (value : Nat) :
    SpellsWords true [DottedQuad.write (BitVec.ofNat 32 value)]
      (Positional.encode 65536 2 value) true := by
  have length_eq : (Octets.ofNat 4 (BitVec.ofNat 32 value).toNat).length = 4 :=
    Octets.length_ofNat _ _
  obtain ⟨a, b, c, d, octets_eq⟩ := List.length_eq_four.mp length_eq
  have spelled := DottedQuad.spells_write (Nat.le_refl 4) (BitVec.ofNat 32 value)
  rw [octets_eq] at spelled
  have words_eq : Positional.encode 65536 2 value =
      [Octets.toNat [a, b], Octets.toNat [c, d]] := by
    rw [← encode_toNat_quad, ← octets_eq, Octets.toNat_ofNat, BitVec.toNat_ofNat,
      ← Positional.encode_mod 65536 2 value]
    congr 1
    omega
  rw [words_eq]
  exact .quad spelled

theorem spells_write (bits : BitVec 128) (mark : Bool) :
    Spells (write bits mark) (Positional.encode 65536 8 bits.toNat) mark := by
  refine .full ⟨_, rfl, ?_⟩ (Positional.length_encode _ _ _)
  cases mark with
  | false =>
      have noneLeft : SpellsWords true [] [] false := .nil
      have below : ∀ word ∈ Positional.encode 65536 8 bits.toNat, word < 65536 :=
        fun _ member => Positional.lt_of_mem_encode (by decide) member
      simpa using noneLeft.write_append below
  | true =>
      rw [Positional.encode_add 65536 6 2]
      exact (spellsWords_quad bits.toNat).write_append
        fun _ member => Positional.lt_of_mem_encode (by decide) member

theorem read_write (bits : BitVec 128) (mark : Bool) :
    read (write bits mark) = .ok (bits, mark) := by
  have fits : bits.toNat < 65536 ^ 8 := bits.isLt
  rw [(spells_write bits mark).read_eq_ok, Positional.decode_encode_of_lt fits,
    BitVec.ofNat_toNat, BitVec.setWidth_eq]

theorem mem_colon_write (bits : BitVec 128) (mark : Bool) : ':' ∈ write bits mark := by
  cases mark <;> simp [write, Positional.encode, List.intercalate_cons_cons]

theorem eq_or_isDigit_of_mem_write {bits : BitVec 128} {mark : Bool} {c : Char}
    (member : c ∈ write bits mark) : c = '.' ∨ c = ':' ∨ Hex.isDigit c = true := by
  have inWords : ∀ words : List Nat, ∀ group ∈ words.map (Hex.write 4), c ∈ group →
      Hex.isDigit c = true := by
    intro words group grouped inGroup
    obtain ⟨word, _, rfl⟩ := List.mem_map.mp grouped
    exact List.all_eq_true.mp (Hex.all_isDigit_write 4 word) c inGroup
  rcases eq_or_mem_of_mem_intercalate member with colon | inGroup
  · exact .inr (.inl colon)
  · obtain ⟨group, grouped, inGroup⟩ := inGroup
    cases mark with
    | false => exact .inr (.inr (inWords _ group grouped inGroup))
    | true =>
        rcases List.mem_append.mp grouped with word | quad
        · exact .inr (.inr (inWords _ group word inGroup))
        · rw [List.mem_singleton.mp quad] at inGroup
          rcases DottedQuad.eq_dot_or_isDigit_of_mem_write inGroup with dot | digit
          · exact .inl dot
          · exact .inr (.inr (Hex.isDigit_of_isDigit digit))

end ColonHex

end Text

namespace Address

open Netblock.Text

theorem LiteralKind.fewestGroups_le (kind : LiteralKind) : kind.fewestGroups ≤ 4 := by
  cases kind <;> decide

/-- Reading undoes writing, but for a mark that the bits set by themselves. -/
theorem read_write (kind : LiteralKind) (address : Address) :
    read kind address.write = .ok (address.withValue address.toNat) := by
  cases address with
  | v4 bits =>
      have spelled := DottedQuad.spells_write (LiteralKind.fewestGroups_le kind) bits
      have readBack := DottedQuad.read_write kind.fewestGroups_pos
        (LiteralKind.fewestGroups_le kind) bits
      rw [write, read_eq_ok_iff_of_no_colon (spelled.ne_nil kind.fewestGroups_pos)
        spelled.not_mem_colon]
      refine ⟨bits, readBack, ?_⟩
      simp [withValue, toNat]
  | v6 bits mark =>
      rw [write, read_eq_ok_iff_of_colon (ColonHex.mem_colon_write bits mark)]
      refine ⟨bits, mark, ColonHex.read_write bits mark, ?_⟩
      simp [withValue, toNat]

theorem mem_colon_write_iff {address : Address} : ':' ∈ address.write ↔ address.family = .v6 := by
  cases address with
  | v4 bits =>
      have noColon := (DottedQuad.spells_write (Nat.le_refl 4) bits).not_mem_colon
      exact ⟨fun colon => absurd colon noColon, nofun⟩
  | v6 bits mark => exact ⟨fun _ => rfl, fun _ => ColonHex.mem_colon_write bits mark⟩

/-- No two addresses have the same text: not even where their marks alone differ. -/
theorem write_injective {left right : Address} (same : left.write = right.write) :
    left = right := by
  have bothColons : left.family = .v6 ↔ right.family = .v6 := by
    rw [← mem_colon_write_iff, same, mem_colon_write_iff]
  cases left with
  | v4 leftBits =>
      cases right with
      | v4 rightBits =>
          have readBack := congrArg (DottedQuad.read 4) same
          rw [write, write, DottedQuad.read_write (by decide) (Nat.le_refl 4),
            DottedQuad.read_write (by decide) (Nat.le_refl 4)] at readBack
          cases readBack
          rfl
      | v6 rightBits rightMark => cases bothColons.mpr rfl
  | v6 leftBits leftMark =>
      cases right with
      | v4 rightBits => cases bothColons.mp rfl
      | v6 rightBits rightMark =>
          have readBack := congrArg ColonHex.read same
          rw [write, write, ColonHex.read_write, ColonHex.read_write] at readBack
          cases readBack
          rfl

/-- A text is made of hex digits, dots and colons. -/
theorem eq_or_isDigit_of_mem_write {address : Address} {c : Char} (member : c ∈ address.write) :
    c = '.' ∨ c = ':' ∨ Hex.isDigit c = true := by
  cases address with
  | v4 bits =>
      rcases DottedQuad.eq_dot_or_isDigit_of_mem_write member with dot | digit
      · exact .inl dot
      · exact .inr (.inr (Hex.isDigit_of_isDigit digit))
  | v6 bits mark => exact ColonHex.eq_or_isDigit_of_mem_write member

theorem not_mem_slash_write (address : Address) : '/' ∉ address.write := by
  intro member
  rcases eq_or_isDigit_of_mem_write member with dot | colon | digit
  · cases dot
  · cases colon
  · cases digit

theorem isBlank_of_mem_write {address : Address} {c : Char} (member : c ∈ address.write) :
    isBlank c = false := by
  rcases eq_or_isDigit_of_mem_write member with rfl | rfl | digit
  · rfl
  · rfl
  · exact Hex.isBlank_of_isDigit digit

/-!
### With a prefix length
-/

theorem trim_write (address : Address) : trim address.write = address.write :=
  trim_eq_self_of_forall fun _ member => isBlank_of_mem_write member

theorem trim_write_slash (address : Address) (prefixLen : Nat) :
    trim (address.write ++ '/' :: Decimal.write prefixLen) =
      address.write ++ '/' :: Decimal.write prefixLen := by
  apply trim_eq_self_of_forall
  intro c member
  rcases List.mem_append.mp member with inAddress | suffix
  · exact isBlank_of_mem_write inAddress
  · rcases List.mem_cons.mp suffix with rfl | inLength
    · rfl
    · exact Decimal.isBlank_of_mem_write inLength

/-- The text of a prefix length that is written behind an address. The full length is not. -/
def writtenPrefixLen? (address : Address) (prefixLen : Nat) : Option (List Char) :=
  if prefixLen < address.width then some (Decimal.write prefixLen) else none

theorem hasSides_write_slash (address : Address) (prefixLen : Nat) :
    HasSides (address.write ++ '/' :: Decimal.write prefixLen) address.write
      (some (Decimal.write prefixLen)) := by
  have sides := HasSides.cut rfl (not_mem_slash_write address)
    (Decimal.not_mem_slash_write prefixLen)
  rwa [trim_write, Decimal.trim_write] at sides

theorem hasSides_writeCidr (address : Address) (prefixLen : Nat) :
    HasSides (address.writeCidr prefixLen) address.write
      (address.writtenPrefixLen? prefixLen) := by
  unfold writeCidr writtenPrefixLen?
  split
  · exact hasSides_write_slash address prefixLen
  · have sides := HasSides.whole (not_mem_slash_write address)
    rwa [trim_write] at sides

theorem readSides_writeCidr (kind : LiteralKind) (address : Address) (prefixLen : Nat) :
    readSides kind (address.writeCidr prefixLen) =
      .ok (address.withValue address.toNat, address.writtenPrefixLen? prefixLen) := by
  rw [(hasSides_writeCidr address prefixLen).readSides_eq, read_write]
  rfl

theorem spellsPrefixLen_write_iff {width value prefixLen : Nat} :
    SpellsPrefixLen width (Decimal.write value) prefixLen ↔
      prefixLen = value ∧ value ≤ width := by
  have readBack := Decimal.read?_eq_some_iff.mp (Decimal.read?_write value)
  obtain ⟨nonempty, digits, value_eq⟩ := readBack
  constructor
  · intro spelled
    obtain rfl : prefixLen = value := spelled.value_eq.symm.trans value_eq
    exact ⟨rfl, spelled.fits⟩
  · rintro ⟨rfl, fits⟩
    exact ⟨nonempty, digits, value_eq, fits⟩

theorem readPrefixLen_write (literal : List Char) {width prefixLen : Nat}
    (fits : prefixLen ≤ width) :
    readPrefixLen literal width (Decimal.write prefixLen) = .ok prefixLen :=
  readPrefixLen_eq_ok_iff.mpr (spellsPrefixLen_write_iff.mpr ⟨rfl, fits⟩)

/-- Different prefix lengths of an address are told apart by its text. -/
theorem writeCidr_injective {left right : Address} {leftLen rightLen : Nat}
    (leftFits : leftLen ≤ left.width) (rightFits : rightLen ≤ right.width)
    (same : left.writeCidr leftLen = right.writeCidr rightLen) :
    left = right ∧ leftLen = rightLen := by
  have sides := (hasSides_writeCidr left leftLen).splitSlash_eq
  rw [same, (hasSides_writeCidr right rightLen).splitSlash_eq, Except.ok.injEq,
    Prod.mk.injEq] at sides
  obtain ⟨sameText, sameSuffix⟩ := sides
  obtain rfl := write_injective sameText
  refine ⟨rfl, ?_⟩
  unfold writtenPrefixLen? at sameSuffix
  split at sameSuffix
  · split at sameSuffix
    · exact (Decimal.write_injective (Option.some.inj sameSuffix)).symm
    · cases sameSuffix
  · split at sameSuffix
    · cases sameSuffix
    · omega

end Address

end Netblock
