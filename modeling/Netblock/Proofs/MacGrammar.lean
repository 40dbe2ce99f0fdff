import Netblock.Proofs.InterfaceIds
import Netblock.Proofs.WrittenForm
import Netblock.Textual
/-!
# The grammar of MAC addresses

Twelve hex digits of either case in one of five layouts. The first pass of the reader accepts the
texts of the grammar only, and in these the second pass finds the digits of the grammar and reads
the six octets that they spell. So every rendering of a MAC address reads back as it, its text first
of all.
-/

set_option autoImplicit false

namespace Netblock

/-!
### Hex digits in pieces
-/

namespace Text

theorem Hex.digit?_toLower (c : Char) : Hex.digit? c.toLower = Hex.digit? c := by
  by_cases ascii : c.toNat < 128
  · have table : ∀ point < 128,
        Hex.digit? (Char.ofNat point).toLower = Hex.digit? (Char.ofNat point) := by decide
    have checked := table c.toNat ascii
    rwa [Char.ofNat_toNat] at checked
  · have unchanged : c.toLower = c := by
      apply dif_neg
      rintro ⟨_, upper⟩
      exact ascii (Nat.lt_of_le_of_lt upper (by decide))
    rw [unchanged]

theorem Hex.read?_pair {high low : Char} {highDigit lowDigit : Nat}
    (highFound : Hex.digit? high = some highDigit) (lowFound : Hex.digit? low = some lowDigit) :
    Hex.read? [high, low] = some (highDigit * 16 + lowDigit) := by
  simp [Hex.read?, Hex.isDigit, highFound, lowFound, Positional.decode]

theorem Hex.write_mod (len value : Nat) : Hex.write len (value % 16 ^ len) = Hex.write len value :=
  congrArg (List.map Nat.digitChar) (Positional.encode_mod 16 len value)

theorem Hex.map_toLower_write (len value : Nat) :
    (Hex.write len value).map Char.toLower = Hex.write len value := by
  have lowercase : ∀ digit < 16, digit.digitChar.toLower = digit.digitChar := by decide
  rw [Hex.write, List.map_map]
  refine List.map_congr_left fun digit member => ?_
  exact lowercase digit (Positional.lt_of_mem_encode (by decide) member)

/-- Written group by group, the digits of a value are those of the value. -/
theorem Hex.flatMap_write_encode (len count value : Nat) :
    (Positional.encode (16 ^ len) count value).flatMap (Hex.write len) =
      Hex.write (count * len) value := by
  induction count generalizing value with
  | zero => rw [Nat.zero_mul]; rfl
  | succ count ih =>
      rw [Positional.encode, List.flatMap_append, ih, List.flatMap_singleton, Hex.write_mod,
        Nat.succ_mul, Hex.write, Hex.write, Hex.write, Positional.encode_add, List.map_append]

theorem Hex.flatMap_write_octets (len value : Nat) :
    ((Octets.ofNat len value).flatMap fun octet => Hex.write 2 octet.toNat) =
      Hex.write (len * 2) value := by
  have square : 256 = 16 ^ 2 := by decide
  rw [Octets.ofNat, List.flatMap_map, square, ← Hex.flatMap_write_encode]
  congr 1
  funext digit
  rw [BitVec.toNat_ofNat]
  exact Hex.write_mod 2 digit

/-- Where the separator is dropped, joined groups are as good as a concatenation. -/
theorem filter_intercalate {separator : Char} {keep : Char → Bool}
    (dropped : keep separator = false) (groups : List (List Char)) :
    ([separator].intercalate groups).filter keep = groups.flatten.filter keep := by
  induction groups with
  | nil => rfl
  | cons group rest ih =>
      cases rest with
      | nil => simp
      | cons next rest => simp [List.intercalate_cons_cons, dropped, ih]

end Text

namespace MacAddress

open Netblock.Text

/-!
### The grammar
-/

/-- The octets of hex digits, two digits each. -/
inductive SpellsOctets : List Char → List Octet → Prop where
  | nil : SpellsOctets [] []
  | pair {high low : Char} {highDigit lowDigit : Nat} {octet : Octet} {rest octets} :
      Hex.digit? high = some highDigit → Hex.digit? low = some lowDigit →
      octet.toNat = highDigit * 16 + lowDigit → SpellsOctets rest octets →
      SpellsOctets (high :: low :: rest) (octet :: octets)

/-- Digits in groups of the given lengths, with a separator between each two of them. -/
def IsJoined (separator : Char) (lengths : List Nat) (digits text : List Char) : Prop :=
  ∃ groups : List (List Char), groups.map List.length = lengths ∧ groups.flatten = digits ∧
    text = [separator].intercalate groups

/-- Twelve characters in one of the five layouts. -/
inductive IsLaidOut (digits text : List Char) : Prop where
  | colonPairs : IsJoined ':' [2, 2, 2, 2, 2, 2] digits text → IsLaidOut digits text
  | dashPairs : IsJoined '-' [2, 2, 2, 2, 2, 2] digits text → IsLaidOut digits text
  | colonHalves : IsJoined ':' [6, 6] digits text → IsLaidOut digits text
  | dashHalves : IsJoined '-' [6, 6] digits text → IsLaidOut digits text
  | dottedThirds : IsJoined '.' [4, 4, 4] digits text → IsLaidOut digits text

def IsLiteral (text : List Char) : Prop :=
  ∃ digits, (∀ c ∈ digits, Hex.isDigit c = true) ∧ IsLaidOut digits text

def Spells (text : List Char) (mac : MacAddress) : Prop :=
  ∃ digits, SpellsOctets digits mac.octets ∧ IsLaidOut digits text

/-- The digits of a MAC address in one of the five layouts, each in either case. -/
def IsRendering (text : List Char) (mac : MacAddress) : Prop :=
  ∃ digits : List Char,
    digits.map Char.toLower = (mac.octets.flatMap fun octet => Hex.write 2 octet.toNat) ∧
      IsLaidOut digits text

variable {mac : MacAddress} {digits text : List Char} {octets : List Octet}

/-!
### Digits and octets
-/

theorem SpellsOctets.isDigit (spelled : SpellsOctets digits octets) :
    ∀ c ∈ digits, Hex.isDigit c = true := by
  induction spelled with
  | nil => nofun
  | pair high low _ _ ih =>
      rw [List.forall_mem_cons, List.forall_mem_cons]
      exact ⟨Option.isSome_of_eq_some high, Option.isSome_of_eq_some low, ih⟩

/-- The second pass reads what digits spell, with nothing left over. -/
theorem SpellsOctets.readOctets?_eq (spelled : SpellsOctets digits octets) :
    readOctets? octets.length digits = some octets := by
  induction spelled with
  | nil => rfl
  | pair high low octet_eq _ ih =>
      rw [List.length_cons, readOctets?, Hex.read?_pair high low, ih, ← octet_eq]
      simp

theorem exists_spellsOctets {count : Nat} (length_eq : digits.length = count * 2)
    (allDigits : ∀ c ∈ digits, Hex.isDigit c = true) :
    ∃ octets, octets.length = count ∧ SpellsOctets digits octets := by
  induction count generalizing digits with
  | zero =>
      rw [Nat.zero_mul, List.length_eq_zero_iff] at length_eq
      rw [length_eq]
      exact ⟨[], rfl, .nil⟩
  | succ count ih =>
      match digits with
      | [] => cases length_eq
      | [_] =>
          rw [List.length_singleton] at length_eq
          omega
      | high :: low :: rest =>
          rw [List.forall_mem_cons, List.forall_mem_cons] at allDigits
          obtain ⟨highIsDigit, lowIsDigit, restAllDigits⟩ := allDigits
          obtain ⟨highDigit, highFound⟩ := Option.isSome_iff_exists.mp highIsDigit
          obtain ⟨lowDigit, lowFound⟩ := Option.isSome_iff_exists.mp lowIsDigit
          have restLength : rest.length = count * 2 := by simpa [Nat.succ_mul] using length_eq
          obtain ⟨octets, counted, others⟩ := ih restLength restAllDigits
          have highBelow := Hex.digit?_lt highFound
          have lowBelow := Hex.digit?_lt lowFound
          have octet_eq : (BitVec.ofNat 8 (highDigit * 16 + lowDigit)).toNat =
              highDigit * 16 + lowDigit := by
            rw [BitVec.toNat_ofNat, Nat.mod_eq_of_lt (by omega)]
          refine ⟨_ :: octets, ?_, .pair highFound lowFound octet_eq others⟩
          rw [List.length_cons, counted]

theorem spellsOctets_write (octets : List Octet) :
    SpellsOctets (octets.flatMap fun octet => Hex.write 2 octet.toNat) octets := by
  induction octets with
  | nil => exact .nil
  | cons octet octets ih =>
      have below := octet.isLt
      exact .pair (Hex.digit?_digitChar (Nat.mod_lt _ (by decide)))
        (Hex.digit?_digitChar (Nat.mod_lt _ (by decide))) (by omega) ih

theorem SpellsOctets.of_map_toLower {lowered : List Char} (spelled : SpellsOctets lowered octets)
    (lowered_eq : digits.map Char.toLower = lowered) : SpellsOctets digits octets := by
  induction spelled generalizing digits with
  | nil =>
      rw [List.map_eq_nil_iff] at lowered_eq
      rw [lowered_eq]
      exact .nil
  | pair high low octet_eq _ ih =>
      obtain ⟨_, _, rfl, rfl, others_eq⟩ := List.map_eq_cons_iff.mp lowered_eq
      obtain ⟨_, _, rfl, rfl, rest_eq⟩ := List.map_eq_cons_iff.mp others_eq
      rw [Hex.digit?_toLower] at high low
      exact .pair high low octet_eq (ih rest_eq)

theorem ofOctets?_octets (mac : MacAddress) : ofOctets? mac.octets = some mac := by
  rw [ofOctets?, if_pos mac.length_octets, toNat_octets, toNat, BitVec.ofNat_toNat,
    BitVec.setWidth_eq]

/-!
### Layouts
-/

theorem IsJoined.filter_eq {separator : Char} {lengths : List Nat}
    (joined : IsJoined separator lengths digits text) (other : Hex.isDigit separator = false)
    (allDigits : ∀ c ∈ digits, Hex.isDigit c = true) : text.filter Hex.isDigit = digits := by
  obtain ⟨groups, _, rfl, rfl⟩ := joined
  rw [filter_intercalate other, List.filter_eq_self]
  exact allDigits

namespace Layout

variable {layout : Layout}

/-- Each layout parts twelve digits, none of which is a separator. Nor is a separator blank. -/
theorem twelve_of_mem (listed : layout ∈ all) :
    layout.groupCount * layout.groupLen = 12 ∧ Hex.isDigit layout.separator = false ∧
      isBlank layout.separator = false := by
  revert layout
  decide

def Joins (layout : Layout) (digits text : List Char) : Prop :=
  IsJoined layout.separator (List.replicate layout.groupCount layout.groupLen) digits text

theorem joins_iff : layout.Joins digits text ↔
    ∃ groups : List (List Char),
      (groups.length = layout.groupCount ∧ ∀ group ∈ groups, group.length = layout.groupLen) ∧
        groups.flatten = digits ∧ text = [layout.separator].intercalate groups := by
  simp only [Joins, IsJoined, List.eq_replicate_iff, List.length_map, List.forall_mem_map]

theorem Joins.length_eq (joined : layout.Joins digits text) (listed : layout ∈ all) :
    digits.length = 12 := by
  obtain ⟨groups, lengths_eq, rfl, _⟩ := joined
  rw [List.length_flatten, lengths_eq, List.sum_replicate_nat, (twelve_of_mem listed).1]

theorem exists_joins_of_matches (laidOut : layout.Matches text) :
    ∃ digits, (∀ c ∈ digits, Hex.isDigit c = true) ∧ layout.Joins digits text := by
  obtain ⟨count_eq, groups_ok⟩ := laidOut
  refine ⟨(text.splitOn layout.separator).flatten, ?_, joins_iff.mpr
    ⟨_, ⟨count_eq, fun group grouped => (groups_ok group grouped).1⟩, rfl,
      (List.intercalate_splitOn layout.separator).symm⟩⟩
  intro c member
  obtain ⟨group, grouped, inGroup⟩ := List.mem_flatten.mp member
  exact List.all_eq_true.mp (groups_ok group grouped).2 c inGroup

theorem Joins.matches (joined : layout.Joins digits text) (listed : layout ∈ all)
    (allDigits : ∀ c ∈ digits, Hex.isDigit c = true) : layout.Matches text := by
  have length_eq := joined.length_eq listed
  obtain ⟨groups, ⟨count_eq, lengths_eq⟩, rfl, rfl⟩ := joins_iff.mp joined
  have nonempty : groups ≠ [] := by
    rintro rfl
    cases length_eq
  have groupsAllDigits : ∀ group ∈ groups, ∀ c ∈ group, Hex.isDigit c = true :=
    fun group grouped c inGroup => allDigits c (List.mem_flatten_of_mem grouped inGroup)
  have noSeparator : ∀ group ∈ groups, layout.separator ∉ group := by
    intro group grouped inGroup
    have digit := groupsAllDigits group grouped _ inGroup
    rw [(twelve_of_mem listed).2.1] at digit
    cases digit
  unfold Matches
  rw [List.splitOn_intercalate _ noSeparator nonempty]
  refine ⟨count_eq, fun group grouped => ⟨lengths_eq group grouped, ?_⟩⟩
  exact List.all_eq_true.mpr (groupsAllDigits group grouped)

/-- What is written in a layout are the digits of the octets. -/
theorem joins_write (listed : layout ∈ all) (mac : MacAddress) :
    layout.Joins (mac.octets.flatMap fun octet => Hex.write 2 octet.toNat) (layout.write mac) := by
  refine joins_iff.mpr ⟨_, ⟨?_, ?_⟩, ?_, rfl⟩
  · rw [List.length_map, Positional.length_encode]
  · rw [List.forall_mem_map]
    exact fun group _ => Hex.length_write _ group
  · rw [← List.flatMap_def, Hex.flatMap_write_encode, (twelve_of_mem listed).1, octets,
      Hex.flatMap_write_octets]

end Layout

theorem isLaidOut_iff :
    IsLaidOut digits text ↔ ∃ layout ∈ Layout.all, layout.Joins digits text := by
  constructor
  · intro laidOut
    cases laidOut with
    | colonPairs joined => exact ⟨⟨6, 2, ':'⟩, by decide, joined⟩
    | dashPairs joined => exact ⟨⟨6, 2, '-'⟩, by decide, joined⟩
    | colonHalves joined => exact ⟨⟨2, 6, ':'⟩, by decide, joined⟩
    | dashHalves joined => exact ⟨⟨2, 6, '-'⟩, by decide, joined⟩
    | dottedThirds joined => exact ⟨⟨3, 4, '.'⟩, by decide, joined⟩
  · rintro ⟨layout, listed, joined⟩
    simp only [Layout.all, Layout.pairs, List.mem_cons, List.not_mem_nil, or_false] at listed
    rcases listed with rfl | rfl | rfl | rfl | rfl
    · exact .colonPairs joined
    · exact .dashPairs joined
    · exact .colonHalves joined
    · exact .dashHalves joined
    · exact .dottedThirds joined

theorem IsLaidOut.length_eq (laidOut : IsLaidOut digits text) : digits.length = 12 := by
  obtain ⟨layout, listed, joined⟩ := isLaidOut_iff.mp laidOut
  exact joined.length_eq listed

theorem IsLaidOut.filter_eq (laidOut : IsLaidOut digits text)
    (allDigits : ∀ c ∈ digits, Hex.isDigit c = true) : text.filter Hex.isDigit = digits := by
  obtain ⟨layout, listed, joined⟩ := isLaidOut_iff.mp laidOut
  exact IsJoined.filter_eq joined (Layout.twelve_of_mem listed).2.1 allDigits

theorem IsLaidOut.trim_eq (laidOut : IsLaidOut digits text)
    (allDigits : ∀ c ∈ digits, Hex.isDigit c = true) : trim text = text := by
  obtain ⟨layout, listed, groups, _, rfl, rfl⟩ := isLaidOut_iff.mp laidOut
  apply trim_eq_self_of_forall
  intro c member
  rcases eq_or_mem_of_mem_intercalate member with rfl | ⟨group, grouped, inGroup⟩
  · exact (Layout.twelve_of_mem listed).2.2
  · exact Hex.isBlank_of_isDigit (allDigits c (List.mem_flatten_of_mem grouped inGroup))

/-!
### Reading
-/

/-- The digits of a text are those that are left of it without all other characters. -/
theorem Spells.filter_spells (spelled : Spells text mac) :
    SpellsOctets (text.filter Hex.isDigit) mac.octets := by
  obtain ⟨digits, octets_spelled, laidOut⟩ := spelled
  rw [laidOut.filter_eq octets_spelled.isDigit]
  exact octets_spelled

theorem isLiteral_iff_exists_spells : IsLiteral text ↔ ∃ mac, Spells text mac := by
  constructor
  · rintro ⟨digits, allDigits, laidOut⟩
    have length_eq : digits.length = 6 * 2 := laidOut.length_eq
    obtain ⟨octets, counted, spelled⟩ := exists_spellsOctets length_eq allDigits
    let mac : MacAddress := ⟨BitVec.ofNat 48 (Octets.toNat octets)⟩
    have octets_eq : mac.octets = octets := (Octets.ofNat_toNat_eq_iff counted rfl).mpr rfl
    refine ⟨mac, digits, ?_, laidOut⟩
    rw [octets_eq]
    exact spelled
  · rintro ⟨mac, digits, spelled, laidOut⟩
    exact ⟨digits, spelled.isDigit, laidOut⟩

theorem exists_matches_iff : (∃ layout ∈ Layout.all, layout.Matches text) ↔ IsLiteral text := by
  constructor
  · rintro ⟨layout, listed, laidOut⟩
    obtain ⟨digits, allDigits, joined⟩ := Layout.exists_joins_of_matches laidOut
    exact ⟨digits, allDigits, isLaidOut_iff.mpr ⟨layout, listed, joined⟩⟩
  · rintro ⟨digits, allDigits, laidOut⟩
    obtain ⟨layout, listed, joined⟩ := isLaidOut_iff.mp laidOut
    exact ⟨layout, listed, joined.matches listed allDigits⟩

/-- In a text that passes the first pass, the second one finds the digits again. -/
theorem Spells.read?_eq (spelled : Spells text mac) : read? text = some mac := by
  have readOctets := spelled.filter_spells.readOctets?_eq
  rw [length_octets] at readOctets
  rw [read?, if_pos (exists_matches_iff.mpr (isLiteral_iff_exists_spells.mpr ⟨mac, spelled⟩)),
    readOctets]
  exact mac.ofOctets?_octets

theorem read?_eq_some_iff : read? text = some mac ↔ Spells text mac := by
  constructor
  · intro accepted
    have matched : ∃ layout ∈ Layout.all, layout.Matches text := by
      by_contra refused
      rw [read?, if_neg refused] at accepted
      cases accepted
    obtain ⟨other, spelled⟩ := isLiteral_iff_exists_spells.mp (exists_matches_iff.mp matched)
    rw [spelled.read?_eq, Option.some_inj] at accepted
    rwa [accepted] at spelled
  · exact Spells.read?_eq

theorem parse_ok_iff_spells {literal : String} :
    parse literal = .ok mac ↔ Spells (trim literal.toList) mac := by
  rw [parse_eq_ok_iff, read?_eq_some_iff]

theorem IsRendering.spells (rendered : IsRendering text mac) : Spells text mac := by
  obtain ⟨digits, digits_eq, laidOut⟩ := rendered
  exact ⟨digits, (spellsOctets_write mac.octets).of_map_toLower digits_eq, laidOut⟩

theorem isRendering_write {layout : Layout} (listed : layout ∈ Layout.all) (mac : MacAddress) :
    IsRendering (layout.write mac) mac := by
  refine ⟨_, ?_, isLaidOut_iff.mpr ⟨layout, listed, layout.joins_write listed mac⟩⟩
  rw [octets, Hex.flatMap_write_octets, Hex.map_toLower_write]

theorem Spells.trim_eq (spelled : Spells text mac) : trim text = text := by
  obtain ⟨digits, octets_spelled, laidOut⟩ := spelled
  exact laidOut.trim_eq octets_spelled.isDigit

theorem IsRendering.parse_eq {literal : String} (rendered : IsRendering literal.toList mac) :
    parse literal = .ok mac := by
  rw [parse_ok_iff_spells, rendered.spells.trim_eq]
  exact rendered.spells

theorem parse_text (mac : MacAddress) : parse mac.text = .ok mac := by
  apply IsRendering.parse_eq
  rw [text, String.toList_ofList]
  exact isRendering_write (by decide) mac

theorem parse_eq_error_iff {literal : String} {error : Error} :
    parse literal = .error error ↔ ¬ IsLiteral (trim literal.toList) ∧
      error = .malformed (String.ofList (trim literal.toList)) .mac := by
  rw [isLiteral_iff_exists_spells, not_exists]
  simp only [← read?_eq_some_iff, ← Option.eq_none_iff_forall_ne_some, parse]
  split
  · next found => simp [found]
  · next refused => simp [refused, eq_comm]

theorem normalize_eq_ok_iff {literal shown : String} :
    Textual.normalize MacAddress literal = .ok shown ↔
      ∃ mac, parse literal = .ok mac ∧ mac.text = shown := by
  change (parse literal).map MacAddress.text = .ok shown ↔ _
  cases parse literal with
  | error error => exact ⟨nofun, nofun⟩
  | ok mac => simp [Except.map]

/-- What is read from a literal that is this text between blanks. -/
structure ReadsLayouts (literal : String) (text : List Char) : Prop where
  accepted_iff : (∃ mac, parse literal = .ok mac) ↔ IsLiteral text
  ok_iff : ∀ mac, parse literal = .ok mac ↔ Spells text mac
  filter_spells : ∀ mac, parse literal = .ok mac →
    SpellsOctets (text.filter Hex.isDigit) mac.octets
  error_iff : ∀ error, parse literal = .error error ↔
    ¬ IsLiteral text ∧ error = .malformed (String.ofList text) .mac
  normalize_idempotent : ∀ shown, Textual.normalize MacAddress literal = .ok shown →
    Textual.normalize MacAddress shown = .ok shown

/-- What is written for a MAC address in any of the layouts, in either case, reads back as it. -/
structure IsReadBack (mac : MacAddress) : Prop where
  parse_rendering : ∀ literal : String, IsRendering literal.toList mac → parse literal = .ok mac
  isRendering_write : ∀ layout ∈ Layout.all, IsRendering (layout.write mac) mac
  parse_text : parse mac.text = .ok mac

/-- The five layouts are all that is accepted, and reading undoes writing in each of them. -/
theorem readsFiveLayouts :
    (∀ literal : String, ReadsLayouts literal (trim literal.toList)) ∧
      ∀ mac : MacAddress, mac.IsReadBack := by
  constructor
  · intro literal
    refine ⟨?_, fun _ => parse_ok_iff_spells, ?_, fun _ => parse_eq_error_iff, ?_⟩
    · simp only [isLiteral_iff_exists_spells, parse_ok_iff_spells]
    · exact fun _ accepted => (parse_ok_iff_spells.mp accepted).filter_spells
    · intro shown normalized
      obtain ⟨mac, _, rfl⟩ := normalize_eq_ok_iff.mp normalized
      exact normalize_eq_ok_iff.mpr ⟨mac, mac.parse_text, rfl⟩
  · intro mac
    exact ⟨fun _ => IsRendering.parse_eq, fun _ listed => isRendering_write listed mac,
      mac.parse_text⟩

/-- `AbCd.eFfE.dCbA` and `AB-CD-EF-FE-DC-BA` are one address. Six pairs with two kinds of separator
are none. -/
theorem readsFiveLayouts_mixed :
    parse "AbCd.eFfE.dCbA" = .ok ⟨0xABCDEFFEDCBA⟩ ∧
      ¬ IsLiteral (trim "ab:ab-ab:ab-ab:ab".toList) ∧
      Textual.normalize MacAddress "\u2003AB-CD-EF-FE-DC-BA\n" = .ok "ab:cd:ef:fe:dc:ba" ∧
      Textual.normalize MacAddress "ab:cd:ef:fe:dc:ba" = .ok "ab:cd:ef:fe:dc:ba" := by
  obtain ⟨reads, readBack⟩ := readsFiveLayouts
  have rendered : IsRendering "AbCd.eFfE.dCbA".toList ⟨0xABCDEFFEDCBA⟩ := by
    refine ⟨"AbCdeFfEdCbA".toList, by decide, .dottedThirds ?_⟩
    exact ⟨["AbCd".toList, "eFfE".toList, "dCbA".toList], by decide⟩
  have refused : parse "ab:ab-ab:ab-ab:ab" = .error (.malformed "ab:ab-ab:ab-ab:ab" .mac) := by
    decide
  have normalized : Textual.normalize MacAddress "\u2003AB-CD-EF-FE-DC-BA\n" =
      .ok "ab:cd:ef:fe:dc:ba" := by decide
  exact ⟨(readBack _).parse_rendering _ rendered, (((reads _).error_iff _).mp refused).1,
    normalized, (reads _).normalize_idempotent _ normalized⟩

end MacAddress

end Netblock
