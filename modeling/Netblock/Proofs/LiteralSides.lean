import Mathlib.Data.List.DropRight
import Netblock.Proofs.AddressGrammar
import Netblock.Proofs.SlashLiteral
/-!
# The sides of a slash

A literal is cut at its slash, and each side stands without the blanks around it. What the sides
are and what prefix length a text spells is told here without a reader, and the readers of network
and interface literals follow from the sides.
-/

set_option autoImplicit false

namespace Netblock

namespace Text

/-!
### Blanks around a part
-/

theorem trim_dropWhile (text : List Char) : trim (text.dropWhile isBlank) = trim text := by
  unfold trim
  rw [List.dropWhile_idempotent]

theorem trim_append_of_blank {text trailing : List Char}
    (blank : ∀ c ∈ trailing, isBlank c = true) : trim (text ++ trailing) = trim text := by
  obtain ⟨⟨before, after, text_eq, beforeBlank, afterBlank⟩, ends⟩ :=
    trim_eq_iff.mp (rfl : trim text = _)
  refine trim_eq_iff.mpr ⟨⟨before, after ++ trailing, ?_, beforeBlank, ?_⟩, ends⟩
  · rw [← List.append_assoc, ← text_eq]
  · exact List.forall_mem_append.mpr ⟨afterBlank, blank⟩

theorem trim_rdropWhile (text : List Char) : trim (text.rdropWhile isBlank) = trim text := by
  have blank : ∀ c ∈ text.rtakeWhile isBlank, isBlank c = true :=
    fun _ member => List.mem_rtakeWhile_imp member
  rw [← trim_append_of_blank blank, List.rdropWhile_append_rtakeWhile]

@[simp]
theorem trim_trim (text : List Char) : trim (trim text) = trim text := by
  obtain ⟨_, head, last⟩ := trim_eq_iff.mp (rfl : trim text = _)
  exact trim_eq_self head last

theorem dropWhile_append_cons {c : Char} (filled : isBlank c = false) (before after : List Char) :
    (before ++ c :: after).dropWhile isBlank = before.dropWhile isBlank ++ c :: after := by
  have kept : (c :: after).dropWhile isBlank = c :: after := by simp [filled]
  rw [List.dropWhile_append]
  split
  · next allBlank => rw [kept, List.isEmpty_iff.mp allBlank, List.nil_append]
  · rfl

theorem rdropWhile_append_cons {c : Char} (filled : isBlank c = false)
    (before after : List Char) :
    (before ++ c :: after).rdropWhile isBlank = before ++ c :: after.rdropWhile isBlank := by
  unfold List.rdropWhile
  rw [List.reverse_append, List.reverse_cons, List.append_assoc, List.singleton_append,
    dropWhile_append_cons filled]
  simp

/-- The blanks before and after a character that is no blank are skipped apart from each other. -/
theorem trim_append_cons {c : Char} (filled : isBlank c = false) (before after : List Char) :
    trim (before ++ c :: after) =
      before.dropWhile isBlank ++ c :: after.rdropWhile isBlank := by
  change ((before ++ c :: after).dropWhile isBlank).rdropWhile isBlank = _
  rw [dropWhile_append_cons filled, rdropWhile_append_cons filled]

end Text

open Netblock.Text

/-!
### The two sides
-/

/-- The address text and the prefix length text of a literal with at most one slash. -/
inductive HasSides (literal : List Char) : List Char → Option (List Char) → Prop where
  | whole (noSlash : '/' ∉ literal) : HasSides literal (trim literal) none
  | cut {before after : List Char} (literal_eq : literal = before ++ '/' :: after)
      (noSlashBefore : '/' ∉ before) (noSlashAfter : '/' ∉ after) :
      HasSides literal (trim before) (some (trim after))

theorem exists_hasSides {literal : List Char} (few : literal.count '/' < 2) :
    ∃ host prefixText?, HasSides literal host prefixText? := by
  by_cases slash : '/' ∈ literal
  · obtain ⟨before, after, rfl, noSlashBefore⟩ := List.eq_append_cons_of_mem slash
    have noSlashAfter : '/' ∉ after := by
      rw [← List.count_eq_zero]
      rw [List.count_append, List.count_cons_self] at few
      omega
    exact ⟨_, _, .cut rfl noSlashBefore noSlashAfter⟩
  · exact ⟨_, _, .whole slash⟩

theorem not_mem_dropWhile {text : List Char} {c : Char} (absent : c ∉ text) :
    c ∉ text.dropWhile isBlank :=
  fun member => absent ((List.dropWhile_sublist _).mem member)

theorem not_mem_rdropWhile {text : List Char} {c : Char} (absent : c ∉ text) :
    c ∉ text.rdropWhile isBlank :=
  fun member => absent ((List.rdropWhile_prefix isBlank text).subset member)

namespace HasSides

variable {literal host : List Char} {prefixText? : Option (List Char)}

theorem trim_host (sides : HasSides literal host prefixText?) : trim host = host := by
  cases sides with
  | whole _ => exact trim_trim literal
  | @cut before _ _ _ _ => exact trim_trim before

theorem splitSlash_eq (sides : HasSides literal host prefixText?) :
    splitSlash literal = .ok (host, prefixText?) := by
  unfold splitSlash
  cases sides with
  | whole noSlash =>
      have noSlashLeft : '/' ∉ trim literal :=
        not_mem_rdropWhile (not_mem_dropWhile noSlash)
      rw [List.splitOn_eq_singleton noSlashLeft]
      simp
  | cut literal_eq noSlashBefore noSlashAfter =>
      rw [literal_eq, trim_append_cons rfl,
        List.splitOn_append_cons_self_of_not_mem (not_mem_dropWhile noSlashBefore),
        List.splitOn_eq_singleton (not_mem_rdropWhile noSlashAfter)]
      simp only [trim_dropWhile, trim_rdropWhile]

end HasSides

theorem splitSlash_eq_tooManySlashes {literal : List Char} (several : 2 ≤ literal.count '/') :
    splitSlash literal = .error .tooManySlashes := by
  have slash : '/' ∈ literal := List.count_pos_iff.mp (by omega)
  obtain ⟨before, after, rfl, noSlashBefore⟩ := List.eq_append_cons_of_mem slash
  have slashAfter : '/' ∈ after := by
    rw [List.count_append, List.count_cons_self, List.count_eq_zero.mpr noSlashBefore] at several
    exact List.count_pos_iff.mp (by omega)
  obtain ⟨middle, rest, rfl, noSlashMiddle⟩ := List.eq_append_cons_of_mem slashAfter
  obtain ⟨third, others, parts⟩ :=
    List.exists_cons_of_ne_nil (List.splitOn_ne_nil '/' (rest.rdropWhile isBlank))
  unfold splitSlash
  rw [trim_append_cons rfl, rdropWhile_append_cons rfl,
    List.splitOn_append_cons_self_of_not_mem (not_mem_dropWhile noSlashBefore),
    List.splitOn_append_cons_self_of_not_mem noSlashMiddle, parts]

theorem HasSides.readSides_eq {literal host : List Char} {prefixText? : Option (List Char)}
    (sides : HasSides literal host prefixText?) (kind : LiteralKind) :
    readSides kind literal = (Address.read kind host).map fun address => (address, prefixText?) := by
  unfold readSides
  rw [sides.splitSlash_eq]
  rfl

section

variable {literal host : List Char} {prefixText? : Option (List Char)} {kind : LiteralKind}

/-- A side is read like a literal of its own. -/
theorem HasSides.parse_host (sides : HasSides literal host prefixText?) :
    Address.parse kind (.ofList host) =
      (Address.read kind host).mapError (.malformed (.ofList host)) := by
  rw [Address.parse, String.toList_ofList, sides.trim_host]

theorem HasSides.parse_eq_ok_iff {address : Address} (sides : HasSides literal host prefixText?) :
    Address.parse kind (.ofList host) = .ok address ↔ Address.read kind host = .ok address := by
  rw [sides.parse_host, mapError_eq_ok_iff]

theorem HasSides.parse_eq_malformed_iff {reason : Malformation}
    (sides : HasSides literal host prefixText?) :
    Address.parse kind (.ofList host) = .error (.malformed (.ofList host) reason) ↔
      Address.read kind host = .error reason := by
  simp [sides.parse_host, mapError_eq_error_iff]

end

/-!
### Prefix lengths
-/

/-- Decimal digits, any number of leading zeros among them, for a length within the address. -/
structure SpellsPrefixLen (width : Nat) (text : List Char) (prefixLen : Nat) : Prop where
  nonempty : text ≠ []
  digits : ∀ c ∈ text, c.isDigit = true
  value_eq : Nat.ofDigitChars 10 text 0 = prefixLen
  fits : prefixLen ≤ width

theorem readPrefixLen_eq_ok_iff {literal text : List Char} {width prefixLen : Nat} :
    readPrefixLen literal width text = .ok prefixLen ↔ SpellsPrefixLen width text prefixLen := by
  unfold readPrefixLen
  constructor
  · intro accepted
    split at accepted
    · next value found =>
        split at accepted
        · next fits =>
            cases accepted
            obtain ⟨nonempty, digits, value_eq⟩ := Decimal.read?_eq_some_iff.mp found
            exact ⟨nonempty, digits, value_eq, fits⟩
        · cases accepted
    · cases accepted
  · intro spelled
    have found : Decimal.read? text = some prefixLen :=
      Decimal.read?_eq_some_iff.mpr ⟨spelled.nonempty, spelled.digits, spelled.value_eq⟩
    simp [found, spelled.fits]

theorem readPrefixLen_eq_refused {literal text : List Char} {width : Nat}
    (unspelled : ∀ prefixLen, ¬ SpellsPrefixLen width text prefixLen) :
    readPrefixLen literal width text =
      .error (.prefixLen (.ofList (trim literal)) (.ofList text)) := by
  cases outcome : readPrefixLen literal width text with
  | ok prefixLen => exact absurd (readPrefixLen_eq_ok_iff.mp outcome) (unspelled prefixLen)
  | error error =>
      unfold readPrefixLen readPrefixLen.refused at outcome
      split at outcome
      · split at outcome
        · cases outcome
        · exact outcome.symm
      · exact outcome.symm

/-- The literal around a prefix length matters to errors only. -/
theorem givenPrefixLen_eq_ok_congr (literal other : List Char) {width implied prefixLen : Nat}
    {prefixText? : Option (List Char)} :
    givenPrefixLen literal width implied prefixText? = .ok prefixLen ↔
      givenPrefixLen other width implied prefixText? = .ok prefixLen := by
  cases prefixText? with
  | none => exact Iff.rfl
  | some text => exact readPrefixLen_eq_ok_iff.trans readPrefixLen_eq_ok_iff.symm

/-!
### Literals from their sides
-/

section

variable {literal : String} {host : List Char} {prefixText? : Option (List Char)}

theorem readSides_eq_tooManySlashes (several : 2 ≤ literal.toList.count '/')
    (kind : LiteralKind) : readSides kind literal.toList = .error .tooManySlashes := by
  unfold readSides
  rw [splitSlash_eq_tooManySlashes several]
  rfl

namespace Network

theorem parse_eq_tooManySlashes (several : 2 ≤ literal.toList.count '/') :
    parse literal = .error (.malformed literal .tooManySlashes) := by
  rw [parse_eq, readSides_eq_tooManySlashes several]
  rfl

theorem parse_eq_malformed {reason : Malformation}
    (sides : HasSides literal.toList host prefixText?)
    (refused : Address.read .network host = .error reason) :
    parse literal = .error (.malformed literal reason) := by
  rw [parse_eq, sides.readSides_eq, refused]
  rfl

section

variable {base : Address}

/-- Once its address is known, what is left of a literal is its prefix length. -/
theorem parse_eq_of_read (sides : HasSides literal.toList host prefixText?)
    (accepted : Address.read .network host = .ok base) :
    parse literal = (do
      let prefixLen ←
        givenPrefixLen literal.toList base.width (impliedPrefixLen base) prefixText?
      if base.IsAligned prefixLen then
        .ok ⟨base, prefixLen⟩
      else
        .error (.hostBits (.ofList (trim literal.toList)))) := by
  rw [parse_eq, sides.readSides_eq, accepted]
  rfl

theorem parse_eq_of_given {prefixLen : Nat} (sides : HasSides literal.toList host prefixText?)
    (accepted : Address.read .network host = .ok base)
    (given : givenPrefixLen literal.toList base.width (impliedPrefixLen base) prefixText? =
      .ok prefixLen) :
    parse literal =
      if base.IsAligned prefixLen then
        .ok ⟨base, prefixLen⟩
      else
        .error (.hostBits (.ofList (trim literal.toList))) := by
  rw [parse_eq_of_read sides accepted, given]
  rfl

theorem parse_eq_of_refused {error : Error} (sides : HasSides literal.toList host prefixText?)
    (accepted : Address.read .network host = .ok base)
    (refused : givenPrefixLen literal.toList base.width (impliedPrefixLen base) prefixText? =
      .error error) :
    parse literal = .error error := by
  rw [parse_eq_of_read sides accepted, refused]
  rfl

end

end Network

namespace Interface

theorem parse_eq_of_sides (sides : HasSides literal.toList host prefixText?) :
    parse literal = (do
      let address ← (Address.read .host host).mapError (.malformed literal)
      let prefixLen ← givenPrefixLen literal.toList address.width address.width prefixText?
      .ok ⟨address, prefixLen⟩) := by
  rw [parse_eq, sides.readSides_eq]
  cases Address.read .host host with
  | error reason => rfl
  | ok address => rfl

theorem parse_eq_tooManySlashes (several : 2 ≤ literal.toList.count '/') :
    parse literal = .error (.malformed literal .tooManySlashes) := by
  rw [parse_eq, readSides_eq_tooManySlashes several]
  rfl

theorem exists_sides_of_parse {interface : Interface} (parsed : parse literal = .ok interface) :
    ∃ host prefixText?, HasSides literal.toList host prefixText? ∧
      Address.read .host host = .ok interface.address ∧
      givenPrefixLen literal.toList interface.address.width interface.address.width
        prefixText? = .ok interface.prefixLen := by
  rcases Nat.lt_or_ge (literal.toList.count '/') 2 with few | several
  · obtain ⟨host, prefixText?, sides⟩ := exists_hasSides few
    rw [parse_eq_of_sides sides, bind_eq_ok_iff] at parsed
    obtain ⟨address, accepted, continued⟩ := parsed
    obtain ⟨prefixLen, given, finished⟩ := bind_eq_ok_iff.mp continued
    cases finished
    exact ⟨host, prefixText?, sides, mapError_eq_ok_iff.mp accepted, given⟩
  · rw [parse_eq_tooManySlashes several] at parsed
    cases parsed

end Interface

end

end Netblock
