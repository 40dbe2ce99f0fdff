import Netblock.Proofs.Numerals
import Netblock.Proofs.Outcome
import Netblock.Text.DottedQuad
/-!
# The grammar of dotted quads

What a dotted quad looks like and which octets it spells, told without a reader. The reader
accepts the texts of the grammar only, and reads what they spell.
-/

set_option autoImplicit false

namespace Netblock.Text

theorem Decimal.read?_eq_some_iff {text : List Char} {value : Nat} :
    Decimal.read? text = some value ↔
      text ≠ [] ∧ (∀ c ∈ text, c.isDigit = true) ∧ Nat.ofDigitChars 10 text 0 = value := by
  simp [Decimal.read?, and_assoc]

theorem not_mem_intercalate {separator c : Char} {groups : List (List Char)}
    (other : c ≠ separator) (absent : ∀ group ∈ groups, c ∉ group) :
    c ∉ [separator].intercalate groups := by
  induction groups with
  | nil => simp
  | cons group rest ih =>
      have absentFirst : c ∉ group := absent group (by simp)
      have absentRest := ih fun later member => absent later (by simp [member])
      cases rest with
      | nil => simpa using absentFirst
      | cons next rest => simp [List.intercalate_cons_cons, other, absentFirst, absentRest]

theorem exists_intercalate_eq_cons {separator : Char} {first : List Char} (nonempty : first ≠ [])
    (rest : List (List Char)) :
    ∃ c ∈ first, ∃ tail, [separator].intercalate (first :: rest) = c :: tail := by
  cases first with
  | nil => exact absurd rfl nonempty
  | cons c tail =>
      refine ⟨c, by simp, ?_⟩
      cases rest with
      | nil => exact ⟨tail, List.intercalate_singleton⟩
      | cons next rest =>
          rw [List.intercalate_cons_cons]
          exact ⟨_, rfl⟩

namespace DottedQuad

/-- One to three digits that spell an octet. -/
structure SpellsOctet (group : List Char) (octet : Octet) : Prop where
  nonempty : group ≠ []
  length_le : group.length ≤ 3
  digits : ∀ c ∈ group, c.isDigit = true
  value_eq : Nat.ofDigitChars 10 group 0 = octet.toNat

/-- At least `fewest` and at most four groups, joined by dots. -/
def Spells (fewest : Nat) (text : List Char) (octets : List Octet) : Prop :=
  ∃ groups, text = ['.'].intercalate groups ∧ List.Forall₂ SpellsOctet groups octets ∧
    fewest ≤ octets.length ∧ octets.length ≤ 4

theorem SpellsOctet.not_mem {group : List Char} {octet : Octet}
    (spelled : SpellsOctet group octet) {c : Char} (other : c.isDigit = false) : c ∉ group := by
  intro member
  have digit := spelled.digits c member
  rw [other] at digit
  cases digit

theorem not_mem_of_forall₂ {groups : List (List Char)} {octets : List Octet}
    (spelled : List.Forall₂ SpellsOctet groups octets) {c : Char} (other : c.isDigit = false) :
    ∀ group ∈ groups, c ∉ group := by
  induction spelled with
  | nil =>
      intro group member
      cases member
  | cons first _ ih =>
      intro group member
      rcases List.mem_cons.mp member with rfl | later
      · exact first.not_mem other
      · exact ih group later

theorem readGroup_eq_ok_iff {group : List Char} {value : Nat} :
    readGroup group = .ok value ↔ ∃ octet, SpellsOctet group octet ∧ octet.toNat = value := by
  constructor
  · intro accepted
    unfold readGroup at accepted
    split at accepted
    · next number found =>
        split at accepted
        · next small =>
            cases accepted
            obtain ⟨nonempty, digits, value_eq⟩ := Decimal.read?_eq_some_iff.mp found
            have octet_eq : (BitVec.ofNat 8 value).toNat = value := by
              rw [BitVec.toNat_ofNat]
              omega
            refine ⟨BitVec.ofNat 8 value, ⟨nonempty, small.1, digits, ?_⟩, octet_eq⟩
            rw [value_eq, octet_eq]
        · cases accepted
    · cases accepted
  · intro grammatical
    obtain ⟨octet, spelled, rfl⟩ := grammatical
    have found : Decimal.read? group = some octet.toNat :=
      Decimal.read?_eq_some_iff.mpr ⟨spelled.nonempty, spelled.digits, spelled.value_eq⟩
    have small : octet.toNat ≤ 255 := Nat.le_of_lt_succ octet.isLt
    simp [readGroup, found, spelled.length_le, small]

theorem mapM_readGroup_eq_ok_iff {groups : List (List Char)} {values : List Nat} :
    groups.mapM readGroup = .ok values ↔
      ∃ octets, List.Forall₂ SpellsOctet groups octets ∧ octets.map BitVec.toNat = values := by
  rw [mapM_eq_ok_iff]
  constructor
  · intro accepted
    induction accepted with
    | nil => exact ⟨[], .nil, rfl⟩
    | cons read _ ih =>
        obtain ⟨octet, spelled, rfl⟩ := readGroup_eq_ok_iff.mp read
        obtain ⟨octets, others, rfl⟩ := ih
        exact ⟨octet :: octets, .cons spelled others, rfl⟩
  · intro grammatical
    obtain ⟨octets, spelled, rfl⟩ := grammatical
    induction spelled with
    | nil => exact .nil
    | cons spelled _ ih => exact .cons (readGroup_eq_ok_iff.mpr ⟨_, spelled, rfl⟩) ih

/-- Groups that are left out count as zero. -/
def padded (octets : List Octet) : List Octet :=
  octets ++ List.replicate (4 - octets.length) 0

theorem length_padded {octets : List Octet} (atMostFour : octets.length ≤ 4) :
    (padded octets).length = 4 := by
  rw [padded, List.length_append, List.length_replicate]
  omega

theorem toNat_padded (octets : List Octet) :
    Octets.toNat (padded octets) =
      Positional.decode 256
        (octets.map BitVec.toNat ++ List.replicate (4 - octets.length) 0) := by
  rw [padded, Octets.toNat, List.map_append, List.map_replicate]
  rfl

theorem eq_ofNat_iff_padded {bits : BitVec 32} {octets : List Octet}
    (atMostFour : octets.length ≤ 4) :
    Octets.ofNat 4 bits.toNat = padded octets ↔
      bits = BitVec.ofNat 32 (Octets.toNat (padded octets)) :=
  Octets.ofNat_toNat_eq_iff (length_padded atMostFour) rfl

theorem read_eq_ok_iff {fewest : Nat} {text : List Char} {bits : BitVec 32}
    (positive : 1 ≤ fewest) :
    read fewest text = .ok bits ↔
      ∃ octets, Spells fewest text octets ∧ Octets.ofNat 4 bits.toNat = padded octets := by
  constructor
  · intro accepted
    simp only [read] at accepted
    split at accepted
    · next counted =>
        obtain ⟨values, gathered, finished⟩ := bind_eq_ok_iff.mp accepted
        obtain ⟨octets, spelled, rfl⟩ := mapM_readGroup_eq_ok_iff.mp gathered
        have length_eq := spelled.length_eq
        rw [length_eq] at counted
        refine ⟨octets, ⟨_, (List.intercalate_splitOn '.').symm, spelled, counted⟩, ?_⟩
        rw [eq_ofNat_iff_padded counted.2, toNat_padded, ← length_eq]
        cases finished
        rfl
    · cases accepted
  · intro grammatical
    obtain ⟨octets, ⟨groups, rfl, spelled, enough, atMostFour⟩, shown⟩ := grammatical
    have length_eq := spelled.length_eq
    have nonempty : groups ≠ [] := by
      rw [← List.length_pos_iff]
      omega
    have dotFree : ∀ group ∈ groups, '.' ∉ group := not_mem_of_forall₂ spelled rfl
    have split := List.splitOn_intercalate '.' dotFree nonempty
    have gathered := mapM_readGroup_eq_ok_iff.mpr ⟨octets, spelled, rfl⟩
    have counted : fewest ≤ groups.length ∧ groups.length ≤ 4 := by omega
    unfold read
    rw [split]
    simp only [counted, and_self, if_true, gathered]
    rw [(eq_ofNat_iff_padded atMostFour).mp shown, toNat_padded, length_eq]
    rfl

theorem Spells.ne_nil {fewest : Nat} {text : List Char} {octets : List Octet}
    (spelled : Spells fewest text octets) (positive : 1 ≤ fewest) : text ≠ [] := by
  obtain ⟨groups, rfl, spelledGroups, enough, _⟩ := spelled
  cases spelledGroups with
  | nil => exact absurd (Nat.le_trans positive enough) (by decide)
  | @cons _ _ rest _ first _ =>
      obtain ⟨c, _, tail, joined⟩ := exists_intercalate_eq_cons first.nonempty rest
      rw [joined]
      exact List.cons_ne_nil c tail

theorem Spells.mem_dot {text : List Char} {octets : List Octet} (spelled : Spells 4 text octets) :
    '.' ∈ text := by
  obtain ⟨groups, rfl, spelledGroups, enough, _⟩ := spelled
  cases spelledGroups with
  | nil => simp at enough
  | cons _ others =>
      cases others with
      | nil => simp at enough
      | cons _ _ => simp [List.intercalate_cons_cons]

theorem Spells.not_mem_colon {fewest : Nat} {text : List Char} {octets : List Octet}
    (spelled : Spells fewest text octets) : ':' ∉ text := by
  obtain ⟨groups, rfl, spelledGroups, _⟩ := spelled
  exact not_mem_intercalate (by decide) (not_mem_of_forall₂ spelledGroups rfl)

theorem Spells.exists_read {text : List Char} {octets : List Octet}
    (spelled : Spells 4 text octets) :
    ∃ bits, read 4 text = .ok bits ∧ bits.toNat = Octets.toNat octets := by
  have ⟨_, _, _, enough, atMostFour⟩ := spelled
  have length_eq : octets.length = 4 := by omega
  have padded_eq : padded octets = octets := by
    rw [padded, length_eq]
    exact List.append_nil octets
  have below := Octets.toNat_lt octets
  rw [length_eq] at below
  refine ⟨BitVec.ofNat 32 (Octets.toNat octets), ?_, ?_⟩
  · rw [read_eq_ok_iff (by decide)]
    refine ⟨octets, spelled, ?_⟩
    rw [eq_ofNat_iff_padded atMostFour, padded_eq]
  · rw [BitVec.toNat_ofNat]
    exact Nat.mod_eq_of_lt below

end DottedQuad

end Netblock.Text
