import Netblock.Address.Literal
import Netblock.Proofs.ColonHexGrammar
/-!
# The grammar of address literals

A dotted quad, or a text of colon-separated groups. Reading accepts these literals and no
others, and gives the address whose octets they spell.
-/

set_option autoImplicit false

namespace Netblock

theorem LiteralKind.fewestGroups_pos (kind : LiteralKind) : 1 ≤ kind.fewestGroups := by
  cases kind <;> decide

namespace Address

open Netblock.Text

/-- Whether a text is a literal, whatever it spells. -/
def IsLiteral (kind : LiteralKind) (text : List Char) : Prop :=
  (':' ∉ text ∧ ∃ octets, DottedQuad.Spells kind.fewestGroups text octets) ∨
    (':' ∈ text ∧ ∃ words dotted, ColonHex.Spells text words dotted)

/-- The address that a literal spells. An IPv6 address is marked when a dotted quad was written
or its octets embed IPv4. -/
inductive Spells (kind : LiteralKind) (text : List Char) (address : Address) : Prop where
  | quad {octets : List Octet} (noColon : ':' ∉ text)
      (spelled : DottedQuad.Spells kind.fewestGroups text octets)
      (family_eq : address.family = .v4)
      (octets_eq : address.octets = DottedQuad.padded octets)
  | groups {words : List Nat} {dotted : Bool} (colon : ':' ∈ text)
      (spelled : ColonHex.Spells text words dotted)
      (family_eq : address.family = .v6)
      (octets_eq : address.octets = words.flatMap (Octets.ofNat 2))
      (mark_iff : address.mark = true ↔ dotted = true ∨ Octets.Embeds address.octets)

theorem octets_v4 (bits : BitVec 32) : (v4 bits).octets = Octets.ofNat 4 bits.toNat :=
  rfl

theorem octets_v6 (bits : BitVec 128) (mark : Bool) :
    (v6 bits mark).octets = Octets.ofNat 16 bits.toNat :=
  rfl

theorem read_nil (kind : LiteralKind) : read kind [] = .error .empty :=
  rfl

theorem Spells.ne_nil {kind : LiteralKind} {text : List Char} {address : Address}
    (spelled : Spells kind text address) : text ≠ [] := by
  cases spelled with
  | quad _ quadSpelled _ _ => exact quadSpelled.ne_nil kind.fewestGroups_pos
  | groups colon _ _ _ _ => exact List.ne_nil_of_mem colon

theorem read_eq_ok_iff_of_colon {kind : LiteralKind} {text : List Char} {address : Address}
    (colon : ':' ∈ text) :
    read kind text = .ok address ↔
      ∃ bits dotted, ColonHex.read text = .ok (bits, dotted) ∧
        .v6 bits (dotted || decide (IsEmbedding bits.toNat)) = address := by
  have nonempty : text ≠ [] := List.ne_nil_of_mem colon
  unfold read
  rw [if_neg nonempty, if_pos colon, bind_eq_ok_iff]
  constructor
  · intro accepted
    obtain ⟨⟨bits, dotted⟩, readGroups, finished⟩ := accepted
    cases finished
    exact ⟨bits, dotted, readGroups, rfl⟩
  · intro accepted
    obtain ⟨bits, dotted, readGroups, rfl⟩ := accepted
    exact ⟨(bits, dotted), readGroups, rfl⟩

theorem read_eq_ok_iff_of_no_colon {kind : LiteralKind} {text : List Char} {address : Address}
    (nonempty : text ≠ []) (noColon : ':' ∉ text) :
    read kind text = .ok address ↔
      ∃ bits, DottedQuad.read kind.fewestGroups text = .ok bits ∧ .v4 bits = address := by
  unfold read
  rw [if_neg nonempty, if_neg noColon, bind_eq_ok_iff]
  constructor
  · intro accepted
    obtain ⟨bits, readQuad, finished⟩ := accepted
    cases finished
    exact ⟨bits, readQuad, rfl⟩
  · intro accepted
    obtain ⟨bits, readQuad, rfl⟩ := accepted
    exact ⟨bits, readQuad, rfl⟩

theorem spells_of_read_eq_ok {kind : LiteralKind} {text : List Char} {address : Address}
    (accepted : read kind text = .ok address) : Spells kind text address := by
  by_cases colon : ':' ∈ text
  · obtain ⟨bits, dotted, readGroups, rfl⟩ := (read_eq_ok_iff_of_colon colon).mp accepted
    obtain ⟨words, spelled, octets_eq⟩ := ColonHex.read_eq_ok_iff.mp readGroups
    have mark_iff : (dotted || decide (IsEmbedding bits.toNat)) = true ↔
        dotted = true ∨ Octets.Embeds (Octets.ofNat 16 bits.toNat) := by
      rw [Bool.or_eq_true, decide_eq_true_iff, Octets.embeds_iff]
    rw [← octets_v6] at octets_eq mark_iff
    exact .groups colon spelled rfl octets_eq mark_iff
  · have nonempty : text ≠ [] := by
      intro empty
      rw [empty, read_nil] at accepted
      cases accepted
    obtain ⟨bits, readQuad, rfl⟩ := (read_eq_ok_iff_of_no_colon nonempty colon).mp accepted
    obtain ⟨octets, spelled, octets_eq⟩ :=
      (DottedQuad.read_eq_ok_iff kind.fewestGroups_pos).mp readQuad
    exact .quad colon spelled rfl octets_eq

theorem Spells.read_eq_ok {kind : LiteralKind} {text : List Char} {address : Address}
    (spelled : Spells kind text address) : read kind text = .ok address := by
  have nonempty := spelled.ne_nil
  cases spelled with
  | quad noColon quadSpelled family_eq octets_eq =>
      cases address with
      | v4 bits =>
          rw [octets_v4] at octets_eq
          have readQuad := (DottedQuad.read_eq_ok_iff kind.fewestGroups_pos).mpr
            ⟨_, quadSpelled, octets_eq⟩
          exact (read_eq_ok_iff_of_no_colon nonempty noColon).mpr ⟨bits, readQuad, rfl⟩
      | v6 bits mark => cases family_eq
  | @groups words dotted colon groupsSpelled family_eq octets_eq mark_iff =>
      cases address with
      | v4 bits => cases family_eq
      | v6 bits mark =>
          rw [octets_v6] at octets_eq mark_iff
          have readGroups := ColonHex.read_eq_ok_iff.mpr ⟨_, groupsSpelled, octets_eq⟩
          have mark_eq : (dotted || decide (IsEmbedding bits.toNat)) = mark := by
            rw [Bool.eq_iff_iff, Bool.or_eq_true, decide_eq_true_iff, ← Octets.embeds_iff]
            exact mark_iff.symm
          refine (read_eq_ok_iff_of_colon colon).mpr ⟨bits, dotted, readGroups, ?_⟩
          rw [mark_eq]

example : read .host "1:::2".toList = .error .strayColon := by decide

end Address

end Netblock
