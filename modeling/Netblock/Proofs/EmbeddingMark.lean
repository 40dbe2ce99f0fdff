import Netblock.Address.Arithmetic
import Netblock.MacAddress.InterfaceId
import Netblock.Plain
import Netblock.Proofs.AddressGrammar
/-!
# Marks and the octets that embed IPv4

An address marks its embedding when it is marked in case its octets embed IPv4. Every operation
that computes new bits sees to that, and so does reading a text. What a mark shows is the
embedded address at the end of the text.
-/

set_option autoImplicit false

namespace Netblock

theorem Octets.Embeds.length_le {octets : List Octet} (embeds : Octets.Embeds octets) :
    13 ≤ octets.length := by
  obtain ⟨_, _, _, rfl, _⟩ := embeds
  simp

namespace Address

theorem length_octets_v4 (bits : BitVec 32) : (v4 bits).octets.length = 4 :=
  Octets.length_ofNat _ _

theorem embeds_octets_iff {address : Address} :
    Octets.Embeds address.octets ↔ address.family = .v6 ∧ IsEmbedding address.toNat := by
  cases address with
  | v4 bits =>
      constructor
      · intro embeds
        have long := embeds.length_le
        rw [length_octets_v4] at long
        omega
      · intro embedding
        cases embedding.1
  | v6 bits mark =>
      rw [octets_v6, Octets.embeds_iff]
      exact ⟨fun embedding => ⟨rfl, embedding⟩, And.right⟩

/-- The address is marked if its octets embed IPv4. It may be marked without that. -/
def MarksEmbedding (address : Address) : Prop :=
  Octets.Embeds address.octets → address.mark = true

theorem mark_withValue_iff {address : Address} {value : Nat} :
    (address.withValue value).mark = true ↔
      address.mark = true ∨ Octets.Embeds (address.withValue value).octets := by
  rw [mark_withValue, Bool.or_eq_true, decide_eq_true_iff, embeds_octets_iff, family_withValue]

/-- Any operation on values sets the mark that the new bits call for. -/
theorem marksEmbedding_withValue (address : Address) (value : Nat) :
    (address.withValue value).MarksEmbedding :=
  fun embeds => mark_withValue_iff.mpr (.inr embeds)

theorem marksEmbedding_v4 (bits : BitVec 32) : (v4 bits).MarksEmbedding := by
  intro embeds
  cases (embeds_octets_iff.mp embeds).1

theorem marksEmbedding_ofV6 (bits : BitVec 128) : (ofV6 bits).MarksEmbedding := by
  intro embeds
  exact decide_eq_true (embeds_octets_iff.mp embeds).2

theorem marksEmbedding_zero (family : Family) : (zero family).MarksEmbedding := by
  intro embeds
  have embedding := (embeds_octets_iff.mp embeds).2
  rw [toNat_zero] at embedding
  exact absurd embedding (by decide)

theorem marksEmbedding_withMark_true (address : Address) :
    (address.withMark true).MarksEmbedding := by
  cases address with
  | v4 bits => exact marksEmbedding_v4 bits
  | v6 bits mark => exact fun _ => rfl

theorem marksEmbedding_toAddress (plain : PlainAddress) : plain.toAddress.MarksEmbedding := by
  cases plain with
  | v4 bits => exact marksEmbedding_v4 bits
  | v6 bits => exact marksEmbedding_ofV6 bits

theorem marksEmbedding_of_ofOctets {octets : List Octet} {address : Address}
    (accepted : ofOctets octets = .ok address) : address.MarksEmbedding := by
  unfold ofOctets ofOctets? at accepted
  split at accepted
  · next found =>
      cases accepted
      split at found
      · cases found
        exact marksEmbedding_v4 _
      · cases found
        exact marksEmbedding_ofV6 _
      · cases found
  · cases accepted

theorem marksEmbedding_of_ofNat {family : Family} {value : Nat} {address : Address}
    (accepted : ofNat family value = .ok address) : address.MarksEmbedding := by
  unfold ofNat at accepted
  split at accepted
  · cases accepted
    exact marksEmbedding_withValue _ _
  · cases accepted

theorem marksEmbedding_of_ofInt {family : Family} {value : Int} {address : Address}
    (accepted : ofInt family value = .ok address) : address.MarksEmbedding := by
  cases value with
  | ofNat value => exact marksEmbedding_of_ofNat accepted
  | negSucc value => cases accepted

theorem marksEmbedding_of_add {address shifted : Address} {offset : Int}
    (accepted : address.add offset = .ok shifted) : shifted.MarksEmbedding := by
  unfold add at accepted
  dsimp only at accepted
  split at accepted
  · cases accepted
    exact marksEmbedding_withValue _ _
  · cases accepted

theorem marksEmbedding_of_next? {address next : Address} (found : address.next? = some next) :
    next.MarksEmbedding := by
  unfold next? at found
  split at found
  · cases found
    exact marksEmbedding_withValue _ _
  · cases found

theorem marksEmbedding_of_previous? {address previous : Address}
    (found : address.previous? = some previous) : previous.MarksEmbedding := by
  unfold previous? at found
  split at found
  · cases found
  · cases found
    exact marksEmbedding_withValue _ _

theorem marksEmbedding_of_solicitedNode? {address group : Address}
    (found : address.solicitedNode? = some group) : group.MarksEmbedding := by
  cases address with
  | v4 bits => cases found
  | v6 bits mark =>
      unfold solicitedNode? at found
      dsimp only at found
      split at found
      · cases found
      · cases found
        exact marksEmbedding_ofV6 _

theorem embeddedV4?_eq_some_iff {address embedded : Address} :
    address.embeddedV4? = some embedded ↔
      ∃ bits mark, address = .v6 bits mark ∧ IsEmbedding bits.toNat ∧
        embedded = .v4 (bits.setWidth 32) := by
  cases address with
  | v4 bits =>
      constructor
      · nofun
      · nofun
  | v6 bits mark =>
      unfold embeddedV4?
      by_cases embedding : IsEmbedding bits.toNat
      · simp [embedding, eq_comm]
      · simp [embedding]

theorem MarksEmbedding.mark_of_embeddedV4? {address embedded : Address}
    (marks : address.MarksEmbedding) (found : address.embeddedV4? = some embedded) :
    address.mark = true := by
  obtain ⟨bits, mark, rfl, embedding, _⟩ := embeddedV4?_eq_some_iff.mp found
  exact marks (embeds_octets_iff.mpr ⟨rfl, embedding⟩)

theorem Spells.marksEmbedding {kind : LiteralKind} {text : List Char} {address : Address}
    (spelled : Spells kind text address) : address.MarksEmbedding := by
  intro embeds
  cases spelled with
  | quad _ _ family_eq _ =>
      rw [(embeds_octets_iff.mp embeds).1] at family_eq
      cases family_eq
  | groups _ _ _ _ mark_iff => exact mark_iff.mpr (.inr embeds)

theorem marksEmbedding_of_parse {kind : LiteralKind} {literal : String} {address : Address}
    (accepted : parse kind literal = .ok address) : address.MarksEmbedding :=
  (spells_of_read_eq_ok (parse_eq_ok_iff.mp accepted)).marksEmbedding

/-!
### What a mark shows
-/

theorem intercalate_concat {separator : Char} {groups : List (List Char)} (last : List Char)
    (nonempty : groups ≠ []) :
    [separator].intercalate (groups ++ [last]) =
      [separator].intercalate groups ++ separator :: last := by
  induction groups with
  | nil => exact absurd rfl nonempty
  | cons first rest ih =>
      cases rest with
      | nil => simp [List.intercalate_cons_cons]
      | cons next rest =>
          have joined := ih (List.cons_ne_nil next rest)
          rw [List.cons_append, List.cons_append, List.intercalate_cons_cons, ← List.cons_append,
            joined, List.intercalate_cons_cons]
          simp only [List.append_assoc]

/-- A marked address that embeds IPv4 is written as six hex groups and the embedded address. -/
theorem text_eq_of_embeddedV4? {address embedded : Address} (marked : address.mark = true)
    (found : address.embeddedV4? = some embedded) :
    ∃ groups : List (List Char), groups.length = 6 ∧
      (∀ group ∈ groups, group.length = 4 ∧ group.all Text.Hex.isDigit = true) ∧
      address.text = String.ofList ([':'].intercalate groups) ++ ":" ++ embedded.text := by
  obtain ⟨bits, mark, rfl, _, rfl⟩ := embeddedV4?_eq_some_iff.mp found
  have mark_eq : mark = true := marked
  subst mark_eq
  let groups := (Positional.encode 65536 6 (bits.toNat / 2 ^ 32)).map (Text.Hex.write 4)
  have length_eq : groups.length = 6 := by
    rw [List.length_map, Positional.length_encode]
  have nonempty : groups ≠ [] := List.ne_nil_of_length_eq_add_one length_eq
  have written : (v6 bits true).write =
      [':'].intercalate groups ++ ':' :: (v4 (bits.setWidth 32)).write :=
    intercalate_concat _ nonempty
  refine ⟨groups, length_eq, ?_, ?_⟩
  · intro group member
    obtain ⟨word, _, rfl⟩ := List.mem_map.mp member
    exact ⟨Text.Hex.length_write 4 word, Text.Hex.all_isDigit_write 4 word⟩
  · rw [text, written, List.append_cons, String.ofList_append, String.ofList_append]
    rfl

/-!
### Addresses that come back from their text
-/

theorem octets_eq_of_equiv {left right : Address} (same : left ≈ right) :
    left.octets = right.octets := by
  obtain ⟨sameFamily, sameValue⟩ := same
  cases left with
  | v4 _ =>
      cases right with
      | v4 _ => exact congrArg (Octets.ofNat 4) sameValue
      | v6 _ _ => cases sameFamily
  | v6 _ _ =>
      cases right with
      | v4 _ => cases sameFamily
      | v6 _ _ => exact congrArg (Octets.ofNat 16) sameValue

/-- An address comes back with its own bits, and with a mark where it had one or where its octets
embed IPv4. -/
structure IsReadBack (original back : Address) : Prop where
  equiv : back ≈ original
  mark_iff : back.mark = true ↔ original.mark = true ∨ Octets.Embeds original.octets

theorem isReadBack_withValue (original : Address) :
    original.IsReadBack (original.withValue original.toNat) := by
  have same : original.withValue original.toNat ≈ original :=
    ⟨family_withValue _ _, toNat_withValue original.toNat_lt⟩
  refine ⟨same, ?_⟩
  rw [mark_withValue_iff, octets_eq_of_equiv same]

/-- Nothing is lost for an address that is marked where its octets call for it. -/
theorem IsReadBack.eq {original back : Address} (readBack : original.IsReadBack back)
    (marked : original.MarksEmbedding) : back = original := by
  refine Address.ext readBack.equiv.1 readBack.equiv.2 ?_
  rw [Bool.eq_iff_iff, readBack.mark_iff]
  exact or_iff_left_of_imp marked

end Address

end Netblock
