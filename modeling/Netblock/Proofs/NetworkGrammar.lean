import Netblock.Proofs.ClassfulPrefix
import Netblock.Proofs.LiteralSides
/-!
# The grammar of network literals

What a network literal may look like, which network it stands for and what is wrong with any other
text, all told without a reader. A quad with groups left out stands for the same network as the one
with zeros in their place.
-/

set_option autoImplicit false

namespace Netblock

namespace Text

/-!
### Shortened quads
-/

/-- An IPv4 address text of at most three groups. -/
structure IsShortQuad (host : List Char) : Prop where
  nonempty : host ≠ []
  noColon : ':' ∉ host
  fewGroups : (host.splitOn '.').length ≤ 3

instance (host : List Char) : Decidable (IsShortQuad host) :=
  decidable_of_iff (host ≠ [] ∧ ':' ∉ host ∧ (host.splitOn '.').length ≤ 3)
    ⟨fun short => ⟨short.1, short.2.1, short.2.2⟩,
      fun short => ⟨short.nonempty, short.noColon, short.fewGroups⟩⟩

/-- A zero for each of the four groups that is left out. -/
def padQuad (host : List Char) : List Char :=
  host ++ (List.replicate (4 - (host.splitOn '.').length) ['.', '0']).flatten

theorem splitOn_append_zeros (host : List Char) (count : Nat) :
    (host ++ (List.replicate count ['.', '0']).flatten).splitOn '.' =
      host.splitOn '.' ++ List.replicate count ['0'] := by
  induction count generalizing host with
  | zero => simp
  | succ count ih =>
      have zeros := ih ['0']
      rw [List.replicate_succ, List.flatten_cons, List.cons_append,
        List.splitOn_append_cons_self, zeros]
      rfl

theorem mapM_readGroup_zeros (count : Nat) :
    (List.replicate count ['0']).mapM DottedQuad.readGroup = .ok (List.replicate count 0) := by
  induction count with
  | zero => rfl
  | succ count ih =>
      rw [List.replicate_succ, List.mapM_cons, ih]
      rfl

theorem DottedQuad.read_padQuad {host : List Char} (few : (host.splitOn '.').length ≤ 3) :
    DottedQuad.read 1 (padQuad host) = DottedQuad.read 1 host := by
  have positive : 1 ≤ (host.splitOn '.').length :=
    List.length_pos_iff.mpr (List.splitOn_ne_nil '.' host)
  have filled : (host.splitOn '.' ++
      List.replicate (4 - (host.splitOn '.').length) ['0']).length = 4 := by
    rw [List.length_append, List.length_replicate]
    omega
  unfold DottedQuad.read padQuad
  rw [splitOn_append_zeros]
  dsimp only
  rw [filled, if_pos ⟨by decide, by decide⟩, if_pos ⟨positive, by omega⟩, List.mapM_append,
    mapM_readGroup_zeros]
  cases (host.splitOn '.').mapM DottedQuad.readGroup with
  | error reason => rfl
  | ok octets =>
      have noneMissing : octets ++ List.replicate (4 - (host.splitOn '.').length) 0 ++
          List.replicate (4 - 4) 0 =
            octets ++ List.replicate (4 - (host.splitOn '.').length) 0 := by simp
      exact congrArg (fun all => Except.ok (BitVec.ofNat 32 (Positional.decode 256 all)))
        noneMissing

/-- Zeros in place of the groups that are left out change nothing. -/
theorem IsShortQuad.read_padQuad {host : List Char} (short : IsShortQuad host) :
    Address.read .network (padQuad host) = Address.read .network host := by
  have nonempty : padQuad host ≠ [] := List.append_ne_nil_of_left_ne_nil short.nonempty _
  have noColon : ':' ∉ padQuad host := by
    intro member
    rcases List.mem_append.mp member with inHost | inZeros
    · exact short.noColon inHost
    · obtain ⟨zero, replicated, inZero⟩ := List.mem_flatten.mp inZeros
      rw [List.eq_of_mem_replicate replicated] at inZero
      exact absurd inZero (by decide)
  unfold Address.read
  rw [if_neg nonempty, if_neg noColon, if_neg short.nonempty, if_neg short.noColon]
  exact congrArg (· >>= _) (DottedQuad.read_padQuad short.fewGroups)

end Text

open Netblock.Text

namespace Network

/-- What becomes of a literal. It is cut at its slash, its address is read before its prefix
length, and the host bits are looked at last. -/
inductive Reads (literal : String) : Except Error Network → Prop where
  | slashes (several : 2 ≤ literal.toList.count '/') :
      Reads literal (.error (.malformed literal .tooManySlashes))
  | badAddress {host : List Char} {prefixText? : Option (List Char)} {reason : Malformation}
      (sides : HasSides literal.toList host prefixText?)
      (refused :
        Address.parse .network (.ofList host) = .error (.malformed (.ofList host) reason)) :
      Reads literal (.error (.malformed literal reason))
  | badPrefixLen {host text : List Char} {base : Address}
      (sides : HasSides literal.toList host (some text))
      (accepted : Address.parse .network (.ofList host) = .ok base)
      (unspelled : ∀ prefixLen, ¬ SpellsPrefixLen base.width text prefixLen) :
      Reads literal (.error (.prefixLen (.ofList (trim literal.toList)) (.ofList text)))
  | hostBits {host text : List Char} {base : Address} {prefixLen : Nat}
      (sides : HasSides literal.toList host (some text))
      (accepted : Address.parse .network (.ofList host) = .ok base)
      (spelled : SpellsPrefixLen base.width text prefixLen)
      (unaligned : ¬ base.IsAligned prefixLen) :
      Reads literal (.error (.hostBits (.ofList (trim literal.toList))))
  | given {host text : List Char} {base : Address} {prefixLen : Nat}
      (sides : HasSides literal.toList host (some text))
      (accepted : Address.parse .network (.ofList host) = .ok base)
      (spelled : SpellsPrefixLen base.width text prefixLen)
      (aligned : base.IsAligned prefixLen) :
      Reads literal (.ok ⟨base, prefixLen⟩)
  | implied {host : List Char} {base : Address} {prefixLen : Nat}
      (sides : HasSides literal.toList host none)
      (accepted : Address.parse .network (.ofList host) = .ok base)
      (implied : IsImpliedPrefixLen base prefixLen) :
      Reads literal (.ok ⟨base, prefixLen⟩)

/-- No literal is left without an outcome. -/
theorem reads_parse (literal : String) : Reads literal (parse literal) := by
  rcases Nat.lt_or_ge (literal.toList.count '/') 2 with few | several
  · obtain ⟨host, prefixText?, sides⟩ := exists_hasSides few
    cases found : Address.read .network host with
    | error reason =>
        rw [parse_eq_malformed sides found]
        exact .badAddress sides (sides.parse_eq_malformed_iff.mpr found)
    | ok base =>
        have accepted := sides.parse_eq_ok_iff.mpr found
        cases prefixText? with
        | none =>
            rw [parse_eq_of_given sides found rfl, if_pos (isAligned_impliedPrefixLen base)]
            exact .implied sides accepted (isImpliedPrefixLen_iff.mpr rfl)
        | some text =>
            by_cases spells : ∃ prefixLen, SpellsPrefixLen base.width text prefixLen
            · obtain ⟨prefixLen, spelled⟩ := spells
              rw [parse_eq_of_given sides found (readPrefixLen_eq_ok_iff.mpr spelled)]
              split
              · next aligned => exact .given sides accepted spelled aligned
              · next unaligned => exact .hostBits sides accepted spelled unaligned
            · have unspelled := not_exists.mp spells
              rw [parse_eq_of_refused sides found (readPrefixLen_eq_refused unspelled)]
              exact .badPrefixLen sides accepted unspelled
  · rw [parse_eq_tooManySlashes several]
    exact .slashes several

theorem Reads.parse_eq {literal : String} {outcome : Except Error Network}
    (reads : Reads literal outcome) : parse literal = outcome := by
  cases reads with
  | slashes several => exact parse_eq_tooManySlashes several
  | badAddress sides refused =>
      exact parse_eq_malformed sides (sides.parse_eq_malformed_iff.mp refused)
  | badPrefixLen sides accepted unspelled =>
      have found := sides.parse_eq_ok_iff.mp accepted
      exact parse_eq_of_refused sides found (readPrefixLen_eq_refused unspelled)
  | hostBits sides accepted spelled unaligned =>
      have found := sides.parse_eq_ok_iff.mp accepted
      rw [parse_eq_of_given sides found (readPrefixLen_eq_ok_iff.mpr spelled), if_neg unaligned]
  | given sides accepted spelled aligned =>
      have found := sides.parse_eq_ok_iff.mp accepted
      rw [parse_eq_of_given sides found (readPrefixLen_eq_ok_iff.mpr spelled), if_pos aligned]
  | @implied host base prefixLen sides accepted implied =>
      have found := sides.parse_eq_ok_iff.mp accepted
      rw [parse_eq_of_given sides found rfl, if_pos (isAligned_impliedPrefixLen base),
        isImpliedPrefixLen_iff.mp implied]

/-- Only a prefix length that was written leaves host bits. -/
theorem Reads.mem_slash {literal shown : String}
    (reads : Reads literal (.error (.hostBits shown))) : '/' ∈ literal.toList := by
  cases reads with
  | hostBits sides _ _ _ =>
      cases sides with
      | cut literal_eq _ _ => simp [literal_eq]

/-- A literal without the groups that are zero stands for the same network. -/
theorem parse_eq_ok_iff_of_padded {literal padded : String} {host : List Char}
    {prefixText? : Option (List Char)} {network : Network} (short : IsShortQuad host)
    (sides : HasSides literal.toList host prefixText?)
    (paddedSides : HasSides padded.toList (padQuad host) prefixText?) :
    parse padded = .ok network ↔ parse literal = .ok network := by
  rw [parse_eq_ok_iff, parse_eq_ok_iff, sides.readSides_eq, paddedSides.readSides_eq,
    short.read_padQuad]
  simp only [givenPrefixLen_eq_ok_congr padded.toList literal.toList]

/-- A literal has the outcome that the grammar gives it and no other. The implied prefix length
never meets host bits, and groups that are left out count as zero. -/
theorem parse_eq_iff_reads (literal : String) :
    (∀ outcome, parse literal = outcome ↔ Reads literal outcome) ∧
    ('/' ∉ literal.toList → ∀ shown, parse literal ≠ .error (.hostBits shown)) ∧
    (∀ (padded : String) (host : List Char) (prefixText? : Option (List Char)),
      IsShortQuad host → HasSides literal.toList host prefixText? →
      HasSides padded.toList (padQuad host) prefixText? →
      ∀ network, parse padded = .ok network ↔ parse literal = .ok network) := by
  have outcomes : ∀ outcome, parse literal = outcome ↔ Reads literal outcome := by
    intro outcome
    constructor
    · intro parsed
      exact parsed ▸ reads_parse literal
    · exact Reads.parse_eq
  refine ⟨outcomes, ?_, ?_⟩
  · intro noSlash shown refused
    exact noSlash ((outcomes _).mp refused).mem_slash
  · intro padded host prefixText? short sides paddedSides network
    exact parse_eq_ok_iff_of_padded short sides paddedSides

/-- `172.16 / 0012`, with blanks and leading zeros, is `172.16.0.0/12`. -/
theorem parse_eq_iff_reads_shortened :
    IsShortQuad "172.16".toList ∧
      HasSides " 172.16 / 0012".toList "172.16".toList (some "0012".toList) ∧
      HasSides "172.16.0.0/0012".toList (padQuad "172.16".toList) (some "0012".toList) ∧
      Reads " 172.16 / 0012" (.ok ⟨.v4 0xAC100000, 12⟩) ∧
      parse "172.16.0.0/0012" = .ok ⟨.v4 0xAC100000, 12⟩ := by
  have short : IsShortQuad "172.16".toList := by decide
  have sides : HasSides " 172.16 / 0012".toList "172.16".toList (some "0012".toList) :=
    @HasSides.cut _ " 172.16 ".toList " 0012".toList rfl (by decide) (by decide)
  have paddedSides :
      HasSides "172.16.0.0/0012".toList (padQuad "172.16".toList) (some "0012".toList) :=
    @HasSides.cut _ "172.16.0.0".toList "0012".toList rfl (by decide) (by decide)
  have parsed : parse " 172.16 / 0012" = .ok ⟨.v4 0xAC100000, 12⟩ := by decide
  obtain ⟨outcomes, _, padding⟩ := parse_eq_iff_reads " 172.16 / 0012"
  refine ⟨short, sides, paddedSides, (outcomes _).mp parsed, ?_⟩
  exact (padding "172.16.0.0/0012" _ _ short sides paddedSides _).mpr parsed

end Network

end Netblock
