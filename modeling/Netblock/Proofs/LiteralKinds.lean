import Netblock.Proofs.NetworkGrammar
/-!
# Host literals and network literals

The two kinds of literals differ in shortened quads only. Any other text fails as an interface and
as a network for the same reason, or gives both of them the same address.
-/

set_option autoImplicit false

namespace Netblock

open Netblock.Text

/-- The text before the first slash, without the blanks around it. -/
def hostText (literal : List Char) : List Char :=
  trim (literal.takeWhile (· != '/'))

theorem HasSides.hostText_eq {literal host : List Char} {prefixText? : Option (List Char)}
    (sides : HasSides literal host prefixText?) : hostText literal = host := by
  have passed : ∀ text : List Char, '/' ∉ text → ∀ c ∈ text, (c != '/') = true := by
    intro text noSlash c member
    rw [bne_iff_ne]
    exact ne_of_mem_of_not_mem member noSlash
  unfold hostText
  cases sides with
  | whole noSlash => rw [List.takeWhile_eq_self_iff.mpr (passed literal noSlash)]
  | @cut before after literal_eq noSlashBefore _ =>
      have stopped : ('/' :: after).takeWhile (· != '/') = [] := rfl
      rw [literal_eq, List.takeWhile_append_of_pos (passed before noSlashBefore), stopped,
        List.append_nil]

/-- With four groups or more it does not matter how few there may be. -/
theorem Text.DottedQuad.read_four_eq {text : List Char}
    (enough : 4 ≤ (text.splitOn '.').length) : read 4 text = read 1 text := by
  unfold read
  dsimp only
  by_cases atMostFour : (text.splitOn '.').length ≤ 4
  · rw [if_pos ⟨enough, atMostFour⟩, if_pos ⟨by omega, atMostFour⟩]
  · rw [if_neg fun counted => atMostFour counted.2, if_neg fun counted => atMostFour counted.2]

theorem Address.read_host_eq {host : List Char} (notShort : ¬ IsShortQuad host) :
    read .host host = read .network host := by
  unfold read
  split
  · rfl
  · next nonempty =>
      split
      · rfl
      · next noColon =>
          have enough : 4 ≤ (host.splitOn '.').length := by
            by_contra few
            exact notShort ⟨nonempty, noColon, by omega⟩
          exact congrArg (· >>= _) (DottedQuad.read_four_eq enough)

/-- What an interface literal and the network literal of the same text have in common. -/
structure LiteralsAgree (literal : String) : Prop where
  error : ∀ error, Interface.parse literal = .error error → Network.parse literal = .error error
  withSlash : ∀ interface, Interface.parse literal = .ok interface → '/' ∈ literal.toList →
    Network.parse literal =
      if interface.address ≈ interface.network.base then
        .ok ⟨interface.address, interface.prefixLen⟩
      else
        .error (.hostBits (.ofList (trim literal.toList)))
  withoutSlash : ∀ interface, Interface.parse literal = .ok interface → '/' ∉ literal.toList →
    interface.prefixLen = interface.address.width ∧
      ∃ network, Network.parse literal = .ok network ∧ network.base = interface.address ∧
        network.prefixLen ≤ interface.prefixLen

section

variable {literal : String}

theorem Interface.equiv_base_network_iff {interface : Interface} :
    interface.address ≈ interface.network.base ↔
      interface.address.IsAligned interface.prefixLen := by
  rw [← Address.truncate_equiv_iff]
  exact ⟨Setoid.symm, Setoid.symm⟩

theorem Network.parse_eq_error_of_interface (notShort : ¬ IsShortQuad (hostText literal.toList))
    {error : Error} (refused : Interface.parse literal = .error error) :
    parse literal = .error error := by
  -- An interface fails by its slashes, by its address or by its prefix length, which come first
  -- in a network as well.
  rcases Nat.lt_or_ge (literal.toList.count '/') 2 with few | several
  · obtain ⟨host, prefixText?, sides⟩ := exists_hasSides few
    rw [sides.hostText_eq] at notShort
    rw [Interface.parse_eq_of_sides sides, Address.read_host_eq notShort, bind_eq_error_iff]
      at refused
    rcases refused with malformed | ⟨address, accepted, continued⟩
    · obtain ⟨reason, found, rfl⟩ := mapError_eq_error_iff.mp malformed
      exact parse_eq_malformed sides found
    · have found := mapError_eq_ok_iff.mp accepted
      rcases bind_eq_error_iff.mp continued with badLength | ⟨_, _, finished⟩
      · cases prefixText? with
        | none => cases badLength
        | some text => exact parse_eq_of_refused sides found badLength
      · cases finished
  · rw [Interface.parse_eq_tooManySlashes several] at refused
    rw [parse_eq_tooManySlashes several]
    cases refused
    rfl

theorem Network.parse_eq_of_interface_of_slash
    (notShort : ¬ IsShortQuad (hostText literal.toList)) {interface : Interface}
    (parsed : Interface.parse literal = .ok interface) (slash : '/' ∈ literal.toList) :
    parse literal =
      if interface.address ≈ interface.network.base then
        .ok ⟨interface.address, interface.prefixLen⟩
      else
        .error (.hostBits (.ofList (trim literal.toList))) := by
  obtain ⟨host, prefixText?, sides, accepted, given⟩ := Interface.exists_sides_of_parse parsed
  rw [sides.hostText_eq] at notShort
  rw [Address.read_host_eq notShort] at accepted
  cases prefixText? with
  | none =>
      cases sides with
      | whole noSlash => exact absurd slash noSlash
  | some text =>
      rw [parse_eq_of_given sides accepted given]
      exact if_congr Interface.equiv_base_network_iff.symm rfl rfl

theorem Network.exists_parse_eq_of_interface_of_no_slash
    (notShort : ¬ IsShortQuad (hostText literal.toList)) {interface : Interface}
    (parsed : Interface.parse literal = .ok interface) (noSlash : '/' ∉ literal.toList) :
    interface.prefixLen = interface.address.width ∧
      ∃ network, parse literal = .ok network ∧ network.base = interface.address ∧
        network.prefixLen ≤ interface.prefixLen := by
  obtain ⟨host, prefixText?, sides, accepted, given⟩ := Interface.exists_sides_of_parse parsed
  rw [sides.hostText_eq] at notShort
  rw [Address.read_host_eq notShort] at accepted
  cases prefixText? with
  | none =>
      have full : interface.address.width = interface.prefixLen := Except.ok.inj given
      have found := parse_eq_of_given sides accepted rfl
      rw [if_pos (isAligned_impliedPrefixLen _)] at found
      exact ⟨full.symm, _, found, rfl, full ▸ impliedPrefixLen_le _⟩
  | some text =>
      cases sides with
      | cut literal_eq _ _ => exact absurd (by simp [literal_eq]) noSlash

end

/-- Away from shortened quads both readers agree on what is wrong and on what is right. -/
theorem literalsAgree {literal : String} (notShort : ¬ IsShortQuad (hostText literal.toList)) :
    LiteralsAgree literal where
  error := fun _ refused => Network.parse_eq_error_of_interface notShort refused
  withSlash := fun _ parsed slash => Network.parse_eq_of_interface_of_slash notShort parsed slash
  withoutSlash := fun _ parsed noSlash =>
    Network.exists_parse_eq_of_interface_of_no_slash notShort parsed noSlash

/-- Host bits are refused in a network alone, a mapped address has its mark in both, a host without
a prefix length becomes the network of its class, and both refuse a fifth group. -/
theorem literalsAgree_mapped :
    (¬ IsShortQuad (hostText "::ffff:10.1.0.0 / 104 ".toList) ∧
      Network.parse "::ffff:10.1.0.0 / 104 " = .error (.hostBits "::ffff:10.1.0.0 / 104")) ∧
    (¬ IsShortQuad (hostText "::ffff:10.0.0.0/0104".toList) ∧
      Network.parse "::ffff:10.0.0.0/0104" = .ok ⟨.v6 0xFFFF0A000000 true, 104⟩) ∧
    (¬ IsShortQuad (hostText "10.1.0.0 ".toList) ∧
      ∃ network, Network.parse "10.1.0.0 " = .ok network ∧ network.base = .v4 0x0A010000 ∧
        network.prefixLen ≤ 32) ∧
    (¬ IsShortQuad (hostText "10.0.0.0.0/8".toList) ∧
      Network.parse "10.0.0.0.0/8" = .error (.malformed "10.0.0.0.0/8" .quadGroupCount)) := by
  have occupied : ¬ IsShortQuad (hostText "::ffff:10.1.0.0 / 104 ".toList) := by decide
  have cleared : ¬ IsShortQuad (hostText "::ffff:10.0.0.0/0104".toList) := by decide
  have bare : ¬ IsShortQuad (hostText "10.1.0.0 ".toList) := by decide
  have longer : ¬ IsShortQuad (hostText "10.0.0.0.0/8".toList) := by decide
  have occupiedParsed : Interface.parse "::ffff:10.1.0.0 / 104 " =
      .ok ⟨.v6 0xFFFF0A010000 true, 104⟩ := by decide
  have clearedParsed : Interface.parse "::ffff:10.0.0.0/0104" =
      .ok ⟨.v6 0xFFFF0A000000 true, 104⟩ := by decide
  have bareParsed : Interface.parse "10.1.0.0 " = .ok ⟨.v4 0x0A010000, 32⟩ := by decide
  have longerRefused : Interface.parse "10.0.0.0.0/8" =
      .error (.malformed "10.0.0.0.0/8" .quadGroupCount) := by decide
  refine ⟨⟨occupied, ?_⟩, ⟨cleared, ?_⟩, ⟨bare, ?_⟩, longer, ?_⟩
  · exact (literalsAgree occupied).withSlash _ occupiedParsed (by decide)
  · exact (literalsAgree cleared).withSlash _ clearedParsed (by decide)
  · exact ((literalsAgree bare).withoutSlash _ bareParsed (by decide)).2
  · exact (literalsAgree longer).error _ longerRefused

end Netblock
