import Netblock.Interface
import Netblock.Proofs.Outcome
/-!
# Literals with a slash

Network and interface literals are read in stages: the two sides of the slash, the prefix length,
and for a network the host bits. What is accepted passed every stage, so it is valid.
-/

set_option autoImplicit false

namespace Netblock

/-- The prefix length after the slash, or the implied one of a literal without a slash. -/
def givenPrefixLen (literal : List Char) (width implied : Nat) :
    Option (List Char) → Except Error Nat
  | some text => readPrefixLen literal width text
  | none => .ok implied

theorem readPrefixLen_le {literal text : List Char} {width prefixLen : Nat}
    (accepted : readPrefixLen literal width text = .ok prefixLen) : prefixLen ≤ width := by
  unfold readPrefixLen at accepted
  split at accepted
  · split at accepted
    · next fits =>
        cases accepted
        exact fits
    · cases accepted
  · cases accepted

theorem givenPrefixLen_le {literal : List Char} {width implied prefixLen : Nat}
    {prefixText? : Option (List Char)} (impliedFits : implied ≤ width)
    (accepted : givenPrefixLen literal width implied prefixText? = .ok prefixLen) :
    prefixLen ≤ width := by
  cases prefixText? with
  | none =>
      cases accepted
      exact impliedFits
  | some text => exact readPrefixLen_le accepted

namespace Network

theorem parse_eq (literal : String) :
    parse literal = (do
      let (base, prefixText?) ← (readSides .network literal.toList).mapError (.malformed literal)
      let prefixLen ←
        givenPrefixLen literal.toList base.width (impliedPrefixLen base) prefixText?
      if base.IsAligned prefixLen then
        .ok ⟨base, prefixLen⟩
      else
        .error (.hostBits (String.ofList (Text.trim literal.toList)))) := by
  unfold parse
  congr
  funext sides
  obtain ⟨base, prefixText?⟩ := sides
  cases prefixText? with
  | none => rfl
  | some text => rfl

theorem impliedPrefixLen_le (address : Address) : impliedPrefixLen address ≤ address.width := by
  cases address with
  | v4 bits =>
      change classfulPrefixLen bits ≤ 32
      unfold classfulPrefixLen
      dsimp only
      split
      · decide
      · split
        · decide
        · split <;> decide
  | v6 bits mark => exact Nat.le_refl _

theorem parse_eq_ok_iff {literal : String} {network : Network} :
    parse literal = .ok network ↔
      ∃ prefixText?, readSides .network literal.toList = .ok (network.base, prefixText?) ∧
        givenPrefixLen literal.toList network.width (impliedPrefixLen network.base)
          prefixText? = .ok network.prefixLen ∧
        network.base.IsAligned network.prefixLen := by
  rw [parse_eq, bind_eq_ok_iff]
  constructor
  · intro accepted
    obtain ⟨⟨base, prefixText?⟩, sides, continued⟩ := accepted
    obtain ⟨prefixLen, given, checked⟩ := bind_eq_ok_iff.mp continued
    rw [mapError_eq_ok_iff] at sides
    split at checked
    · next aligned =>
        cases checked
        exact ⟨prefixText?, sides, given, aligned⟩
    · cases checked
  · intro stages
    obtain ⟨prefixText?, sides, given, aligned⟩ := stages
    refine ⟨_, mapError_eq_ok_iff.mpr sides, ?_⟩
    exact bind_eq_ok_iff.mpr ⟨network.prefixLen, given, if_pos aligned⟩

theorem parse_valid {literal : String} {network : Network}
    (accepted : parse literal = .ok network) : network.Valid := by
  obtain ⟨_, _, given, aligned⟩ := parse_eq_ok_iff.mp accepted
  exact ⟨givenPrefixLen_le (impliedPrefixLen_le network.base) given, aligned⟩

end Network

namespace Interface

theorem parse_eq (literal : String) :
    parse literal = (do
      let (address, prefixText?) ← (readSides .host literal.toList).mapError (.malformed literal)
      let prefixLen ← givenPrefixLen literal.toList address.width address.width prefixText?
      .ok ⟨address, prefixLen⟩) := by
  unfold parse
  congr
  funext sides
  obtain ⟨address, prefixText?⟩ := sides
  cases prefixText? with
  | none => rfl
  | some text => rfl

theorem parse_eq_ok_iff {literal : String} {interface : Interface} :
    parse literal = .ok interface ↔
      ∃ prefixText?, readSides .host literal.toList = .ok (interface.address, prefixText?) ∧
        givenPrefixLen literal.toList interface.address.width interface.address.width
          prefixText? = .ok interface.prefixLen := by
  rw [parse_eq, bind_eq_ok_iff]
  constructor
  · intro accepted
    obtain ⟨⟨address, prefixText?⟩, sides, continued⟩ := accepted
    obtain ⟨prefixLen, given, finished⟩ := bind_eq_ok_iff.mp continued
    cases finished
    exact ⟨prefixText?, mapError_eq_ok_iff.mp sides, given⟩
  · intro stages
    obtain ⟨prefixText?, sides, given⟩ := stages
    refine ⟨_, mapError_eq_ok_iff.mpr sides, ?_⟩
    exact bind_eq_ok_iff.mpr ⟨interface.prefixLen, given, rfl⟩

theorem parse_valid {literal : String} {interface : Interface}
    (accepted : parse literal = .ok interface) : interface.Valid := by
  obtain ⟨_, _, given⟩ := parse_eq_ok_iff.mp accepted
  exact givenPrefixLen_le (Nat.le_refl _) given

end Interface

end Netblock
