import Netblock.Proofs.RoundTrip
/-!
# Networks from an address and a prefix length

An address and a prefix length are given to a constructor, which insists on cleared host bits or
clears them, or they are put into an interface or into a literal. Each of these looks at the prefix
length and at the host bits by itself, and they agree on both.
-/

set_option autoImplicit false

namespace Netblock

open Netblock.Text

variable {address : Address} {prefixLen : Nat}

/-!
### What each way gives
-/

namespace Address

/-- The address and a prefix length, which is written out even if it is the full one. -/
def slashText (address : Address) (prefixLen : Nat) : String :=
  address.text ++ "/" ++ Decimal.text prefixLen

theorem toList_slashText (address : Address) (prefixLen : Nat) :
    (address.slashText prefixLen).toList = address.write ++ '/' :: Decimal.write prefixLen := by
  simp [slashText, Decimal.text]

theorem cidrText_eq_slashText (shorter : prefixLen < address.width) :
    address.cidrText prefixLen = address.slashText prefixLen := by
  apply String.toList_injective
  rw [toList_cidrText, toList_slashText, writeCidr, if_pos shorter]

theorem ofList_trim_slashText (address : Address) (prefixLen : Nat) :
    .ofList (trim (address.slashText prefixLen).toList) = address.slashText prefixLen := by
  apply String.toList_injective
  rw [String.toList_ofList, toList_slashText, trim_write_slash]

theorem hasSides_slashText (address : Address) (prefixLen : Nat) :
    HasSides (address.slashText prefixLen).toList address.write
      (some (Decimal.write prefixLen)) := by
  rw [toList_slashText]
  exact hasSides_write_slash address prefixLen

theorem isAligned_withValue_toNat :
    (address.withValue address.toNat).IsAligned prefixLen ↔ address.IsAligned prefixLen := by
  have same : address.withValue address.toNat ≈ address := address.isReadBack_withValue.equiv
  exact ⟨fun aligned => aligned.of_equiv same, fun aligned => aligned.of_equiv (Setoid.symm same)⟩

/-- A prefix of full length leaves no host bits. -/
theorem lt_width_of_not_isAligned (fits : prefixLen ≤ address.width)
    (unaligned : ¬ address.IsAligned prefixLen) : prefixLen < address.width := by
  refine Nat.lt_of_le_of_ne fits ?_
  rintro rfl
  exact unaligned address.isAligned_width

theorem checkPrefixLen_eq_of_lt (tooLong : address.width < prefixLen) :
    address.checkPrefixLen prefixLen =
      .error (.prefixLen address.text (Decimal.text prefixLen)) :=
  if_neg (Nat.not_le.mpr tooLong)

end Address

namespace Network

theorem parse_slashText_of_lt (tooLong : address.width < prefixLen) :
    parse (address.slashText prefixLen) =
      .error (.prefixLen (address.slashText prefixLen) (Decimal.text prefixLen)) := by
  have unspelled : ∀ other, ¬ SpellsPrefixLen (address.withValue address.toNat).width
      (Decimal.write prefixLen) other := by
    intro other spelled
    have fits := (Address.spellsPrefixLen_write_iff.mp spelled).2
    rw [Address.width_withValue] at fits
    omega
  have refused : readPrefixLen (address.slashText prefixLen).toList _ _ = _ :=
    readPrefixLen_eq_refused unspelled
  rw [Address.ofList_trim_slashText] at refused
  exact parse_eq_of_refused (address.hasSides_slashText prefixLen) (address.read_write .network)
    refused

theorem parse_slashText_of_le (fits : prefixLen ≤ address.width) :
    parse (address.slashText prefixLen) =
      if address.IsAligned prefixLen then
        .ok ⟨address.withValue address.toNat, prefixLen⟩
      else
        .error (.hostBits (address.slashText prefixLen)) := by
  have fitsRead : prefixLen ≤ (address.withValue address.toNat).width := by
    rwa [Address.width_withValue]
  rw [parse_eq_of_given (address.hasSides_slashText prefixLen) (address.read_write .network)
    (Address.readPrefixLen_write _ fitsRead), Address.ofList_trim_slashText]
  exact if_congr Address.isAligned_withValue_toNat rfl rfl

theorem ofBase_of_le (fits : prefixLen ≤ address.width) :
    ofBase address prefixLen =
      if address.IsAligned prefixLen then
        .ok ⟨address, prefixLen⟩
      else
        .error (.hostBits (address.slashText prefixLen)) := by
  unfold ofBase
  rw [Address.checkPrefixLen_eq_ok_iff.mpr fits]
  split
  · rfl
  · next unaligned =>
      have shorter := Address.lt_width_of_not_isAligned fits unaligned
      rw [Address.cidrText_eq_slashText shorter]
      rfl

/-!
### Agreement
-/

/-- An outcome that is the network around an address if its base is the address, and that else
tells of host bits. -/
structure InsistsOnBase (address : Address) (prefixLen : Nat) (covered : Network)
    (outcome : Except Error Network) : Prop where
  ok_iff : (∃ network, outcome = .ok network) ↔ covered.base ≈ address
  equiv : ∀ network, outcome = .ok network → network ≈ covered
  error : ∀ error, outcome = .error error → error = .hostBits (address.slashText prefixLen)

theorem InsistsOnBase.of_isAligned {base : Address} (same : base ≈ address) :
    InsistsOnBase address prefixLen ⟨address.truncate prefixLen, prefixLen⟩
      (if address.IsAligned prefixLen then
        .ok ⟨base, prefixLen⟩
      else
        .error (.hostBits (address.slashText prefixLen))) := by
  by_cases aligned : address.IsAligned prefixLen
  · have covered : address.truncate prefixLen ≈ address := Address.truncate_equiv_iff.mpr aligned
    rw [if_pos aligned]
    refine ⟨⟨fun _ => covered, fun _ => ⟨_, rfl⟩⟩, ?_, nofun⟩
    intro network built
    cases built
    exact ⟨Setoid.trans same (Setoid.symm covered), rfl⟩
  · have moved : ¬ address.truncate prefixLen ≈ address := mt Address.truncate_equiv_iff.mp aligned
    rw [if_neg aligned]
    refine ⟨⟨nofun, fun covered => absurd covered moved⟩, nofun, ?_⟩
    intro error refused
    cases refused
    rfl

end Network

/-- Every way to a network refuses the prefix length. -/
structure RefusePrefixLen (address : Address) (prefixLen : Nat) : Prop where
  ofBase : Network.ofBase address prefixLen =
    .error (.prefixLen address.text (Decimal.text prefixLen))
  covering : Network.covering address prefixLen =
    .error (.prefixLen address.text (Decimal.text prefixLen))
  interface : Interface.ofAddress address prefixLen =
    .error (.prefixLen address.text (Decimal.text prefixLen))
  literal : Network.parse (address.slashText prefixLen) =
    .error (.prefixLen (address.slashText prefixLen) (Decimal.text prefixLen))

/-- Every way leads to the network around the address or tells of host bits. -/
structure LeadTo (address : Address) (prefixLen : Nat) (covered : Network) : Prop where
  covering : Network.covering address prefixLen = .ok covered
  interface : ∃ interface, Interface.ofAddress address prefixLen = .ok interface ∧
    covered ≈ interface.network
  ofBase : Network.InsistsOnBase address prefixLen covered (Network.ofBase address prefixLen)
  literal : Network.InsistsOnBase address prefixLen covered
    (Network.parse (address.slashText prefixLen))

theorem refusePrefixLen (tooLong : address.width < prefixLen) :
    RefusePrefixLen address prefixLen := by
  have refused := Address.checkPrefixLen_eq_of_lt tooLong
  refine ⟨?_, ?_, ?_, Network.parse_slashText_of_lt tooLong⟩
  · rw [Network.ofBase, refused]
    rfl
  · rw [Network.covering, refused]
    rfl
  · rw [Interface.ofAddress, refused]
    rfl

theorem leadTo_truncate (fits : prefixLen ≤ address.width) :
    LeadTo address prefixLen ⟨address.truncate prefixLen, prefixLen⟩ where
  covering := Network.covering_eq_ok_iff.mpr ⟨fits, rfl⟩
  interface := by
    refine ⟨⟨address, prefixLen⟩, ?_, Setoid.refl _⟩
    rw [Interface.ofAddress, Address.checkPrefixLen_eq_ok_iff.mpr fits]
    rfl
  ofBase := by
    rw [Network.ofBase_of_le fits]
    exact .of_isAligned (Setoid.refl address)
  literal := by
    rw [Network.parse_slashText_of_le fits]
    exact .of_isAligned address.isReadBack_withValue.equiv

/-- Whichever way an address and a prefix length are given, they make the same network or fail for
the same reason. -/
theorem constructionsAgree (address : Address) (prefixLen : Nat) :
    (address.width < prefixLen → RefusePrefixLen address prefixLen) ∧
      (prefixLen ≤ address.width → ∃ covered, LeadTo address prefixLen covered) :=
  ⟨refusePrefixLen, fun fits => ⟨_, leadTo_truncate fits⟩⟩

/-- `10.0.0.0` has no prefix of 33 bits. The network `::ffff:10.0.0.0/104` lies around its base
and around `::ffff:10.1.0.0`, and is marked though both were given without a mark. -/
theorem constructionsAgree_mapped :
    RefusePrefixLen (.v4 0x0A000000) 33 ∧
      (∃ covered, LeadTo (.v6 0xFFFF0A010000 false) 104 covered ∧
        covered = ⟨.v6 0xFFFF0A000000 true, 104⟩ ∧
        ∀ network, Network.parse "0000:0000:0000:0000:0000:ffff:0a01:0000/104" ≠ .ok network) ∧
      (∃ covered, LeadTo (.v6 0xFFFF0A000000 false) 104 covered ∧
        ∃ network, Network.parse "0000:0000:0000:0000:0000:ffff:0a00:0000/104" = .ok network ∧
          network ≈ covered) := by
  refine ⟨(constructionsAgree (.v4 0x0A000000) 33).1 (by decide), ?_, ?_⟩
  · obtain ⟨covered, led⟩ :=
      (constructionsAgree (.v6 0xFFFF0A010000 false) 104).2 (by decide)
    obtain ⟨_, covered_eq⟩ := Network.covering_eq_ok_iff.mp led.covering
    refine ⟨covered, led, covered_eq.trans (by decide), ?_⟩
    have shown : Address.slashText (.v6 0xFFFF0A010000 false) 104 =
        "0000:0000:0000:0000:0000:ffff:0a01:0000/104" := by decide
    intro network read
    rw [← shown] at read
    have same := led.literal.ok_iff.mp ⟨network, read⟩
    rw [covered_eq] at same
    exact absurd same (by decide)
  · obtain ⟨covered, led⟩ :=
      (constructionsAgree (.v6 0xFFFF0A000000 false) 104).2 (by decide)
    obtain ⟨_, covered_eq⟩ := Network.covering_eq_ok_iff.mp led.covering
    have shown : Address.slashText (.v6 0xFFFF0A000000 false) 104 =
        "0000:0000:0000:0000:0000:ffff:0a00:0000/104" := by decide
    have same : covered.base ≈ .v6 0xFFFF0A000000 false := by
      rw [covered_eq]
      decide
    obtain ⟨network, read⟩ := led.literal.ok_iff.mpr same
    have found := led.literal.equiv network read
    rw [shown] at read
    exact ⟨covered, led, network, read, found⟩

end Netblock
