import Netblock.Proofs.Constructions
/-!
# Exchange with plain prefixes

Networks and interfaces go to another library and come back. What that library has to promise is
told apart from how it keeps a prefix: its parts are those that it was made from, and truncation
clears the bits after it. Under these laws nothing is lost on either way but the mark.
-/

set_option autoImplicit false

namespace Netblock

namespace PlainPrefix

theorem of?_eq_some_iff {address : PlainAddress} {prefixLen : Nat} {plain : PlainPrefix} :
    of? address prefixLen = some plain ↔
      plain.address = address ∧ plain.prefixLen = prefixLen := by
  unfold of?
  constructor
  · intro made
    split at made
    · cases made
      exact ⟨rfl, rfl⟩
    · cases made
  · rintro ⟨rfl, rfl⟩
    exact dif_pos plain.prefixLen_le

theorem library_lawful : library.Lawful where
  make?_eq_none_iff := by
    intro address prefixLen
    change of? address prefixLen = none ↔ _
    simp [of?]
  address_of_make? := fun _ _ _ made => (of?_eq_some_iff.mp made).1
  prefixLen_of_make? := fun _ _ _ made => (of?_eq_some_iff.mp made).2
  make?_parts := fun _ => of?_eq_some_iff.mpr ⟨rfl, rfl⟩
  prefixLen_truncate := fun _ => rfl
  family_truncate := by
    intro plain
    exact (PlainAddress.toAddress_ofAddress_equiv _).1.trans (Address.family_truncate _ _)
  testBit_truncate := by
    intro plain position
    have value_eq : (library.address (library.truncate plain)).toAddress.toNat =
        (plain.address.toAddress.truncate plain.prefixLen).toNat :=
      (PlainAddress.toAddress_ofAddress_equiv _).2
    rw [value_eq]
    exact Address.testBit_truncate _ _ _

end PlainPrefix

namespace PlainAddress

theorem width_ofAddress (address : Address) : (ofAddress address).width = address.width :=
  congrArg Family.width (toAddress_ofAddress_equiv address).1

/-- A plain address has no mark of its own to come back with. -/
theorem mark_toAddress_iff {plain : PlainAddress} :
    plain.toAddress.mark = true ↔ Octets.Embeds plain.toAddress.octets := by
  rw [Address.embeds_octets_iff]
  cases plain with
  | v4 bits => simp [toAddress, Address.mark, Address.family]
  | v6 bits => simp [toAddress, Address.ofV6, Address.mark, Address.family, Address.toNat]

end PlainAddress

namespace PrefixLibrary

variable {α : Type} {library : PrefixLibrary α}

/-- No bit is set after the prefix. -/
def HasClearHostBits (library : PrefixLibrary α) (kept : α) : Prop :=
  ∀ position, position < (library.address kept).width - library.prefixLen kept →
    (library.address kept).toAddress.toNat.testBit position = false

namespace Lawful

theorem prefixLen_le (lawful : library.Lawful) (kept : α) :
    library.prefixLen kept ≤ (library.address kept).toAddress.width := by
  apply Nat.le_of_not_lt
  intro tooLong
  have refused := (lawful.make?_eq_none_iff _ _).mpr tooLong
  rw [lawful.make?_parts] at refused
  cases refused

theorem ofCidr_parts (lawful : library.Lawful) (kept : α) :
    library.ofCidr (library.address kept).toAddress (library.prefixLen kept) = .ok kept := by
  rw [ofCidr, PlainAddress.ofAddress_toAddress, lawful.make?_parts]

theorem exists_ofCidr (lawful : library.Lawful) {address : Address} {prefixLen : Nat}
    (fits : prefixLen ≤ address.width) :
    ∃ kept, library.ofCidr address prefixLen = .ok kept ∧
      (library.address kept).toAddress ≈ address ∧ library.prefixLen kept = prefixLen := by
  cases made : library.make? (.ofAddress address) prefixLen with
  | none =>
      have tooLong := (lawful.make?_eq_none_iff _ _).mp made
      rw [PlainAddress.width_ofAddress] at tooLong
      omega
  | some kept =>
      refine ⟨kept, by rw [ofCidr, made], ?_, lawful.prefixLen_of_make? _ _ _ made⟩
      rw [lawful.address_of_make? _ _ _ made]
      exact PlainAddress.toAddress_ofAddress_equiv address

/-- The truncation of the library is the one of addresses, though each clears bits by itself. -/
theorem address_truncate_equiv (lawful : library.Lawful) (kept : α) :
    (library.address (library.truncate kept)).toAddress ≈
      (library.address kept).toAddress.truncate (library.prefixLen kept) := by
  refine ⟨?_, Nat.eq_of_testBit_eq ?_⟩
  · rw [lawful.family_truncate, Address.family_truncate]
  · intro position
    rw [lawful.testBit_truncate, Address.testBit_truncate]
    rfl

theorem toNetwork_eq_ok_iff (lawful : library.Lawful) {kept : α} {network : Network} :
    library.toNetwork kept = .ok network ↔
      network = ⟨(library.address kept).toAddress, library.prefixLen kept⟩ ∧
        library.HasClearHostBits kept := by
  rw [toNetwork, Network.ofBase_eq_ok_iff]
  refine and_congr_right ?_
  rintro rfl
  rw [Network.valid_iff, Address.isAligned_iff_testBit]
  exact and_iff_right (lawful.prefixLen_le kept)

theorem toNetwork_eq_hostBits (lawful : library.Lawful) {kept : α}
    (unclear : ¬ library.HasClearHostBits kept) :
    library.toNetwork kept =
      .error (.hostBits
        ((library.address kept).toAddress.cidrText (library.prefixLen kept))) := by
  have fits := lawful.prefixLen_le kept
  have unaligned := mt Address.isAligned_iff_testBit.mp unclear
  have shorter := Address.lt_width_of_not_isAligned fits unaligned
  rw [toNetwork, Network.ofBase_of_le fits, if_neg unaligned, Address.cidrText_eq_slashText shorter]

theorem exists_toNetwork_truncate (lawful : library.Lawful) (kept : α) :
    ∃ network, library.toNetwork (library.truncate kept) = .ok network ∧
      (library.toInterface kept).network ≈ network := by
  have same := lawful.address_truncate_equiv kept
  have aligned : (library.address (library.truncate kept)).toAddress.IsAligned
      (library.prefixLen (library.truncate kept)) := by
    rw [lawful.prefixLen_truncate]
    exact (Address.isAligned_truncate _ _).of_equiv (Setoid.symm same)
  refine ⟨_, lawful.toNetwork_eq_ok_iff.mpr ⟨rfl, Address.isAligned_iff_testBit.mp aligned⟩, ?_⟩
  exact ⟨Setoid.symm same, (lawful.prefixLen_truncate kept).symm⟩

theorem exists_toNetwork_ofNetwork (lawful : library.Lawful) {network : Network}
    (valid : network.Valid) :
    ∃ kept back, library.ofNetwork network = .ok kept ∧ library.toNetwork kept = .ok back ∧
      back ≈ network ∧ (back.base.mark = true ↔ Octets.Embeds back.base.octets) := by
  obtain ⟨kept, went, same, prefixLen_eq⟩ := lawful.exists_ofCidr valid.prefixLen_le
  have aligned : (library.address kept).toAddress.IsAligned (library.prefixLen kept) := by
    rw [prefixLen_eq]
    exact valid.aligned.of_equiv (Setoid.symm same)
  exact ⟨kept, _, went,
    lawful.toNetwork_eq_ok_iff.mpr ⟨rfl, Address.isAligned_iff_testBit.mp aligned⟩,
    ⟨same, prefixLen_eq⟩, PlainAddress.mark_toAddress_iff⟩

end Lawful

/-- Nothing is lost on the way to a library and back, or from it and back, but the mark, which is
set anew from the octets. -/
structure IsLossless (library : PrefixLibrary α) : Prop where
  network : ∀ network : Network, network.Valid →
    ∃ kept back, library.ofNetwork network = .ok kept ∧ library.toNetwork kept = .ok back ∧
      back ≈ network ∧ (back.base.mark = true ↔ Octets.Embeds back.base.octets)
  interface : ∀ interface : Interface, interface.Valid →
    ∃ kept, library.ofInterface interface = .ok kept ∧ library.toInterface kept ≈ interface ∧
      ((library.toInterface kept).address.mark = true ↔
        Octets.Embeds (library.toInterface kept).address.octets)
  toNetwork_ok_iff : ∀ kept,
    (∃ network, library.toNetwork kept = .ok network) ↔ library.HasClearHostBits kept
  toNetwork_hostBits : ∀ kept, ¬ library.HasClearHostBits kept →
    library.toNetwork kept =
      .error (.hostBits ((library.address kept).toAddress.cidrText (library.prefixLen kept)))
  network_back : ∀ kept network, library.toNetwork kept = .ok network →
    library.ofNetwork network = .ok kept
  interface_back : ∀ kept, library.ofInterface (library.toInterface kept) = .ok kept
  /-- The network that an interface is on comes from the truncated prefix as well. -/
  truncated : ∀ kept, ∃ network, library.toNetwork (library.truncate kept) = .ok network ∧
    (library.toInterface kept).network ≈ network

end PrefixLibrary

/-- Exchange with any lawful library is lossless. -/
theorem exchangesWithoutLoss {α : Type} {library : PrefixLibrary α} (lawful : library.Lawful) :
    library.IsLossless where
  network := fun _ valid => lawful.exists_toNetwork_ofNetwork valid
  interface := by
    intro interface valid
    obtain ⟨kept, went, same, prefixLen_eq⟩ := lawful.exists_ofCidr valid
    exact ⟨kept, went, ⟨same, prefixLen_eq⟩, PlainAddress.mark_toAddress_iff⟩
  toNetwork_ok_iff := by
    intro kept
    simp only [lawful.toNetwork_eq_ok_iff, exists_and_right, exists_eq, true_and]
  toNetwork_hostBits := fun _ => lawful.toNetwork_eq_hostBits
  network_back := by
    intro kept network came
    obtain ⟨rfl, _⟩ := lawful.toNetwork_eq_ok_iff.mp came
    exact lawful.ofCidr_parts kept
  interface_back := lawful.ofCidr_parts
  truncated := lawful.exists_toNetwork_truncate

/-- Plain prefixes are a lawful library. `2002::123.45.67.64/122` comes back from it without its
mark, and `10.1.2.3/8` is an interface there but no network. -/
theorem exchangesWithoutLoss_plain :
    PlainPrefix.library.Lawful ∧
      (∃ kept back,
        PlainPrefix.ofNetwork ⟨.v6 0x2002000000000000000000007B2D4340 true, 122⟩ = .ok kept ∧
          kept.toNetwork = .ok back ∧
          back ≈ ⟨.v6 0x2002000000000000000000007B2D4340 true, 122⟩ ∧
          back.base.mark = false) ∧
      (∀ network, PlainPrefix.toNetwork ⟨.v4 0x0A010203, 8, by decide⟩ ≠ .ok network) ∧
      PlainPrefix.ofInterface ⟨.v4 0x0A010203, 8⟩ = .ok ⟨.v4 0x0A010203, 8, by decide⟩ := by
  have lossless := exchangesWithoutLoss PlainPrefix.library_lawful
  refine ⟨PlainPrefix.library_lawful, ?_, ?_, ?_⟩
  · obtain ⟨kept, back, went, came, same, mark_iff⟩ :=
      lossless.network ⟨.v6 0x2002000000000000000000007B2D4340 true, 122⟩ (by decide)
    refine ⟨kept, back, went, came, same, ?_⟩
    have unmarked : ¬ Octets.Embeds back.base.octets := by
      rw [Address.octets_eq_of_equiv same.1, Address.embeds_octets_iff]
      decide
    rw [← Bool.not_eq_true, mark_iff]
    exact unmarked
  · intro network came
    have clear := (lossless.toNetwork_ok_iff _).mp ⟨network, came⟩
    exact absurd (clear 0 (by decide)) (by decide)
  · exact lossless.interface_back ⟨.v4 0x0A010203, 8, by decide⟩

end Netblock
