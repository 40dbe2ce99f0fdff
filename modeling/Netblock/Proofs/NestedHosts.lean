import Netblock.Proofs.Membership
/-!
# Usable hosts of nested networks

A network lies within another one by its bounds, but its usable hosts also depend on the rule of
each of them. They are usable in the outer network too, unless the inner one starts or ends with
it and uses an address there that the outer one keeps.
-/

set_option autoImplicit false

namespace Netblock.Network

/-- The inner network uses a bound that it shares with the outer one, which keeps it. -/
structure UsesKeptEdge (outer inner : Network) : Prop where
  outer_keeps : outer.usableRule = .excludeEdges ∧ ¬ outer.IsHost
  inner_uses : inner.usableRule = .raw ∨ inner.IsHost
  shared : inner.low ≈ outer.low ∨ inner.high ≈ outer.high

variable {outer inner : Network}

theorem low_equiv_low_iff (outerValid : outer.Valid) (innerValid : inner.Valid)
    (sameFamily : outer.family = inner.family) :
    inner.low ≈ outer.low ↔ inner.base.toNat = outer.base.toNat := by
  rw [outerValid.equiv_low_iff (by simp [sameFamily]), innerValid.toNat_low]

theorem high_equiv_high_iff (outerValid : outer.Valid) (innerValid : inner.Valid)
    (sameFamily : outer.family = inner.family) :
    inner.high ≈ outer.high ↔
      inner.base.toNat + inner.size = outer.base.toNat + outer.size := by
  have outerPositive := outer.size_pos
  have innerPositive := inner.size_pos
  rw [outerValid.equiv_high_iff (by simp [sameFamily]), innerValid.toNat_high]
  omega

/-- A network that does not keep its edges uses all of its addresses. -/
theorem Valid.contains_of_not_keepsEdges {network : Network} (valid : network.Valid)
    (uses : ¬ network.KeepsEdges) {address : Address} (covered : network.Covers address) :
    network.contains address = .ok true :=
  valid.contains_iff_covers.mpr
    ⟨covered, (not_keepsEdges_iff.mp uses).elim .inl fun isHost => .inr (.inl isHost)⟩

theorem Valid.not_contains_of_keepsEdges {network : Network} (valid : network.Valid)
    (keeps : network.KeepsEdges) {address : Address}
    (edge : address ≈ network.low ∨ address ≈ network.high) :
    network.contains address ≠ .ok true := by
  intro inside
  obtain ⟨_, raw | isHost | ⟨notLow, notHigh⟩⟩ := valid.contains_iff_covers.mp inside
  · exact not_keepsEdges_iff.mpr (.inl raw) keeps
  · exact keeps.2 isHost
  · exact edge.elim notLow notHigh

/-- A shared bound that only the inner network uses is not usable in the outer one. -/
theorem UsesKeptEdge.exists_not_contains (uses : outer.UsesKeptEdge inner)
    (outerValid : outer.Valid) (innerValid : inner.Valid) :
    ∃ address, inner.contains address = .ok true ∧ outer.contains address ≠ .ok true := by
  have innerUses := not_keepsEdges_iff.mpr uses.inner_uses
  rcases uses.shared with low | high
  · exact ⟨inner.low, innerValid.contains_of_not_keepsEdges innerUses innerValid.covers_low,
      outerValid.not_contains_of_keepsEdges uses.outer_keeps (.inl low)⟩
  · exact ⟨inner.high, innerValid.contains_of_not_keepsEdges innerUses innerValid.covers_high,
      outerValid.not_contains_of_keepsEdges uses.outer_keeps (.inr high)⟩

theorem contains_of_not_usesKeptEdge (outerValid : outer.Valid) (innerValid : inner.Valid)
    (contained : outer.containsNetwork inner = .ok true) (notUses : ¬ outer.UsesKeptEdge inner)
    {address : Address} (inside : inner.contains address = .ok true) :
    outer.contains address = .ok true := by
  obtain ⟨sameFamily, starts, ends⟩ :=
    (containsNetwork_eq_ok_true_iff outerValid innerValid).mp contained
  obtain ⟨innerFamily, above, below⟩ := innerValid.contains_eq_ok_true_iff.mp inside
  rw [margin_usableRule] at above below
  rw [outerValid.contains_eq_ok_true_iff, margin_usableRule]
  have addressFamily := innerFamily.trans sameFamily.symm
  by_cases outerKeeps : outer.KeepsEdges
  · by_cases innerKeeps : inner.KeepsEdges
    · rw [if_pos innerKeeps] at above below
      rw [if_pos outerKeeps]
      exact ⟨addressFamily, by omega, by omega⟩
    · -- The inner network uses its bounds, so neither of them is one of the outer network.
      have apart : ¬ (inner.low ≈ outer.low ∨ inner.high ≈ outer.high) := fun shared =>
        notUses ⟨outerKeeps, not_keepsEdges_iff.mp innerKeeps, shared⟩
      rw [low_equiv_low_iff outerValid innerValid sameFamily,
        high_equiv_high_iff outerValid innerValid sameFamily] at apart
      rw [if_neg innerKeeps] at above below
      rw [if_pos outerKeeps]
      exact ⟨addressFamily, by omega, by omega⟩
  · rw [if_neg outerKeeps]
    exact ⟨addressFamily, by omega, by omega⟩

/-- Nested networks have nested hosts, with one exception. -/
theorem forall_contains_iff_not_usesKeptEdge (outerValid : outer.Valid)
    (innerValid : inner.Valid) (contained : outer.containsNetwork inner = .ok true) :
    (∀ address, inner.contains address = .ok true → outer.contains address = .ok true) ↔
      ¬ outer.UsesKeptEdge inner := by
  constructor
  · intro nested uses
    obtain ⟨address, inside, outside⟩ := uses.exists_not_contains outerValid innerValid
    exact outside (nested address inside)
  · intro notUses address inside
    exact contains_of_not_usesKeptEdge outerValid innerValid contained notUses inside

/-- The unmarked upper half of `::ffff:10.0.0.0/104` uses the last address, which the marked whole
keeps. The hosts of the marked upper half are hosts of the whole. -/
theorem forall_contains_iff_not_usesKeptEdge_mapped :
    (⟨.v6 0xFFFF0A000000 true, 104⟩ : Network).Valid ∧
      (⟨.v6 0xFFFF0A800000 false, 105⟩ : Network).Valid ∧
      (⟨.v6 0xFFFF0A800000 true, 105⟩ : Network).Valid ∧
      (∃ address, contains ⟨.v6 0xFFFF0A800000 false, 105⟩ address = .ok true ∧
        contains ⟨.v6 0xFFFF0A000000 true, 104⟩ address ≠ .ok true) ∧
      ∀ address, contains ⟨.v6 0xFFFF0A800000 true, 105⟩ address = .ok true →
        contains ⟨.v6 0xFFFF0A000000 true, 104⟩ address = .ok true := by
  have wholeValid : (⟨.v6 0xFFFF0A000000 true, 104⟩ : Network).Valid := by decide
  have rawValid : (⟨.v6 0xFFFF0A800000 false, 105⟩ : Network).Valid := by decide
  have halfValid : (⟨.v6 0xFFFF0A800000 true, 105⟩ : Network).Valid := by decide
  refine ⟨wholeValid, rawValid, halfValid, ?_, ?_⟩
  · have uses : UsesKeptEdge ⟨.v6 0xFFFF0A000000 true, 104⟩
        ⟨.v6 0xFFFF0A800000 false, 105⟩ := ⟨by decide, by decide, by decide⟩
    have exposed := mt (forall_contains_iff_not_usesKeptEdge wholeValid rawValid (by decide)).mp
      (not_not.mpr uses)
    simpa only [not_forall, exists_prop] using exposed
  · exact (forall_contains_iff_not_usesKeptEdge wholeValid halfValid (by decide)).mpr
      fun uses => absurd uses.inner_uses (by decide)

end Netblock.Network
