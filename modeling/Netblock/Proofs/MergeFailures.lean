import Mathlib.Order.Nat
import Netblock.Proofs.Merge
/-!
# Why a merge fails

A merge reports the first thing that is wrong with its networks. Their number comes before their
order, and the first gap in the order before all later ones. Only networks without a gap are asked
whether they stay below the whole address space and start where their merge would.
-/

set_option autoImplicit false

namespace Netblock.Network

/-- The network at `place` is not followed by the next one of the list. -/
def IsGap (networks : List Network) (place : Nat) : Prop :=
  ∃ inRange : place + 1 < networks.length, ¬ networks[place].IsFollowedBy networks[place + 1]

section

variable {network following : Network} {rest : List Network}

theorem isGap_zero_iff :
    IsGap (network :: following :: rest) 0 ↔ ¬ network.IsFollowedBy following := by
  simp [IsGap]

theorem isGap_succ_iff {place : Nat} :
    IsGap (network :: following :: rest) (place + 1) ↔ IsGap (following :: rest) place := by
  simp [IsGap]

theorem isChain_iff_forall_not_isGap {networks : List Network} :
    networks.IsChain IsFollowedBy ↔ ∀ place, ¬ IsGap networks place := by
  rw [List.isChain_iff_getElem]
  constructor
  · intro followed place gap
    obtain ⟨inRange, notFollowed⟩ := gap
    exact notFollowed (followed place inRange)
  · intro noGap place inRange
    by_contra notFollowed
    exact noGap place ⟨inRange, notFollowed⟩

end

/-- Where two networks follow each other, the first gap is that of the rest. -/
theorem exists_isLeast_gap_of_followed {network following : Network} {rest : List Network}
    {place : Nat} (followed : network.IsFollowedBy following)
    (first : IsLeast {place | IsGap (network :: following :: rest) place} place) :
    ∃ placeInRest, place = placeInRest + 1 ∧
      IsLeast {place | IsGap (following :: rest) place} placeInRest := by
  cases place with
  | zero => exact absurd followed (isGap_zero_iff.mp first.1)
  | succ place =>
      refine ⟨place, rfl, isGap_succ_iff.mp first.1, fun other gap => ?_⟩
      exact Nat.le_of_succ_le_succ (first.2 (isGap_succ_iff.mpr gap))

/-- The check of a list ends at its first gap, whatever comes later. -/
theorem checkChain_eq_gapError {networks : List Network} {place : Nat}
    (first : IsLeast {place | IsGap networks place} place) (count index : Nat) :
    ∃ inRange : place + 1 < networks.length, checkChain count index networks =
      .error (gapError count (index + place) networks[place] networks[place + 1]) := by
  induction networks generalizing place index with
  | nil =>
      obtain ⟨inRange, _⟩ := first.1
      exact absurd inRange (Nat.not_lt_zero _)
  | cons network rest ih =>
      cases rest with
      | nil =>
          obtain ⟨inRange, _⟩ := first.1
          exact absurd inRange (Nat.not_lt_of_le (Nat.le_add_left 1 place))
      | cons following rest =>
          rw [checkChain_cons_cons]
          by_cases followed : network.IsFollowedBy following
          · obtain ⟨place, rfl, firstOfRest⟩ := exists_isLeast_gap_of_followed followed first
            obtain ⟨inRange, refused⟩ := ih firstOfRest (index + 1)
            refine ⟨Nat.succ_lt_succ inRange, ?_⟩
            rw [if_pos followed, refused, Nat.add_right_comm, Nat.add_assoc]
            rfl
          · obtain rfl : place = 0 := Nat.le_zero.mp (first.2 (isGap_zero_iff.mpr followed))
            rw [if_neg followed]
            exact ⟨Nat.succ_lt_succ (Nat.succ_pos _), rfl⟩

/-!
### The stages of a merge
-/

theorem merge_eq_mergeCount {networks : List Network}
    (miscounted : networks.length < 2 ∨ ¬ networks.length.isPowerOfTwo) :
    merge networks = .error (.mergeCount networks.length) := by
  cases networks with
  | nil => rfl
  | cons first rest => exact if_pos miscounted

/-- A gap is reported before anything that concerns the merge as a whole. -/
theorem merge_eq_gapError {networks : List Network} {power place : Nat} (positive : 1 ≤ power)
    (length_eq : networks.length = 2 ^ power)
    (first : IsLeast {place | IsGap networks place} place) :
    ∃ inRange : place + 1 < networks.length, merge networks =
      .error (gapError networks.length (place + 1) networks[place] networks[place + 1]) := by
  obtain ⟨inRange, refused⟩ := checkChain_eq_gapError first networks.length 1
  refine ⟨inRange, ?_⟩
  cases networks with
  | nil => exact absurd inRange (Nat.not_lt_zero _)
  | cons network rest =>
      rw [merge_cons_of_length_eq length_eq positive, ← length_eq, refused, Nat.add_comm 1 place]
      rfl

theorem exists_isLeast_gap {networks : List Network} (gaps : ¬ ∀ place, ¬ IsGap networks place) :
    ∃ place, IsLeast {place | IsGap networks place} place := by
  classical
  have someGap : ∃ place, IsGap networks place := not_forall_not.mp gaps
  exact ⟨_, Nat.isLeast_find someGap⟩

/-- Once the number of networks is right, it is not what the merge complains about. -/
theorem merge_ne_mergeCount {networks : List Network} {power : Nat} (positive : 1 ≤ power)
    (length_eq : networks.length = 2 ^ power) (count : Nat) :
    merge networks ≠ .error (.mergeCount count) := by
  intro refused
  by_cases noGap : ∀ place, ¬ IsGap networks place
  · cases networks with
    | nil => exact absurd length_eq (Nat.two_pow_pos power).ne
    | cons first rest =>
        have row := isChain_isFollowedBy_iff.mp (isChain_iff_forall_not_isGap.mpr noGap)
        rw [row.merge_eq length_eq positive] at refused
        split at refused
        · cases refused
        · split at refused
          · cases refused
          · cases refused
  · obtain ⟨place, first⟩ := exists_isLeast_gap noGap
    obtain ⟨_, gapped⟩ := merge_eq_gapError positive length_eq first
    rw [gapped, gapError] at refused
    split at refused
    · cases refused
    · cases refused

theorem merge_eq_mergeCount_iff {networks : List Network} {count : Nat} :
    merge networks = .error (.mergeCount count) ↔
      count = networks.length ∧ (networks.length < 2 ∨ ¬ networks.length.isPowerOfTwo) := by
  constructor
  · intro refused
    by_cases miscounted : networks.length < 2 ∨ ¬ networks.length.isPowerOfTwo
    · rw [merge_eq_mergeCount miscounted] at refused
      cases refused
      exact ⟨rfl, miscounted⟩
    · obtain ⟨power, positive, length_eq⟩ := exists_power_of_counted miscounted
      exact absurd refused (merge_ne_mergeCount positive length_eq count)
  · rintro ⟨rfl, miscounted⟩
    exact merge_eq_mergeCount miscounted

/-- The boundaries of the merged prefix, counted in addresses. -/
theorem isAligned_sub_iff {network : Network} {power : Nat} (valid : network.Valid)
    (longer : power < network.prefixLen) :
    network.base.IsAligned (network.prefixLen - power) ↔
      2 ^ (network.width - network.prefixLen + power) ∣ network.base.toNat := by
  have prefixLen_le := valid.prefixLen_le
  have hostBits_eq : network.base.width - (network.prefixLen - power) =
      network.width - network.prefixLen + power := by
    change network.width - (network.prefixLen - power) = _
    omega
  rw [Address.IsAligned, hostBits_eq, Nat.dvd_iff_mod_eq_zero]

section

variable {first : Network} {rest : List Network} {power : Nat}

theorem IsRow.merge_eq_mergeAnyAddress_iff (row : first.IsRow (first :: rest))
    (length_eq : rest.length + 1 = 2 ^ power) (positive : 1 ≤ power) :
    merge (first :: rest) = .error (.mergeAnyAddress (2 ^ power)) ↔
      first.prefixLen ≤ power := by
  rw [row.merge_eq length_eq positive]
  by_cases short : first.prefixLen ≤ power
  · simp [short]
  · by_cases aligned : first.base.IsAligned (first.prefixLen - power)
    · simp [short, aligned]
    · simp [short, aligned]

theorem IsRow.merge_eq_of_lt (row : first.IsRow (first :: rest)) (firstValid : first.Valid)
    (length_eq : rest.length + 1 = 2 ^ power) (positive : 1 ≤ power)
    (longer : power < first.prefixLen) :
    merge (first :: rest) =
      if 2 ^ (first.width - first.prefixLen + power) ∣ first.base.toNat then
        .ok ⟨first.base.withMark (rest.getLastD first).base.mark, first.prefixLen - power⟩
      else
        .error (.mergeOrder (2 ^ power) 0) := by
  rw [row.merge_eq length_eq positive, if_neg (Nat.not_le_of_lt longer)]
  simp only [isAligned_sub_iff firstValid longer, ite_not]

end

/-- What is wrong with the networks that cannot be merged. -/
structure ReportsFirstFailure (networks : List Network) : Prop where
  mergeCount_iff : ∀ count, merge networks = .error (.mergeCount count) ↔
    count = networks.length ∧ (networks.length < 2 ∨ ¬ networks.length.isPowerOfTwo)
  /-- The first gap is reported, by its place or by the families that meet there. -/
  gap : ∀ power place, 1 ≤ power → networks.length = 2 ^ power →
    IsLeast {place | IsGap networks place} place →
      ∃ inRange : place + 1 < networks.length,
        (networks[place].family ≠ networks[place + 1].family → merge networks =
          .error (.mixedFamilies networks[place].base networks[place + 1].base)) ∧
        (networks[place].family = networks[place + 1].family → merge networks =
          .error (.mergeOrder networks.length (place + 1)))
  /-- Without a gap the failure is one of the merge as a whole. -/
  whole : ∀ power first, 1 ≤ power → networks.length = 2 ^ power →
    networks.head? = some first → (∀ place, ¬ IsGap networks place) →
      (∀ network ∈ networks, network.prefixLen = first.prefixLen) ∧
      (merge networks = .error (.mergeAnyAddress networks.length) ↔ first.prefixLen ≤ power) ∧
      (power < first.prefixLen →
        (merge networks = .error (.mergeOrder networks.length 0) ↔
          ¬ 2 ^ (first.width - first.prefixLen + power) ∣ first.base.toNat) ∧
        (2 ^ (first.width - first.prefixLen + power) ∣ first.base.toNat →
          ∃ merged, merge networks = .ok merged))

theorem reportsFirstFailure {networks : List Network}
    (valid : ∀ network ∈ networks, network.Valid) : ReportsFirstFailure networks where
  mergeCount_iff := fun _ => merge_eq_mergeCount_iff
  gap := by
    intro power place positive length_eq first
    obtain ⟨inRange, refused⟩ := merge_eq_gapError positive length_eq first
    refine ⟨inRange, fun otherFamily => ?_, fun sameFamily => ?_⟩
    · rw [refused, gapError, if_neg otherFamily]
    · rw [refused, gapError, if_pos sameFamily]
  whole := by
    intro power first positive length_eq found noGap
    obtain ⟨rest, rfl⟩ := List.head?_eq_some_iff.mp found
    have row := isChain_isFollowedBy_iff.mp (isChain_iff_forall_not_isGap.mpr noGap)
    have firstValid := valid first List.mem_cons_self
    refine ⟨?_, ?_, fun longer => ?_⟩
    · intro network member
      obtain ⟨index, inRange, rfl⟩ := List.getElem_of_mem member
      exact (row index inRange).prefixLen_eq
    · rw [length_eq]
      exact row.merge_eq_mergeAnyAddress_iff length_eq positive
    · rw [row.merge_eq_of_lt firstValid length_eq positive longer, length_eq]
      by_cases aligned : 2 ^ (first.width - first.prefixLen + power) ∣ first.base.toNat
      · rw [if_pos aligned]
        exact ⟨iff_of_false (by simp) (not_not.mpr aligned), fun _ => ⟨_, rfl⟩⟩
      · rw [if_neg aligned]
        exact ⟨iff_of_true rfl aligned, fun divides => absurd divides aligned⟩

/-- The first gap of four networks is where the families meet. Two halves of different networks
follow each other, but their merge would start in the middle. -/
theorem reportsFirstFailure_meetingFamilies :
    ((∀ network ∈ [(⟨.v4 0xFFFFFF00, 25⟩ : Network), ⟨.v4 0xFFFFFF80, 25⟩, ⟨.v6 0 false, 25⟩,
        ⟨.v6 0 false, 0⟩], network.Valid) ∧
      merge [⟨.v4 0xFFFFFF00, 25⟩, ⟨.v4 0xFFFFFF80, 25⟩, ⟨.v6 0 false, 25⟩, ⟨.v6 0 false, 0⟩] =
        .error (.mixedFamilies (.v4 0xFFFFFF80) (.v6 0 false))) ∧
    (∀ network ∈ [(⟨.v4 0x0A100000, 12⟩ : Network), ⟨.v4 0x0A200000, 12⟩], network.Valid) ∧
      merge [⟨.v4 0x0A100000, 12⟩, ⟨.v4 0x0A200000, 12⟩] = .error (.mergeOrder 2 0) := by
  have mixedValid : ∀ network ∈ [(⟨.v4 0xFFFFFF00, 25⟩ : Network), ⟨.v4 0xFFFFFF80, 25⟩,
      ⟨.v6 0 false, 25⟩, ⟨.v6 0 false, 0⟩], network.Valid := by decide
  have pairValid : ∀ network ∈ [(⟨.v4 0x0A100000, 12⟩ : Network), ⟨.v4 0x0A200000, 12⟩],
      network.Valid := by decide
  refine ⟨⟨mixedValid, ?_⟩, pairValid, ?_⟩
  · have first : IsLeast {place | IsGap [(⟨.v4 0xFFFFFF00, 25⟩ : Network), ⟨.v4 0xFFFFFF80, 25⟩,
        ⟨.v6 0 false, 25⟩, ⟨.v6 0 false, 0⟩] place} 1 := by
      refine ⟨⟨by decide, by decide⟩, fun place gap => ?_⟩
      cases place with
      | zero => exact absurd (by decide) (isGap_zero_iff.mp gap)
      | succ place => exact Nat.succ_pos place
    obtain ⟨_, mixed, _⟩ := (reportsFirstFailure mixedValid).gap 2 1 (by decide) rfl first
    exact mixed (by decide +revert)
  · have noGap : ∀ place, ¬ IsGap [(⟨.v4 0x0A100000, 12⟩ : Network), ⟨.v4 0x0A200000, 12⟩] place :=
      isChain_iff_forall_not_isGap.mp (by decide)
    obtain ⟨_, _, unaligned⟩ :=
      (reportsFirstFailure pairValid).whole 1 _ (by decide) rfl rfl noGap
    exact (unaligned (by decide)).1.mpr (by decide)

end Netblock.Network
