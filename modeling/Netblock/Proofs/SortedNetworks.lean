import Netblock.Proofs.Span
import Netblock.Sorted
/-!
# Sorted networks

The order of networks compares the base and then the prefix length. A network comes before all
that it contains, and whatever stands between it and one of them is contained as well. So in a
sorted list every network is followed by its own contents, as in a walk of the tree of networks
that visits each of them before its halves.
-/

set_option autoImplicit false

namespace Netblock.Network

variable {network outer middle inner : Network} {networks : List Network}

theorem lt_of_containsNetwork (outerValid : outer.Valid) (innerValid : inner.Valid)
    (contained : outer.containsNetwork inner = .ok true) (different : ¬ inner ≈ outer) :
    outer < inner := by
  have longer := prefixLen_lt_of_containsNetwork outerValid innerValid contained different
  obtain ⟨sameFamily, above, _⟩ :=
    (containsNetwork_eq_ok_true_iff outerValid innerValid).mp contained
  rw [lt_iff]
  rcases Nat.lt_or_eq_of_le above with apart | sameValue
  · exact .inl (Address.lt_iff.mpr (.inr ⟨sameFamily, apart⟩))
  · exact .inr ⟨⟨sameFamily, sameValue⟩, longer⟩

theorem le_of_equiv (same : outer ≈ inner) : outer ≤ inner := by
  rw [← Std.isLE_compare, compare_eq_eq_iff.mpr same]
  rfl

theorem le_of_containsNetwork (outerValid : outer.Valid) (innerValid : inner.Valid)
    (contained : outer.containsNetwork inner = .ok true) : outer ≤ inner := by
  by_cases same : inner ≈ outer
  · exact le_of_equiv (Setoid.symm same)
  · exact Std.le_of_lt (lt_of_containsNetwork outerValid innerValid contained same)

/-- Between a network and one of its contents, in order, only its contents stand. -/
theorem containsNetwork_of_le_of_le (outerValid : outer.Valid) (middleValid : middle.Valid)
    (innerValid : inner.Valid) (first : outer ≤ middle) (second : middle ≤ inner)
    (contained : outer.containsNetwork inner = .ok true) :
    outer.containsNetwork middle = .ok true := by
  have covered : outer.Covers middle.base := by
    obtain ⟨sameFamily, innerAbove, innerBelow⟩ := (covers_iff outerValid).mp
      (covers_base_of_containsNetwork outerValid innerValid contained)
    have above := base_le_of_le first
    have below := base_le_of_le second
    have middleFamily : middle.base.family = outer.base.family :=
      Address.family_eq_of_le_of_le sameFamily.symm above below
    rw [Address.le_iff_toNat_le middleFamily.symm] at above
    rw [Address.le_iff_toNat_le (middleFamily.trans sameFamily.symm)] at below
    exact (covers_iff outerValid).mpr ⟨middleFamily, above, by omega⟩
  have shorter : outer.prefixLen ≤ middle.prefixLen := by
    -- A wider network with that base would contain the outer one and stand before it.
    by_contra longer
    have containing := containsNetwork_of_shared middleValid outerValid (Nat.le_of_not_le longer)
      middleValid.covers_base covered
    have before : middle < outer := lt_of_containsNetwork middleValid outerValid containing
      fun same => longer same.2.le
    exact Std.not_le.mpr before first
  exact containsNetwork_of_shared outerValid middleValid shorter covered middleValid.covers_base

/-!
### Sorted lists
-/

theorem pairwise_ascending (networks : List Network) : (ascending networks).Pairwise (· ≤ ·) := by
  refine List.pairwise_mergeSort ?_ ?_ networks
  · intro left middle right first second
    exact Std.TransOrd.isLE_trans first second
  · intro left right
    rw [Bool.or_eq_true, Std.isLE_compare, Std.isLE_compare]
    exact Std.le_total

/-- The members of a list that lie within a network, in the order of the list. -/
def contentsIn (network : Network) (networks : List Network) : List Network :=
  networks.filter fun inner => decide (network.containsNetwork inner = .ok true)

theorem mem_contentsIn_iff :
    inner ∈ network.contentsIn networks ↔
      inner ∈ networks ∧ network.containsNetwork inner = .ok true := by
  rw [contentsIn, List.mem_filter, decide_eq_true_iff]

/-- After the network the sorted list goes on with its contents, and then holds none of them. -/
theorem contentsIn_isPrefix (valid : network.Valid)
    (listedValid : ∀ listed ∈ networks, listed.Valid) (sorted : networks.Pairwise (· ≤ ·))
    (after : ∀ listed ∈ networks, network ≤ listed) :
    network.contentsIn networks <+: networks := by
  induction networks with
  | nil => exact List.prefix_rfl
  | cons first rest ih =>
      obtain ⟨firstValid, restValid⟩ := List.forall_mem_cons.mp listedValid
      obtain ⟨firstLeast, restSorted⟩ := List.pairwise_cons.mp sorted
      obtain ⟨firstAfter, restAfter⟩ := List.forall_mem_cons.mp after
      by_cases contained : network.containsNetwork first = .ok true
      · rw [contentsIn, List.filter_cons_of_pos (by simpa using contained)]
        exact (List.prefix_cons_inj first).mpr (ih restValid restSorted restAfter)
      · have nothing : network.contentsIn (first :: rest) = [] := by
          rw [List.eq_nil_iff_forall_not_mem]
          intro inner member
          obtain ⟨listed, within⟩ := mem_contentsIn_iff.mp member
          rcases List.mem_cons.mp listed with rfl | later
          · exact contained within
          · exact contained (containsNetwork_of_le_of_le valid firstValid (restValid inner later)
              firstAfter (firstLeast inner later) within)
        rw [nothing]
        exact List.nil_prefix

/-- The contents of a network stand together in a sorted list. -/
theorem contentsIn_isInfix (valid : network.Valid)
    (listedValid : ∀ listed ∈ networks, listed.Valid) (sorted : networks.Pairwise (· ≤ ·)) :
    network.contentsIn networks <:+: networks := by
  induction networks with
  | nil => exact List.infix_rfl
  | cons first rest ih =>
      obtain ⟨firstValid, restValid⟩ := List.forall_mem_cons.mp listedValid
      obtain ⟨firstLeast, restSorted⟩ := List.pairwise_cons.mp sorted
      by_cases contained : network.containsNetwork first = .ok true
      · have start := le_of_containsNetwork valid firstValid contained
        have after : ∀ listed ∈ first :: rest, network ≤ listed := List.forall_mem_cons.mpr
          ⟨start, fun listed later => Std.le_trans start (firstLeast listed later)⟩
        exact (contentsIn_isPrefix valid listedValid sorted after).isInfix
      · rw [contentsIn, List.filter_cons_of_neg (by simpa using contained)]
        exact List.infix_cons (ih restValid restSorted)

/-- A network that is listed comes first among its contents. -/
theorem exists_contentsIn_eq_cons (valid : network.Valid)
    (listedValid : ∀ listed ∈ networks, listed.Valid) (sorted : networks.Pairwise (· ≤ ·))
    (member : network ∈ networks) :
    ∃ first rest, network.contentsIn networks = first :: rest ∧ first ≈ network := by
  have own : network ∈ network.contentsIn networks :=
    mem_contentsIn_iff.mpr ⟨member, containsNetwork_refl valid⟩
  have contentsSorted : (network.contentsIn networks).Pairwise (· ≤ ·) := sorted.filter _
  obtain ⟨first, rest, contents_eq⟩ := List.exists_cons_of_ne_nil (List.ne_nil_of_mem own)
  have firstMember : first ∈ network.contentsIn networks := by
    rw [contents_eq]
    exact List.mem_cons_self
  obtain ⟨firstListed, contained⟩ := mem_contentsIn_iff.mp firstMember
  refine ⟨first, rest, contents_eq, ?_⟩
  rw [contents_eq] at own contentsSorted
  rcases List.mem_cons.mp own with rfl | later
  · exact Setoid.refl _
  · have start := le_of_containsNetwork valid (listedValid first firstListed) contained
    have least := (List.pairwise_cons.mp contentsSorted).1 network later
    exact isTotallyOrdered.antisymm first network least start

/-- The order of networks walks their tree, each network before its contents. -/
structure PreOrderTraversal : Prop where
  order : IsTotallyOrdered Network
  lt_of_containsNetwork : ∀ outer inner : Network, outer.Valid → inner.Valid →
    outer.containsNetwork inner = .ok true → ¬ inner ≈ outer → outer < inner
  containsNetwork_of_le_of_le : ∀ outer middle inner : Network, outer.Valid → middle.Valid →
    inner.Valid → outer ≤ middle → middle ≤ inner → outer.containsNetwork inner = .ok true →
      outer.containsNetwork middle = .ok true
  ascending_sorts : ∀ networks : List Network,
    (ascending networks).Perm networks ∧ (ascending networks).Pairwise (· ≤ ·)
  contents_isInfix : ∀ (network : Network) (networks : List Network), network.Valid →
    (∀ listed ∈ networks, listed.Valid) → networks.Pairwise (· ≤ ·) →
      network.contentsIn networks <:+: networks
  contents_head : ∀ (network : Network) (networks : List Network),
    (∀ listed ∈ networks, listed.Valid) → networks.Pairwise (· ≤ ·) → network ∈ networks →
      ∃ first rest, network.contentsIn networks = first :: rest ∧ first ≈ network

theorem preOrderTraversal : PreOrderTraversal where
  order := isTotallyOrdered
  lt_of_containsNetwork := fun _ _ outerValid innerValid contained different =>
    lt_of_containsNetwork outerValid innerValid contained different
  containsNetwork_of_le_of_le := by
    intro outer middle inner outerValid middleValid innerValid first second contained
    exact containsNetwork_of_le_of_le outerValid middleValid innerValid first second contained
  ascending_sorts := fun networks => ⟨List.mergeSort_perm _ _, pairwise_ascending networks⟩
  contents_isInfix := fun _ _ valid listedValid sorted => contentsIn_isInfix valid listedValid sorted
  contents_head := by
    intro network networks listedValid sorted member
    exact exists_contentsIn_eq_cons (listedValid network member) listedValid sorted member

/-- A network, its halves and its neighbours, with one of the other family at the end. -/
private def listing : List Network :=
  [⟨.v4 0x09000000, 8⟩, ⟨.v4 0x0A000000, 8⟩, ⟨.v4 0x0A000000, 9⟩, ⟨.v4 0x0A800000, 9⟩,
    ⟨.v4 0x0B000000, 8⟩, ⟨.v6 0 false, 0⟩]

theorem preOrderTraversal_listing :
    (∀ listed ∈ listing, listed.Valid) ∧ listing.Pairwise (· ≤ ·) ∧
      (⟨.v4 0x0A000000, 8⟩ : Network).contentsIn listing <:+: listing ∧
      (⟨.v4 0x0A000000, 8⟩ : Network).contentsIn listing =
        [⟨.v4 0x0A000000, 8⟩, ⟨.v4 0x0A000000, 9⟩, ⟨.v4 0x0A800000, 9⟩] := by
  have listedValid : ∀ listed ∈ listing, listed.Valid := by decide
  have sorted : listing.Pairwise (· ≤ ·) := by decide
  have valid : (⟨.v4 0x0A000000, 8⟩ : Network).Valid := by decide
  exact ⟨listedValid, sorted, preOrderTraversal.contents_isInfix _ _ valid listedValid sorted,
    by decide⟩

end Netblock.Network
