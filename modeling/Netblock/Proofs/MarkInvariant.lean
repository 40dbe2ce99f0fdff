import Netblock.Proofs.NetworkMarks
import Netblock.Proofs.Validity
/-!
# Marks in sessions

Unless a mark is cleared by hand, or given together with the bits, every address of a session is
marked if its octets embed IPv4. So its text shows the address that it embeds.
-/

set_option autoImplicit false

namespace Netblock.Session

/-- The address that a value is, or is made around. -/
def Value.inner : Value → Address
  | .address given => given
  | .network whole => whole.base
  | .interface placed => placed.address

def Value.MarksEmbedding (value : Value) : Prop :=
  value.inner.MarksEmbedding

/-- The mark is taken from outside and may leave an embedding unmarked. -/
def Operation.OverridesMark {α : Type} : Operation α → Prop
  | .v6 _ _ => True
  | .withMark mark _ => mark = false
  | _ => False

theorem holds_withValue (address : Address) (value : Nat) :
    Holds Value.MarksEmbedding (address.withValue value) :=
  holds_address.mpr (address.marksEmbedding_withValue value)

theorem holds_broadcast? (network : Network) : Holds Value.MarksEmbedding network.broadcast? := by
  refine holds_option.mpr ?_
  intro address found
  exact holds_address.mpr (Network.marksEmbedding_of_broadcast? found)

variable {α : Type} {library : PrefixLibrary α}

theorem Operation.keeps_marksEmbedding {operation : Operation α}
    (notOverridden : ¬ operation.OverridesMark)
    (valid : ∀ value ∈ (operation.effect library).takes, value.Valid) :
    operation.Keeps library Value.MarksEmbedding := by
  intro taken
  cases operation with
  | v4 bits => exact holds_address.mpr (Address.marksEmbedding_v4 bits)
  | v6 bits mark => exact absurd trivial notOverridden
  | ofV6 bits => exact holds_address.mpr (Address.marksEmbedding_ofV6 bits)
  | zero family => exact holds_address.mpr (Address.marksEmbedding_zero family)
  | ofOctets octets =>
      refine holds_outcome (ofOctets_holdsInError octets) ?_
      intro address accepted
      exact holds_address.mpr (Address.marksEmbedding_of_ofOctets accepted)
  | ofNat family value =>
      refine holds_outcome (ofNat_holdsInError (Address.marksEmbedding_zero family) value) ?_
      intro address accepted
      exact holds_address.mpr (Address.marksEmbedding_of_ofNat accepted)
  | ofInt family value =>
      refine holds_outcome (ofInt_holdsInError (Address.marksEmbedding_zero family) value) ?_
      intro address accepted
      exact holds_address.mpr (Address.marksEmbedding_of_ofInt accepted)
  | ofPlain plain => exact holds_address.mpr (Address.marksEmbedding_toAddress plain)
  | linkLocal mac => exact holds_address.mpr (Address.marksEmbedding_ofV6 _)
  | parseAddress kind literal =>
      refine holds_outcome (parseAddress_holdsInError kind literal) ?_
      intro address accepted
      exact holds_address.mpr (Address.marksEmbedding_of_parse accepted)
  | receiveAddress message =>
      refine holds_outcome (parseAddress_holdsInError .host message) ?_
      intro address accepted
      exact holds_address.mpr (Address.marksEmbedding_of_parse accepted)
  | withMark mark address =>
      have mark_eq : mark = true := Bool.of_not_eq_false notOverridden
      rw [mark_eq]
      exact holds_address.mpr address.marksEmbedding_withMark_true
  | add address offset =>
      refine holds_outcome (add_holdsInError (holds_address.mp taken) offset) ?_
      intro shifted accepted
      exact holds_address.mpr (Address.marksEmbedding_of_add accepted)
  | sub address offset =>
      refine holds_outcome (add_holdsInError (holds_address.mp taken) (-offset)) ?_
      intro shifted accepted
      exact holds_address.mpr (Address.marksEmbedding_of_add accepted)
  | difference left right | compareWithin left right =>
      obtain ⟨leftMarked, rightMarked⟩ := holds_pair.mp taken
      exact holds_comparison (holds_address.mp leftMarked) (holds_address.mp rightMarked) nofun
  | next address =>
      refine holds_option.mpr ?_
      intro next found
      exact holds_address.mpr (Address.marksEmbedding_of_next? found)
  | previous address =>
      refine holds_option.mpr ?_
      intro previous found
      exact holds_address.mpr (Address.marksEmbedding_of_previous? found)
  | embeddedV4 address =>
      refine holds_option.mpr ?_
      intro embedded found
      obtain ⟨bits, _, _, _, rfl⟩ := Address.embeddedV4?_eq_some_iff.mp found
      exact holds_address.mpr (Address.marksEmbedding_v4 _)
  | solicitedNode address =>
      refine holds_option.mpr ?_
      intro group found
      exact holds_address.mpr (Address.marksEmbedding_of_solicitedNode? found)
  | ofBase address prefixLen =>
      refine holds_outcome (ofBase_holdsInError address prefixLen) ?_
      intro network built
      obtain ⟨rfl, _⟩ := Network.ofBase_eq_ok_iff.mp built
      exact holds_network.mpr (holds_address.mp taken)
  | covering address prefixLen =>
      refine holds_outcome (covering_holdsInError address prefixLen) ?_
      intro network covered
      obtain ⟨_, rfl⟩ := Network.covering_eq_ok_iff.mp covered
      exact holds_network.mpr (Address.marksEmbedding_withValue _ _)
  | parseNetwork literal | receiveNetwork literal =>
      refine holds_outcome (parseNetwork_holdsInError literal) ?_
      intro network accepted
      exact holds_network.mpr (Network.marksEmbedding_of_parse accepted)
  | plainNetwork kept =>
      refine holds_outcome (ofBase_holdsInError _ _) ?_
      intro network built
      obtain ⟨rfl, _⟩ := Network.ofBase_eq_ok_iff.mp built
      exact holds_network.mpr (Address.marksEmbedding_toAddress _)
  | interfaceNetwork interface => exact holds_network.mpr (Address.marksEmbedding_withValue _ _)
  | nextBlock network =>
      refine holds_option.mpr ?_
      intro next found
      exact holds_network.mpr (Network.marksEmbedding_of_nextBlock? found)
  | previousBlock network =>
      refine holds_option.mpr ?_
      intro previous found
      exact holds_network.mpr (Network.marksEmbedding_of_previousBlock? found)
  | splitByPower network power =>
      have marked := holds_network.mp taken
      refine holds_outcome (splitByPower_holdsInError marked power) ?_
      intro blocks accepted
      exact holds_networks.mpr (Network.marksEmbedding_of_splitByPower marked accepted)
  | splitByCount network count =>
      have marked := holds_network.mp taken
      refine holds_outcome (splitByCount_holdsInError marked count) ?_
      intro blocks accepted
      exact holds_networks.mpr (Network.marksEmbedding_of_splitByPower marked
        (Network.splitByPower_log2_of_splitByCount accepted))
  | split network =>
      have marked := holds_network.mp taken
      refine holds_outcome (splitByPower_holdsInError marked 1) ?_
      intro blocks accepted
      exact holds_networks.mpr (Network.marksEmbedding_of_splitByPower marked accepted)
  | merge networks =>
      have marked := holds_networks.mp taken
      refine holds_outcome (merge_holdsInError marked) ?_
      intro merged accepted
      exact holds_network.mpr
        (Network.marksEmbedding_of_merge (holds_networks.mp valid) marked accepted)
  | base network => exact holds_address.mpr (holds_network.mp taken)
  | netmask | wildcard | low | high => exact holds_withValue _ _
  | lowestUsable network | lowestUsableWith network =>
      exact holds_address.mpr (network.marksEmbedding_lowestUsableWith _)
  | highestUsable network | highestUsableWith network =>
      exact holds_address.mpr (network.marksEmbedding_highestUsableWith _)
  | usableRange network =>
      refine holds_option.mpr ?_
      intro range found
      unfold Network.usableRange? at found
      split at found
      · cases found
        exact holds_pair.mpr
          ⟨holds_address.mpr (network.marksEmbedding_lowestUsableWith _),
            holds_address.mpr (network.marksEmbedding_highestUsableWith _)⟩
      · cases found
  | broadcast network => exact holds_broadcast? network
  | summary network =>
      exact holds_summary.mpr ⟨holds_network.mp taken, Address.marksEmbedding_withValue _ _,
        Address.marksEmbedding_withValue _ _, holds_broadcast? network⟩
  | contains network address =>
      obtain ⟨networkMarked, addressMarked⟩ := holds_pair.mp taken
      exact holds_comparison (holds_network.mp networkMarked) (holds_address.mp addressMarked) nofun
  | containsNetwork left right | compareSpan left right =>
      obtain ⟨leftMarked, rightMarked⟩ := holds_pair.mp taken
      exact holds_comparison (holds_network.mp leftMarked) (holds_network.mp rightMarked) nofun
  | ofAddress address prefixLen =>
      refine holds_outcome (ofAddress_holdsInError address prefixLen) ?_
      intro interface built
      obtain ⟨_, _, finished⟩ := bind_eq_ok_iff.mp built
      cases finished
      exact holds_interface.mpr (holds_address.mp taken)
  | host address => exact holds_interface.mpr (holds_address.mp taken)
  | parseInterface literal | receiveInterface literal =>
      refine holds_outcome (parseInterface_holdsInError literal) ?_
      intro interface accepted
      exact holds_interface.mpr (Interface.marksEmbedding_of_parse accepted)
  | plainInterface kept => exact holds_interface.mpr (Address.marksEmbedding_toAddress _)
  | interfaceAddress interface => exact holds_address.mpr (holds_interface.mp taken)

theorem marksEmbedding_of_mem_run
    (bounded : ∀ kept, library.prefixLen kept ≤ (library.address kept).width)
    {operations : List (Operation α)}
    (notOverridden : ∀ operation ∈ operations, ¬ operation.OverridesMark) {value : Value}
    (member : value ∈ run library operations) : value.MarksEmbedding := by
  -- Merging keeps marks for valid networks only, so the two invariants go together.
  have keeps : ∀ operation ∈ operations,
      operation.Keeps library fun value => value.Valid ∧ value.MarksEmbedding := by
    intro operation performed taken given isGiven
    have takenValid : ∀ value ∈ (operation.effect library).takes, value.Valid :=
      fun value isTaken => (taken value isTaken).1
    have takenMarked : ∀ value ∈ (operation.effect library).takes, value.MarksEmbedding :=
      fun value isTaken => (taken value isTaken).2
    exact ⟨operation.keeps_valid bounded takenValid given isGiven,
      Operation.keeps_marksEmbedding (notOverridden operation performed) takenValid takenMarked
        given isGiven⟩
  exact (forall_mem_run keeps value member).2

/-- In a session that overrides no mark, every address whose octets embed IPv4 is marked, and its
text ends in the text of the embedded address. The other library's prefixes must not be longer than
their addresses, or their networks would be invalid. -/
theorem embedding_shown_of_mem_run
    (bounded : ∀ kept, library.prefixLen kept ≤ (library.address kept).width)
    {operations : List (Operation α)}
    (notOverridden : ∀ operation ∈ operations, ¬ operation.OverridesMark) :
    ∀ value ∈ run library operations,
      (Octets.Embeds value.inner.octets → value.inner.mark = true) ∧
        ∀ embedded, value.inner.embeddedV4? = some embedded →
          ∃ groups : List (List Char), groups.length = 6 ∧
            (∀ group ∈ groups, group.length = 4 ∧ group.all Text.Hex.isDigit = true) ∧
            value.inner.text =
              String.ofList ([':'].intercalate groups) ++ ":" ++ embedded.text := by
  intro value member
  have marks : value.inner.MarksEmbedding :=
    marksEmbedding_of_mem_run bounded notOverridden member
  refine ⟨marks, ?_⟩
  intro embedded found
  exact Address.text_eq_of_embeddedV4? (marks.mark_of_embeddedV4? found) found

/-- The blocks have no dotted quad in their literals. The merged network is given by the merge
alone. -/
theorem embedding_shown_of_mem_run_merged :
    (∀ operation ∈ ([.parseNetwork "::100:0/105", .nextBlock ⟨.v6 0x01000000 true, 105⟩,
        .merge [⟨.v6 0x01000000 true, 105⟩, ⟨.v6 0x01800000 true, 105⟩]] :
          List (Operation PlainPrefix)), ¬ operation.OverridesMark) ∧
    Value.network ⟨.v6 0x01000000 true, 104⟩ ∈
      run PlainPrefix.library [.parseNetwork "::100:0/105", .nextBlock ⟨.v6 0x01000000 true, 105⟩,
        .merge [⟨.v6 0x01000000 true, 105⟩, ⟨.v6 0x01800000 true, 105⟩]] ∧
    ∃ groups : List (List Char), groups.length = 6 ∧
      (∀ group ∈ groups, group.length = 4 ∧ group.all Text.Hex.isDigit = true) ∧
      (Address.v6 0x01000000 true).text =
        String.ofList ([':'].intercalate groups) ++ ":" ++ (Address.v4 0x01000000).text := by
  have notOverridden : ∀ operation ∈ ([.parseNetwork "::100:0/105",
      .nextBlock ⟨.v6 0x01000000 true, 105⟩,
      .merge [⟨.v6 0x01000000 true, 105⟩, ⟨.v6 0x01800000 true, 105⟩]] :
        List (Operation PlainPrefix)), ¬ operation.OverridesMark := by
    simp [Operation.OverridesMark]
  have member : Value.network ⟨.v6 0x01000000 true, 104⟩ ∈
      run PlainPrefix.library [.parseNetwork "::100:0/105", .nextBlock ⟨.v6 0x01000000 true, 105⟩,
        .merge [⟨.v6 0x01000000 true, 105⟩, ⟨.v6 0x01800000 true, 105⟩]] := by
    decide
  have shown := (embedding_shown_of_mem_run PlainPrefix.prefixLen_le notOverridden _ member).2
    (.v4 0x01000000) (by decide)
  exact ⟨notOverridden, member, shown⟩

-- A mark that is cleared by hand stays away.
example : Value.address (.v6 0x01000000 false) ∈
    run PlainPrefix.library [.ofV6 0x01000000, .withMark false (.v6 0x01000000 true)] := by decide

end Netblock.Session
