import Netblock.Proofs.Session
import Netblock.Proofs.SlashLiteral
/-!
# What errors hold

An error of a parser or of a constructor holds no address or network. Other errors hold operands,
the base of an operand, or the zero address of a family. So an invariant of sessions that covers
bases and zero addresses holds of all that errors bring back.
-/

set_option autoImplicit false

namespace Netblock.Session

variable {α β : Type} {property : Value → Prop}

namespace HoldsInError

theorem ok {result : α} : HoldsInError property (.ok result : Except Error α) :=
  nofun

theorem error {error : Error} (held : Holds property error) :
    HoldsInError property (.error error : Except Error α) := by
  intro _ same
  cases same
  exact held

theorem bind {first : Except Error α} {next : α → Except Error β}
    (inFirst : HoldsInError property first) (inNext : ∀ result, HoldsInError property (next result)) :
    HoldsInError property (first >>= next) := by
  cases first with
  | ok result => exact inNext result
  | error error =>
      intro _ same
      cases same
      exact inFirst error rfl

theorem mapError {ε : Type} {outcome : Except ε α} {explain : ε → Error}
    (held : ∀ reason, Holds property (explain reason)) :
    HoldsInError property (outcome.mapError explain) := by
  cases outcome with
  | ok _ => exact .ok
  | error reason => exact .error (held reason)

end HoldsInError

/-!
### Errors that hold nothing
-/

theorem parseAddress_holdsInError (kind : LiteralKind) (literal : String) :
    HoldsInError property (Address.parse kind literal) :=
  .mapError fun _ => nofun

theorem ofOctets_holdsInError (octets : List Octet) :
    HoldsInError property (Address.ofOctets octets) := by
  unfold Address.ofOctets
  split
  · exact .ok
  · exact .error nofun

theorem checkPrefixLen_holdsInError (address : Address) (prefixLen : Nat) :
    HoldsInError property (address.checkPrefixLen prefixLen) := by
  unfold Address.checkPrefixLen
  split
  · exact .ok
  · exact .error nofun

theorem ofBase_holdsInError (address : Address) (prefixLen : Nat) :
    HoldsInError property (Network.ofBase address prefixLen) := by
  unfold Network.ofBase
  refine .bind (checkPrefixLen_holdsInError address prefixLen) ?_
  intro _
  split
  · exact .ok
  · exact .error nofun

theorem covering_holdsInError (address : Address) (prefixLen : Nat) :
    HoldsInError property (Network.covering address prefixLen) :=
  .bind (checkPrefixLen_holdsInError address prefixLen) fun _ => .ok

theorem ofAddress_holdsInError (address : Address) (prefixLen : Nat) :
    HoldsInError property (Interface.ofAddress address prefixLen) :=
  .bind (checkPrefixLen_holdsInError address prefixLen) fun _ => .ok

theorem readPrefixLen_holdsInError (literal : List Char) (width : Nat) (text : List Char) :
    HoldsInError property (readPrefixLen literal width text) := by
  unfold readPrefixLen
  split
  · split
    · exact .ok
    · exact .error nofun
  · exact .error nofun

theorem givenPrefixLen_holdsInError (literal : List Char) (width implied : Nat)
    (prefixText? : Option (List Char)) :
    HoldsInError property (givenPrefixLen literal width implied prefixText?) := by
  cases prefixText? with
  | none => exact .ok
  | some text => exact readPrefixLen_holdsInError literal width text

theorem parseNetwork_holdsInError (literal : String) :
    HoldsInError property (Network.parse literal) := by
  rw [Network.parse_eq]
  refine .bind (.mapError fun _ => nofun) ?_
  intro sides
  refine .bind (givenPrefixLen_holdsInError _ _ _ _) ?_
  intro prefixLen
  split
  · exact .ok
  · exact .error nofun

theorem parseInterface_holdsInError (literal : String) :
    HoldsInError property (Interface.parse literal) := by
  rw [Interface.parse_eq]
  refine .bind (.mapError fun _ => nofun) ?_
  intro sides
  exact .bind (givenPrefixLen_holdsInError _ _ _ _) fun _ => .ok

/-!
### Errors that hold operands
-/

theorem ofNat_holdsInError {family : Family} (held : property (.address (.zero family)))
    (value : Nat) : HoldsInError property (Address.ofNat family value) := by
  unfold Address.ofNat
  split
  · exact .ok
  · exact .error (holds_address.mpr held)

theorem ofInt_holdsInError {family : Family} (held : property (.address (.zero family)))
    (value : Int) : HoldsInError property (Address.ofInt family value) := by
  cases value with
  | ofNat value => exact ofNat_holdsInError held value
  | negSucc value => exact .error (holds_address.mpr held)

theorem add_holdsInError {address : Address} (held : property (.address address))
    (offset : Int) : HoldsInError property (address.add offset) := by
  unfold Address.add
  dsimp only
  split
  · exact .ok
  · exact .error (holds_address.mpr held)

theorem checkSameFamily_holdsInError {left right : Address} (heldLeft : property (.address left))
    (heldRight : property (.address right)) :
    HoldsInError property (left.checkSameFamily right) := by
  unfold Address.checkSameFamily
  split
  · exact .ok
  · exact .error (holds_pair.mpr ⟨holds_address.mpr heldLeft, holds_address.mpr heldRight⟩)

/-- A comparison of two operands, which are refused if their families differ. -/
theorem holds_comparison [Contents α] {left right : Address} {result : α}
    (heldLeft : property (.address left)) (heldRight : property (.address right))
    (inResult : Holds property result) :
    Holds property (do left.checkSameFamily right; return result : Except Error α) := by
  refine holds_outcome ?_ ?_
  · exact .bind (checkSameFamily_holdsInError heldLeft heldRight) fun _ => .ok
  · intro compared accepted
    obtain ⟨_, _, finished⟩ := bind_eq_ok_iff.mp accepted
    cases finished
    exact inResult

theorem splitByPower_holdsInError {network : Network} (held : property (.network network))
    (power : Nat) : HoldsInError property (network.splitByPower power) := by
  unfold Network.splitByPower
  split
  · exact .error (holds_network.mpr held)
  · split
    · exact .error (holds_network.mpr held)
    · exact .ok

theorem splitByCount_holdsInError {network : Network} (held : property (.network network))
    (count : Nat) : HoldsInError property (network.splitByCount count) := by
  unfold Network.splitByCount
  split
  · exact .error (holds_network.mpr held)
  · split
    · exact .error (holds_network.mpr held)
    · split
      · exact .error (holds_network.mpr held)
      · exact splitByPower_holdsInError held _

theorem checkChain_holdsInError {networks : List Network}
    (held : ∀ network ∈ networks, property (.address network.base)) (count index : Nat) :
    HoldsInError property (Network.checkChain count index networks) := by
  induction networks generalizing index with
  | nil => exact .ok
  | cons network rest ih =>
      cases rest with
      | nil => exact .ok
      | cons following rest =>
          rw [Network.checkChain]
          split
          · have heldFirst := held network List.mem_cons_self
            have heldSecond := held following (List.mem_cons_of_mem _ List.mem_cons_self)
            exact .error
              (holds_pair.mpr ⟨holds_address.mpr heldFirst, holds_address.mpr heldSecond⟩)
          · split
            · exact .error nofun
            · exact ih (fun later member => held later (List.mem_cons_of_mem _ member)) _

theorem merge_holdsInError {networks : List Network}
    (held : ∀ network ∈ networks, property (.address network.base)) :
    HoldsInError property (Network.merge networks) := by
  cases networks with
  | nil => exact .error nofun
  | cons first rest =>
      unfold Network.merge
      dsimp only
      split
      · exact .error nofun
      · refine .bind (checkChain_holdsInError held _ _) ?_
        intro _
        split
        · exact .error nofun
        · split
          · exact .error nofun
          · exact .ok

end Netblock.Session
