import Mathlib.Data.List.Basic
import Netblock.MacAddress.InterfaceId
import Netblock.Network.Merge
import Netblock.Network.Split
import Netblock.Plain
import Netblock.Proofs.Outcome
import Netblock.Report
import Netblock.Textual
/-!
# Sessions

A session performs one operation of the library after the other. An operation takes its addresses,
networks and interfaces from what earlier ones gave; texts, numbers, octets, MAC addresses and the
prefixes of another library come from outside. What an error holds counts as given, too.

An invariant of sessions is a property that every operation hands on from what it takes to what it
gives: `forall_mem_run`.
-/

set_option autoImplicit false

namespace Netblock.Session

inductive Value where
  | address (address : Address)
  | network (network : Network)
  | interface (interface : Interface)
  deriving DecidableEq

/-- The operations that give addresses, networks or interfaces, or hold some in their errors. An
interface has the masks and the broadcast address of its network, so they are not listed again. -/
inductive Operation (α : Type) where
  -- addresses from outside
  | v4 (bits : BitVec 32)
  | v6 (bits : BitVec 128) (mark : Bool)
  | ofV6 (bits : BitVec 128)
  | zero (family : Family)
  | ofOctets (octets : List Octet)
  | ofNat (family : Family) (value : Nat)
  | ofInt (family : Family) (value : Int)
  | ofPlain (plain : PlainAddress)
  | linkLocal (mac : MacAddress)
  | parseAddress (kind : LiteralKind) (literal : String)
  | receiveAddress (message : String)
  -- addresses from addresses
  | withMark (mark : Bool) (address : Address)
  | add (address : Address) (offset : Int)
  | sub (address : Address) (offset : Int)
  | difference (left right : Address)
  | compareWithin (left right : Address)
  | next (address : Address)
  | previous (address : Address)
  | embeddedV4 (address : Address)
  | solicitedNode (address : Address)
  -- networks
  | ofBase (address : Address) (prefixLen : Nat)
  | covering (address : Address) (prefixLen : Nat)
  | parseNetwork (literal : String)
  | receiveNetwork (message : String)
  | plainNetwork (kept : α)
  | interfaceNetwork (interface : Interface)
  | nextBlock (network : Network)
  | previousBlock (network : Network)
  | splitByPower (network : Network) (power : Nat)
  | splitByCount (network : Network) (count : Nat)
  | split (network : Network)
  | merge (networks : List Network)
  -- addresses of networks
  | base (network : Network)
  | netmask (network : Network)
  | wildcard (network : Network)
  | low (network : Network)
  | high (network : Network)
  | lowestUsable (network : Network)
  | highestUsable (network : Network)
  | lowestUsableWith (network : Network) (rule : UsableRule)
  | highestUsableWith (network : Network) (rule : UsableRule)
  | usableRange (network : Network)
  | broadcast (network : Network)
  | summary (network : Network)
  | contains (network : Network) (address : Address)
  | containsNetwork (outer inner : Network)
  | compareSpan (left right : Network)
  -- interfaces
  | ofAddress (address : Address) (prefixLen : Nat)
  | host (address : Address)
  | parseInterface (literal : String)
  | receiveInterface (message : String)
  | plainInterface (kept : α)
  | interfaceAddress (interface : Interface)

/-!
### What results hold
-/

class Contents (α : Type) where
  contents : α → List Value

export Contents (contents)

instance : Contents Address := ⟨fun address => [.address address]⟩

instance : Contents Network := ⟨fun network => [.network network]⟩

instance : Contents Interface := ⟨fun interface => [.interface interface]⟩

instance : Contents Bool := ⟨fun _ => []⟩

instance : Contents Int := ⟨fun _ => []⟩

instance : Contents Ordering := ⟨fun _ => []⟩

instance {α : Type} [Contents α] : Contents (Option α) :=
  ⟨fun result? => result?.toList.flatMap contents⟩

instance {α : Type} [Contents α] : Contents (List α) := ⟨fun results => results.flatMap contents⟩

instance {α β : Type} [Contents α] [Contents β] : Contents (α × β) :=
  ⟨fun pair => contents pair.1 ++ contents pair.2⟩

instance : Contents Network.Summary :=
  ⟨fun summary => .network summary.network :: .address summary.netmask ::
    .address summary.wildcard :: contents summary.broadcast?⟩

instance : Contents Error where
  contents
    | .mixedFamilies left right => [.address left, .address right]
    | .outsideSpace base _ => [.address base]
    | .tooFewHostBits network _ => [.network network]
    | .splitCountTooLow network _ => [.network network]
    | .splitCountTooHigh network _ => [.network network]
    | .splitCountNotPowerOfTwo network _ => [.network network]
    | .splitPower network _ => [.network network]
    | .malformed .. | .prefixLen .. | .hostBits .. => []
    | .mergeCount .. | .mergeAnyAddress .. | .mergeOrder .. => []

instance {α : Type} [Contents α] : Contents (Except Error α) where
  contents
    | .ok result => contents result
    | .error error => contents error

/-- The property holds of each value in the result. -/
def Holds {α : Type} [Contents α] (property : Value → Prop) (result : α) : Prop :=
  ∀ value ∈ contents result, property value

section

variable {α β : Type} [Contents α] [Contents β] {property : Value → Prop}

theorem holds_address {address : Address} :
    Holds property address ↔ property (.address address) :=
  List.forall_mem_singleton

theorem holds_network {network : Network} :
    Holds property network ↔ property (.network network) :=
  List.forall_mem_singleton

theorem holds_interface {interface : Interface} :
    Holds property interface ↔ property (.interface interface) :=
  List.forall_mem_singleton

theorem holds_list {results : List α} :
    Holds property results ↔ ∀ result ∈ results, Holds property result := by
  constructor
  · intro held result member value inside
    exact held value (List.mem_flatMap.mpr ⟨result, member, inside⟩)
  · intro held value inside
    obtain ⟨result, member, inResult⟩ := List.mem_flatMap.mp inside
    exact held result member value inResult

theorem holds_networks {networks : List Network} :
    Holds property networks ↔ ∀ network ∈ networks, property (.network network) := by
  rw [holds_list]
  exact forall₂_congr fun _ _ => holds_network

theorem holds_option {result? : Option α} :
    Holds property result? ↔ ∀ result, result? = some result → Holds property result := by
  have asList : Holds property result? ↔ Holds property result?.toList := Iff.rfl
  rw [asList, holds_list]
  simp only [Option.mem_toList]

theorem holds_pair {left : α} {right : β} :
    Holds property (left, right) ↔ Holds property left ∧ Holds property right :=
  List.forall_mem_append

theorem holds_summary {summary : Network.Summary} :
    Holds property summary ↔
      property (.network summary.network) ∧ property (.address summary.netmask) ∧
        property (.address summary.wildcard) ∧ Holds property summary.broadcast? := by
  change (∀ value ∈ .network summary.network :: .address summary.netmask ::
    .address summary.wildcard :: contents summary.broadcast?, property value) ↔ _
  rw [List.forall_mem_cons, List.forall_mem_cons, List.forall_mem_cons]
  exact Iff.rfl

/-- The property holds of each value that the outcome holds if it is an error. -/
def HoldsInError (property : Value → Prop) (outcome : Except Error α) : Prop :=
  ∀ error, outcome = .error error → Holds property error

theorem holds_outcome {outcome : Except Error α} (inError : HoldsInError property outcome)
    (inResult : ∀ result, outcome = .ok result → Holds property result) :
    Holds property outcome := by
  cases outcome with
  | ok result => exact inResult result rfl
  | error error => exact inError error rfl

end

/-!
### Performing operations
-/

structure Effect where
  takes : List Value
  gives : List Value

section

variable {α : Type} (library : PrefixLibrary α)

def Operation.effect : Operation α → Effect
  | .v4 bits => ⟨[], contents (Address.v4 bits)⟩
  | .v6 bits mark => ⟨[], contents (Address.v6 bits mark)⟩
  | .ofV6 bits => ⟨[], contents (Address.ofV6 bits)⟩
  | .zero family => ⟨[], contents (Address.zero family)⟩
  | .ofOctets octets => ⟨[], contents (Address.ofOctets octets)⟩
  | .ofNat family value => ⟨[], contents (Address.ofNat family value)⟩
  | .ofInt family value => ⟨[], contents (Address.ofInt family value)⟩
  | .ofPlain plain => ⟨[], contents plain.toAddress⟩
  | .linkLocal mac => ⟨[], contents mac.linkLocal⟩
  | .parseAddress kind literal => ⟨[], contents (Address.parse kind literal)⟩
  | .receiveAddress message => ⟨[], contents (Textual.parse message : Except Error Address)⟩
  | .withMark mark address => ⟨contents address, contents (address.withMark mark)⟩
  | .add address offset => ⟨contents address, contents (address.add offset)⟩
  | .sub address offset => ⟨contents address, contents (address.sub offset)⟩
  | .difference left right => ⟨contents (left, right), contents (left.difference right)⟩
  | .compareWithin left right => ⟨contents (left, right), contents (left.compareWithin right)⟩
  | .next address => ⟨contents address, contents address.next?⟩
  | .previous address => ⟨contents address, contents address.previous?⟩
  | .embeddedV4 address => ⟨contents address, contents address.embeddedV4?⟩
  | .solicitedNode address => ⟨contents address, contents address.solicitedNode?⟩
  | .ofBase address prefixLen => ⟨contents address, contents (Network.ofBase address prefixLen)⟩
  | .covering address prefixLen =>
      ⟨contents address, contents (Network.covering address prefixLen)⟩
  | .parseNetwork literal => ⟨[], contents (Network.parse literal)⟩
  | .receiveNetwork message => ⟨[], contents (Textual.parse message : Except Error Network)⟩
  | .plainNetwork kept => ⟨[], contents (library.toNetwork kept)⟩
  | .interfaceNetwork interface => ⟨contents interface, contents interface.network⟩
  | .nextBlock network => ⟨contents network, contents network.nextBlock?⟩
  | .previousBlock network => ⟨contents network, contents network.previousBlock?⟩
  | .splitByPower network power => ⟨contents network, contents (network.splitByPower power)⟩
  | .splitByCount network count => ⟨contents network, contents (network.splitByCount count)⟩
  | .split network => ⟨contents network, contents network.split⟩
  | .merge networks => ⟨contents networks, contents (Network.merge networks)⟩
  | .base network => ⟨contents network, contents network.base⟩
  | .netmask network => ⟨contents network, contents network.netmask⟩
  | .wildcard network => ⟨contents network, contents network.wildcard⟩
  | .low network => ⟨contents network, contents network.low⟩
  | .high network => ⟨contents network, contents network.high⟩
  | .lowestUsable network => ⟨contents network, contents network.lowestUsable⟩
  | .highestUsable network => ⟨contents network, contents network.highestUsable⟩
  | .lowestUsableWith network rule => ⟨contents network, contents (network.lowestUsableWith rule)⟩
  | .highestUsableWith network rule =>
      ⟨contents network, contents (network.highestUsableWith rule)⟩
  | .usableRange network => ⟨contents network, contents network.usableRange?⟩
  | .broadcast network => ⟨contents network, contents network.broadcast?⟩
  | .summary network => ⟨contents network, contents network.summary⟩
  | .contains network address => ⟨contents (network, address), contents (network.contains address)⟩
  | .containsNetwork outer inner =>
      ⟨contents (outer, inner), contents (outer.containsNetwork inner)⟩
  | .compareSpan left right => ⟨contents (left, right), contents (left.compareSpan right)⟩
  | .ofAddress address prefixLen =>
      ⟨contents address, contents (Interface.ofAddress address prefixLen)⟩
  | .host address => ⟨contents address, contents (Interface.host address)⟩
  | .parseInterface literal => ⟨[], contents (Interface.parse literal)⟩
  | .receiveInterface message => ⟨[], contents (Textual.parse message : Except Error Interface)⟩
  | .plainInterface kept => ⟨[], contents (library.toInterface kept)⟩
  | .interfaceAddress interface => ⟨contents interface, contents interface.address⟩

/-- An operation is refused if something that it takes was never given. -/
def step (history : List Value) (operation : Operation α) : List Value :=
  if ∀ value ∈ (operation.effect library).takes, value ∈ history then
    (operation.effect library).gives ++ history
  else
    history

/-- All that is given by operations performed in a row. -/
def run (operations : List (Operation α)) : List Value :=
  operations.foldl (step library) []

/-- The property holds of all that the operation gives if it holds of all that it takes. -/
def Operation.Keeps (property : Value → Prop) (operation : Operation α) : Prop :=
  (∀ value ∈ (operation.effect library).takes, property value) →
    ∀ value ∈ (operation.effect library).gives, property value

end

/-!
### Invariants
-/

variable {α : Type} {library : PrefixLibrary α} {property : Value → Prop}

theorem forall_mem_step {history : List Value} {operation : Operation α}
    (keeps : operation.Keeps library property) (held : ∀ value ∈ history, property value) :
    ∀ value ∈ step library history operation, property value := by
  unfold step
  split
  · next taken =>
      intro value member
      rcases List.mem_append.mp member with given | earlier
      · exact keeps (fun operand operandTaken => held operand (taken operand operandTaken))
          value given
      · exact held value earlier
  · exact held

theorem forall_mem_foldl_step {operations : List (Operation α)} {history : List Value}
    (keeps : ∀ operation ∈ operations, operation.Keeps library property)
    (held : ∀ value ∈ history, property value) :
    ∀ value ∈ operations.foldl (step library) history, property value := by
  induction operations generalizing history with
  | nil => exact held
  | cons operation operations ih =>
      rw [List.foldl_cons]
      apply ih
      · intro later member
        exact keeps later (List.mem_cons_of_mem _ member)
      · exact forall_mem_step (keeps operation List.mem_cons_self) held

theorem forall_mem_run {operations : List (Operation α)}
    (keeps : ∀ operation ∈ operations, operation.Keeps library property) :
    ∀ value ∈ run library operations, property value :=
  forall_mem_foldl_step keeps nofun

end Netblock.Session
