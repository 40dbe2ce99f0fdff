import Netblock.Network.Basic
import Netblock.Text.Malformation
/-!
# Errors

Each error names its cause and the operands that show it. `message` words it, and `kind` puts
it into one of seven categories.
-/

set_option autoImplicit false

namespace Netblock

inductive Error where
  | malformed (literal : String) (reason : Text.Malformation)
  | prefixLen (literal given : String)
  | hostBits (literal : String)
  | mixedFamilies (left right : Address)
  | outsideSpace (base : Address) (offset : Int)
  | tooFewHostBits (network : Network) (power : Nat)
  | splitCountTooLow (network : Network) (count : Nat)
  | splitCountTooHigh (network : Network) (count : Nat)
  | splitCountNotPowerOfTwo (network : Network) (count : Nat)
  | splitPower (network : Network) (power : Nat)
  | mergeCount (count : Nat)
  | mergeAnyAddress (count : Nat)
  | mergeOrder (count index : Nat)
  deriving DecidableEq

namespace Error

inductive Kind where
  | format
  | hostBits
  | family
  | range
  | freeBits
  | count
  | mergeInput
  deriving DecidableEq

def kind : Error → Kind
  | malformed .. => .format
  | prefixLen .. => .format
  | hostBits .. => .hostBits
  | mixedFamilies .. => .family
  | outsideSpace .. => .range
  | tooFewHostBits .. => .freeBits
  | splitCountTooLow .. => .count
  | splitCountTooHigh .. => .count
  | splitCountNotPowerOfTwo .. => .count
  | splitPower .. => .count
  | mergeCount .. => .count
  | mergeAnyAddress .. => .mergeInput
  | mergeOrder .. => .mergeInput

private def tooLow : String := "value is lower than 2"

private def tooHigh : String := "value is higher than 2^30"

private def splitMessage (network : Network) (parts problem : String) : String :=
  "unable to split " ++ network.text ++ " into " ++ parts ++ " network(s): " ++ problem

private def mergeMessage (count : Nat) (problem : String) : String :=
  "unable to merge " ++ Text.Decimal.text count ++ " networks into one: " ++ problem

def message : Error → String
  | malformed literal reason =>
      "invalid address, network or MAC literal: '" ++ literal ++ "': " ++ reason.description
  | prefixLen literal given =>
      "invalid prefix length '" ++ given ++ "' in '" ++ literal ++ "'"
  | hostBits literal => "host bits not all zero: '" ++ literal ++ "'"
  | mixedFamilies left right =>
      "cannot mix IPv4 and IPv6 operands: " ++ left.text ++ " - " ++ right.text
  | outsideSpace base offset =>
      "result outside of the address space: " ++ base.text ++ " + (" ++
        Text.Decimal.signedText offset ++ ")"
  | tooFewHostBits network power =>
      splitMessage network ("2^" ++ Text.Decimal.text power) "not enough free bits in netmask"
  | splitCountTooLow network count => splitMessage network (Text.Decimal.text count) tooLow
  | splitCountTooHigh network count => splitMessage network (Text.Decimal.text count) tooHigh
  | splitCountNotPowerOfTwo network count =>
      splitMessage network (Text.Decimal.text count) "value is not a valid power of 2"
  | splitPower network power =>
      splitMessage network ("2^" ++ Text.Decimal.text power) (if power = 0 then tooLow else tooHigh)
  | mergeCount count => mergeMessage count "invalid number of sub-networks"
  | mergeAnyAddress count => mergeMessage count "any address"
  | mergeOrder count index =>
      mergeMessage count
        ("arguments not in order or invalid (#" ++ Text.Decimal.text index ++ ")")

end Error

end Netblock
