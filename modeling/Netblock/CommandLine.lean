import Netblock.Network.Literal
import Netblock.Network.Split
import Netblock.Report
/-!
# Command line

The arguments are a network and, if it is to be split, a number of sub-networks. The report on
the network is printed before the split is tried, so that a failed split follows a full report.
-/

set_option autoImplicit false

namespace Netblock.CommandLine

open Netblock.Text

/-- What tells the operands among the arguments, or refuses the arguments. -/
abbrev OperandReader :=
  List String → Option (List String)

/-- The reader of this program. An argument is an option if it starts with a dash and goes on after
it; the first `--` is dropped, and after it nothing is an option. There are no options to give, so
the first one refuses the arguments. -/
def operands? : OperandReader
  | [] => some []
  | argument :: rest =>
      if argument = "--" then some rest
      else if argument.toList.head? = some '-' ∧ argument ≠ "-" then none
      else (operands? rest).map (argument :: ·)

/-- A count of 64 bits in decimal, which may carry a plus sign. -/
def readCount? (text : List Char) : Option Nat :=
  (Decimal.read? (if text.head? = some '+' then text.tail else text)).filter (· < 2 ^ 64)

structure Request where
  network : Network
  count? : Option Nat
  deriving DecidableEq

def Request.ofOperands? : List String → Option Request
  | [network] => do return ⟨← (Network.parse network).toOption, none⟩
  | [network, count] => do
      return ⟨← (Network.parse network).toOption, some (← readCount? count.toList)⟩
  | _ => none

def Request.ofArguments? (readOperands? : OperandReader) (arguments : List String) :
    Option Request :=
  (readOperands? arguments).bind Request.ofOperands?

/-- What a run prints, and the error that ends it if there is one. -/
structure Output where
  lines : List String
  error? : Option Error
  deriving DecidableEq

def Request.run (request : Request) : Output :=
  let report := request.network.report
  match request.count? with
  | none => ⟨report, none⟩
  | some count =>
      match request.network.splitByCount count with
      | .ok blocks => ⟨report ++ blocks.map Network.text, none⟩
      | .error error => ⟨report, some error⟩

/-- Nothing is printed for arguments that are refused. -/
def runWith? (readOperands? : OperandReader) (arguments : List String) : Option Output :=
  (Request.ofArguments? readOperands? arguments).map Request.run

def run? : List String → Option Output :=
  runWith? operands?

/-- Status 2 refuses the arguments, status 1 reports an error of the split. -/
def exitCode : Option Output → Nat
  | none => 2
  | some output => if output.error?.isSome then 1 else 0

end Netblock.CommandLine
