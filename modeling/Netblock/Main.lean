import Netblock.CommandLine
/-!
# Main program

Prints the report and the sub-networks, or the error that prevents them.
-/

set_option autoImplicit false

def main (arguments : List String) : IO UInt32 := do
  let output? := Netblock.CommandLine.run? arguments
  match output? with
  | none => IO.eprintln "usage: netblock NETWORK [COUNT]"
  | some output => do
      output.lines.forM IO.println
      output.error?.forM fun error => IO.eprintln error.message
  return (Netblock.CommandLine.exitCode output?).toUInt32
