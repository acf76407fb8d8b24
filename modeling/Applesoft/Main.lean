import Applesoft.CommandLine.Run
import Applesoft.Main.Host

/-! # The program -/

open Applesoft.CommandLine in
/-- Log entries are shown down to warnings. Input is read only by a command. -/
def main (arguments : List String) : IO UInt32 := do
  let host := Host.plain
  let arguments := arguments.map String.toList
  let input ←
    match host.readArguments Command.rule arguments with
    | .command .. => (← IO.getStdin).readBinToEnd
    | _ => pure ByteArray.empty
  let outcome := host.run (some .warn) arguments input.toList
  (← IO.getStdout).write ⟨outcome.output.toArray⟩
  IO.eprint (String.ofList outcome.messages)
  return UInt32.ofNat outcome.exitCode
