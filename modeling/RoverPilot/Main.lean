import RoverPilot.CommandLine

/-!
The program: reads files and standard input, and writes the reports.
-/

namespace RoverPilot.CommandLine

/-- The bytes of a stream up to its end. -/
partial def readToEnd (input : IO.FS.Stream) (before : ByteArray) : IO ByteArray := do
  let bytes ← input.read 65536
  if bytes.isEmpty then return before else readToEnd input (before ++ bytes)

/-- What a file holds. -/
def readContent (file : String) : IO Settings.FileContent := do
  try return some (← IO.FS.readBinFile file).toList
  catch _ => return none

/-- What arrives on standard input. -/
def readInput : IO (List UInt8) := do
  return (← readToEnd (← IO.getStdin) ByteArray.empty).toList

end RoverPilot.CommandLine

/-- The program. -/
def main (args : List String) : IO UInt32 := do
  let exit ← RoverPilot.CommandLine.run RoverPilot.CommandLine.readContent
    RoverPilot.CommandLine.readInput args
  IO.print exit.output
  return exit.code
