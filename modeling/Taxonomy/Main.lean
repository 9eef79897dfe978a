import Taxonomy.CommandLine.Run

/-!
# The program

Reads the document that a run asks for, prints its output, and reports a failure on the
error stream.
-/

namespace Taxonomy.CommandLine

/-- The fault of a number of the operating system, which may come with either sign. -/
def readFaultOfCode (code : UInt32) (details : String) : ReadFault :=
  let number := if code.toNat < Nat.pow 2 31 then code.toNat else Nat.pow 2 32 - code.toNat
  match number with
  | 2 => .missing
  | 20 => .notADirectory
  | 21 => .directory
  | number => .other details.capitalize number

/-- The fault behind an error of the operating system. -/
def readFaultOf : IO.Error → ReadFault
  | .noFileOrDirectory _ code details => readFaultOfCode code details
  | .inappropriateType _ code details => readFaultOfCode code details
  | .permissionDenied _ code details => readFaultOfCode code details
  | .resourceExhausted _ code details => readFaultOfCode code details
  | .invalidArgument _ code details => readFaultOfCode code details
  | error => .other (toString error) 0

/-- What is found at a path. -/
def readFile (path : String) : IO FileState := do
  try
    return .bytes (← IO.FS.readBinFile path)
  catch error =>
    return .unreadable (readFaultOf error)

/-- Run with these arguments. -/
def runWith (arguments : List String) : IO Outcome := do
  match course arguments (← IO.getEnv environmentVariable) with
  | .settled outcome => return outcome
  | .reading path respond => return respond (← readFile path)

end Taxonomy.CommandLine

def main (arguments : List String) : IO UInt32 := do
  let outcome ← Taxonomy.CommandLine.runWith arguments
  IO.print outcome.output
  if let some failure := outcome.error then
    IO.eprintln failure.line
  return UInt32.ofNat outcome.code
