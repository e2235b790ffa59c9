import Shading.CommandLine.Run

namespace Shading

/-!
# The program

Reads the shader that the arguments name and prints what was asked for.
-/

/-- The text of a file, or why it cannot be read. -/
def readSource (path : String) : IO (Except String String) := do
  match ← (IO.FS.readFile path).toBaseIO with
  | .ok text => return .ok text
  | .error (.noFileOrDirectory ..) => return .error noSuchFile
  | .error error => return .error (toString error)

/-- More turns than any machine takes. -/
def manyTurns : Nat := 0x4000000000000000

end Shading

open Shading in
def main (arguments : List String) : IO UInt32 := do
  let stdout ← IO.getStdout
  let stderr ← IO.getStderr
  let program := "shading"
  let ending ← respond program manyTurns arguments readSource
  match ending with
  | .printed text => stdout.putStr text
  | .complaint error => stderr.putStr ("Error: " ++ error.message ++ "\n")
  | .misuse => stderr.putStr (usage program)
  | .broken fault => stderr.putStr (fault.message.getD "index out of range" ++ "\n")
  return ending.exitCode.toUInt32
