import MotionScript.CommandLine.Simulation

/-!
# The command

Reads the two files that a simulation may need, runs it and prints what it writes.
-/

namespace MotionScript

/-- Why the system did not give the text of a file. Its numbers come with either sign. -/
def fileError (e : IO.Error) : FileError :=
  let number (code : UInt32) : UInt32 := min code (0 - code)
  match e with
  | .noFileOrDirectory .. => .missing
  | .inappropriateType _ code _ => if number code = 20 then .notDirectory else .isDirectory
  | .invalidArgument _ code details => if number code = 36 then .nameTooLong else .other details
  | e => .other (toString e)

/-- The text of a file, or why it has none. -/
def readFile (path : String) : IO (Except FileError String) := do
  if path.contains '\x00' then return .error .brokenName
  try
    let bytes ← IO.FS.readBinFile path
    return match String.fromUTF8? bytes with
      | some text => .ok text
      | none => .error .notText
  catch e => return .error (fileError e)

/-- Runs the command with its arguments. -/
def runCommand (words : List String) : IO UInt32 := do
  match Arguments.parse? words with
  | none =>
    IO.eprintln "error: unknown, repeated or malformed arguments"
    return 2
  | some a =>
    let settings ← readFile a.config
    let scriptsPath := (Simulation.config a settings).scriptsPath
    let scripts ← readFile scriptsPath
    match Simulation.run? a fun path => if path = a.config then settings else scripts with
    | none =>
      IO.eprintln "attempt to multiply with overflow"
      return 101
    | some result =>
      for line in result.output do
        IO.println line
      for line in result.errors do
        IO.eprintln line
      return result.code.toUInt32

end MotionScript

def main (words : List String) : IO UInt32 := MotionScript.runCommand words
