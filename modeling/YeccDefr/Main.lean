import YeccDefr.CommandLine.Run

/-!
# The program

Runs the command line on the file system. Notices and the failure go to the standard error.
-/

namespace YeccDefr.CommandLine

/-- The number of a system error. Some calls give it negated. -/
def systemCode (code : UInt32) : UInt32 := if code < 0x80000000 then code else 0 - code

/-- Why the system refuses a file. -/
def Cause.ofSystem : IO.Error → Cause
  | .noFileOrDirectory .. | .noSuchThing .. => .noSuchFile
  | .inappropriateType _ code details =>
    if systemCode code = 20 then .notDirectory
    else if systemCode code = 21 then .isDirectory
    else .other s!"{details} (os error {systemCode code})"
  | .permissionDenied _ code details => .other s!"{details} (os error {systemCode code})"
  | e => .other (toString e)

/-- The text of bytes. -/
def textOfBytes (bytes : ByteArray) : Except Cause String :=
  match String.fromUTF8? bytes with
  | some text => .ok text
  | none => .error .notText

/-- The file system and the standard streams. -/
def systemHost : Host IO where
  readFile path := do
    try
      return textOfBytes (← IO.FS.readBinFile path)
    catch e => return .error (.ofSystem e)
  readInput := do
    try
      let stdin ← IO.getStdin
      let mut bytes := ByteArray.empty
      let mut chunk ← stdin.read 65536
      while !chunk.isEmpty do
        bytes := bytes ++ chunk
        chunk ← stdin.read 65536
      return textOfBytes bytes
    catch e => return .error (.ofSystem e)
  writeFile path text := do
    try
      IO.FS.writeBinFile path text.toUTF8
      return .ok ()
    catch e => return .error (.ofSystem e)
  writeOutput text := do
    try
      let stdout ← IO.getStdout
      stdout.putStr text
      stdout.flush
      return .ok ()
    catch e => return .error (.ofSystem e)

/-- How the program is used, for arguments that make no sense. -/
def usageText : String := "Usage: yrl2ex [OPTIONS] <INPUT>"

/-- Runs the command line on the file system and tells how it went. -/
def runOnSystem (arguments : List String) : IO UInt32 := do
  let report ← run systemHost arguments
  for notice in report.notices do
    IO.eprintln s!"[{notice.level.name}] {notice.message}"
  if report.status = 2 then
    IO.eprintln usageText
  if let some failure := report.failure? then
    IO.eprintln failure.message
  return report.status.toUInt32

end YeccDefr.CommandLine

/-- Runs the program. -/
def main (arguments : List String) : IO UInt32 :=
  YeccDefr.CommandLine.runOnSystem arguments
