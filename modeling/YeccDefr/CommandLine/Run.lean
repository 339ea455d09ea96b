import YeccDefr.CommandLine.Arguments
import YeccDefr.Translation

/-!
# Runs of the command line

A run reads its input, translates it and writes the output. Nothing is written before the
translation has succeeded. The input is a file, or the standard input for `-`. The output goes to
the file asked for, else to the standard output when the input came from the standard input, else
beside the input file under another extension.

What a run needs from its surroundings is a `Host`, so that the same run can work on the file system
and on a directory that is a plain value.
-/

namespace YeccDefr.CommandLine

/-- Why a step of a run fails. -/
inductive Cause where
  | noSuchFile
  | notDirectory
  | isDirectory
  | notText
  | rejected (e : Error)
  | other (text : String)
  deriving DecidableEq

/-- A cause in words. -/
def Cause.text : Cause → String
  | noSuchFile => "No such file or directory (os error 2)"
  | notDirectory => "Not a directory (os error 20)"
  | isDirectory => "Is a directory (os error 21)"
  | notText => "stream did not contain valid UTF-8"
  | rejected e => e.message
  | other text => text

/-- The step of a run that fails, and why. -/
inductive Failure where
  | reading (path : String) (cause : Cause)
  | readingInput (cause : Cause)
  | translating (path : String) (e : Error)
  | writing (path : String) (cause : Cause)
  | writingOutput (cause : Cause)
  deriving DecidableEq

namespace Failure

/-- The step that fails. A failure of the standard output is told by its cause alone. -/
def context? : Failure → Option String
  | reading path _ => some ("cannot read " ++ path)
  | readingInput _ => some "cannot read the standard input"
  | translating path _ => some ("cannot translate " ++ path)
  | writing path _ => some ("cannot write " ++ path)
  | writingOutput _ => none

/-- Why it fails. -/
def cause : Failure → Cause
  | reading _ cause | readingInput cause | writing _ cause | writingOutput cause => cause
  | translating _ e => .rejected e

/-- A failure in words. -/
def message (f : Failure) : String :=
  match f.context? with
  | some context => "Error: " ++ context ++ "\n\nCaused by:\n    " ++ f.cause.text
  | none => "Error: " ++ f.cause.text

end Failure

/-- What a run asks of its surroundings. -/
structure Host (m : Type → Type) where
  readFile : String → m (Except Cause String)
  readInput : m (Except Cause String)
  writeFile : String → String → m (Except Cause Unit)
  writeOutput : String → m (Except Cause Unit)

/-- How a run ends: its exit status, its failure if it has one, and its notices. -/
structure Report where
  status : Nat
  failure? : Option Failure
  notices : List Notice
  deriving DecidableEq

/-- Where the output goes. -/
inductive Destination where
  | standardOutput
  | file (path : String)
  deriving DecidableEq

/-- A file name without its extension, which is what follows the last dot. A dot in front does not
start an extension. -/
def stem (name : List Char) : List Char :=
  match name.reverse.dropWhile (· ≠ '.') with
  | [] => name
  | [_] => name
  | _ :: before => before.reverse

/-- A path with the given extension in place of that of its last name. The last name is taken to be that of a file.
A path that ends in a slash, or in a name that is one or two dots, is treated the same, as nothing can be read
there (`Workspace.not_holdsText_of_last`). -/
def withExtension (path extension : String) : String :=
  let name := (path.toList.reverse.takeWhile (· ≠ '/')).reverse
  let directory := (path.toList.reverse.dropWhile (· ≠ '/')).reverse
  String.ofList (directory ++ stem name) ++ "." ++ extension

/-- The extension of written files. -/
def outputExtension : String := "ex"

namespace Request

/-- Whether the input is the standard input. -/
def readsInput (r : Request) : Bool := r.input == "-"

/-- Where the output of a request goes. -/
def destination (r : Request) : Destination :=
  match r.output? with
  | some path => .file path
  | none =>
    if r.readsInput then .standardOutput else .file (withExtension r.input outputExtension)

/-- The notices that a request wants to see. -/
def threshold (r : Request) : Level := if r.verbose then .debug else .warn

end Request

variable {m : Type → Type} [Monad m]

/-- The input of a request. -/
def readSource (host : Host m) (r : Request) : m (Except Failure String) := do
  if r.readsInput then
    return (← host.readInput).mapError .readingInput
  else
    return (← host.readFile r.input).mapError (.reading r.input)

/-- Writes a text to its destination. -/
def writeTo (host : Host m) (text : String) : Destination → m (Except Failure (List Notice))
  | .standardOutput => do
    match ← host.writeOutput text with
    | .ok () => return .ok []
    | .error cause => return .error (.writingOutput cause)
  | .file path => do
    match ← host.writeFile path text with
    | .ok () => return .ok [.wrote path]
    | .error cause => return .error (.writing path cause)

/-- Carries out a request. -/
def carryOut (host : Host m) (r : Request) : m Report := do
  match ← readSource host r with
  | .error failure => return ⟨1, some failure, []⟩
  | .ok text =>
    let translated := (translate r.layout text).run .empty
    match translated.value.1 with
    | .error e => return ⟨1, some (.translating r.input e), translated.notices⟩
    | .ok document =>
      match ← writeTo host (document ++ "\n") r.destination with
      | .error failure => return ⟨1, some failure, translated.notices⟩
      | .ok notices => return ⟨0, none, translated.notices ++ notices⟩

/-- The text that tells the version. -/
def versionText : String := "yrl2ex 0.1.0\n"

/-- The lines that tell how the program is used. -/
def helpLines : List String :=
  ["Translate yecc grammar files into defr rule definitions",
    "",
    "Usage: yrl2ex [OPTIONS] <INPUT>",
    "",
    "Arguments:",
    "  <INPUT>  Grammar file to translate, `-` reads the standard input",
    "",
    "Options:",
    "  -o, --output <OUTPUT>     Output file, defaults to the input path with the `ex` " ++
      "extension (standard output for `-`)",
    "      --max-line-width <N>  Longest single-line rule definition before switching to a do " ++
      "block [default: 96]",
    "  -v, --verbose             Verbose output",
    "  -h, --help                Print help",
    "  -V, --version             Print version"]

/-- The text that tells how the program is used. -/
def helpText : String := "\n".intercalate helpLines ++ "\n"

/-- Does what the arguments ask for according to a parser of arguments. The report holds the notices that
the arguments want to see. Whether the help text or the version can be shown makes no difference. -/
def runBy (parse : List String → Invocation) (host : Host m) (arguments : List String) : m Report :=
  match parse arguments with
  | .translate r => do
    let report ← carryOut host r
    return { report with notices := Notice.shown r.threshold report.notices }
  | .help => do
    let _ ← host.writeOutput helpText
    return ⟨0, none, []⟩
  | .version => do
    let _ ← host.writeOutput versionText
    return ⟨0, none, []⟩
  | .misuse => return ⟨2, none, []⟩

/-- Does what the arguments ask for. -/
def run (host : Host m) (arguments : List String) : m Report :=
  runBy Invocation.ofArguments host arguments

end YeccDefr.CommandLine
