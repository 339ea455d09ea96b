import YeccDefr.Output.Definition

/-!
# Arguments of the command line

The arguments ask for a translation, for the help text, for the version, or for nothing that makes
sense. They are read from left to right, and the first one that settles the matter does so: a fault
in front of `--version` wins over it, and the other way round.

An option takes its value from the same argument (`--output=x`, `-ox`, `-o=x`) or from the next one,
which then must not look like an option. Nothing may be given twice. After `--` every argument is an
operand.
-/

namespace YeccDefr.CommandLine

/-- What to translate and how. -/
structure Request where
  input : String
  output? : Option String
  layout : Layout
  verbose : Bool
  deriving DecidableEq

/-- What the arguments ask for. -/
inductive Invocation where
  | translate (request : Request)
  | help
  | version
  | misuse
  deriving DecidableEq

/-- The options that take a value. -/
inductive ValueOption where
  | output
  | maxLineWidth
  deriving DecidableEq

/-- What is known about a request while its arguments are read. -/
structure Draft where
  input? : Option String := none
  output? : Option String := none
  maxLineWidth? : Option Nat := none
  verbose : Bool := false
  /-- The option whose value the next argument has to be. -/
  awaiting? : Option ValueOption := none
  /-- Whether all further arguments are operands. -/
  operandsOnly : Bool := false
  deriving DecidableEq

/-- Why the reading stops before the last argument. -/
inductive Stop where
  | help
  | version
  | misuse
  deriving DecidableEq

/-- Widths stay below this bound. -/
def widthBound : Nat := UInt64.size

/-- The width that a text gives: decimal digits, with a plus sign in front of them or without. -/
def width? (text : String) : Option Nat :=
  let digits :=
    match text.toList with
    | '+' :: cs => cs
    | cs => cs
  let width := Nat.ofDigitChars 10 digits 0
  if digits ≠ [] ∧ digits.all Char.isDigit ∧ width < widthBound then some width else none

namespace Draft

/-- Takes an operand, the one that names the input. -/
def operand (d : Draft) (text : String) : Except Stop Draft :=
  if d.input?.isSome || text.isEmpty then .error .misuse else .ok { d with input? := some text }

/-- Takes the value of an option. -/
def give (d : Draft) (option : ValueOption) (text : String) : Except Stop Draft :=
  match option with
  | .output =>
    if d.output?.isSome || text.isEmpty then .error .misuse
    else .ok { d with output? := some text, awaiting? := none }
  | .maxLineWidth =>
    match d.maxLineWidth?, width? text with
    | none, some width => .ok { d with maxLineWidth? := some width, awaiting? := none }
    | _, _ => .error .misuse

/-- Takes the flag for all notices. -/
def beVerbose (d : Draft) : Except Stop Draft :=
  if d.verbose then .error .misuse else .ok { d with verbose := true }

/-- Takes an option by its long name, which may have a value behind an equals sign. -/
def long (d : Draft) (cs : List Char) : Except Stop Draft :=
  let name := String.ofList (cs.takeWhile (· ≠ '='))
  match cs.dropWhile (· ≠ '=') with
  | _ :: value =>
    if name = "output" then d.give .output (String.ofList value)
    else if name = "max-line-width" then d.give .maxLineWidth (String.ofList value)
    else .error .misuse
  | [] =>
    if name = "output" then .ok { d with awaiting? := some .output }
    else if name = "max-line-width" then .ok { d with awaiting? := some .maxLineWidth }
    else if name = "verbose" then d.beVerbose
    else if name = "help" then .error .help
    else if name = "version" then .error .version
    else .error .misuse

/-- Takes options by their letters. A letter that needs a value takes all that is left. -/
def short (d : Draft) : List Char → Except Stop Draft
  | [] => .ok d
  | 'v' :: cs =>
    match d.beVerbose with
    | .ok d => d.short cs
    | .error stop => .error stop
  | ['o'] => .ok { d with awaiting? := some .output }
  | 'o' :: '=' :: value => d.give .output (String.ofList value)
  | 'o' :: value => d.give .output (String.ofList value)
  | 'h' :: _ => .error .help
  | 'V' :: _ => .error .version
  | _ => .error .misuse

/-- Takes the next argument. -/
def argument (d : Draft) (text : String) : Except Stop Draft :=
  if d.operandsOnly then d.operand text
  else
    match d.awaiting?, text.toList with
    | some _, '-' :: _ :: _ => .error .misuse
    | some option, _ => d.give option text
    | none, ['-', '-'] => .ok { d with operandsOnly := true }
    | none, '-' :: '-' :: cs => d.long cs
    | none, '-' :: c :: cs => d.short (c :: cs)
    | none, _ => d.operand text

/-- The request that a draft amounts to at the end of the arguments. -/
def finish (d : Draft) : Invocation :=
  match d.awaiting?, d.input? with
  | none, some input =>
    let layout : Layout :=
      match d.maxLineWidth? with
      | some width => { maxLineWidth := width }
      | none => {}
    .translate ⟨input, d.output?, layout, d.verbose⟩
  | _, _ => .misuse

end Draft

/-- What a list of arguments asks for. -/
def Invocation.ofArguments (arguments : List String) : Invocation :=
  match arguments.foldlM Draft.argument {} with
  | .ok draft => draft.finish
  | .error .help => .help
  | .error .version => .version
  | .error .misuse => .misuse

end YeccDefr.CommandLine
