import YeccDefr.Notice
import YeccDefr.Output.Literal

/-!
# Names

A symbol whose value is used has to be bound to a name. A bare symbol is its own name. A quoted one
gets a fixed name if it is a well-known keyword or punctuation mark, and else a generated name. The
generated names are numbered in the order in which their literals are first asked for, and a literal
keeps its name: `Names` is the list of the literals that have a generated name so far. A map with a
count of the generated names does the same (`NameTable.document_refines`).

`Naming` is the monad of what is done with such a list at hand: it hands the list on and makes
notices. The writers themselves are written over any monad with the few steps that they take in it, a
`Scribe`, so that the same writers can do with another table of names, or check every step.
-/

namespace YeccDefr

/-- The quoted literals that have a fixed name, with that name. -/
def wellKnownNames : List (String × String) :=
  [("\"true\"", "ex_true"), ("\"false\"", "ex_false"), ("\"nil\"", "ex_nil"),
    ("\"end\"", "ex_end"), ("\"fn\"", "ex_fn"), ("\"do\"", "ex_do"), ("\",\"", "pn_comma"),
    ("\";\"", "pn_semicolon"), ("\"(\"", "pn_left_paren"), ("\")\"", "pn_right_paren"),
    ("\"[\"", "pn_left_bracket"), ("\"]\"", "pn_right_bracket"), ("\"<<\"", "pn_left_shift"),
    ("\">>\"", "pn_right_shift"), ("\"\x7b\"", "pn_left_brace"), ("\"\x7d\"", "pn_right_brace"),
    ("\".\"", "pn_dot"), ("\"%\x7b\x7d\"", "pn_map"), ("\"%\"", "pn_struct")]

/-- The quoted literals that have a generated name, the first one named first. -/
structure Names where
  named : List String
  deriving DecidableEq, Inhabited

namespace Names

/-- No generated names. -/
def empty : Names := ⟨[]⟩

/-- How many names are generated so far. -/
def generated (names : Names) : Nat := names.named.length

/-- The generated name of the given number. -/
def numbered (n : Nat) : String := s!"variable_{n}"

/-- The name of a quoted literal, if it has one. -/
def find? (names : Names) (quoted : String) : Option String :=
  match wellKnownNames.lookup quoted with
  | some name => some name
  | none => (names.named.idxOf? quoted).map fun k => numbered (k + 1)

/-- Gives the next name to a quoted literal. -/
def add (names : Names) (quoted : String) : Names := ⟨names.named ++ [quoted]⟩

end Names

/-- Work that hands on the names given so far and makes notices. -/
abbrev Naming := StateT Names Logged

namespace Naming

/-- Makes a notice. -/
def report (n : Notice) : Naming Unit := fun names => do
  Logged.report n
  return ((), names)

/-- A notice is all that a report makes. -/
@[simp]
theorem run_report_notices (n : Notice) (names : Names) :
    ((report n).run names).notices = [n] := rfl

/-- The name of a literal without its colon, generated where it is in quotes and has none yet. -/
def bareName (bare : String) : Naming String := fun names =>
  if bare.toList.head? = some '"' then
    match names.find? bare with
    | some name => pure (name, names)
    | none => do
      let name := Names.numbered (names.generated + 1)
      Logged.report (.named bare name)
      return (name, names.add bare)
  else pure (bare, names)

/-- The name that binds the symbol with the given text. -/
def bindingName (text : String) : Naming String := bareName (requoted text)

end Naming

/-- The steps that the writers take in a monad. -/
structure Scribe (m : Type → Type) where
  report : Notice → m Unit
  /-- The name that binds the symbol with the given text. -/
  bindingName : String → m String
  /-- How many names are generated so far. -/
  generated : m Nat
  /-- The index of the symbol at a position. Positions count from 1. -/
  index : Nat → m Nat
  /-- A quoted atom as code writes it. -/
  codeAtom : String → m String
  /-- Brackets are open up to this number. -/
  opened : Int → m Unit

/-- Writing with the names given so far at hand. -/
def Naming.scribe : Scribe Naming where
  report := report
  bindingName := bindingName
  generated := return (← get).generated
  index position := return position - 1
  codeAtom text := return YeccDefr.codeAtom text
  opened _ := return ()

/-- The scribe reports with the names at hand. -/
@[simp]
theorem Naming.scribe_report (n : Notice) : scribe.report n = report n := by
  rw [scribe]

/-- The scribe asks for names with the names at hand. -/
@[simp]
theorem Naming.scribe_bindingName (text : String) : scribe.bindingName text = bindingName text := by
  rw [scribe]

end YeccDefr
