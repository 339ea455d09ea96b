import YeccDefr.Grammar.Basic
import YeccDefr.Output.Names

/-!
# Lines of declarations

A declaration becomes one line: the keyword of its directive and its symbols. A precedence level
comes after its operator. A declaration that means nothing becomes a comment, and a notice tells
where it stands.
-/

namespace YeccDefr

section
variable {m : Type → Type} [Monad m] (scribe : Scribe m)

/-- The line of a declaration with a known head, in the monad of a scribe. -/
def Directive.lineBy (directive : Directive) (d : Declaration) : m String :=
  match directive, d.body with
  | .nonterminals, body | .terminals, body =>
    return directive.keyword ++ " [" ++ literals (body.map (·.text)) ++ "]"
  | .rootsymbol, body => return directive.keyword ++ " " ++ literals (body.map (·.text))
  | .expect, conflicts :: _ => do
    let count ← scribe.bindingName conflicts.text
    return directive.keyword ++ " " ++ count
  | .left, level :: operator :: _
  | .right, level :: operator :: _
  | .nonassoc, level :: operator :: _ => do
    let level ← scribe.bindingName level.text
    return directive.keyword ++ " " ++ literal operator.text ++ ", " ++ level
  | _, _ => do
    scribe.report (.tooFewSymbols d.head.region.start directive)
    return "# malformed declaration: " ++ directive.head

/-- The line of a declaration, in the monad of a scribe. -/
def Declaration.lineBy (d : Declaration) : m String :=
  if d.head.kind = .var then
    match Directive.ofHead? d.head.text with
    | some directive => directive.lineBy scribe d
    | none => do
      scribe.report (.unknownHead d.head.region.start d.head.text)
      return "# unknown head: " ++ d.head.text
  else do
    scribe.report (.headNotVariable d.head.region.start d.head.text)
    return "# unknown declaration head"

end

open Naming

/-- The line of a declaration with a known head. -/
def Directive.line (directive : Directive) (d : Declaration) : Naming String := directive.lineBy scribe d

/-- The line of a declaration. -/
def Declaration.line (d : Declaration) : Naming String := d.lineBy scribe

/-- What follows the head is listed, or a name of it comes last. -/
theorem Directive.line_eq (directive : Directive) (d : Declaration) : directive.line d =
    match directive, d.body with
    | .nonterminals, body | .terminals, body =>
      return directive.keyword ++ " [" ++ literals (body.map (·.text)) ++ "]"
    | .rootsymbol, body => return directive.keyword ++ " " ++ literals (body.map (·.text))
    | .expect, conflicts :: _ => do
      let count ← bindingName conflicts.text
      return directive.keyword ++ " " ++ count
    | .left, level :: operator :: _
    | .right, level :: operator :: _
    | .nonassoc, level :: operator :: _ => do
      let level ← bindingName level.text
      return directive.keyword ++ " " ++ literal operator.text ++ ", " ++ level
    | _, _ => do
      report (.tooFewSymbols d.head.region.start directive)
      return "# malformed declaration: " ++ directive.head := by
  rw [line, lineBy.eq_def]
  simp only [scribe_report, scribe_bindingName]

/-- A declaration becomes the line of its directive, or a comment. -/
theorem Declaration.line_eq (d : Declaration) : d.line =
    if d.head.kind = .var then
      match Directive.ofHead? d.head.text with
      | some directive => directive.line d
      | none => do
        report (.unknownHead d.head.region.start d.head.text)
        return "# unknown head: " ++ d.head.text
    else do
      report (.headNotVariable d.head.region.start d.head.text)
      return "# unknown declaration head" := rfl

end YeccDefr
