import YeccDefr.Output.Body

/-!
# Definitions

A rule becomes a definition: its head, a parameter for each of its symbols, and its body. A
parameter is the literal of the symbol, together with a name where the code uses the symbol. The
definition stands on one line if it fits and has one statement, and else in a block.
-/

namespace YeccDefr

/-- How the output is laid out: the longest definition on one line, in characters. -/
structure Layout where
  maxLineWidth : Nat := 96
  deriving DecidableEq

namespace Rule

/-- Whether the code uses the symbol at a position, counted from 1. -/
def uses (rule : Rule) (position : Nat) : Bool :=
  rule.code.any fun s => s.placeholder? == some position

/-- A definition on one line. -/
def oneLine (signature body : String) : String := "defr " ++ signature ++ ", do: " ++ body

/-- A definition in a block. -/
def block (signature body : String) : String := "defr " ++ signature ++ " do\n" ++ body ++ "\nend"

/-- Whether a definition can stand on one line. -/
def fits (layout : Layout) (signature body : String) : Bool :=
  (oneLine signature body).length ≤ layout.maxLineWidth && !body.toList.contains '\n'

section
variable {m : Type → Type} [Monad m] (scribe : Scribe m)

/-- The parameters of symbols, the first of them at the given position, in the monad of a scribe. -/
def parametersFromBy (rule : Rule) (position : Nat) : List Symbol → m (List String)
  | [] => return []
  | s :: symbols => do
    let parameter ←
      if rule.uses position then do
        let name ← scribe.bindingName s.text
        pure ("\x7b" ++ literal s.text ++ ", " ++ name ++ "\x7d")
      else pure (literal s.text)
    let others ← rule.parametersFromBy (position + 1) symbols
    return parameter :: others

/-- The head of a definition with its parameters, in the monad of a scribe. -/
def signatureBy (rule : Rule) : m String := do
  let parameters ← rule.parametersFromBy scribe 1 rule.symbols
  return rule.head.text ++ "(" ++ ", ".intercalate parameters ++ ")"

/-- The definition that a rule becomes, in the monad of a scribe. -/
def definitionBy (layout : Layout) (rule : Rule) : m String := do
  let signature ← rule.signatureBy scribe
  let body ← rule.bodyBy scribe
  if fits layout signature body then
    return oneLine signature body
  else
    scribe.report (.usingBlock rule.head.region.start)
    return block signature body

end

open Naming

/-- The parameters of symbols, the first of them at the given position. -/
def parametersFrom (rule : Rule) (position : Nat) (symbols : List Symbol) : Naming (List String) :=
  rule.parametersFromBy scribe position symbols

/-- The head of a definition with its parameters. -/
def signature (rule : Rule) : Naming String := rule.signatureBy scribe

/-- The definition that a rule becomes. -/
def definition (layout : Layout) (rule : Rule) : Naming String := rule.definitionBy scribe layout

/-- A symbol is paired with its name where the code uses it. -/
theorem parametersFrom_cons (rule : Rule) (position : Nat) (s : Symbol) (symbols : List Symbol) :
    rule.parametersFrom position (s :: symbols) = (do
      let parameter ←
        if rule.uses position then do
          let name ← bindingName s.text
          pure ("\x7b" ++ literal s.text ++ ", " ++ name ++ "\x7d")
        else pure (literal s.text)
      let others ← rule.parametersFrom (position + 1) symbols
      return parameter :: others) := by
  rw [parametersFrom, parametersFromBy]
  simp only [scribe_bindingName]
  rfl

/-- The parameters stand behind the head. -/
theorem signature_eq (rule : Rule) : rule.signature = (do
    let parameters ← rule.parametersFrom 1 rule.symbols
    return rule.head.text ++ "(" ++ ", ".intercalate parameters ++ ")") := rfl

/-- The parameters are written first, and then the body. -/
theorem definition_eq (layout : Layout) (rule : Rule) : rule.definition layout = (do
    let signature ← rule.signature
    let body ← rule.body
    if fits layout signature body then
      return oneLine signature body
    else
      report (.usingBlock rule.head.region.start)
      return block signature body) := rfl

end Rule

end YeccDefr
