import YeccDefr.Grammar.Basic
import YeccDefr.Output.Names

/-!
# Bodies of definitions

The code attached to a rule becomes the body of a definition. It is rewritten symbol by symbol. A
placeholder becomes the name of the symbol it stands for, and a comma outside of all brackets ends a
statement and with it the line. The mark `?` of a macro is dropped, the mark `$` of a character
becomes `?`, the word `do` becomes a literal, and a quoted atom a literal without needless quotes.

A space stands between two pieces of a line where something was skipped between the symbols, also
when the symbol behind the gap was itself dropped.
-/

namespace YeccDefr

/-- What the rewriting makes of a symbol. -/
inductive Replacement where
  /-- The symbol ends a statement. -/
  | lineEnd
  /-- The symbol leaves nothing but the space in front of it. -/
  | nothing
  /-- The symbol becomes a text. -/
  | piece (text : String)
  deriving DecidableEq

/-- By how much a symbol changes the number of open brackets. -/
def Symbol.nesting (s : Symbol) : Int :=
  if s.kind = .reservedSymbol then
    if s.text ∈ ["\x7b", "(", "["] then 1
    else if s.text ∈ ["\x7d", ")", "]"] then -1
    else 0
  else 0

/-- Where the rewriting stands: how many brackets are open, whether the line is still empty, and
whether a dropped symbol had a space in front of it. -/
structure BodyCursor where
  depth : Int
  lineStart : Bool
  pendingSpace : Bool
  deriving DecidableEq

namespace BodyCursor

/-- In front of the body. -/
def start : BodyCursor := ⟨0, true, false⟩

/-- What a replacement adds to the body, given whether a gap lies in front of its symbol. -/
def added (c : BodyCursor) (spaced : Bool) : Replacement → String
  | .lineEnd => "\n"
  | .nothing => ""
  | .piece text => if !c.lineStart && (spaced || c.pendingSpace) then " " ++ text else text

/-- Where the rewriting stands after a replacement that opens `nesting` brackets. -/
def after (c : BodyCursor) (nesting : Int) (spaced : Bool) : Replacement → BodyCursor
  | .lineEnd => ⟨c.depth + nesting, true, false⟩
  | .nothing => ⟨c.depth + nesting, c.lineStart, c.pendingSpace || spaced⟩
  | .piece _ => ⟨c.depth + nesting, false, false⟩

end BodyCursor

section
variable {m : Type → Type} [Monad m]

/-- What becomes of a symbol that stands for no other one, where `depth` brackets are open and a quoted
atom is written as given. -/
def Symbol.replacementBy (codeAtom : String → m String) (s : Symbol) (depth : Int) : m Replacement :=
  if s.is .reservedSymbol "," && depth = 0 then return .lineEnd
  else if s.is .reservedSymbol "?" then return .nothing
  else if s.is .reservedSymbol "$" then return .piece "?"
  else if s.is .atom "do" then return .piece ":do"
  else if s.isQuotedAtom then return .piece (← codeAtom s.text)
  else return .piece s.text

variable (scribe : Scribe m)

/-- What becomes of a symbol in the code of a rule, in the monad of a scribe. -/
def Rule.replacementBy (rule : Rule) (depth : Int) (s : Symbol) : m Replacement := do
  match s.placeholder? with
  | none => s.replacementBy scribe.codeAtom depth
  | some position =>
    let index ← scribe.index position
    match rule.symbols[index]? with
    | some referenced => return .piece (← scribe.bindingName referenced.text)
    | none =>
      scribe.report (.pastSymbols s.region.start s.text rule.symbols.length rule.head.text)
      s.replacementBy scribe.codeAtom depth

/-- The body of a rule from a place in its code on, in the monad of a scribe. -/
def Rule.bodyFromBy (rule : Rule) (c : BodyCursor) : List Symbol → m String
  | [] => return ""
  | s :: code => do
    let replacement ← rule.replacementBy scribe c.depth s
    scribe.opened (c.depth + s.nesting)
    let later ← rule.bodyFromBy (c.after s.nesting s.spaced replacement) code
    return c.added s.spaced replacement ++ later

/-- The body of a rule, in the monad of a scribe. -/
def Rule.bodyBy (rule : Rule) : m String := rule.bodyFromBy scribe .start rule.code

end

open Naming

/-- What becomes of a symbol that stands for no other one, where `depth` brackets are open. -/
def Symbol.replacement (s : Symbol) (depth : Int) : Replacement :=
  Id.run (s.replacementBy (fun text => return codeAtom text) depth)

/-- A comma outside of all brackets ends a statement, a mark `?` is dropped, a mark `$`, the word `do` and a
quoted atom are rewritten, and all else stays. -/
theorem Symbol.replacement_cases (s : Symbol) (depth : Int) : s.replacement depth =
    if s.is .reservedSymbol "," && depth = 0 then .lineEnd
    else if s.is .reservedSymbol "?" then .nothing
    else if s.is .reservedSymbol "$" then .piece "?"
    else if s.is .atom "do" then .piece ":do"
    else if s.isQuotedAtom then .piece (codeAtom s.text)
    else .piece s.text := by
  rw [replacement, replacementBy]
  repeat' split
  all_goals rfl

/-- What becomes of a symbol in the code of a rule. -/
def Rule.replacement (rule : Rule) (depth : Int) (s : Symbol) : Naming Replacement :=
  rule.replacementBy scribe depth s

/-- The body of a rule from a place in its code on. -/
def Rule.bodyFrom (rule : Rule) (c : BodyCursor) (code : List Symbol) : Naming String :=
  rule.bodyFromBy scribe c code

/-- The body of a rule. -/
def Rule.body (rule : Rule) : Naming String := rule.bodyBy scribe

/-- The body is that of all the code. -/
theorem Rule.body_eq (rule : Rule) : rule.body = rule.bodyFrom .start rule.code := rfl

/-- A placeholder is replaced by the name of the symbol that it stands for, and where it stands for none
there is a notice. -/
theorem Rule.replacement_eq (rule : Rule) (depth : Int) (s : Symbol) : rule.replacement depth s =
    match s.placeholder? with
    | none => return s.replacement depth
    | some position =>
      match rule.symbols[position - 1]? with
      | some referenced => return .piece (← bindingName referenced.text)
      | none => do
        report (.pastSymbols s.region.start s.text rule.symbols.length rule.head.text)
        return s.replacement depth := by
  have itself : s.replacementBy scribe.codeAtom depth = (return s.replacement depth : Naming Replacement) := by
    rw [Symbol.replacement, Symbol.replacementBy, Symbol.replacementBy]
    repeat' split
    all_goals rfl
  rw [replacement, replacementBy]
  simp only [itself, scribe_report, scribe_bindingName]
  rfl

/-- The symbols of the code are rewritten one after the other. -/
theorem Rule.bodyFrom_cons (rule : Rule) (c : BodyCursor) (s : Symbol) (code : List Symbol) :
    rule.bodyFrom c (s :: code) = (do
      let replacement ← rule.replacement c.depth s
      let later ← rule.bodyFrom (c.after s.nesting s.spaced replacement) code
      return c.added s.spaced replacement ++ later) := rfl

end YeccDefr
