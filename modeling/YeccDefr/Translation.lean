import YeccDefr.Grammar.Reading
import YeccDefr.Output.Document

/-!
# Translations

A grammar file is read and written as a document of definitions. A text that is no grammar leaves no
output and gives no names.
-/

namespace YeccDefr

/-- The grammar that a text forms, with notices about its tokens and its items. -/
def readGrammar (text : String) : Logged (Except Error Grammar) := do
  let scan := Scan.ofText text
  match scan.error? with
  | some e => return .error (.scan e)
  | none =>
    Logged.report (.scanned scan.tokens.length)
    match Grammar.ofTokens scan.tokens with
    | .error e => return .error e
    | .ok g =>
      Logged.report (.parsed g.items.length)
      return .ok g

/-- A text is scanned, and read where the scan has no error. -/
theorem readGrammar_value (text : String) :
    (readGrammar text).value =
      match (Scan.ofText text).error? with
      | some e => .error (.scan e)
      | none => Grammar.ofTokens (Scan.ofText text).tokens := by
  rw [readGrammar]
  cases (Scan.ofText text).error? with
  | some e => rfl
  | none =>
    simp only [Logged.bind_value]
    cases Grammar.ofTokens (Scan.ofText text).tokens <;> rfl

/-- A grammar has no scan error, and its tokens form it. -/
theorem readGrammar_eq_ok {text g} : (readGrammar text).value = .ok g ↔
    (Scan.ofText text).error? = none ∧ Grammar.ofTokens (Scan.ofText text).tokens = .ok g := by
  rw [readGrammar_value]
  cases (Scan.ofText text).error? <;> simp

/-- The document that a grammar file becomes, given the names in use. -/
def translate (layout : Layout) (text : String) : Naming (Except Error String) := do
  match ← (readGrammar text : Naming (Except Error Grammar)) with
  | .error e => return .error e
  | .ok g => return .ok (← g.document layout)

/-- The document that a grammar file becomes by itself, in the usual layout. -/
def translation (text : String) : Except Error String :=
  ((translate {} text).run .empty).value.1

end YeccDefr
