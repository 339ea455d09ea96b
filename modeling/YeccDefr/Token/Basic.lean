import YeccDefr.Source.Point

/-!
# Tokens of a grammar file

A token is a piece of the text together with its class and its region. White space and comments are
tokens too, but they only separate the others, so a scan leaves them out.
-/

namespace YeccDefr

namespace Token

/-- The class of a token. -/
inductive Kind where
  | dot
  | arrow
  | colon
  | var
  | atom
  | integer
  | float
  | stringLiteral
  | reservedSymbol
  | comment
  | whiteSpace
  deriving DecidableEq, Inhabited

namespace Kind

/-- The name of a token class in messages. -/
def name : Kind → String
  | dot => "Dot"
  | arrow => "Arrow"
  | colon => "Colon"
  | var => "Var"
  | atom => "Atom"
  | integer => "Integer"
  | float => "Float"
  | stringLiteral => "StringLiteral"
  | reservedSymbol => "ReservedSymbol"
  | comment => "Comment"
  | whiteSpace => "WhiteSpace"

/-- Whether tokens of the class only separate other tokens. -/
def isIgnored : Kind → Bool
  | comment | whiteSpace => true
  | _ => false

/-- Whether a token of the class is a symbol of the grammar: a variable, an atom or an integer. -/
def isGrammarSymbol : Kind → Bool
  | var | atom | integer => true
  | _ => false

/-- Whether a token of the class can stand in attached code: all but the dot and the ignored ones.
-/
def isCode : Kind → Bool
  | dot | comment | whiteSpace => false
  | _ => true

/-- White space and comments are ignored. -/
theorem isIgnored_iff {k : Kind} : k.isIgnored = true ↔ k ∈ [comment, whiteSpace] := by
  cases k <;> decide

/-- Variables, atoms and integers are symbols of the grammar. -/
theorem isGrammarSymbol_iff {k : Kind} : k.isGrammarSymbol = true ↔ k ∈ [var, atom, integer] := by
  cases k <;> decide

/-- All but dots, comments and white space is code. -/
theorem isCode_iff {k : Kind} : k.isCode = true ↔ k ∉ [dot, comment, whiteSpace] := by
  cases k <;> decide

end Kind

end Token

/-- A piece of a text with its class and its region. -/
structure Token where
  kind : Token.Kind
  text : String
  region : Region
  deriving DecidableEq, Inhabited

/-- Whether a token only separates other tokens. -/
def Token.isIgnored (token : Token) : Bool := token.kind.isIgnored

/-- Tokens are kept that are no comment and no white space. -/
theorem Token.not_isIgnored (token : Token) :
    (!token.isIgnored) = decide (token.kind ∉ [.comment, .whiteSpace]) := by
  simp only [isIgnored, ← Kind.isIgnored_iff, Bool.not_eq_true, Bool.decide_eq_false]

end YeccDefr
