import YeccDefr.Token.Basic

/-!
# Symbols of a grammar

A symbol is a token as the tree of a grammar keeps it: with its class among the symbols, its text,
its region, and whether something was skipped in front of it. `Symbol.classify` makes a symbol of a
token; a dot, a comment and white space have no class among the symbols.

An atom of the form `'$3'` in attached code stands for the third symbol of its rule. Its digits are
ASCII, do not start with a zero, and name a number below 2 ^ 64.
-/

namespace YeccDefr

namespace Symbol

/-- The class of a symbol. -/
inductive Kind where
  | var
  | integer
  | atom
  | reservedWord
  | float
  | string
  | char
  | reservedSymbol
  | arrow
  | colon
  deriving DecidableEq, Inhabited

/-- The class of a symbol made of a token of the given class, if there is one. -/
def Kind.ofToken? : Token.Kind → Option Kind
  | .var => some var
  | .integer => some integer
  | .atom => some atom
  | .float => some float
  | .stringLiteral => some string
  | .reservedSymbol => some reservedSymbol
  | .arrow => some arrow
  | .colon => some colon
  | .dot | .comment | .whiteSpace => none

/-- The name of a symbol class. -/
def Kind.name : Kind → String
  | var => "Var"
  | integer => "Integer"
  | atom => "Atom"
  | reservedWord => "ReservedWord"
  | float => "Float"
  | string => "String"
  | char => "Char"
  | reservedSymbol => "ReservedSymbol"
  | arrow => "Arrow"
  | colon => "Colon"

end Symbol

/-- A classified token. It is `spaced` when something was skipped between it and the token before.
-/
structure Symbol where
  kind : Symbol.Kind
  text : String
  region : Region
  spaced : Bool
  deriving DecidableEq, Inhabited

/-- A token that has no class among the symbols. -/
structure Unclassified where
  kind : Token.Kind
  region : Region
  deriving DecidableEq

/-- The failure to classify in words. -/
def Unclassified.message (e : Unclassified) : String :=
  s!"internal error: {e.kind.name} token at {e.region} has no symbol kind"

namespace Symbol

/-- The symbol that a token stands for. -/
def classify (token : Token) (spaced : Bool) : Except Unclassified Symbol :=
  match Kind.ofToken? token.kind with
  | some kind => .ok ⟨kind, token.text, token.region, spaced⟩
  | none => .error ⟨token.kind, token.region⟩

/-- Whether a symbol has the given class and text. -/
def is (s : Symbol) (kind : Kind) (text : String) : Bool :=
  s.kind == kind && s.text == text

/-- Whether a symbol is an atom that starts with a quote. -/
def isQuotedAtom (s : Symbol) : Bool :=
  s.kind == .atom && s.text.toList.head? == some '\''

/-- Placeholders stay below this bound. -/
def placeholderBound : Nat := UInt64.size

/-- The digits between `'$` and the closing quote, if a text has that form. -/
def placeholderDigits? : List Char → Option (List Char)
  | '\'' :: '$' :: cs => if cs.getLast? = some '\'' then some cs.dropLast else none
  | _ => none

/-- The position, from 1 on, that a placeholder atom stands for. -/
def placeholder? (s : Symbol) : Option Nat :=
  if s.kind = .atom then
    match placeholderDigits? s.text.toList with
    | some digits =>
      let position := Nat.ofDigitChars 10 digits 0
      if digits ≠ [] ∧ digits.all Char.isDigit ∧ digits.head? ≠ some '0'
          ∧ position < placeholderBound then
        some position
      else none
    | none => none
  else none

end Symbol

end YeccDefr
