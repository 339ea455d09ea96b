import YeccDefr.Token.Lexeme

/-!
# Literals

A symbol of a grammar appears in the output as a literal: a colon and the text of the symbol, with
double quotes in place of single ones. A quoted atom in code is written without quotes where it
needs none, that is where it is a plain name.
-/

namespace YeccDefr

/-- A text with double quotes in place of single ones. -/
def requoted (text : String) : String :=
  String.ofList (text.toList.map fun c => if c = '\'' then '"' else c)

/-- The literal of a symbol. -/
def literal (text : String) : String := ":" ++ requoted text

/-- The literals of symbols, between commas. -/
def literals (texts : List String) : String := ", ".intercalate (texts.map literal)

/-- Whether a text is a plain name: a lower case letter or an underscore, then word characters, then
at most one question or exclamation mark. -/
def isPlainName : List Char → Bool
  | [] => false
  | c :: cs =>
    (c.isLower || c == '_') &&
      match cs.dropWhile isWordChar with
      | [] => true
      | [mark] => mark == '?' || mark == '!'
      | _ => false

/-- What stands between the quotes of a quoted atom. -/
def unquoted (text : String) : List Char := text.toList.tail.dropLast

/-- A quoted atom as code writes it. -/
def codeAtom (text : String) : String :=
  if isPlainName (unquoted text) then String.ofList (':' :: unquoted text)
  else String.ofList (':' :: '"' :: unquoted text ++ ['"'])

end YeccDefr
