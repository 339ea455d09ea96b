import YeccDefr.Text.Quoted
import YeccDefr.Token.Lexeme

/-!
# Scans

A scan is the list of the tokens of a text, and the error that ended it where a part of the text is
no lexeme. Regions are laid over the lexemes from the origin on, ignored ones included, before those
are left out.
-/

namespace YeccDefr

/-- A part of the text that no token starts with. -/
structure ScanError where
  point : Point
  found : String
  deriving DecidableEq

namespace ScanError

/-- The first line of a text without its line end, a line feed or a carriage return and a line feed.
-/
def firstLine : List Char → List Char
  | [] => []
  | '\n' :: _ => []
  | '\r' :: '\n' :: _ => []
  | c :: cs => c :: firstLine cs

/-- How many characters of the unrecognized text an error shows. -/
def shownLength : Nat := 16

/-- The error for a text at whose start no token is found. -/
def ofRest (p : Point) (rest : List Char) : ScanError :=
  ⟨p, String.ofList ((firstLine rest).take shownLength)⟩

/-- The error in words. -/
def message (e : ScanError) : String :=
  s!"unrecognized input at {e.point}: {Text.quoted e.found}"

end ScanError

/-- The tokens of a text, up to the error that ended the scan if there is one. -/
structure Scan where
  tokens : List Token
  error? : Option ScanError
  deriving DecidableEq

namespace Scan

/-- The tokens that the lexemes make when the first one starts at `p`. -/
def placed (p : Point) : List Lexeme → List Token
  | [] => []
  | l :: ls =>
    let region := Region.ofText p l.text
    ⟨l.kind, l.text, region⟩ :: placed region.stop ls

/-- The place right after the lexemes when the first one starts at `p`. -/
def placeAfter (p : Point) (lexemes : List Lexeme) : Point :=
  lexemes.foldl (fun q l => q.advance l.text) p

/-- Scans a text. -/
def ofText (text : String) : Scan :=
  let (lexemes, rest) := Lexeme.cut text.toList
  { tokens := (placed Point.origin lexemes).filter fun token => !token.isIgnored
    error? := if rest.isEmpty then none else some (.ofRest (placeAfter Point.origin lexemes) rest) }

end Scan

end YeccDefr
