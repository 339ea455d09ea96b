import YeccDefr.Grammar.Symbol
import YeccDefr.Token.Scan

/-!
# Errors that end a reading

A text fails to be a grammar because a part of it is no token, or because a token does not fit where
it stands. The third error, a token that has no class among the symbols, is for a reader that asks
for such a symbol.
-/

namespace YeccDefr

/-- What a reader could go on with. -/
inductive Expected where
  /-- A variable, an atom or an integer. -/
  | symbol
  /-- What can follow the first symbol of an item. -/
  | body
  /-- The end of an item. -/
  | dot
  /-- A token of attached code. -/
  | code
  deriving DecidableEq

/-- The expectation in words. -/
def Expected.text : Expected → String
  | symbol => "a symbol"
  | body => "a symbol, a string or `->`"
  | dot => "`.`"
  | code => "attached code"

/-- A token, or the end of the tokens, where something else is expected. -/
structure Unexpected where
  found? : Option Token
  expected : Expected
  deriving DecidableEq

namespace Unexpected

/-- The text of the token that does not fit, in quotes. -/
def found (e : Unexpected) : String :=
  match e.found? with
  | some token => Text.quoted token.text
  | none => "end of input"

/-- Where the token that does not fit starts. -/
def place (e : Unexpected) : String :=
  match e.found? with
  | some token => toString token.region.start
  | none => "end of input"

/-- The error in words. -/
def message (e : Unexpected) : String :=
  s!"syntax error at {e.place}: expected {e.expected.text}, found {e.found}"

end Unexpected

/-- Why a text or a list of tokens is no grammar. -/
inductive Error where
  | scan (e : ScanError)
  | unexpected (e : Unexpected)
  | unclassified (e : Unclassified)
  deriving DecidableEq

/-- The error in words. -/
def Error.message : Error → String
  | scan e => e.message
  | unexpected e => e.message
  | unclassified e => e.message

end YeccDefr
