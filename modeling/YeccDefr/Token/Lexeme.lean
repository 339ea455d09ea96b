import YeccDefr.Text.Characters
import YeccDefr.Token.Basic

/-!
# Lexemes

A lexeme is a token without its place. The first character of a text opens its first lexeme and
decides how it goes on (`Opening`): a run of white space, a comment up to the end of its line, a
word, a number, an atom or a string between quotes, or punctuation. A quote that is not closed on
its line is punctuation, and a dot belongs to a number only between digits.

`Lexeme.cut` cuts a text into lexemes until the text is used up or until no lexeme opens with the
next character. Every lexeme takes at least one character away from the text
(`Opening.finish_append`, `Opening.finish_ne_nil`), so the cutting ends.
-/

namespace YeccDefr

/-- A piece of a text with its class. -/
structure Lexeme where
  kind : Token.Kind
  chars : List Char
  deriving DecidableEq, Inhabited

/-- The characters of a word after its first one. -/
def isWordChar (c : Char) : Bool := c.isAlphanum || c == '_'

/-- The punctuation characters that are tokens on their own, the two quotes among them. -/
def reservedChars : List Char :=
  ['{', '}', ',', '[', ']', '|', '(', ')', '*', '+', '-', '/', ';', '<', '=', '>', '?', '@', '\\',
    '#', '$', '"', '\'']

/-- How a lexeme goes on after its first character. -/
inductive Opening where
  /-- It goes on through the characters that satisfy a test. -/
  | run (kind : Token.Kind) (goesOn : Char → Bool)
  /-- It is an integer or a float. -/
  | number
  /-- It goes on to the next character like the first one, on the same line. -/
  | quote (kind : Token.Kind)
  /-- It is an arrow or a lone dash. -/
  | dash
  /-- It is the first character alone. -/
  | single (kind : Token.Kind)

namespace Opening

/-- What a character opens, if any lexeme starts with it. -/
def of? (c : Char) : Option Opening :=
  if Text.isWhiteSpace c then some (run .whiteSpace Text.isWhiteSpace)
  else if Text.isDecimalDigit c then some number
  else if c.isUpper then some (run .var isWordChar)
  else if c.isLower then some (run .atom isWordChar)
  else if c = '%' then some (run .comment (· ≠ '\n'))
  else if c = '\'' then some (quote .atom)
  else if c = '"' then some (quote .stringLiteral)
  else if c = '.' then some (single .dot)
  else if c = ':' then some (single .colon)
  else if c = '-' then some dash
  else if c ∈ reservedChars then some (single .reservedSymbol)
  else none

/-- The number that starts with the digit `c`, with the text after it. A dot belongs to the number
where a digit follows the dot. -/
def finishNumber (c : Char) (cs : List Char) : Lexeme × List Char :=
  let whole := c :: cs.takeWhile Text.isDecimalDigit
  match cs.dropWhile Text.isDecimalDigit with
  | '.' :: d :: rest =>
    if Text.isDecimalDigit d then
      (⟨.float, whole ++ '.' :: d :: rest.takeWhile Text.isDecimalDigit⟩,
        rest.dropWhile Text.isDecimalDigit)
    else (⟨.integer, whole⟩, '.' :: d :: rest)
  | rest => (⟨.integer, whole⟩, rest)

/-- The quoted piece that starts with the quote `q`, with the text after it, and the lone quote
where no second one follows on the same line. -/
def finishQuote (kind : Token.Kind) (q : Char) (cs : List Char) : Lexeme × List Char :=
  match cs.dropWhile fun c => c ≠ q && c ≠ '\n' with
  | c :: rest =>
    if c = q then (⟨kind, q :: (cs.takeWhile fun c => c ≠ q && c ≠ '\n') ++ [q]⟩, rest)
    else (⟨.reservedSymbol, [q]⟩, cs)
  | [] => (⟨.reservedSymbol, [q]⟩, cs)

/-- The lexeme that starts with `c` and goes on into `cs`, with the text after it. -/
def finish (c : Char) (cs : List Char) : Opening → Lexeme × List Char
  | run kind goesOn => (⟨kind, c :: cs.takeWhile goesOn⟩, cs.dropWhile goesOn)
  | number => finishNumber c cs
  | quote kind => finishQuote kind c cs
  | dash =>
    if cs.head? = some '>' then (⟨.arrow, [c, '>']⟩, cs.tail)
    else (⟨.reservedSymbol, [c]⟩, cs)
  | single kind => (⟨kind, [c]⟩, cs)

/-- A number and what is left of it are the text. -/
theorem finishNumber_append (c : Char) (cs : List Char) :
    (finishNumber c cs).1.chars ++ (finishNumber c cs).2 = c :: cs := by
  have whole := List.takeWhile_append_dropWhile (p := Text.isDecimalDigit) (l := cs)
  unfold finishNumber
  split
  · rename_i eq
    rw [eq] at whole
    split <;> simpa using whole
  · simp

/-- What a quote encloses and what is left are the text. -/
theorem finishQuote_append (kind : Token.Kind) (q : Char) (cs : List Char) :
    (finishQuote kind q cs).1.chars ++ (finishQuote kind q cs).2 = q :: cs := by
  have whole := List.takeWhile_append_dropWhile (p := fun c => c ≠ q && c ≠ '\n') (l := cs)
  unfold finishQuote
  split
  · rename_i c rest eq
    rw [eq] at whole
    split
    · rename_i closes
      rw [closes] at whole
      simpa using whole
    · rfl
  · rfl

/-- A lexeme and the text after it are the whole text. -/
theorem finish_append (c : Char) (cs : List Char) (o : Opening) :
    (o.finish c cs).1.chars ++ (o.finish c cs).2 = c :: cs := by
  cases o with
  | run kind goesOn => simp [finish]
  | number => exact finishNumber_append c cs
  | quote kind => exact finishQuote_append kind c cs
  | dash =>
    simp only [finish]
    split
    · rename_i next
      cases cs with
      | nil => cases next
      | cons d ds => cases next; rfl
    · rfl
  | single kind => rfl

/-- A lexeme has at least one character. -/
theorem finish_ne_nil (c : Char) (cs : List Char) (o : Opening) :
    (o.finish c cs).1.chars ≠ [] := by
  cases o with
  | run kind goesOn => nofun
  | number =>
    simp only [finish, finishNumber]
    split
    · split <;> nofun
    · nofun
  | quote kind =>
    simp only [finish, finishQuote]
    split
    · split <;> nofun
    · nofun
  | dash =>
    simp only [finish]
    split <;> nofun
  | single kind => nofun

/-- The text after a lexeme is shorter than the text in front of it. -/
theorem finish_length_lt (c : Char) (cs : List Char) (o : Opening) :
    (o.finish c cs).2.length < (c :: cs).length := by
  have whole := congrArg List.length (finish_append c cs o)
  have taken := List.length_pos_iff.2 (finish_ne_nil c cs o)
  simp only [List.length_append] at whole
  omega

end Opening

namespace Lexeme

/-- Cuts a text into lexemes, and gives the text at whose start no lexeme opens. -/
def cut : List Char → List Lexeme × List Char
  | [] => ([], [])
  | c :: cs =>
    match Opening.of? c with
    | none => ([], c :: cs)
    | some o =>
      let later := cut (o.finish c cs).2
      ((o.finish c cs).1 :: later.1, later.2)
  termination_by cs => cs.length
  decreasing_by exact o.finish_length_lt c cs

/-- The lexeme as text. -/
def text (l : Lexeme) : String := String.ofList l.chars

end Lexeme

end YeccDefr
