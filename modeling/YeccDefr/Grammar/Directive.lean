/-!
# Directives

The heads that give a declaration its meaning: lists of symbols, the root symbol, the number of
expected conflicts, and the precedence levels.
-/

namespace YeccDefr

/-- The meaning of a declaration. -/
inductive Directive where
  | nonterminals
  | terminals
  | rootsymbol
  | expect
  | left
  | right
  | nonassoc
  deriving DecidableEq

namespace Directive

/-- All directives. -/
def all : List Directive := [nonterminals, terminals, rootsymbol, expect, left, right, nonassoc]

/-- The head that a declaration of this meaning has in a grammar file. -/
def head : Directive → String
  | nonterminals => "Nonterminals"
  | terminals => "Terminals"
  | rootsymbol => "Rootsymbol"
  | expect => "Expect"
  | left => "Left"
  | right => "Right"
  | nonassoc => "Nonassoc"

/-- The directive with the given head, if there is one. -/
def ofHead? (text : String) : Option Directive := all.find? fun d => d.head == text

/-- The word that opens the line of the output. -/
def keyword : Directive → String
  | nonterminals => "nonterminals"
  | terminals => "terminals"
  | rootsymbol => "root"
  | expect => "expect"
  | left => "left"
  | right => "right"
  | nonassoc => "nonassoc"

/-- A directive is found under its own head alone. -/
theorem ofHead?_eq_some {text : String} {d : Directive} :
    ofHead? text = some d ↔ d.head = text := by
  constructor
  · intro h
    simpa using List.find?_some h
  · rintro rfl
    cases d <;> decide

/-- No directive is found under a word that is the head of none. -/
theorem ofHead?_eq_none {text : String} : ofHead? text = none ↔ ∀ d : Directive, text ≠ d.head := by
  rw [Option.eq_none_iff_forall_ne_some]
  exact forall_congr' fun d => not_congr (ofHead?_eq_some.trans eq_comm)

end Directive

end YeccDefr
