import YeccDefr.Grammar.Symbol

/-!
# Grammars

A grammar is a list of declarations and rules in the order of their text.
-/

namespace YeccDefr

/-- A declaration such as `Terminals a b.`, with its head and what follows the head. -/
structure Declaration where
  head : Symbol
  body : List Symbol
  deriving DecidableEq

/-- A rule such as `list -> elem : '$1'.`, with the code attached to it if there is any. -/
structure Rule where
  head : Symbol
  symbols : List Symbol
  code? : Option (List Symbol)
  deriving DecidableEq

/-- The attached code, empty where the rule has none. -/
def Rule.code (rule : Rule) : List Symbol := rule.code?.getD []

/-- One item of a grammar. -/
inductive Item where
  | declaration (d : Declaration)
  | rule (r : Rule)
  deriving DecidableEq

/-- A grammar. -/
structure Grammar where
  items : List Item
  deriving DecidableEq

namespace Grammar

/-- Whether a grammar has no items. -/
def isEmpty (g : Grammar) : Bool := g.items.isEmpty

/-- The rules in order. -/
def rules (g : Grammar) : List Rule :=
  g.items.filterMap fun
    | .rule r => some r
    | .declaration _ => none

/-- The rules are those among the items. -/
theorem mem_rules {g : Grammar} {r : Rule} : r ∈ g.rules ↔ Item.rule r ∈ g.items := by
  rw [rules, List.mem_filterMap]
  constructor
  · intro ⟨i, mem, e⟩
    cases i with
    | declaration => cases e
    | rule =>
      cases e
      exact mem
  · exact fun mem => ⟨_, mem, rfl⟩

/-- The declarations in order. -/
def declarations (g : Grammar) : List Declaration :=
  g.items.filterMap fun
    | .declaration d => some d
    | .rule _ => none

end Grammar

end YeccDefr
