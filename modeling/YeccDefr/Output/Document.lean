import YeccDefr.Output.Definition
import YeccDefr.Output.DirectiveLine

/-!
# Documents

A grammar becomes a document with one entry for each item. The rules of one head stand together: an
empty line comes in front of a rule whose head differs from that of the rule before it, whatever
declarations stand between them, unless the rule is the first item.
-/

namespace YeccDefr

namespace Grammar

section
variable {m : Type → Type} [Monad m] (scribe : Scribe m)

/-- The entries of items, with the head of the last rule before them and whether any item is, in the
monad of a scribe. -/
def entriesFromBy (layout : Layout) :
    (lastHead? : Option String) → (started : Bool) → List Item → m (List String)
  | _, _, [] => return []
  | lastHead?, _, .declaration d :: items => do
    let line ← d.lineBy scribe
    let later ← entriesFromBy layout lastHead? true items
    return line :: later
  | lastHead?, started, .rule r :: items => do
    let definition ← r.definitionBy scribe layout
    let later ← entriesFromBy layout (some r.head.text) true items
    if started && lastHead? ≠ some r.head.text then
      return "" :: definition :: later
    else
      return definition :: later

/-- The document that a grammar becomes, in the monad of a scribe. -/
def documentBy (layout : Layout) (g : Grammar) : m String := do
  let entries ← entriesFromBy scribe layout none false g.items
  scribe.report (.rendered g.items.length (← scribe.generated))
  return "\n".intercalate entries

end

open Naming

/-- The entries of items, with the head of the last rule before them and whether any item is. -/
def entriesFrom (layout : Layout) (lastHead? : Option String) (started : Bool) (items : List Item) :
    Naming (List String) := entriesFromBy scribe layout lastHead? started items

/-- The entries of a grammar, the empty ones between groups of rules among them. -/
def entries (layout : Layout) (g : Grammar) : Naming (List String) :=
  entriesFrom layout none false g.items

/-- The document that a grammar becomes. -/
def document (layout : Layout) (g : Grammar) : Naming String := g.documentBy scribe layout

section
variable (layout : Layout) (lastHead? : Option String) (started : Bool) (items : List Item)

/-- No items have no entries. -/
@[simp]
theorem entriesFrom_nil : entriesFrom layout lastHead? started [] = pure [] := by
  rw [entriesFrom, entriesFromBy]

/-- A declaration is one entry. -/
@[simp]
theorem entriesFrom_declaration (d : Declaration) :
    entriesFrom layout lastHead? started (.declaration d :: items) = (do
      let line ← d.line
      let later ← entriesFrom layout lastHead? true items
      return line :: later) := by
  rw [entriesFrom, entriesFromBy]
  rfl

/-- A rule is one entry, with an empty one in front of it where it starts a group. -/
@[simp]
theorem entriesFrom_rule (r : Rule) :
    entriesFrom layout lastHead? started (.rule r :: items) = (do
      let definition ← r.definition layout
      let later ← entriesFrom layout (some r.head.text) true items
      if started && lastHead? ≠ some r.head.text then
        return "" :: definition :: later
      else
        return definition :: later) := by
  rw [entriesFrom, entriesFromBy]
  rfl

end

end Grammar

end YeccDefr
