import YeccDefr.Proofs.Output.Growth

/-!
# Names as a table with a count

The names in use can be kept as a map from literals to names, with the fixed names in it from the start, next to a
count of the generated ones (`NameTable`). The list of the literals that were named (`Names`) is such a table in
another form (`Names.toTable`). A scribe with a table at hand takes the same steps as one with the list
(`NameTable.scribe_matches`), and so both write the same (`NameTable.document_refines`).
-/

namespace YeccDefr

/-- Names of literals in quotes, and how many of them are generated. -/
structure NameTable where
  names : String → Option String
  generated : Nat

namespace NameTable

/-- A table with the fixed names alone. -/
def new : NameTable := ⟨fun bare => wellKnownNames.lookup bare, 0⟩

/-- Gives the next name to a literal. -/
def insert (table : NameTable) (bare : String) : NameTable :=
  ⟨fun other => if other = bare then some (Names.numbered (table.generated + 1)) else table.names other,
    table.generated + 1⟩

/-- Makes a notice. -/
def report (n : Notice) : StateT NameTable Logged Unit := fun table => do
  Logged.report n
  return ((), table)

/-- The name that binds the symbol with the given text, generated where it is in quotes and not in the table. -/
def bindingName (text : String) : StateT NameTable Logged String := fun table =>
  let bare := requoted text
  if bare.toList.head? = some '"' then
    match table.names bare with
    | some name => pure (name, table)
    | none => do
      let name := Names.numbered (table.generated + 1)
      Logged.report (.named bare name)
      return (name, table.insert bare)
  else pure (bare, table)

/-- Writing with a table of names at hand. -/
def scribe : Scribe (StateT NameTable Logged) where
  report := report
  bindingName := bindingName
  generated := return (← get).generated
  index position := return position - 1
  codeAtom text := return codeAtom text
  opened _ := return ()

end NameTable

/-- The names in use as a table. -/
def Names.toTable (names : Names) : NameTable := ⟨names.find?, names.generated⟩

/-- At the start there are the fixed names alone. -/
lemma Names.toTable_empty : Names.empty.toTable = .new := by
  rw [toTable, NameTable.new]
  congr 1
  funext bare
  rw [find?]
  cases wellKnownNames.lookup bare <;> rfl

/-- A literal without a name gets the next one, and the others keep theirs. -/
lemma Names.toTable_add {names : Names} {bare : String} (unnamed : names.find? bare = none) :
    (names.add bare).toTable = names.toTable.insert bare := by
  rw [toTable, generated_add, NameTable.insert]
  congr 1
  funext other
  exact find?_add unnamed other

namespace NameTable

/-- Work with a table does the same as work with the list: it has the same value, makes the same notices and
leaves the table of the names that the other leaves. -/
def Refines {α : Type} (x : StateT NameTable Logged α) (y : Naming α) : Prop :=
  ∀ names : Names, x.run names.toTable = (fun result => (result.1, result.2.toTable)) <$> y.run names

namespace Refines
variable {α β : Type} {x : StateT NameTable Logged α} {y : Naming α}

/-- A value needs no table. -/
lemma pure (a : α) : Refines (Pure.pure a) (Pure.pure a) := fun _ => rfl

/-- One after the other. -/
lemma bind {f : α → StateT NameTable Logged β} {g : α → Naming β} (h : Refines x y)
    (h' : ∀ a, Refines (f a) (g a)) : Refines (x >>= f) (y >>= g) := by
  intro names
  rw [StateT.run_bind, StateT.run_bind, h, bind_map_left, map_bind]
  exact bind_congr fun result => h' result.1 result.2

/-- A literal is looked up in the table, and put there with the next name. -/
lemma bindingName (text : String) : Refines (bindingName text) (Naming.bindingName text) := by
  intro names
  simp only [NameTable.bindingName, Naming.bindingName, Naming.bareName, StateT.run]
  by_cases quoted : (requoted text).toList.head? = some '"'
  · rw [if_pos quoted, if_pos quoted]
    have looked : names.toTable.names (requoted text) = names.find? (requoted text) := rfl
    rw [looked]
    cases unnamed : names.find? (requoted text) with
    | some name => rfl
    | none =>
      dsimp only
      rw [← Names.toTable_add unnamed]
      rfl
  · rw [if_neg quoted, if_neg quoted]
    rfl

end Refines

/-- All steps with a table at hand are those with the list. -/
lemma scribe_matches : Scribe.Matches (fun _ => Refines) (fun _ => True) (fun _ => True) scribe Naming.scribe where
  pure := .pure
  bind := .bind
  report _ _ := rfl
  bindingName text := by
    rw [scribe, Naming.scribe_bindingName]
    exact .bindingName text
  index _ _ := rfl
  codeAtom _ _ := rfl
  opened _ _ := rfl

/-- A document that is written with a table of names at hand is the same, with the same notices, and leaves the
table of the same names. -/
theorem document_refines (layout : Layout) (g : Grammar) :
    Refines (g.documentBy scribe layout) (g.document layout) :=
  Grammar.documentBy_matches scribe_matches (fun _ => rfl) layout fun r _ => r.within_true

/-- So it is from the start, with the fixed names alone. -/
theorem run_document_new (layout : Layout) (g : Grammar) : (g.documentBy scribe layout).run .new =
    (fun result => (result.1, result.2.toTable)) <$> (g.document layout).run .empty := by
  rw [← Names.toTable_empty]
  exact document_refines layout g .empty

end NameTable

end YeccDefr
