import YeccDefr.Output.Document
import YeccDefr.Proofs.Grammar.Placeholders

/-!
# Related scribes

The writers touch their monad in the steps of a scribe alone. So if the steps of two scribes are related, by a
relation that sequencing preserves (`Scribe.Matches`), all that they write is related, up to whole documents
(`Grammar.documentBy_matches`). There is one lemma for each writer.

Two scribes may be related only in some atoms, and only as long as the number of open brackets is in some bounds.
Then the rules have to keep to these (`Rule.Within`).
-/

namespace YeccDefr

variable {m n : Type → Type} [Monad m] [Monad n]

/-- The steps of two scribes are related, in the atoms and at the depths that are named. The count of the names is
left out, since only the notice of a document depends on it. -/
structure Scribe.Matches (R : (α : Type) → m α → n α → Prop) (atoms : String → Prop) (depths : Int → Prop)
    (a : Scribe m) (b : Scribe n) : Prop where
  pure {α : Type} (v : α) : R α (pure v) (pure v)
  bind {α β : Type} {x : m α} {y : n α} {f : α → m β} {g : α → n β} :
    R α x y → (∀ v, R β (f v) (g v)) → R β (x >>= f) (y >>= g)
  report (notice : Notice) : R Unit (a.report notice) (b.report notice)
  bindingName (text : String) : R String (a.bindingName text) (b.bindingName text)
  index {position : Nat} : 0 < position → R Nat (a.index position) (b.index position)
  codeAtom {text : String} : atoms text → R String (a.codeAtom text) (b.codeAtom text)
  opened {depth : Int} : depths depth → R Unit (a.opened depth) (b.opened depth)

/-- The numbers of brackets that are open at the places in code, given the number at the first one. -/
def depthsFrom (depth : Int) (code : List Symbol) : List Int :=
  (code.map Symbol.nesting).scanl (· + ·) depth

/-- The depth at which code starts is one of its depths. -/
lemma mem_depthsFrom (depth : Int) (code : List Symbol) : depth ∈ depthsFrom depth code := by
  rw [depthsFrom]
  cases code.map Symbol.nesting with
  | nil => exact List.mem_singleton_self _
  | cons =>
    rw [List.scanl_cons]
    exact List.mem_cons_self

/-- The quoted atoms in the code of a rule and the numbers of brackets open in it are among the given ones. -/
structure Rule.Within (r : Rule) (atoms : String → Prop) (depths : Int → Prop) : Prop where
  atoms : ∀ s ∈ r.code, s.isQuotedAtom → atoms s.text
  depths : ∀ depth ∈ depthsFrom 0 r.code, depths depth

/-- Every rule keeps to no bounds at all. -/
lemma Rule.within_true (r : Rule) : r.Within (fun _ => True) (fun _ => True) :=
  ⟨fun _ _ _ => trivial, fun _ _ => trivial⟩

/-- Behind a symbol the depth has changed by what the symbol opens and closes. -/
lemma BodyCursor.after_depth (c : BodyCursor) (nesting : Int) (spaced : Bool) (replacement : Replacement) :
    (c.after nesting spaced replacement).depth = c.depth + nesting := by
  cases replacement <;> rfl

section
variable {R : (α : Type) → m α → n α → Prop} {atoms : String → Prop} {depths : Int → Prop} {a : Scribe m}
  {b : Scribe n} (h : Scribe.Matches R atoms depths a b)
include h

/-! ## Declarations -/

/-- Matching scribes write matching lines of a directive. -/
lemma Directive.lineBy_matches (directive : Directive) (d : Declaration) :
    R _ (directive.lineBy a d) (directive.lineBy b d) := by
  have malformed := h.bind (h.report (.tooFewSymbols d.head.region.start directive)) fun _ =>
    h.pure ("# malformed declaration: " ++ directive.head)
  obtain ⟨head, body⟩ := d
  cases directive with
  | nonterminals | terminals | rootsymbol => exact h.pure _
  | expect =>
    cases body with
    | nil => exact malformed
    | cons conflicts _ => exact h.bind (h.bindingName _) fun _ => h.pure _
  | left | right | nonassoc =>
    match body with
    | [] | [_] => exact malformed
    | level :: operator :: _ => exact h.bind (h.bindingName _) fun _ => h.pure _

/-- Matching scribes write matching lines of a declaration. -/
lemma Declaration.lineBy_matches (d : Declaration) : R _ (d.lineBy a) (d.lineBy b) := by
  rw [lineBy, lineBy]
  split
  · cases Directive.ofHead? d.head.text with
    | some directive => exact directive.lineBy_matches h d
    | none => exact h.bind (h.report _) fun _ => h.pure _
  · exact h.bind (h.report _) fun _ => h.pure _

/-! ## Rules -/

/-- Only a quoted atom is asked for. -/
lemma Symbol.replacementBy_matches {s : Symbol} (fits : s.isQuotedAtom → atoms s.text) (depth : Int) :
    R _ (s.replacementBy a.codeAtom depth) (s.replacementBy b.codeAtom depth) := by
  rw [replacementBy, replacementBy]
  split
  · exact h.pure _
  split
  · exact h.pure _
  split
  · exact h.pure _
  split
  · exact h.pure _
  split
  case isTrue quoted => exact h.bind (h.codeAtom (fits quoted)) fun _ => h.pure _
  case isFalse => exact h.pure _

namespace Rule

/-- Only a position that a placeholder stands for is asked for its index. -/
lemma replacementBy_matches (r : Rule) {s : Symbol} (fits : s.isQuotedAtom → atoms s.text) (depth : Int) :
    R _ (r.replacementBy a depth s) (r.replacementBy b depth s) := by
  have itself := Symbol.replacementBy_matches h fits depth
  rw [replacementBy, replacementBy]
  cases placeholder : s.placeholder? with
  | none => exact itself
  | some position =>
    refine h.bind (h.index (Symbol.placeholder?_pos placeholder)) fun index => ?_
    cases r.symbols[index]? with
    | some referenced => exact h.bind (h.bindingName _) fun _ => h.pure _
    | none => exact h.bind (h.report _) fun _ => itself

/-- Matching scribes write matching parameters. -/
lemma parametersFromBy_matches (r : Rule) (position : Nat) (symbols : List Symbol) :
    R _ (r.parametersFromBy a position symbols) (r.parametersFromBy b position symbols) := by
  induction symbols generalizing position with
  | nil => exact h.pure _
  | cons s symbols ih =>
    have others (parameter : String) : R _
        (r.parametersFromBy a (position + 1) symbols >>= fun others => pure (parameter :: others))
        (r.parametersFromBy b (position + 1) symbols >>= fun others => pure (parameter :: others)) :=
      h.bind (ih _) fun _ => h.pure _
    rw [parametersFromBy, parametersFromBy]
    split
    · exact h.bind (h.bindingName _) fun _ => h.bind (h.pure _) others
    · exact h.bind (h.pure _) others

/-- Matching scribes write matching signatures. -/
lemma signatureBy_matches (r : Rule) : R _ (r.signatureBy a) (r.signatureBy b) :=
  h.bind (r.parametersFromBy_matches h 1 r.symbols) fun _ => h.pure _

/-- Behind a symbol, as many brackets are open as the cursor there says. -/
lemma bodyFromBy_matches (r : Rule) (c : BodyCursor) {code : List Symbol}
    (fits : ∀ s ∈ code, s.isQuotedAtom → atoms s.text) (bounded : ∀ depth ∈ depthsFrom c.depth code, depths depth) :
    R _ (r.bodyFromBy a c code) (r.bodyFromBy b c code) := by
  induction code generalizing c with
  | nil => exact h.pure _
  | cons s code ih =>
    rw [List.forall_mem_cons] at fits
    rw [depthsFrom, List.map_cons, List.scanl_cons, List.forall_mem_cons] at bounded
    have behind : depths (c.depth + s.nesting) := bounded.2 _ (mem_depthsFrom _ code)
    rw [bodyFromBy, bodyFromBy]
    refine h.bind (r.replacementBy_matches h fits.1 _) fun replacement => h.bind (h.opened behind) fun _ => ?_
    refine h.bind (ih _ fits.2 ?_) fun _ => h.pure _
    rw [BodyCursor.after_depth]
    exact bounded.2

/-- Matching scribes write matching definitions. -/
lemma definitionBy_matches (layout : Layout) {r : Rule} (within : r.Within atoms depths) :
    R _ (r.definitionBy a layout) (r.definitionBy b layout) := by
  rw [definitionBy, definitionBy]
  refine h.bind (r.signatureBy_matches h) fun signature => ?_
  refine h.bind (r.bodyFromBy_matches h .start within.atoms within.depths) fun body => ?_
  split
  · exact h.pure _
  · exact h.bind (h.report _) fun _ => h.pure _

end Rule

/-! ## Documents -/

namespace Grammar

/-- Matching scribes write matching entries. -/
lemma entriesFromBy_matches (layout : Layout) (lastHead? : Option String) (started : Bool)
    {items : List Item} (within : ∀ r, Item.rule r ∈ items → r.Within atoms depths) :
    R _ (entriesFromBy a layout lastHead? started items) (entriesFromBy b layout lastHead? started items) := by
  induction items generalizing lastHead? started with
  | nil =>
    rw [entriesFromBy, entriesFromBy]
    exact h.pure _
  | cons i items ih =>
    have later := fun r mem => within r (List.mem_cons_of_mem _ mem)
    cases i with
    | declaration d =>
      rw [entriesFromBy, entriesFromBy]
      exact h.bind (d.lineBy_matches h) fun _ => h.bind (ih _ _ later) fun _ => h.pure _
    | rule r =>
      rw [entriesFromBy, entriesFromBy]
      refine h.bind (Rule.definitionBy_matches h layout (within r List.mem_cons_self)) fun _ => ?_
      refine h.bind (ih _ _ later) fun _ => ?_
      split
      · exact h.pure _
      · exact h.pure _

/-- What two scribes with related steps make of a grammar is related, if its rules keep to the atoms and the
depths where the steps are. -/
theorem documentBy_matches (counted : R Nat a.generated b.generated) (layout : Layout) {g : Grammar}
    (within : ∀ r ∈ g.rules, r.Within atoms depths) :
    R _ (g.documentBy a layout) (g.documentBy b layout) := by
  have inItems : ∀ r, Item.rule r ∈ g.items → r.Within atoms depths :=
    fun r mem => within r (mem_rules.2 mem)
  refine h.bind (entriesFromBy_matches h layout none false inItems) fun _ => ?_
  exact h.bind counted fun _ => h.bind (h.report _) fun _ => h.pure _

end Grammar

end

end YeccDefr
