import YeccDefr.Proofs.Output.Pairing

/-!
# Warnings

What a document cannot make sense of is not dropped in silence. A declaration without a meaning becomes a
comment (`Declaration.line_cases`), and a placeholder past the symbols of its rule stays an atom. There
is a warning for each of them and for nothing else, in the order of the items and of their code
(`Grammar.warnings`), and each writer has one lemma on the warnings it makes (`Naming.Warns`).

The damage stays where it is. A document is made of one text for each item (`Grammar.document_value`). A comment
asks for no name, and neither does a placeholder past the symbols, so the texts of all other items are those
they would have without it (`Item.text_names`). The main result is `Grammar.degrades_with_warning`.
-/

namespace YeccDefr

open Naming

/-! ## What deserves a warning -/

/-- A notice is about something that made no sense. -/
def Notice.isWarning (n : Notice) : Bool := n.level = .warn

/-- The warning that a declaration deserves: its head is not a variable, or not one of seven words, or no number
follows `Expect`, or no operator a precedence level. -/
def Declaration.warning? (d : Declaration) : Option Notice :=
  let place := d.head.region.start
  if d.head.kind ≠ .var then some (.headNotVariable place d.head.text)
  else if d.head.text ∈ ["Nonterminals", "Terminals", "Rootsymbol"] then none
  else if d.head.text = "Expect" then
    if d.body.length < 1 then some (.tooFewSymbols place .expect) else none
  else if d.head.text = "Left" then
    if d.body.length < 2 then some (.tooFewSymbols place .left) else none
  else if d.head.text = "Right" then
    if d.body.length < 2 then some (.tooFewSymbols place .right) else none
  else if d.head.text = "Nonassoc" then
    if d.body.length < 2 then some (.tooFewSymbols place .nonassoc) else none
  else some (.unknownHead place d.head.text)

/-- A symbol of the code of a rule denotes a position past the symbols of the rule. -/
def Rule.Past (r : Rule) (s : Symbol) : Prop := ∃ position, s.Denotes position ∧ r.symbols.length < position

/-- The test for past placeholders decides what they are. -/
lemma Rule.isPast_iff {r : Rule} {s : Symbol} : r.isPast s = true ↔ r.Past s := by
  simp only [isPast, Past, Option.any_eq_true, decide_eq_true_eq, Symbol.placeholder?_eq_some]

instance {r : Rule} {s : Symbol} : Decidable (r.Past s) := decidable_of_iff _ Rule.isPast_iff

/-- The warning about a symbol of the code of a rule, if it is a placeholder past the symbols of the rule. -/
def Rule.warning? (r : Rule) (s : Symbol) : Option Notice :=
  if r.Past s then some (.pastSymbols s.region.start s.text r.symbols.length r.head.text) else none

/-- Whether a placeholder is past the symbols can be told by reading its position. -/
lemma Rule.warning?_eq (r : Rule) (s : Symbol) : r.warning? s =
    if r.isPast s then some (.pastSymbols s.region.start s.text r.symbols.length r.head.text) else none := by
  simp only [warning?, isPast_iff]

/-- The warnings that an item deserves, one for each placeholder where it is a rule. -/
def Item.warnings : Item → List Notice
  | .declaration d => d.warning?.toList
  | .rule r => r.code.filterMap r.warning?

/-- The warnings that a grammar deserves. -/
def Grammar.warnings (g : Grammar) : List Notice := g.items.flatMap Item.warnings

/-- What is left of an item without that which deserves a warning. -/
def Item.mended : Item → List Item
  | .declaration d => if d.warning?.isSome then [] else [.declaration d]
  | .rule r => [.rule r.withoutPast]

/-- What is left of a mended item has no warning. -/
lemma Item.warnings_mended (i : Item) : ∀ j ∈ i.mended, j.warnings = [] := by
  cases i with
  | declaration d =>
    rw [mended]
    split
    case isTrue => exact fun j mem => absurd mem List.not_mem_nil
    case isFalse sound =>
      rw [List.forall_mem_singleton, warnings, Option.not_isSome_iff_eq_none.1 sound]
      rfl
  | rule r =>
    rw [mended, List.forall_mem_singleton, warnings, Rule.code_withoutPast, List.filterMap_eq_nil_iff]
    intro s mem
    have within : ¬ r.isPast s = true := by simpa using (List.mem_filter.1 mem).2
    exact if_neg fun past => within (Rule.isPast_iff.2 past)

/-! ## Work that warns -/

namespace Naming

/-- Some work makes the given warnings, whatever names are in use. -/
def Warns {α : Type} (x : Naming α) (warnings : List Notice) : Prop :=
  ∀ names, (x.run names).notices.filter Notice.isWarning = warnings

namespace Warns
variable {α β : Type} {x : Naming α} {warnings warnings' : List Notice}

/-- A value alone warns of nothing. -/
lemma pure (a : α) : Warns (Pure.pure a : Naming α) [] := fun _ => rfl

/-- A notice warns of itself if it is a warning. -/
lemma report (n : Notice) : Warns (report n) (if n.isWarning then [n] else []) := by
  intro names
  rw [run_report_notices, List.filter_singleton]
  cases n.isWarning <;> rfl

/-- A call for a name warns of nothing. -/
lemma bindingName (text : String) : Warns (bindingName text) [] := by
  intro names
  rw [bindingName_notices]
  cases names.nameOf? text <;> rfl

/-- Work in two steps warns of what the steps warn of. -/
lemma bind {f : α → Naming β} (hx : Warns x warnings) (hf : ∀ a, Warns (f a) warnings') :
    Warns (x >>= f) (warnings ++ warnings') := by
  intro names
  rw [run_bind_notices, List.filter_append, hx, hf]

/-- Work behind that makes no warnings. -/
lemma bind_nil {f : α → Naming β} (hx : Warns x warnings) (hf : ∀ a, Warns (f a) []) :
    Warns (x >>= f) warnings := by
  have both := hx.bind hf
  rwa [List.append_nil] at both

end Warns

end Naming

/-! ## Declarations -/

/-- The number of symbols that a directive needs. -/
def Directive.leastSymbols : Directive → Nat
  | nonterminals | terminals | rootsymbol => 0
  | expect => 1
  | left | right | nonassoc => 2

/-- The seven words are those that directives have for a head. -/
lemma Declaration.warning?_eq (d : Declaration) : d.warning? =
    if d.head.kind = .var then
      match Directive.ofHead? d.head.text with
      | some directive =>
        if d.body.length < directive.leastSymbols then
          some (.tooFewSymbols d.head.region.start directive)
        else none
      | none => some (.unknownHead d.head.region.start d.head.text)
    else some (.headNotVariable d.head.region.start d.head.text) := by
  by_cases var : d.head.kind = .var
  · simp only [warning?, if_neg (not_not_intro var), if_pos var]
    cases found : Directive.ofHead? d.head.text with
    | none =>
      have unknown := Directive.ofHead?_eq_none.1 found
      have list : d.head.text ∉ ["Nonterminals", "Terminals", "Rootsymbol"] := by
        simp only [List.mem_cons, List.not_mem_nil, or_false, not_or]
        exact ⟨unknown .nonterminals, unknown .terminals, unknown .rootsymbol⟩
      have expect : d.head.text ≠ "Expect" := unknown .expect
      have left : d.head.text ≠ "Left" := unknown .left
      have right : d.head.text ≠ "Right" := unknown .right
      have nonassoc : d.head.text ≠ "Nonassoc" := unknown .nonassoc
      simp only [if_neg list, if_neg expect, if_neg left, if_neg right, if_neg nonassoc]
    | some directive =>
      rw [← Directive.ofHead?_eq_some.1 found]
      cases directive <;> rfl
  · simp only [warning?, if_pos var, if_neg var]

namespace Directive

/-- A directive with too few symbols is reported and left as a comment. -/
lemma line_of_few {directive : Directive} {d : Declaration}
    (few : d.body.length < directive.leastSymbols) : directive.line d = (do
      report (.tooFewSymbols d.head.region.start directive)
      return "# malformed declaration: " ++ directive.head) := by
  obtain ⟨head, body⟩ := d
  cases directive with
  | nonterminals | terminals | rootsymbol => cases few
  | expect =>
    cases body with
    | nil => rfl
    | cons conflicts rest =>
      rw [List.length_cons, leastSymbols] at few
      omega
  | left | right | nonassoc =>
    rcases body with _ | ⟨level, _ | ⟨operator, rest⟩⟩
    · rfl
    · rfl
    · rw [List.length_cons, List.length_cons, leastSymbols] at few
      omega

/-- A directive with enough symbols warns of nothing, and its line starts with its keyword. -/
lemma line_of_enough {directive : Directive} {d : Declaration}
    (enough : directive.leastSymbols ≤ d.body.length) : Warns (directive.line d) []
      ∧ ∀ names, directive.keyword.toList <+: ((directive.line d).run names).value.1.toList := by
  have starts := toList_prefix_append
  rw [line_eq]
  obtain ⟨head, body⟩ := d
  cases directive with
  | nonterminals | terminals =>
    exact ⟨.pure _, fun _ => ((starts _ _).trans (starts _ _)).trans (starts _ _)⟩
  | rootsymbol => exact ⟨.pure _, fun _ => (starts _ _).trans (starts _ _)⟩
  | expect =>
    cases body with
    | nil => cases enough
    | cons conflicts rest =>
      refine ⟨(Warns.bindingName _).bind_nil fun _ => .pure _, fun _ => ?_⟩
      exact (starts _ _).trans (starts _ _)
  | left | right | nonassoc =>
    rcases body with _ | ⟨level, _ | ⟨operator, rest⟩⟩
    · cases enough
    · rw [List.length_singleton, leastSymbols] at enough
      omega
    · refine ⟨(Warns.bindingName _).bind_nil fun _ => .pure _, fun _ => ?_⟩
      exact (((starts _ _).trans (starts _ _)).trans (starts _ _)).trans (starts _ _)

/-- A line that starts with a keyword is no comment. -/
lemma not_comment {directive : Directive} {text : String}
    (starts : directive.keyword.toList <+: text.toList) : text.toList.head? ≠ some '#' := by
  obtain ⟨rest, e⟩ := starts
  rw [← e]
  cases directive <;> simp [keyword]

end Directive

namespace Declaration

/-- A declaration deserves a warning, makes it and becomes a comment, or it is one of a directive with the
symbols that it needs. -/
lemma line_cases (d : Declaration) :
    (∃ n text, d.warning? = some n ∧ n.isWarning = true ∧ d.line = (do
      report n
      return "#" ++ text))
    ∨ d.warning? = none ∧ ∃ directive : Directive, directive.leastSymbols ≤ d.body.length
      ∧ d.line = directive.line d := by
  rw [warning?_eq, line_eq]
  split
  case isFalse => exact .inl ⟨_, " unknown declaration head", rfl, rfl, rfl⟩
  case isTrue =>
    cases Directive.ofHead? d.head.text with
    | none => exact .inl ⟨_, " unknown head: " ++ d.head.text, rfl, rfl, rfl⟩
    | some directive =>
      dsimp only
      split
      case isTrue few =>
        refine .inl ⟨_, " malformed declaration: " ++ directive.head, rfl, rfl, ?_⟩
        rw [← String.append_assoc]
        exact Directive.line_of_few few
      case isFalse enough => exact .inr ⟨rfl, directive, Nat.not_lt.1 enough, rfl⟩

/-- A declaration with a warning is reported and left as a comment. -/
lemma line_of_warning {d : Declaration} {n : Notice} (h : d.warning? = some n) :
    n.isWarning = true ∧ ∃ text, d.line = (do
      report n
      return "#" ++ text) := by
  obtain ⟨n', text, deserved, severe, line⟩ | ⟨sound, _⟩ := d.line_cases
  · obtain rfl := Option.some.inj (h.symm.trans deserved)
    exact ⟨severe, text, line⟩
  · cases h.symm.trans sound

/-- A declaration without a warning becomes a line that is no comment. -/
lemma line_of_sound {d : Declaration} (h : d.warning? = none) : Warns d.line []
    ∧ ∀ names, (d.line.run names).value.1.toList.head? ≠ some '#' := by
  obtain ⟨_, _, deserved, _⟩ | ⟨_, directive, enough, line⟩ := d.line_cases
  · cases h.symm.trans deserved
  · obtain ⟨silent, starts⟩ := Directive.line_of_enough enough
    rw [line]
    exact ⟨silent, fun names => Directive.not_comment (starts names)⟩

/-- The line of a declaration warns as the declaration does. -/
lemma line_warns (d : Declaration) : Warns d.line d.warning?.toList := by
  cases h : d.warning? with
  | none => exact (line_of_sound h).1
  | some n =>
    obtain ⟨severe, text, line⟩ := line_of_warning h
    rw [line]
    have warns := (Warns.report n).bind_nil fun _ => .pure ("#" ++ text)
    rwa [severe] at warns

/-- The line of a declaration is a comment exactly if there is a warning of it. -/
lemma comment_iff (d : Declaration) (names : Names) :
    (d.line.run names).value.1.toList.head? = some '#' ↔ d.warning? ≠ none := by
  cases h : d.warning? with
  | none => exact iff_of_false ((line_of_sound h).2 names) (not_not_intro rfl)
  | some n =>
    obtain ⟨_, text, line⟩ := line_of_warning h
    refine iff_of_true ?_ (Option.some_ne_none n)
    rw [line, run_bind_value, run_pure_value, String.toList_append]
    rfl

end Declaration

/-! ## Rules -/

namespace Rule

/-- The parameters of a rule warn of nothing. -/
lemma parametersFrom_warns (r : Rule) (position : Nat) (symbols : List Symbol) :
    Warns (r.parametersFrom position symbols) [] := by
  induction symbols generalizing position with
  | nil => exact .pure _
  | cons s symbols ih =>
    have others (parameter : String) : Warns (do
        let others ← r.parametersFrom (position + 1) symbols
        return parameter :: others) [] := (ih _).bind_nil fun _ => .pure _
    rw [parametersFrom_cons]
    split
    · exact (Warns.bindingName s.text).bind_nil fun _ => (Warns.pure _).bind_nil others
    · exact (Warns.pure _).bind_nil others

/-- The signature of a rule warns of nothing. -/
lemma signature_warns (r : Rule) : Warns r.signature [] :=
  (r.parametersFrom_warns 1 r.symbols).bind_nil fun _ => .pure _

/-- A symbol of the code warns of itself if it is a past placeholder. -/
lemma replacement_warns (r : Rule) (depth : Int) (s : Symbol) :
    Warns (r.replacement depth s) (r.warning? s).toList := by
  cases placeholder : s.placeholder? with
  | none =>
    simp only [replacement_eq, warning?_eq, isPast, placeholder]
    exact .pure _
  | some position =>
    have counted := Symbol.placeholder?_pos placeholder
    cases found : r.symbols[position - 1]? with
    | some referenced =>
      have within : ¬ r.symbols.length < position := by
        have := (List.getElem?_eq_some_iff.1 found).1
        omega
      simp only [replacement_eq, warning?_eq, isPast, placeholder, found, Option.any_some, within]
      exact (Warns.bindingName _).bind_nil fun _ => .pure _
    | none =>
      have past : r.symbols.length < position := by
        have := List.getElem?_eq_none_iff.1 found
        omega
      simp only [replacement_eq, warning?_eq, isPast, placeholder, found, Option.any_some, past]
      exact (Warns.report _).bind_nil fun _ => .pure _

/-- A body warns of each past placeholder in it, in order. -/
lemma bodyFrom_warns (r : Rule) (c : BodyCursor) (code : List Symbol) :
    Warns (r.bodyFrom c code) (code.filterMap r.warning?) := by
  induction code generalizing c with
  | nil => exact .pure _
  | cons s code ih =>
    have split : (s :: code).filterMap r.warning? =
        (r.warning? s).toList ++ code.filterMap r.warning? := by
      rw [List.filterMap_cons]
      cases r.warning? s <;> rfl
    rw [bodyFrom_cons, split]
    exact (r.replacement_warns _ s).bind fun _ => (ih _).bind_nil fun _ => .pure _

/-- The definition of a rule warns of each past placeholder in its code. -/
lemma definition_warns (layout : Layout) (r : Rule) :
    Warns (r.definition layout) (r.code.filterMap r.warning?) := by
  rw [definition_eq]
  refine r.signature_warns.bind fun _ => (r.bodyFrom_warns .start r.code).bind_nil fun _ => ?_
  split
  · exact .pure _
  · exact (Warns.report _).bind_nil fun _ => .pure _

end Rule

/-! ## Documents -/

/-- The text that an item becomes. -/
def Item.text (layout : Layout) : Item → Naming String
  | .declaration d => d.line
  | .rule r => r.definition layout

/-- The text of an item warns as the item does. -/
lemma Item.text_warns (layout : Layout) (i : Item) : Warns (i.text layout) i.warnings := by
  cases i with
  | declaration d => exact d.line_warns
  | rule r => exact r.definition_warns layout

/-- What deserves a warning asks for no name. -/
lemma Item.text_names (layout : Layout) (i : Item) (names : Names) :
    ((i.text layout).run names).value.2 = ((i.mended.mapM (text layout)).run names).value.2 := by
  cases i with
  | declaration d =>
    rw [mended]
    cases h : d.warning? with
    | none => rfl
    | some n =>
      obtain ⟨_, text, line⟩ := Declaration.line_of_warning h
      rw [Item.text, line]
      rfl
  | rule r =>
    rw [mended, List.mapM_cons, List.mapM_nil, run_bind_value, pure_bind, run_pure_value, Item.text, Item.text,
      Rule.definition_names, Rule.definition_names, Rule.signature_withoutPast]

namespace Grammar

/-- The entries of items with the given texts: an empty one stands in front of a rule that starts a group. -/
def grouped (lastHead? : Option String) (started : Bool) : List Item → List String → List String
  | .declaration _ :: items, text :: texts => text :: grouped lastHead? true items texts
  | .rule r :: items, text :: texts =>
    let later := grouped (some r.head.text) true items texts
    if started && lastHead? ≠ some r.head.text then "" :: text :: later else text :: later
  | _, _ => []

/-- The entries are the texts of the items, one after the other, and the empty ones between groups. -/
lemma entriesFrom_eq (layout : Layout) (lastHead? : Option String) (started : Bool) (items : List Item) :
    entriesFrom layout lastHead? started items =
      (grouped lastHead? started items) <$> items.mapM (Item.text layout) := by
  induction items generalizing lastHead? started with
  | nil => simp [grouped]
  | cons i items ih =>
    rw [List.mapM_cons]
    cases i with
    | declaration d => simp [ih, Item.text, grouped]
    | rule r =>
      by_cases starts : (started && lastHead? ≠ some r.head.text) = true
      · simp only [entriesFrom_rule, ih, Item.text, grouped, if_pos starts, map_eq_pure_bind, bind_assoc,
          pure_bind]
      · simp only [entriesFrom_rule, ih, Item.text, grouped, if_neg starts, map_eq_pure_bind, bind_assoc,
          pure_bind]

/-- The texts of items, one for each, and the names after them. -/
def texts (layout : Layout) (names : Names) (items : List Item) : List String × Names :=
  ((items.mapM (Item.text layout)).run names).value

section
variable {layout : Layout} {names : Names}

/-- The text of the first item comes first, and hands its names on. -/
lemma texts_cons (i : Item) (items : List Item) :
    texts layout names (i :: items) =
      let text := ((i.text layout).run names).value
      let later := texts layout text.2 items
      (text.1 :: later.1, later.2) := by
  rw [texts, List.mapM_cons]
  rfl

/-- The texts of two lists of items come one after the other. -/
lemma texts_append (items items' : List Item) :
    texts layout names (items ++ items') =
      let front := texts layout names items
      let back := texts layout front.2 items'
      (front.1 ++ back.1, back.2) := by
  rw [texts, List.mapM_append]
  rfl

/-- Behind an item, the others have the texts that they have behind what is left of it. -/
lemma texts_mended_append (i : Item) (items : List Item) :
    texts layout names (i.mended ++ items) =
      let later := texts layout ((i.text layout).run names).value.2 items
      ((texts layout names i.mended).1 ++ later.1, later.2) := by
  have same : (texts layout names i.mended).2 = ((i.text layout).run names).value.2 :=
    (i.text_names layout names).symm
  simp only [texts_append, same]

/-- Every item has one text. -/
lemma length_texts (items : List Item) : (texts layout names items).1.length = items.length := by
  induction items generalizing names with
  | nil => rfl
  | cons i items ih => rw [texts_cons, List.length_cons, List.length_cons, ih]

/-- The texts of items warn as the items do, in order. -/
lemma mapM_text_warns (layout : Layout) (items : List Item) :
    Warns (items.mapM (Item.text layout)) (items.flatMap Item.warnings) := by
  induction items with
  | nil => exact .pure _
  | cons i items ih =>
    rw [List.mapM_cons]
    exact (i.text_warns layout).bind fun _ => ih.bind_nil fun _ => .pure _

/-- A document warns as its items do, in order. -/
lemma document_warns (layout : Layout) (g : Grammar) : Warns (g.document layout) g.warnings := by
  have entries : Warns (g.entries layout) g.warnings := by
    rw [Grammar.entries, entriesFrom_eq, map_eq_pure_bind]
    exact (mapM_text_warns layout g.items).bind_nil fun _ => .pure _
  -- the notice of a document is no warning, whatever it counts
  have noticed (entries : List String) : Warns (do
      report (.rendered g.items.length (← get).generated)
      return "\n".intercalate entries) [] := fun _ => rfl
  exact entries.bind_nil noticed

/-- A document is the texts of its items, with its gaps in between. -/
lemma document_value (layout : Layout) (g : Grammar) (names : Names) :
    ((g.document layout).run names).value =
      let texts := texts layout names g.items
      ("\n".intercalate (grouped none false g.items texts.1), texts.2) := by
  rw [g.document_agree layout names, entries, entriesFrom_eq, map_eq_pure_bind]
  rfl

end

/-- How a document, written with the given names in use, deals with what makes no sense. -/
structure Degrades (g : Grammar) (layout : Layout) (names : Names) : Prop where
  /-- It makes the warnings that the grammar deserves, in order, and no others. -/
  warned : ((g.document layout).run names).notices.filter Notice.isWarning = g.warnings
  /-- A declaration becomes a comment exactly if it makes a warning. -/
  commented : ∀ d, .declaration d ∈ g.items → ∀ names : Names,
    (d.line.run names).notices.filter Notice.isWarning = d.warning?.toList
      ∧ ((d.line.run names).value.1.toList.head? = some '#' ↔ d.warning? ≠ none)
  /-- Every item has a text in the document. -/
  written : (texts layout names g.items).1.length = g.items.length
    ∧ ((g.document layout).run names).value.1 =
      "\n".intercalate (grouped none false g.items (texts layout names g.items).1)
  /-- The other items have the texts that they have where the item is mended, and leave the same names. -/
  framed : ∀ before i after, g.items = before ++ i :: after → ∃ front text mended back later,
    texts layout names (before ++ i :: after) = (front ++ text :: back, later)
      ∧ texts layout names (before ++ i.mended ++ after) = (front ++ mended ++ back, later)
      ∧ front.length = before.length ∧ mended.length = i.mended.length
      ∧ ∀ j ∈ i.mended, j.warnings = []

/-- Nothing that makes no sense goes unnoticed, stops a document, or changes the text of another item. -/
theorem degrades_with_warning (layout : Layout) (g : Grammar) (names : Names) :
    g.Degrades layout names where
  warned := g.document_warns layout names
  commented := fun d _ names => ⟨d.line_warns names, d.comment_iff names⟩
  written := ⟨length_texts _, by rw [document_value]⟩
  framed := by
    intro before i after _
    rw [List.append_assoc, texts_append, texts_append]
    dsimp only
    rw [texts_cons, texts_mended_append]
    exact ⟨_, _, _, _, _, rfl, congrArg (·, _) (List.append_assoc ..).symm, length_texts _,
      length_texts _, i.warnings_mended⟩

end Grammar

end YeccDefr
