import YeccDefr.Proofs.Output.Parameters

/-!
# Requests for names

A document asks for names in the order of its items: for the number of an `Expect` declaration, for the level
of a precedence declaration, and for the symbols of a rule whose values its code uses
(`Grammar.requests`). Some work asks for symbols if it leaves the same names as asking for each of them, and
makes the same notices about names (`Naming.Asks`). Each writer has one lemma of this form; the body of a rule
asks only for symbols that its parameters have asked for, which has no effect.

So the names in use after a document are those of its requests. Asking gives the next numbers to the literals
that have no name yet (`Names.newLiterals`), in the order in which they are first asked for, and a document
does the same (`Grammar.numbered_by_request`).
-/

namespace YeccDefr

open Naming

/-- A notice is about a new name. -/
def Notice.isNaming : Notice → Bool
  | named .. => true
  | _ => false

namespace Naming

/-- Asks for the names of symbols with the given texts. -/
def ask : List String → Naming Unit
  | [] => pure ()
  | text :: texts => do
    let _ ← bindingName text
    ask texts

section
variable {names : Names} {text : String} {texts : List String}

/-- The notices of two steps are those of the first one and then those of the second. -/
@[simp]
lemma run_bind_notices {α β : Type} (x : Naming α) (f : α → Naming β) (names : Names) :
    ((x >>= f).run names).notices = (x.run names).notices
      ++ ((f (x.run names).value.1).run (x.run names).value.2).notices := rfl

/-- A value alone makes no notice. -/
@[simp]
lemma run_pure_notices {α : Type} (a : α) (names : Names) :
    ((pure a : Naming α).run names).notices = [] := rfl

/-- There is a notice exactly where a symbol gets a new name. -/
lemma bindingName_notices (text : String) (names : Names) :
    ((bindingName text).run names).notices =
      match names.nameOf? text with
      | some _ => []
      | none => [.named (requoted text) (Names.numbered (names.generated + 1))] := by
  by_cases isQuoted : Quoted (requoted text)
  · have head : (requoted text).toList.head? = some '"' := isQuoted
    rw [Names.nameOf?, if_pos isQuoted]
    simp only [bindingName, bareName, StateT.run, if_pos head]
    cases names.find? (requoted text) <;> rfl
  · have head : ¬ (requoted text).toList.head? = some '"' := isQuoted
    rw [Names.nameOf?, if_neg isQuoted]
    simp only [bindingName, bareName, StateT.run, if_neg head]
    rfl

/-- A call for a name makes no other notice than that of a naming. -/
lemma filter_notices_bindingName (text : String) (names : Names) :
    ((bindingName text).run names).notices.filter Notice.isNaming =
      ((bindingName text).run names).notices := by
  rw [bindingName_notices]
  cases names.nameOf? text <;> rfl

/-- Asking for two lists is asking for one after the other. -/
lemma ask_append (texts texts' : List String) :
    ask (texts ++ texts') = (do
      ask texts
      ask texts') := by
  induction texts with
  | nil => rfl
  | cons text texts ih => simp [ask, ih]

/-- Asking for symbols that have a name gives no name and makes no notice. -/
lemma ask_of_named (h : ∀ text ∈ texts, ∃ name, names.nameOf? text = some name) :
    ((ask texts).run names).value.2 = names ∧ ((ask texts).run names).notices = [] := by
  induction texts with
  | nil => exact ⟨rfl, rfl⟩
  | cons text texts ih =>
    rw [List.forall_mem_cons] at h
    obtain ⟨name, known⟩ := h.1
    obtain ⟨value, notices⟩ := ih h.2
    rw [ask, run_bind_value, run_bind_notices, bindingName_of_some known, bindingName_notices, known]
    exact ⟨value, notices⟩

/-- Asking for names settles. -/
lemma ask_settles (texts : List String) : Settles (ask texts) := by
  induction texts with
  | nil => exact .pure _
  | cons text texts ih => exact (bindingName_settles text).bind fun _ => ih

/-- What has been asked for has a name. -/
lemma nameOf?_ask : ∀ text ∈ texts,
    ∃ name, ((ask texts).run names).value.2.nameOf? text = some name := by
  induction texts generalizing names with
  | nil => exact fun text mem => absurd mem List.not_mem_nil
  | cons text texts ih =>
    rw [ask, run_bind_value, List.forall_mem_cons]
    exact ⟨⟨_, ((ask_settles texts).grows _).nameOf? (nameOf?_bindingName text names)⟩, ih⟩

end

/-- Some work leaves the same names, and makes the same notices about names, as asking for the names of
symbols with the given texts. -/
structure Asks {α : Type} (x : Naming α) (texts : List String) : Prop where
  names : ∀ names, (x.run names).value.2 = ((ask texts).run names).value.2
  notices : ∀ names,
    (x.run names).notices.filter Notice.isNaming = ((ask texts).run names).notices

namespace Asks
variable {α β : Type} {x : Naming α} {texts texts' : List String}

/-- A value alone asks for nothing. -/
lemma pure (a : α) : Asks (Pure.pure a : Naming α) [] := ⟨fun _ => rfl, fun _ => rfl⟩

/-- A notice that names nothing asks for nothing. -/
lemma report {n : Notice} (h : n.isNaming = false) : Asks (report n) [] where
  names := fun _ => rfl
  notices := by
    intro names
    rw [run_report_notices, List.filter_singleton, h]
    rfl

/-- A call for a name asks for its symbol. -/
lemma bindingName (text : String) : Asks (bindingName text) [text] where
  names := by
    intro names
    rw [ask, ask, run_bind_value, run_pure_value]
  notices := by
    intro names
    rw [filter_notices_bindingName, ask, ask, run_bind_notices, run_pure_notices, List.append_nil]

/-- Work in two steps asks for what the steps ask for. -/
lemma bind {f : α → Naming β} (hx : Asks x texts) (hf : ∀ a, Asks (f a) texts') :
    Asks (x >>= f) (texts ++ texts') where
  names := by
    intro names
    rw [run_bind_value, (hf _).names, hx.names, ask_append, run_bind_value]
  notices := by
    intro names
    rw [run_bind_notices, List.filter_append, hx.notices, (hf _).notices, hx.names, ask_append,
      run_bind_notices]

/-- Work behind that asks for nothing. -/
lemma bind_nil {f : α → Naming β} (hx : Asks x texts) (hf : ∀ a, Asks (f a) []) :
    Asks (x >>= f) texts := by
  have both := hx.bind hf
  rwa [List.append_nil] at both

/-- Asking again makes no difference. -/
lemma of_subset (h : Asks x (texts ++ texts')) (again : ∀ text ∈ texts', text ∈ texts) :
    Asks x texts := by
  have named (names : Names) : ∀ text ∈ texts',
      ∃ name, ((ask texts).run names).value.2.nameOf? text = some name :=
    fun text mem => nameOf?_ask text (again text mem)
  refine ⟨fun names => ?_, fun names => ?_⟩
  · rw [h.names, ask_append, run_bind_value, (ask_of_named (named names)).1]
  · rw [h.notices, ask_append, run_bind_notices, (ask_of_named (named names)).2, List.append_nil]

end Asks

end Naming

/-! ## The numbers of new literals -/

namespace Names

/-- The literals that get a name when symbols with the given texts are asked for, the first one asked for
first: those in quotes that are not well known and have no name yet. -/
def newLiterals (names : Names) (texts : List String) : List String :=
  ((texts.map requoted).filter fun q =>
    Quoted q ∧ q ∉ wellKnownNames.map Prod.fst ∧ q ∉ names.named).eraseDups

section
variable {names : Names} {text : String}

/-- A symbol has no name if its literal is in quotes, has no fixed name and has not been named. -/
lemma nameOf?_eq_none : names.nameOf? text = none ↔
    Quoted (requoted text) ∧ requoted text ∉ wellKnownNames.map Prod.fst
      ∧ requoted text ∉ names.named := by
  rw [← lookup_wellKnownNames_eq_none, ← find?_eq_none, nameOf?]
  split
  case isTrue isQuoted => exact (and_iff_right isQuoted).symm
  case isFalse bare => exact iff_of_false (Option.some_ne_none _) fun h => bare h.1

/-- A symbol that has a name adds no new literal. -/
lemma newLiterals_cons_of_some {name : String} (known : names.nameOf? text = some name)
    (texts : List String) : names.newLiterals (text :: texts) = names.newLiterals texts := by
  have old : names.nameOf? text ≠ none := known ▸ Option.some_ne_none name
  rw [newLiterals, List.map_cons, List.filter_cons_of_neg, newLiterals]
  rwa [decide_eq_true_eq, ← nameOf?_eq_none]

/-- A literal that has just got a name is not new any more. -/
lemma newLiterals_cons_of_none (unknown : names.nameOf? text = none) (texts : List String) :
    names.newLiterals (text :: texts) =
      requoted text :: (names.add (requoted text)).newLiterals texts := by
  rw [newLiterals, List.map_cons, List.filter_cons_of_pos, List.eraseDups_cons, List.filter_filter,
    newLiterals]
  · congr 3
    funext q
    rw [add, Bool.eq_iff_iff]
    simp only [Bool.and_eq_true, Bool.not_eq_true', beq_eq_false_iff_ne, decide_eq_true_eq,
      List.mem_append, List.mem_singleton, not_or]
    tauto
  · rwa [decide_eq_true_eq, ← nameOf?_eq_none]

end

end Names

namespace Naming

/-- Some work numbers literals by request: asked for symbols with the given texts, one after the other, it
gives the next numbers to the new literals among them and makes a notice of each. -/
structure NumbersByRequest {α : Type} (x : Naming α) (texts : List String) (names : Names) : Prop where
  /-- The names in use afterwards are those after asking for one symbol after the other. -/
  folded : (x.run names).value.2 =
    texts.foldl (fun names text => ((bindingName text).run names).value.2) names
  /-- A literal keeps its name, and a new one has the number of its place among the new ones. -/
  named : ∀ quoted name, (x.run names).value.2.find? quoted = some name ↔
    names.find? quoted = some name ∨ ∃ k, (names.newLiterals texts)[k]? = some quoted
      ∧ name = Names.numbered (names.generated + (k + 1))
  counted : (x.run names).value.2.generated = names.generated + (names.newLiterals texts).length
  noticed : (x.run names).notices.filter Notice.isNaming =
    (names.newLiterals texts).mapIdx fun k quoted =>
      .named quoted (Names.numbered (names.generated + (k + 1)))

/-- Asking for names hands the names on from call to call. -/
lemma ask_folds (texts : List String) (names : Names) : ((ask texts).run names).value.2 =
    texts.foldl (fun names text => ((bindingName text).run names).value.2) names := by
  induction texts generalizing names with
  | nil => rfl
  | cons text texts ih =>
    rw [ask, run_bind_value, ih, List.foldl_cons]

/-- Every new literal is given one name. -/
lemma ask_generated (texts : List String) (names : Names) :
    ((ask texts).run names).value.2.generated =
      names.generated + (names.newLiterals texts).length := by
  induction texts generalizing names with
  | nil => rfl
  | cons text texts ih =>
    rw [ask, run_bind_value]
    cases h : names.nameOf? text with
    | some name => rw [bindingName_of_some h, ih, Names.newLiterals_cons_of_some h]
    | none =>
      rw [(bindingName_of_none h).2.2, ih, Names.newLiterals_cons_of_none h, Names.generated_add,
        List.length_cons, Nat.add_right_comm, Nat.add_assoc]

/-- Every new literal is reported with the next number. -/
lemma ask_notices (texts : List String) (names : Names) : ((ask texts).run names).notices =
    (names.newLiterals texts).mapIdx fun k quoted =>
      .named quoted (Names.numbered (names.generated + (k + 1))) := by
  induction texts generalizing names with
  | nil => rfl
  | cons text texts ih =>
    rw [ask, run_bind_notices, bindingName_notices]
    cases h : names.nameOf? text with
    | some name =>
      rw [bindingName_of_some h, ih, Names.newLiterals_cons_of_some h]
      rfl
    | none =>
      have shift (k : Nat) : names.generated + 1 + (k + 1) = names.generated + (k + 1 + 1) := by omega
      rw [(bindingName_of_none h).2.2, ih, Names.newLiterals_cons_of_none h, List.mapIdx_cons,
        Names.generated_add]
      simp only [shift]
      rfl

/-- After asking, the new literals have the next numbers in order, and the others have what they had. -/
lemma find?_ask (texts : List String) (names : Names) (quoted name : String) :
    ((ask texts).run names).value.2.find? quoted = some name ↔
      names.find? quoted = some name ∨ ∃ k, (names.newLiterals texts)[k]? = some quoted
        ∧ name = Names.numbered (names.generated + (k + 1)) := by
  induction texts generalizing names with
  | nil =>
    refine ⟨.inl, ?_⟩
    rintro (found | ⟨k, inside, _⟩)
    · exact found
    · cases inside
  | cons text texts ih =>
    rw [ask, run_bind_value]
    cases h : names.nameOf? text with
    | some known => rw [bindingName_of_some h, ih, Names.newLiterals_cons_of_some h]
    | none =>
      obtain ⟨_, unnamed, run⟩ := bindingName_of_none h
      have places (new : List String) :
          (∃ k, (requoted text :: new)[k]? = some quoted
              ∧ name = Names.numbered (names.generated + (k + 1))) ↔
            requoted text = quoted ∧ name = Names.numbered (names.generated + 1)
              ∨ ∃ k, new[k]? = some quoted
                ∧ name = Names.numbered (names.generated + 1 + (k + 1)) := by
        have shift (k : Nat) : names.generated + (k + 1 + 1) = names.generated + 1 + (k + 1) := by
          omega
        rw [← Nat.or_exists_add_one]
        simp only [shift, List.getElem?_cons_zero, List.getElem?_cons_succ, Option.some.injEq,
          Nat.zero_add]
      rw [run, ih, Names.newLiterals_cons_of_none h, Names.find?_add unnamed, Names.generated_add,
        places, ← or_assoc]
      refine or_congr_left ?_
      by_cases first : quoted = requoted text
      · rw [if_pos first, first, unnamed]
        simp [eq_comm (a := name)]
      · rw [if_neg first]
        simp [Ne.symm first]

/-- Asking for symbols numbers the new literals among them, and so does all work that asks for them. -/
lemma Asks.numbersByRequest {α : Type} {x : Naming α} {texts : List String} (h : Asks x texts)
    (names : Names) : NumbersByRequest x texts names where
  folded := by rw [h.names, ask_folds]
  named := by
    intro quoted name
    rw [h.names, find?_ask]
  counted := by rw [h.names, ask_generated]
  noticed := by rw [h.notices, ask_notices]

end Naming

/-! ## What the writers ask for -/

/-- The texts of the symbols whose names the line of a declaration needs: the number of an `Expect` declaration,
and the level of a precedence declaration that has an operator behind it. -/
def Declaration.requests (d : Declaration) : List String :=
  if d.head.kind ≠ .var then []
  else if d.head.text = "Expect" then (d.body.take 1).map (·.text)
  else if d.head.text ∈ ["Left", "Right", "Nonassoc"] ∧ 2 ≤ d.body.length then
    (d.body.take 1).map (·.text)
  else []

/-- The texts of the symbols of a rule, from left to right, whose positions a symbol of its code denotes. -/
def Rule.requests (r : Rule) : List String :=
  (r.symbols.zipIdx 1).filterMap fun (s, position) =>
    if ∃ c ∈ r.code, c.Denotes position then some s.text else none

/-- The texts of the symbols that an item asks for names of. -/
def Item.requests : Item → List String
  | .declaration d => d.requests
  | .rule r => r.requests

/-- The texts of the symbols that a document asks for names of. -/
def Grammar.requests (g : Grammar) : List String := g.items.flatMap Item.requests

/-- The texts of the symbols whose names the line of a directive needs, given what follows its head. -/
def Directive.requests : Directive → List Symbol → List String
  | .expect, conflicts :: _ => [conflicts.text]
  | .left, level :: _ :: _ | .right, level :: _ :: _ | .nonassoc, level :: _ :: _ => [level.text]
  | _, _ => []

/-- The words that open the declarations which need names are those of directives which do. -/
lemma Declaration.requests_eq (d : Declaration) : d.requests =
    if d.head.kind = .var then
      match Directive.ofHead? d.head.text with
      | some directive => directive.requests d.body
      | none => []
    else [] := by
  by_cases var : d.head.kind = .var
  · rw [requests, if_neg (not_not_intro var), if_pos var]
    cases found : Directive.ofHead? d.head.text with
    | none =>
      have unknown := Directive.ofHead?_eq_none.1 found
      have conflicts : d.head.text ≠ "Expect" := unknown .expect
      have level : d.head.text ∉ ["Left", "Right", "Nonassoc"] := by
        simp only [List.mem_cons, List.not_mem_nil, or_false, not_or]
        exact ⟨unknown .left, unknown .right, unknown .nonassoc⟩
      rw [if_neg conflicts, if_neg fun h => level h.1]
    | some directive =>
      rw [← Directive.ofHead?_eq_some.1 found]
      obtain ⟨head, body⟩ := d
      cases directive with
      | nonterminals | terminals | rootsymbol => rfl
      | expect => cases body <;> rfl
      | left | right | nonassoc =>
        rcases body with _ | ⟨level, _ | ⟨operator, rest⟩⟩
        · rfl
        · rfl
        · simp [Directive.head, Directive.requests]
  · rw [requests, if_pos var, if_neg var]

/-- The line of a directive asks for what the directive requests of its symbols. -/
lemma Directive.line_asks (directive : Directive) (d : Declaration) :
    Asks (directive.line d) (directive.requests d.body) := by
  have malformed : Asks (do
      report (.tooFewSymbols d.head.region.start directive)
      return "# malformed declaration: " ++ directive.head) [] :=
    (Asks.report rfl).bind_nil fun _ => .pure _
  rw [line_eq]
  obtain ⟨head, body⟩ := d
  cases directive with
  | nonterminals | terminals | rootsymbol => exact .pure _
  | expect =>
    cases body with
    | nil => exact malformed
    | cons conflicts _ => exact (Asks.bindingName _).bind_nil fun _ => .pure _
  | left | right | nonassoc =>
    rcases body with _ | ⟨level, _ | ⟨operator, _⟩⟩
    · exact malformed
    · exact malformed
    · exact (Asks.bindingName _).bind_nil fun _ => .pure _

/-- The line of a declaration asks for what the declaration requests. -/
lemma Declaration.line_asks (d : Declaration) : Asks d.line d.requests := by
  rw [line_eq, requests_eq]
  split
  · cases Directive.ofHead? d.head.text with
    | some directive => exact directive.line_asks d
    | none => exact (Asks.report rfl).bind_nil fun _ => .pure _
  · exact (Asks.report rfl).bind_nil fun _ => .pure _

namespace Rule

/-- The positions that the code uses are those that its symbols denote. -/
lemma requests_eq (r : Rule) : r.requests = r.boundSymbols.map (·.text) := by
  have denoted {position : Nat} : (∃ c ∈ r.code, c.Denotes position) ↔ r.uses position = true := by
    simp only [uses_iff, Symbol.placeholder?_eq_some]
  rw [requests, boundSymbols, boundFrom, List.map_filterMap]
  congr 1
  funext p
  simp only [denoted]
  split <;> rfl

/-- The texts of the symbols that the placeholders in code stand for. -/
def referenced (r : Rule) (code : List Symbol) : List String :=
  code.filterMap fun s =>
    s.placeholder?.bind fun position => r.symbols[position - 1]?.map (·.text)

/-- The parameters of a rule ask for the symbols that they bind. -/
lemma parametersFrom_asks (r : Rule) (position : Nat) (symbols : List Symbol) :
    Asks (r.parametersFrom position symbols) ((r.boundFrom position symbols).map (·.text)) := by
  induction symbols generalizing position with
  | nil => exact .pure _
  | cons s symbols ih =>
    have others (parameter : String) : Asks (do
        let others ← r.parametersFrom (position + 1) symbols
        return parameter :: others) ((r.boundFrom (position + 1) symbols).map (·.text)) :=
      (ih _).bind_nil fun _ => .pure _
    rw [parametersFrom_cons, boundFrom_cons]
    by_cases used : r.uses position = true
    · rw [if_pos used, if_pos used]
      exact (Asks.bindingName s.text).bind fun _ => (Asks.pure _).bind others
    · rw [if_neg used, if_neg used]
      exact (Asks.pure _).bind others

/-- The signature of a rule asks for what the rule requests. -/
lemma signature_asks (r : Rule) : Asks r.signature r.requests := by
  rw [requests_eq]
  exact (r.parametersFrom_asks 1 r.symbols).bind_nil fun _ => .pure _

/-- A placeholder in code asks for the symbol at its position. -/
lemma replacement_asks (r : Rule) (depth : Int) (s : Symbol) :
    Asks (r.replacement depth s) (r.referenced [s]) := by
  rw [replacement_eq, referenced, List.filterMap_cons, List.filterMap_nil]
  cases s.placeholder? with
  | none => exact .pure _
  | some position =>
    dsimp only [Option.bind_some]
    cases r.symbols[position - 1]? with
    | none =>
      exact (Asks.report (n := .pastSymbols ..) rfl).bind_nil fun _ => .pure _
    | some symbol => exact (Asks.bindingName symbol.text).bind_nil fun _ => .pure _

/-- A body asks for the symbols that its placeholders denote. -/
lemma bodyFrom_asks (r : Rule) (c : BodyCursor) (code : List Symbol) :
    Asks (r.bodyFrom c code) (r.referenced code) := by
  induction code generalizing c with
  | nil => exact .pure _
  | cons s code ih =>
    rw [bodyFrom_cons]
    have split : r.referenced (s :: code) = r.referenced [s] ++ r.referenced code :=
      List.filterMap_append (l := [s])
    rw [split]
    exact (r.replacement_asks _ s).bind fun _ => (ih _).bind_nil fun _ => .pure _

/-- The body asks only for symbols that the parameters have asked for. -/
lemma referenced_subset (r : Rule) : ∀ text ∈ r.referenced r.code, text ∈ r.requests := by
  intro text mem
  obtain ⟨s, inCode, refers⟩ := List.mem_filterMap.1 mem
  obtain ⟨position, placeholder, within⟩ := Option.bind_eq_some_iff.1 refers
  obtain ⟨symbol, found, rfl⟩ := Option.map_eq_some_iff.1 within
  rw [requests_eq]
  exact List.mem_map_of_mem (mem_boundSymbols inCode placeholder found)

/-- The definition of a rule asks for what the rule requests: its body adds nothing. -/
lemma definition_asks (layout : Layout) (r : Rule) : Asks (r.definition layout) r.requests := by
  refine Asks.of_subset ?_ r.referenced_subset
  rw [definition_eq]
  refine r.signature_asks.bind fun _ => (r.bodyFrom_asks _ _).bind_nil fun _ => ?_
  split
  · exact .pure _
  · exact (Asks.report rfl).bind_nil fun _ => .pure _

end Rule

namespace Grammar

/-- The entries of items ask for what the items request, in order. -/
lemma entriesFrom_asks (layout : Layout) (lastHead? : Option String) (started : Bool)
    (items : List Item) :
    Asks (entriesFrom layout lastHead? started items) (items.flatMap Item.requests) := by
  induction items generalizing lastHead? started with
  | nil => exact .pure _
  | cons i items ih =>
    cases i with
    | declaration d =>
      rw [entriesFrom_declaration]
      exact d.line_asks.bind fun _ => (ih _ _).bind_nil fun _ => .pure _
    | rule r =>
      rw [entriesFrom_rule]
      refine (r.definition_asks layout).bind fun _ => (ih _ _).bind_nil fun _ => ?_
      split <;> exact .pure _

/-- A document asks for what its items request, in order. -/
lemma document_asks (layout : Layout) (g : Grammar) : Asks (g.document layout) g.requests := by
  -- the notice of a document is not about a name, whatever it counts
  have noticed (entries : List String) : Asks (do
      report (.rendered g.items.length (← get).generated)
      return "\n".intercalate entries) [] := ⟨fun _ => rfl, fun _ => rfl⟩
  exact (entriesFrom_asks layout none false g.items).bind_nil noticed

/-- A document numbers literals by request: what it asks for are the counts of its `Expect` declarations, the
levels of its precedence declarations and the symbols whose values its rules use. -/
theorem numbered_by_request (layout : Layout) (g : Grammar) (names : Names) :
    NumbersByRequest (g.document layout) g.requests names :=
  (g.document_asks layout).numbersByRequest names

end Grammar

end YeccDefr
