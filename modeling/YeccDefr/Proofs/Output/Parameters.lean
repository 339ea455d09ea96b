import YeccDefr.Proofs.Grammar.Placeholders
import YeccDefr.Proofs.Output.Growth

/-!
# Parameters in the output

Where the code of a rule uses the value of a symbol, the parameter of the symbol holds its name. The
symbol keeps its name, so the parameters of every definition in a document can be read off the names at
any later time (`Grammar.document_ensures`). What some work ensures is what holds of its value and of all
later names (`Naming.Ensures`).
-/

namespace YeccDefr

namespace Naming

/-- Work that only gives new names, and `P` holds of its value and of the names at any later time. -/
structure Ensures {α : Type} (x : Naming α) (P : α → Names → Prop) : Prop where
  grows : ∀ names : Names, names.Grows (x.run names).value.2
  holds : ∀ names later : Names, (x.run names).value.2.Grows later → P (x.run names).value.1 later

section
variable {α β : Type} {x y : Naming α} {P : α → Names → Prop} {Q : β → Names → Prop}

/-- A value alone ensures what holds of it under all names. -/
lemma Ensures.pure {a : α} (h : ∀ later, P a later) : Ensures (Pure.pure a : Naming α) P :=
  ⟨fun _ => .refl, fun _ later _ => h later⟩

/-- Work without names ensures its value. -/
lemma Ensures.lift (x : Logged α) : Ensures (x : Naming α) fun a _ => a = x.value :=
  ⟨fun _ => .refl, fun _ _ _ => rfl⟩

/-- Work whose value does not matter. -/
lemma Settles.ensures (hx : Settles x) : Ensures x fun _ _ => True :=
  ⟨hx.grows, fun _ _ _ => True.intro⟩

/-- The names after further work are later ones, so what holds after the first part still does. -/
lemma Ensures.bind {f : α → Naming β} (hx : Ensures x P)
    (hf : ∀ a, Ensures (f a) fun b later => P a later → Q b later) : Ensures (x >>= f) Q where
  grows := fun names => (hx.grows names).trans ((hf _).grows _)
  holds := by
    intro names later grown
    rw [run_bind_value] at grown ⊢
    have first := hx.holds names later (((hf _).grows _).trans grown)
    exact (hf _).holds _ later grown first

/-- What agrees with work that ensures something does so too. -/
lemma Ensures.of_agree (h : Agree x y) (hy : Ensures y P) : Ensures x P where
  grows := by
    intro names
    rw [h]
    exact hy.grows names
  holds := by
    intro names later grown
    rw [h] at grown ⊢
    exact hy.holds names later grown

/-- A symbol that is asked for keeps its name. -/
lemma bindingName_ensures (text : String) :
    Ensures (bindingName text) fun name later => later.nameOf? text = some name :=
  ⟨(bindingName_settles text).grows,
    fun names _ grown => grown.nameOf? (nameOf?_bindingName text names)⟩

end

end Naming

open Naming

/-! ## Texts in texts -/

/-- A text starts what it is put in front of. -/
lemma toList_prefix_append (front back : String) : front.toList <+: (front ++ back).toList := by
  rw [String.toList_append]
  exact List.prefix_append _ _

/-- A text is a part of the texts that it is joined with. -/
lemma toList_infix_intercalate {separator text : String} {texts : List String} (mem : text ∈ texts) :
    text.toList <:+: (separator.intercalate texts).toList := by
  rw [String.toList_intercalate]
  induction texts with
  | nil => exact absurd mem List.not_mem_nil
  | cons first texts ih =>
    cases texts with
    | nil =>
      cases List.mem_singleton.1 mem
      simp
    | cons second texts =>
      rw [List.map_cons, List.map_cons, List.intercalate_cons_cons, ← List.map_cons]
      rcases List.mem_cons.1 mem with rfl | later
      · exact ((List.prefix_append _ _).trans (List.prefix_append _ _)).isInfix
      · exact (ih later).trans (List.suffix_append _ _).isInfix

/-! ## Parameters -/

namespace Rule

/-- The code uses the symbols that its placeholders stand for. -/
lemma uses_iff {r : Rule} {position : Nat} :
    r.uses position = true ↔ ∃ s ∈ r.code, s.placeholder? = some position := by
  simp [uses]

/-- Those of the given symbols, the first one at the given position, whose values the code uses. -/
def boundFrom (r : Rule) (position : Nat) (symbols : List Symbol) : List Symbol :=
  (symbols.zipIdx position).filterMap fun (s, i) => if r.uses i then some s else none

/-- The symbols whose values the code uses. -/
def boundSymbols (r : Rule) : List Symbol := r.boundFrom 1 r.symbols

/-- A symbol that a placeholder in the code stands for is bound. -/
lemma mem_boundSymbols {r : Rule} {s referenced : Symbol} {position : Nat} (mem : s ∈ r.code)
    (placeholder : s.placeholder? = some position)
    (found : r.symbols[position - 1]? = some referenced) : referenced ∈ r.boundSymbols := by
  have used : r.uses position = true :=
    List.any_eq_true.2 ⟨s, mem, by rw [placeholder]; exact beq_self_eq_true _⟩
  refine List.mem_filterMap.2 ⟨(referenced, position), ?_, by simp [used]⟩
  exact List.mem_zipIdx_iff_le_and_getElem?_sub.2 ⟨Symbol.placeholder?_pos placeholder, found⟩

/-- The parameter of the symbol at a position, with a name out of the given ones. -/
def parameter (r : Rule) (names : Names) (s : Symbol) (position : Nat) : String :=
  if r.uses position then "\x7b" ++ literal s.text ++ ", " ++ names.nameFor s.text ++ "\x7d"
  else literal s.text

/-- The parameters of symbols, the first one at the given position. -/
def parametersIn (r : Rule) (names : Names) (position : Nat) (symbols : List Symbol) : List String :=
  (symbols.zipIdx position).map fun p => r.parameter names p.1 p.2

/-- The head of the definition with its parameters, with names out of the given ones. -/
def signatureIn (r : Rule) (names : Names) : String :=
  r.head.text ++ "(" ++ ", ".intercalate (r.parametersIn names 1 r.symbols) ++ ")"

/-- A definition of a rule stands in a text, and all symbols it binds are among the names it is written
with. -/
structure WrittenIn (r : Rule) (names : Names) (text : String) : Prop where
  signature : ("defr " ++ r.signatureIn names).toList <:+: text.toList
  named : ∀ s ∈ r.boundSymbols, names.nameOf? s.text = some (names.nameFor s.text)

section
variable {r : Rule} {names : Names} {text text' : String}

/-- What is written in a part of a text is written in the text. -/
lemma WrittenIn.mono (h : r.WrittenIn names text) (within : text.toList <:+: text'.toList) :
    r.WrittenIn names text' := ⟨h.signature.trans within, h.named⟩

/-- The parameters of symbols start with that of the first one. -/
lemma parametersIn_cons (position : Nat) (s : Symbol) (symbols : List Symbol) :
    r.parametersIn names position (s :: symbols) =
      r.parameter names s position :: r.parametersIn names (position + 1) symbols := rfl

/-- The first of some symbols is bound if its position is used. -/
lemma boundFrom_cons (position : Nat) (s : Symbol) (symbols : List Symbol) :
    r.boundFrom position (s :: symbols) =
      if r.uses position then s :: r.boundFrom (position + 1) symbols
      else r.boundFrom (position + 1) symbols := by
  rw [boundFrom, List.zipIdx_cons, List.filterMap_cons]
  by_cases used : r.uses position = true <;> simp only [used] <;> rfl

end

/-- The parameters are those under all later names, and the symbols that are bound have a name from then on.
-/
lemma parametersFrom_ensures (r : Rule) (position : Nat) (symbols : List Symbol) :
    Ensures (r.parametersFrom position symbols) fun parameters later =>
      parameters = r.parametersIn later position symbols
        ∧ ∀ s ∈ r.boundFrom position symbols, later.nameOf? s.text = some (later.nameFor s.text) := by
  induction symbols generalizing position with
  | nil => exact .pure fun _ => ⟨rfl, fun s mem => absurd mem List.not_mem_nil⟩
  | cons s symbols ih =>
    rw [parametersFrom_cons]
    split
    -- the further symbols may get names, which leaves that of the first one as it is
    case isTrue used =>
      refine (bindingName_ensures s.text).bind fun name => ?_
      refine (ih _).bind fun parameters => .pure fun later => ?_
      rintro ⟨rfl, named⟩ known
      have parameter : r.parameter later s position =
          "\x7b" ++ literal s.text ++ ", " ++ name ++ "\x7d" := by
        rw [Rule.parameter, if_pos used, Names.nameFor_of_nameOf? known]
      refine ⟨by rw [parametersIn_cons, parameter], ?_⟩
      rw [boundFrom_cons, if_pos used, List.forall_mem_cons, Names.nameFor_of_nameOf? known]
      exact ⟨known, named⟩
    case isFalse unused =>
      refine (ih _).bind fun parameters => .pure fun later => ?_
      rintro ⟨rfl, named⟩
      have parameter : r.parameter later s position = literal s.text := by
        rw [Rule.parameter, if_neg unused]
      refine ⟨by rw [parametersIn_cons, parameter], ?_⟩
      rw [boundFrom_cons, if_neg unused]
      exact named

/-- The signature is the one under all later names. -/
lemma signature_ensures (r : Rule) : Ensures r.signature fun signature later =>
    signature = r.signatureIn later
      ∧ ∀ s ∈ r.boundSymbols, later.nameOf? s.text = some (later.nameFor s.text) := by
  refine (r.parametersFrom_ensures 1 r.symbols).bind fun parameters => .pure fun later => ?_
  rintro ⟨rfl, named⟩
  exact ⟨rfl, named⟩

/-- A definition on one line starts with its signature. -/
lemma oneLine_starts (signature body : String) :
    ("defr " ++ signature).toList <+: (oneLine signature body).toList :=
  (toList_prefix_append _ _).trans (toList_prefix_append _ _)

/-- A block starts with its signature. -/
lemma block_starts (signature body : String) :
    ("defr " ++ signature).toList <+: (block signature body).toList :=
  ((toList_prefix_append _ _).trans (toList_prefix_append _ _)).trans (toList_prefix_append _ _)

/-- Both forms of a definition start with its signature. -/
lemma definition_ensures (layout : Layout) (r : Rule) :
    Ensures (r.definition layout) fun definition later => r.WrittenIn later definition := by
  rw [definition_eq]
  refine r.signature_ensures.bind fun signature => ?_
  refine (r.bodyFrom_settles _ _).ensures.bind fun body => ?_
  split
  · refine .pure fun later _ => ?_
    rintro ⟨rfl, named⟩
    exact ⟨(oneLine_starts _ body).isInfix, named⟩
  · refine (Settles.report _).ensures.bind fun _ => .pure fun later _ _ => ?_
    rintro ⟨rfl, named⟩
    exact ⟨(block_starts _ body).isInfix, named⟩

end Rule

namespace Grammar

/-- Among the entries of items every rule is written with the names of any later time. -/
lemma entriesFrom_ensures (layout : Layout) (lastHead? : Option String) (started : Bool)
    (items : List Item) : Ensures (entriesFrom layout lastHead? started items) fun entries later =>
      ∀ r, Item.rule r ∈ items → ∃ entry ∈ entries, r.WrittenIn later entry := by
  induction items generalizing lastHead? started with
  | nil => exact .pure fun _ r mem => absurd mem List.not_mem_nil
  | cons i items ih =>
    cases i with
    | declaration d =>
      rw [entriesFrom_declaration]
      refine d.line_settles.ensures.bind fun line => ?_
      refine (ih _ _).bind fun entries => .pure fun later written _ r mem => ?_
      obtain ⟨entry, inside, h⟩ := written r (by simpa using mem)
      exact ⟨entry, List.mem_cons_of_mem _ inside, h⟩
    | rule r =>
      rw [entriesFrom_rule]
      refine (r.definition_ensures layout).bind fun definition => ?_
      refine (ih _ _).bind fun entries => ?_
      have written (later : Names) (ofItems : ∀ r', Item.rule r' ∈ items →
          ∃ entry ∈ entries, r'.WrittenIn later entry) (first : r.WrittenIn later definition) :
          ∀ r', Item.rule r' ∈ .rule r :: items →
            ∃ entry ∈ definition :: entries, r'.WrittenIn later entry := by
        intro r' mem
        rcases List.mem_cons.1 mem with same | mem
        · cases same
          exact ⟨definition, List.mem_cons_self, first⟩
        · obtain ⟨entry, inside, h⟩ := ofItems r' mem
          exact ⟨entry, List.mem_cons_of_mem _ inside, h⟩
      split
      · refine .pure fun later ofItems first r' mem => ?_
        obtain ⟨entry, inside, h⟩ := written later ofItems first r' mem
        exact ⟨entry, List.mem_cons_of_mem _ inside, h⟩
      · exact .pure written

/-- Every rule of a grammar stands in its document, written with names that are kept. -/
theorem document_ensures (layout : Layout) (g : Grammar) :
    Ensures (g.document layout) fun out later => ∀ r ∈ g.rules, r.WrittenIn later out := by
  refine .of_agree (g.document_agree layout) ?_
  refine (entriesFrom_ensures layout none false g.items).bind fun entries => ?_
  refine .pure fun later written r mem => ?_
  obtain ⟨entry, inside, h⟩ := written r (mem_rules.1 mem)
  exact h.mono (toList_infix_intercalate inside)

end Grammar

end YeccDefr
