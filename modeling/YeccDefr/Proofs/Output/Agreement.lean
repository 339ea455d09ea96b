import Mathlib.Data.List.Forall2
import Mathlib.Tactic.Lemma
import YeccDefr.Output.Document

/-!
# What the output depends on

Regions show up in notices only, and gaps matter only between the symbols of attached code. Two pieces of
work agree if they give the same values and hand on the same names (`Naming.Agree`), and items are alike if
they differ in regions and in the gaps outside of code (`Item.Alike`). Items that are alike have the same
entries (`Grammar.entriesFrom_agree`).
-/

namespace YeccDefr

namespace Naming

/-- Work with the same values and the same names, whatever notices it makes. -/
def Agree {α : Type} (x y : Naming α) : Prop := ∀ names, (x.run names).value = (y.run names).value

section
variable {α β : Type} {x y : Naming α}

/-- Work agrees with itself. -/
lemma Agree.refl (x : Naming α) : Agree x x := fun _ => rfl

/-- Equal work agrees. -/
lemma Agree.of_eq (e : x = y) : Agree x y := e ▸ .refl x

/-- Work in two steps hands the names of the first one on to the second. -/
@[simp]
lemma run_bind_value (x : Naming α) (f : α → Naming β) (names : Names) :
    ((x >>= f).run names).value =
      ((f (x.run names).value.1).run (x.run names).value.2).value := rfl

/-- A value alone leaves the names as they are. -/
@[simp]
lemma run_pure_value (a : α) (names : Names) :
    ((pure a : Naming α).run names).value = (a, names) := rfl

/-- Work in two steps agrees if both steps do. -/
lemma Agree.bind {f g : α → Naming β} (h : Agree x y) (h' : ∀ a, Agree (f a) (g a)) :
    Agree (x >>= f) (y >>= g) := by
  intro names
  rw [run_bind_value, run_bind_value, h names]
  exact h' _ _

/-- Notices make no difference. -/
lemma Agree.report (n n' : Notice) : Agree (report n) (report n') := fun _ => rfl

end

end Naming

open Naming

namespace Symbol

/-- Symbols that differ in their regions only. -/
structure Alike (s s' : Symbol) : Prop where
  kind : s.kind = s'.kind
  text : s.text = s'.text
  spaced : s.spaced = s'.spaced

section
variable {s s' : Symbol}

/-- The class and the text of a symbol are kept. -/
lemma Alike.is (h : Alike s s') (kind : Kind) (text : String) : s.is kind text = s'.is kind text := by
  rw [Symbol.is, Symbol.is, h.kind, h.text]

/-- Symbols that are alike denote the same position. -/
lemma Alike.placeholder? (h : Alike s s') : s.placeholder? = s'.placeholder? := by
  rw [Symbol.placeholder?, Symbol.placeholder?, h.kind, h.text]

/-- Symbols that are alike open and close the same brackets. -/
lemma Alike.nesting (h : Alike s s') : s.nesting = s'.nesting := by
  rw [Symbol.nesting, Symbol.nesting, h.kind, h.text]

/-- Symbols that are alike have the same text in code. -/
lemma Alike.replacement (h : Alike s s') (depth : Int) :
    s.replacement depth = s'.replacement depth := by
  have quoted : s.isQuotedAtom = s'.isQuotedAtom := by
    rw [isQuotedAtom, isQuotedAtom, h.kind, h.text]
  simp only [Symbol.replacement_cases, h.is, quoted, h.text]

end

/-- Symbols with the same texts, one for one. -/
abbrev SameTexts : List Symbol → List Symbol → Prop := List.Forall₂ fun s s' => s.text = s'.text

/-- Symbols with the same texts have the same list of texts. -/
lemma SameTexts.map_eq {ss ss' : List Symbol} (h : SameTexts ss ss') :
    ss.map (·.text) = ss'.map (·.text) := by
  induction h with
  | nil => rfl
  | cons first _ ih => rw [List.map_cons, List.map_cons, first, ih]

end Symbol

/-- Declarations that differ in regions and gaps. -/
structure Declaration.Alike (d d' : Declaration) : Prop where
  kind : d.head.kind = d'.head.kind
  text : d.head.text = d'.head.text
  body : Symbol.SameTexts d.body d'.body

/-- Rules that differ in regions, and in the gaps outside of their code. -/
structure Rule.Alike (r r' : Rule) : Prop where
  text : r.head.text = r'.head.text
  symbols : Symbol.SameTexts r.symbols r'.symbols
  code : List.Forall₂ Symbol.Alike r.code r'.code

/-- Items that differ in regions, and in the gaps outside of code. -/
inductive Item.Alike : Item → Item → Prop where
  | declaration {d d' : Declaration} : d.Alike d' → Alike (.declaration d) (.declaration d')
  | rule {r r' : Rule} : r.Alike r' → Alike (.rule r) (.rule r')

/-! ## Declarations -/

/-- A directive writes the same line for declarations that are alike. -/
lemma Directive.line_agree {d d' : Declaration} (directive : Directive) (h : d.Alike d') :
    Agree (directive.line d) (directive.line d') := by
  have texts := h.body.map_eq
  obtain ⟨head, body⟩ := d
  obtain ⟨head', body'⟩ := d'
  cases directive with
  | nonterminals | terminals | rootsymbol =>
    apply Agree.of_eq
    simp only [line, lineBy, texts]
  | expect =>
    cases h.body with
    | nil => exact (Agree.report _ _).bind fun _ => .refl _
    | cons first _ =>
      apply Agree.of_eq
      simp only [line, lineBy, first]
  | left | right | nonassoc =>
    cases h.body with
    | nil => exact (Agree.report _ _).bind fun _ => .refl _
    | cons first later =>
      cases later with
      | nil => exact (Agree.report _ _).bind fun _ => .refl _
      | cons second _ =>
        apply Agree.of_eq
        simp only [line, lineBy, first, second]

/-- Declarations that are alike have the same line. -/
lemma Declaration.line_agree {d d' : Declaration} (h : d.Alike d') : Agree d.line d'.line := by
  rw [line_eq, line_eq, h.kind, h.text]
  split
  · split
    · exact Directive.line_agree _ h
    · exact (Agree.report _ _).bind fun _ => .refl _
  · exact (Agree.report _ _).bind fun _ => .refl _

/-! ## Rules -/

namespace Rule

section
variable {r r' : Rule}

/-- Rules that are alike use the same positions. -/
lemma uses_eq (h : r.Alike r') (position : Nat) : r.uses position = r'.uses position := by
  have any_eq {ss ss' : List Symbol} (code : List.Forall₂ Symbol.Alike ss ss') :
      (ss.any fun s => s.placeholder? == some position) =
        ss'.any fun s => s.placeholder? == some position := by
    induction code with
    | nil => rfl
    | cons first _ ih => rw [List.any_cons, List.any_cons, first.placeholder?, ih]
  exact any_eq h.code

/-- Rules that are alike have the same parameters. -/
lemma parametersFrom_eq {ss ss'} (h : r.Alike r') (symbols : Symbol.SameTexts ss ss')
    (position : Nat) : r.parametersFrom position ss = r'.parametersFrom position ss' := by
  induction symbols generalizing position with
  | nil => rfl
  | cons first _ ih => rw [parametersFrom_cons, parametersFrom_cons, uses_eq h, first, ih]

/-- Rules that are alike have the same signature. -/
lemma signature_alike (h : r.Alike r') : r.signature = r'.signature := by
  rw [signature_eq, signature_eq, parametersFrom_eq h h.symbols, h.text]

/-- A symbol is replaced the same in rules that are alike. -/
lemma replacement_agree {s s' : Symbol} (h : r.Alike r') (symbol : s.Alike s') (depth : Int) :
    Agree (r.replacement depth s) (r'.replacement depth s') := by
  rw [replacement_eq, replacement_eq, symbol.placeholder?, symbol.replacement]
  cases s'.placeholder? with
  | none => exact .refl _
  | some position =>
    have texts : r.symbols[position - 1]?.map (·.text) = r'.symbols[position - 1]?.map (·.text) := by
      rw [← List.getElem?_map, ← List.getElem?_map, h.symbols.map_eq]
    cases e : r.symbols[position - 1]? with
    | none =>
      rw [e, Option.map_none] at texts
      have e' := Option.map_eq_none_iff.1 texts.symm
      simp only [e, e']
      exact (Agree.report _ _).bind fun _ => .refl _
    | some referenced =>
      rw [e, Option.map_some] at texts
      obtain ⟨referenced', e', same⟩ := Option.map_eq_some_iff.1 texts.symm
      apply Agree.of_eq
      simp only [e, e', same]

/-- Rules that are alike go on with the same text in their bodies. -/
lemma bodyFrom_agree {ss ss'} (h : r.Alike r') (code : List.Forall₂ Symbol.Alike ss ss')
    (c : BodyCursor) : Agree (r.bodyFrom c ss) (r'.bodyFrom c ss') := by
  induction code generalizing c with
  | nil => exact .refl _
  | cons first _ ih =>
    rw [bodyFrom_cons, bodyFrom_cons, first.nesting, first.spaced]
    exact (replacement_agree h first _).bind fun _ => (ih _).bind fun _ => .refl _

/-- Rules that are alike have the same definition. -/
lemma definition_agree (layout : Layout) (h : r.Alike r') :
    Agree (r.definition layout) (r'.definition layout) := by
  rw [definition_eq, definition_eq, signature_alike h]
  refine (Agree.refl _).bind fun signature => (bodyFrom_agree h h.code _).bind fun body => ?_
  split
  · exact .refl _
  · exact (Agree.report _ _).bind fun _ => .refl _

end

end Rule

/-- Items that are alike have the same entries. -/
theorem Grammar.entriesFrom_agree {is js : List Item} (layout : Layout) (lastHead? : Option String)
    (started : Bool) (h : List.Forall₂ Item.Alike is js) :
    Agree (entriesFrom layout lastHead? started is) (entriesFrom layout lastHead? started js) := by
  induction h generalizing lastHead? started with
  | nil => exact .refl _
  | cons first _ ih =>
    cases first with
    | declaration d =>
      rw [entriesFrom_declaration, entriesFrom_declaration]
      exact (Declaration.line_agree d).bind fun _ => (ih _ _).bind fun _ => .refl _
    | rule r =>
      rw [entriesFrom_rule, entriesFrom_rule, r.text]
      exact (Rule.definition_agree layout r).bind fun _ => (ih _ _).bind fun _ => .refl _

end YeccDefr
