import YeccDefr.Proofs.Grammar.Gaps
import YeccDefr.Proofs.Output.Warnings

/-!
# Layouts

A definition stands on one line if its body is one statement and the line is short enough, and else in a
block. The body is taken for more than one statement if it contains a line feed. That is right because no
token but white space contains one (`Scan.exact_ofText`), so that none of the texts and names that a
definition is written with is broken (`Unbroken`), and each comma of the code that ends a statement gives
exactly one line feed (`Rule.lines_bodyText`).

The layout has no part in which texts and names these are: an item has its form before it is laid out
(`Item.form`), and so has a document (`Grammar.document_of_forms`). The main result is `Grammar.formatted`.
-/

namespace YeccDefr

open Naming

/-! ## Lines -/

/-- The lines of a text, what its line feeds separate. -/
def Text.lines (text : String) : List (List Char) := text.toList.splitOn '\n'

/-- A text without a line feed. -/
def Unbroken (text : String) : Prop := '\n' ∉ text.toList

instance (text : String) : Decidable (Unbroken text) := inferInstanceAs (Decidable (_ ∉ _))

/-- A list is cut into one part more than there are cuts. -/
lemma length_splitOnP {α : Type} (p : α → Bool) (xs : List α) :
    (xs.splitOnP p).length = xs.countP p + 1 := by
  induction xs with
  | nil => rw [List.splitOnP_nil, List.countP_nil, List.length_singleton]
  | cons x xs ih =>
    rw [List.splitOnP_cons_eq_if_modifyHead, List.countP_cons]
    split
    · rw [List.length_cons, ih]
    · rw [List.length_modifyHead, ih, Nat.add_zero]

/-- The parts of a list hold elements of the list. -/
lemma mem_of_mem_splitOnP {α : Type} {p : α → Bool} {xs part : List α} (mem : part ∈ xs.splitOnP p) :
    ∀ x ∈ part, x ∈ xs := by
  induction xs generalizing part with
  | nil =>
    rw [List.splitOnP_nil, List.mem_singleton] at mem
    exact mem ▸ fun x inside => inside
  | cons y xs ih =>
    obtain ⟨first, others, cut⟩ := List.exists_cons_of_ne_nil (List.splitOnP_ne_nil p xs)
    have later {part} (mem : part ∈ xs.splitOnP p) : ∀ x ∈ part, x ∈ y :: xs :=
      fun x inside => List.mem_cons_of_mem y (ih mem x inside)
    have inFirst : ∀ x ∈ first, x ∈ y :: xs := later (cut ▸ List.mem_cons_self)
    rw [List.splitOnP_cons_eq_if_modifyHead] at mem
    split at mem
    · rcases List.mem_cons.1 mem with rfl | mem
      · nofun
      · exact later mem
    · rw [cut, List.modifyHead_cons] at mem
      rcases List.mem_cons.1 mem with rfl | mem
      · exact List.forall_mem_cons.2 ⟨List.mem_cons_self, inFirst⟩
      · exact later (cut ▸ List.mem_cons_of_mem first mem)

namespace Text

/-- A text has one line more than line feeds. -/
lemma length_lines (text : String) : (lines text).length = text.toList.count '\n' + 1 :=
  length_splitOnP _ _

/-- The lines of two texts with a line feed in between are those of the two texts. -/
lemma lines_append_newline (a b : String) : lines (a ++ "\n" ++ b) = lines a ++ lines b := by
  have chars : (a ++ "\n" ++ b).toList = a.toList ++ '\n' :: b.toList := by simp
  rw [lines, chars]
  exact List.splitOnP_append_cons _ _ (beq_self_eq_true _)

/-- An unbroken text is its only line. -/
lemma lines_of_unbroken {text : String} (h : Unbroken text) : lines text = [text.toList] := by
  refine List.splitOnP_eq_singleton fun c mem => ?_
  rw [beq_eq_false_iff_ne]
  rintro rfl
  exact h mem

/-- Unbroken texts joined by line feeds are the lines. -/
lemma lines_intercalate {texts : List String} (nonempty : texts ≠ []) (all : ∀ t ∈ texts, Unbroken t) :
    lines ("\n".intercalate texts) = texts.map String.toList := by
  rw [lines, String.toList_intercalate]
  refine List.splitOn_intercalate _ ?_ (by simpa using nonempty)
  rw [List.forall_mem_map]
  exact all

end Text

/-! ## Unbroken texts -/

namespace Unbroken
variable {a b text : String} {texts : List String}

/-- Two unbroken texts are unbroken together. -/
lemma append (ha : Unbroken a) (hb : Unbroken b) : Unbroken (a ++ b) := by
  rw [Unbroken, String.toList_append, List.mem_append]
  rintro (mem | mem)
  · exact ha mem
  · exact hb mem

/-- Characters without a line feed make an unbroken text. -/
lemma ofList {cs : List Char} (h : '\n' ∉ cs) : Unbroken (String.ofList cs) := by
  rwa [Unbroken, String.toList_ofList]

/-- Unbroken texts are unbroken together. -/
lemma join (all : ∀ t ∈ texts, Unbroken t) : Unbroken (String.join texts) := by
  induction texts with
  | nil => decide
  | cons t texts ih =>
    rw [List.forall_mem_cons] at all
    rw [String.join_cons]
    exact all.1.append (ih all.2)

/-- Unbroken texts are unbroken with an unbroken text between them. -/
lemma intercalate (ha : Unbroken a) (all : ∀ t ∈ texts, Unbroken t) : Unbroken (a.intercalate texts) := by
  induction texts with
  | nil => exact List.not_mem_nil
  | cons t texts ih =>
    rw [List.forall_mem_cons] at all
    cases texts with
    | nil =>
      rw [String.intercalate_singleton]
      exact all.1
    | cons u texts =>
      rw [String.intercalate_cons_cons]
      exact (all.1.append ha).append (ih all.2)

/-- Exchanging quotes breaks no line. -/
lemma requoted (h : Unbroken text) : Unbroken (requoted text) := by
  refine ofList fun mem => ?_
  obtain ⟨c, inside, e⟩ := List.mem_map.1 mem
  split at e
  · cases e
  · exact h (e ▸ inside)

/-- A literal breaks no line. -/
lemma literal (h : Unbroken text) : Unbroken (literal text) :=
  append (a := ":") (by decide) h.requoted

/-- An atom of code breaks no line. -/
lemma codeAtom (h : Unbroken text) : Unbroken (codeAtom text) := by
  have inside : '\n' ∉ unquoted text := fun mem =>
    h (List.mem_of_mem_tail (List.mem_of_mem_dropLast mem))
  rw [YeccDefr.codeAtom]
  split
  · exact ofList (by simpa using inside)
  · exact ofList (by simpa using inside)

/-- A generated name breaks no line. -/
lemma numbered (n : Nat) : Unbroken (Names.numbered n) := by
  have digits : Unbroken n.repr := by
    rw [Nat.repr_eq_ofList_toDigits]
    refine ofList fun mem => ?_
    exact absurd (Nat.isDigit_of_mem_toDigits (by decide) (by decide) mem) (by decide)
  exact append (a := "variable_") (by decide) digits

/-- Whatever literals have names, the name of an unbroken symbol is unbroken. -/
lemma nameFor (h : Unbroken text) (names : Names) : Unbroken (names.nameFor text) := by
  have fixed : ∀ entry ∈ wellKnownNames, Unbroken entry.2 := by decide +kernel
  rw [Names.nameFor, bindingName_value]
  cases known : names.nameOf? text with
  | none => exact numbered _
  | some name =>
    rw [Names.nameOf?] at known
    split at known
    · rcases Names.find?_eq_some.1 known with wellKnown | ⟨_, k, _, rfl⟩
      · exact fixed _ wellKnown
      · exact numbered _
    · cases known
      exact h.requoted

end Unbroken

namespace Symbol

/-- What a symbol is written as in code breaks no line. -/
lemma ownText_unbroken {s : Symbol} (h : Unbroken s.text) : Unbroken s.ownText := by
  rw [ownText]
  split
  · decide
  · split
    · decide
    · split
      · exact h.codeAtom
      · exact h

end Symbol

namespace Rule

/-- No text of a rule is broken. -/
structure OnLines (r : Rule) : Prop where
  head : Unbroken r.head.text
  symbols : ∀ s ∈ r.symbols, Unbroken s.text
  code : ∀ s ∈ r.code, Unbroken s.text

/-- The number of commas in the code of a rule that end a statement. -/
def commas (r : Rule) : Nat := r.code.zipIdx.countP (endsStatement r.code)

/-- A rule has one statement more than commas that end one. -/
lemma length_statements (r : Rule) : (statements r.code).length = r.commas + 1 := by
  rw [statements, List.length_map, length_splitOnP, commas]

/-- The symbols of a statement are those of the code. -/
lemma statements_subset {code statement : List Symbol} (mem : statement ∈ statements code) :
    ∀ s ∈ statement, s ∈ code := by
  obtain ⟨part, cut, rfl⟩ := List.mem_map.1 mem
  rw [List.forall_mem_map]
  exact fun p inside => List.fst_mem_of_mem_zipIdx (mem_of_mem_splitOnP cut p inside)

section
variable {r : Rule}

/-- The names of the positions of a rule break no line. -/
lemma identifier_unbroken (h : r.OnLines) (names : Names) (position : Nat) :
    Unbroken (r.identifier names position) := by
  have nothing : Unbroken "" := by decide
  rw [identifier]
  cases found : r.symbols[position - 1]? with
  | none => exact nothing
  | some s => exact (h.symbols s (List.mem_of_getElem? found)).nameFor names

/-- The text of one symbol of the code breaks no line. -/
lemma pieceText_unbroken (h : r.OnLines) (names : Names) (statement : List Symbol) {p : Symbol × Nat}
    (inCode : p.1 ∈ r.code) : Unbroken (r.pieceText (r.identifier names) statement p) := by
  have own := Symbol.ownText_unbroken (h.code p.1 inCode)
  have text : Unbroken (r.textOf (r.identifier names) p.1) := by
    rw [textOf]
    split
    · split
      · exact identifier_unbroken h names _
      · exact own
    · exact own
  rw [pieceText]
  split
  · decide
  · refine Unbroken.append ?_ text
    split <;> decide

/-- The text of a statement breaks no line. -/
lemma statementText_unbroken (h : r.OnLines) (names : Names) {statement : List Symbol}
    (mem : statement ∈ statements r.code) :
    Unbroken (r.statementText (r.identifier names) statement) := by
  refine Unbroken.join ?_
  rw [List.forall_mem_map]
  intro p place
  have inside := List.fst_mem_of_mem_zipIdx place
  exact pieceText_unbroken h names statement (statements_subset mem p.1 inside)

/-- The lines of a body are its statements. -/
lemma lines_bodyText (h : r.OnLines) (names : Names) :
    Text.lines (r.bodyText (r.identifier names)) =
      (statements r.code).map fun statement =>
        (r.statementText (r.identifier names) statement).toList := by
  have nonempty : (statements r.code).map (r.statementText (r.identifier names)) ≠ [] := by
    rw [← List.length_pos_iff, List.length_map, length_statements]
    exact Nat.succ_pos _
  rw [bodyText, Text.lines_intercalate nonempty, List.map_map]
  · rfl
  · rw [List.forall_mem_map]
    exact fun statement => statementText_unbroken h names

/-- A signature with given names breaks no line. -/
lemma signatureIn_unbroken (h : r.OnLines) (names : Names) : Unbroken (r.signatureIn names) := by
  have parameter (s : Symbol) (position : Nat) (mem : s ∈ r.symbols) :
      Unbroken (r.parameter names s position) := by
    have literal := (h.symbols s mem).literal
    rw [Rule.parameter]
    split
    · have front := (Unbroken.append (a := "\x7b") (by decide) literal).append
        (b := ", ") (by decide)
      exact (front.append ((h.symbols s mem).nameFor names)).append (by decide)
    · exact literal
  have parameters : ∀ text ∈ r.parametersIn names 1 r.symbols, Unbroken text := by
    rw [parametersIn, List.forall_mem_map]
    exact fun p place => parameter p.1 p.2 (List.fst_mem_of_mem_zipIdx place)
  exact ((h.head.append (by decide)).append (Unbroken.intercalate (by decide) parameters)).append
    (by decide)

/-! ## One line or a block -/

/-- The signature of a rule breaks no line. -/
lemma signature_unbroken (h : r.OnLines) (names : Names) : Unbroken (r.signature.run names).value.1 := by
  rw [(r.signature_ensures.holds names _ .refl).1]
  exact signatureIn_unbroken h _

/-- Every statement of a body is a line. -/
lemma length_lines_body (h : r.OnLines) (names : Names) :
    (Text.lines (r.body.run names).value.1).length = r.commas + 1 := by
  rw [r.body_ensures.holds names _ .refl, lines_bodyText h, List.length_map, length_statements]

/-- A definition fits on one line if its body has one, and the line is not too long. -/
lemma fits_iff {layout : Layout} {signature body : String} : fits layout signature body = true ↔
    Unbroken body ∧ (oneLine signature body).length ≤ layout.maxLineWidth := by
  rw [fits, Bool.and_eq_true, decide_eq_true_eq, Bool.not_eq_true', and_comm, Unbroken,
    ← List.contains_iff_mem, Bool.not_eq_true]

/-- The lines of a block are those of its body between the first one and the last one. -/
lemma lines_block {signature : String} (h : Unbroken signature) (body : String) :
    Text.lines (block signature body) =
      ("defr " ++ signature ++ " do").toList :: Text.lines body ++ ["end".toList] := by
  have first : Unbroken ("defr " ++ signature ++ " do") :=
    (Unbroken.append (a := "defr ") (by decide) h).append (by decide)
  have last : Unbroken "end" := by decide
  have whole : block signature body =
      "defr " ++ signature ++ " do" ++ "\n" ++ (body ++ "\n" ++ "end") := by
    simp [block, String.append_assoc]
  rw [whole, Text.lines_append_newline, Text.lines_append_newline, Text.lines_of_unbroken first,
    Text.lines_of_unbroken last]
  rfl

/-- A definition on one line breaks no line if its parts do not. -/
lemma oneLine_unbroken {signature body : String} (h : Unbroken signature) (h' : Unbroken body) :
    Unbroken (oneLine signature body) :=
  ((Unbroken.append (a := "defr ") (by decide) h).append (by decide)).append h'

/-- Behind the signature, a line goes on with a comma and a block with a space. -/
lemma oneLine_ne_block (signature body : String) : oneLine signature body ≠ block signature body := by
  intro same
  have chars := congrArg String.toList same
  simp [oneLine, block] at chars

/-- How a rule is laid out that is written with the given names in use. -/
structure Formatted (r : Rule) (names : Names) (signature body : String) : Prop where
  /-- The signature is written with these names, and the body with those that the parameters leave. -/
  written : ∃ parameters later, ((r.parametersFrom 1 r.symbols).run names).value = (parameters, later)
    ∧ signature = r.head.text ++ "(" ++ ", ".intercalate parameters ++ ")"
    ∧ (r.body.run later).value = (body, later)
    ∧ ∀ layout, ((r.definition layout).run names).value.2 = later
  /-- The definition is the single line exactly if no comma ends a statement and the line is short enough. -/
  onOneLine : ∀ layout, ((r.definition layout).run names).value.1 = "defr " ++ signature ++ ", do: " ++ body ↔
    r.commas = 0 ∧ ("defr " ++ signature ++ ", do: " ++ body).length ≤ layout.maxLineWidth
  unbroken : r.commas = 0 → Unbroken ("defr " ++ signature ++ ", do: " ++ body)
  /-- In all other cases it is a block. -/
  inBlock : ∀ layout, ((r.definition layout).run names).value.1 = "defr " ++ signature ++ ", do: " ++ body
    ∨ ((r.definition layout).run names).value.1 = "defr " ++ signature ++ " do\n" ++ body ++ "\nend"
  lines : Text.lines ("defr " ++ signature ++ " do\n" ++ body ++ "\nend") =
    ("defr " ++ signature ++ " do").toList :: Text.lines body ++ ["end".toList]
  countLines : (Text.lines ("defr " ++ signature ++ " do\n" ++ body ++ "\nend")).length = r.commas + 3
  /-- What is on one line is not changed by a greater width. -/
  wider : ∀ layout layout' : Layout, layout.maxLineWidth ≤ layout'.maxLineWidth →
    ((r.definition layout).run names).value.1 = "defr " ++ signature ++ ", do: " ++ body →
    ((r.definition layout').run names).value.1 = ((r.definition layout).run names).value.1
  /-- Where a comma ends a statement the width has no effect. -/
  fixed : 0 < r.commas → ∀ layout layout' : Layout,
    ((r.definition layout').run names).value.1 = ((r.definition layout).run names).value.1

section
variable {names : Names} {signature body : String}
  (written : ∀ layout, ((r.definition layout).run names).value.1 = laidOut layout signature body)
  (counted : (Text.lines body).length = r.commas + 1)
include counted

/-- A body is unbroken if no comma of the code ends a statement. -/
lemma unbroken_iff : Unbroken body ↔ r.commas = 0 := by
  rw [Text.length_lines, Nat.add_right_cancel_iff] at counted
  rw [Unbroken, ← List.count_eq_zero, counted]

include written

/-- A definition is laid out by the number of its statements and the length of its line. -/
lemma definition_of_lines (layout : Layout) : ((r.definition layout).run names).value.1 =
    if r.commas = 0 ∧ (oneLine signature body).length ≤ layout.maxLineWidth then oneLine signature body
    else block signature body := by
  simp only [written, laidOut, fits_iff, unbroken_iff counted]

/-- A definition is on one line exactly if it has one statement and is not too long. -/
lemma onOneLine_iff (layout : Layout) :
    ((r.definition layout).run names).value.1 = oneLine signature body ↔
      r.commas = 0 ∧ (oneLine signature body).length ≤ layout.maxLineWidth := by
  rw [definition_of_lines written counted]
  split
  case isTrue fits => exact iff_of_true rfl fits
  case isFalse wide => exact iff_of_false (oneLine_ne_block signature body).symm wide

/-- A definition that is on one line stays so under a wider layout. -/
lemma definition_wider {layout layout' : Layout} (le : layout.maxLineWidth ≤ layout'.maxLineWidth)
    (same : ((r.definition layout).run names).value.1 = oneLine signature body) :
    ((r.definition layout').run names).value.1 = ((r.definition layout).run names).value.1 := by
  obtain ⟨none, short⟩ := (onOneLine_iff written counted layout).1 same
  rw [same, (onOneLine_iff written counted layout').2 ⟨none, short.trans le⟩]

/-- A definition with several statements is a block under every layout. -/
lemma definition_of_comma (comma : 0 < r.commas) (layout : Layout) :
    ((r.definition layout).run names).value.1 = block signature body := by
  rw [definition_of_lines written counted, if_neg fun fits => Nat.ne_of_gt comma fits.1]

end

/-- Every rule without broken texts is formatted, with the signature and the body that its parameters and its
code become. -/
lemma formatted_of_onLines (h : r.OnLines) (names : Names) : r.Formatted names
    (r.signature.run names).value.1 (r.body.run (r.signature.run names).value.2).value.1 := by
  have unnamed := (r.body_gives_no_name names).1
  have whole := signature_unbroken h names
  have counted := length_lines_body h (r.signature.run names).value.2
  have written (layout : Layout) : ((r.definition layout).run names).value.1 = laidOut layout
      (r.signature.run names).value.1 (r.body.run (r.signature.run names).value.2).value.1 := by
    rw [definition_value]
  have lines := lines_block whole (r.body.run (r.signature.run names).value.2).value.1
  exact {
    written := ⟨_, _, r.run_parametersFrom names, (r.signature_ensures.holds names _ .refl).1,
      Prod.ext rfl unnamed, fun layout => r.definition_names layout names⟩
    onOneLine := onOneLine_iff written counted
    unbroken := fun none => oneLine_unbroken whole ((unbroken_iff counted).2 none)
    inBlock := fun layout => by
      rw [definition_of_lines written counted]
      exact ite_eq_or_eq _ _ _
    lines := lines
    countLines := by
      change (Text.lines (block _ _)).length = _
      rw [lines, List.length_append, List.length_cons, counted, List.length_singleton]
    wider := fun _ _ => definition_wider written counted
    fixed := fun comma layout layout' => by
      rw [definition_of_comma written counted comma, definition_of_comma written counted comma] }

end

end Rule

/-! ## Grammars -/

/-- An item before it is laid out: the line of a declaration, or the signature and the body of a rule. -/
inductive Form where
  | line (text : String)
  | definition (signature body : String)

/-- The text of an item in a layout. -/
def Form.text (layout : Layout) : Form → String
  | line text => text
  | definition signature body => Rule.laidOut layout signature body

/-- The form of an item. -/
def Item.form : Item → Naming Form
  | .declaration d => return .line (← d.line)
  | .rule r => do
    let signature ← r.signature
    let body ← r.body
    return .definition signature body

/-- The text of an item is its form laid out. -/
lemma Item.text_of_form (layout : Layout) (i : Item) (names : Names) :
    ((i.text layout).run names).value =
      let form := (i.form.run names).value
      (form.1.text layout, form.2) := by
  cases i with
  | declaration d => rfl
  | rule r => exact r.definition_value layout names

namespace Grammar

/-- The forms of items, one for each, and the names after them. -/
def forms (names : Names) (items : List Item) : List Form × Names := ((items.mapM Item.form).run names).value

/-- The form of the first item comes first, with the names given so far. -/
lemma forms_cons (names : Names) (i : Item) (items : List Item) :
    forms names (i :: items) =
      let form := (i.form.run names).value
      let later := forms form.2 items
      (form.1 :: later.1, later.2) := by
  rw [forms, List.mapM_cons]
  rfl

/-- The layout has no part in the forms, nor in the names that they leave. -/
lemma texts_of_forms (layout : Layout) (names : Names) (items : List Item) :
    texts layout names items =
      ((forms names items).1.map (Form.text layout), (forms names items).2) := by
  induction items generalizing names with
  | nil => rfl
  | cons i items ih =>
    rw [texts_cons, forms_cons, Item.text_of_form]
    dsimp only
    rw [ih, List.map_cons]

/-- A document is the forms of its items laid out, under the same names for every layout. -/
lemma document_of_forms (layout : Layout) (g : Grammar) (names : Names) :
    ((g.document layout).run names).value =
      ("\n".intercalate (grouped none false g.items ((forms names g.items).1.map (Form.text layout))),
        (forms names g.items).2) := by
  rw [document_value, texts_of_forms]

/-- No symbol of a text is broken, as tokens other than white space are not. -/
lemma unbroken_of_read {text : String} {g : Grammar} (h : (readGrammar text).value = .ok g) {s : Symbol}
    (mem : .symbol s ∈ g.pieces) : Unbroken s.text := by
  obtain ⟨k, piece⟩ := List.mem_iff_getElem?.1 mem
  obtain ⟨t, token, same, _⟩ := notesGaps_of_read h k s piece
  rw [same]
  exact ((Scan.exact_ofText text).oneLine t (List.mem_of_getElem? token)).1

/-- The rules of a text that is read stand on lines: none of their symbols has a line feed. -/
lemma onLines_of_read {text : String} {g : Grammar} (h : (readGrammar text).value = .ok g) {r : Rule}
    (mem : r ∈ g.rules) : r.OnLines := by
  have item := mem_rules.1 mem
  have own {p : Piece} (inside : p ∈ r.pieces) : p ∈ g.pieces := List.mem_flatMap.2 ⟨.rule r, item, inside⟩
  refine ⟨?_, fun s inside => ?_, fun s inside => ?_⟩
  · exact unbroken_of_read h (own (by simp [Rule.pieces]))
  · exact unbroken_of_read h (own (by simp [Rule.pieces, inside]))
  · exact unbroken_of_read h ((code_infix_pieces item).subset (List.mem_map_of_mem inside))

/-- How the rules and the documents of a grammar are laid out. -/
structure Formatted (g : Grammar) : Prop where
  rules : ∀ r ∈ g.rules, ∀ names, ∃ signature body, r.Formatted names signature body
  /-- The documents of a grammar in all layouts are made of the same forms, and leave the same names. -/
  documents : ∀ (layout : Layout) (names : Names), ((g.document layout).run names).value =
    ("\n".intercalate (grouped none false g.items ((forms names g.items).1.map (Form.text layout))),
      (forms names g.items).2)
  /-- The same literals get the same names, in the same order. -/
  named : ∀ (layout layout' : Layout) (names : Names),
    ((g.document layout).run names).notices.filter Notice.isNaming =
      ((g.document layout').run names).notices.filter Notice.isNaming

/-- Every rule of a text is a single line if it has one statement and the line is short enough, and else a
block with a line for each statement, and the layout has no effect on names. -/
theorem formatted {text : String} {g : Grammar} (h : (readGrammar text).value = .ok g) : g.Formatted where
  rules := fun _ mem names => ⟨_, _, Rule.formatted_of_onLines (onLines_of_read h mem) names⟩
  documents := fun layout names => g.document_of_forms layout names
  named := fun layout layout' names => by
    rw [(g.document_asks layout).notices, (g.document_asks layout').notices]

/-- A comma in a quoted atom and one in brackets end no statement, and a carriage return breaks no line. -/
theorem formatted_commas :
    let text := "a -> b : \x7b'$1', '\r,'\x7d.\nc -> '+' d : '$1', f('$2', x)."
    let g : Grammar := (readGrammar text).value.toOption.getD ⟨[]⟩
    (readGrammar text).value = .ok g ∧ g.rules.map Rule.commas = [0, 1] ∧ g.Formatted := by
  intro text g
  have read : (readGrammar text).value = .ok g := by decide +kernel
  exact ⟨read, by decide +kernel, formatted read⟩

end Grammar

end YeccDefr
