import Mathlib.Data.List.DropRight
import YeccDefr.Proofs.Safety.Writing

/-!
# Bodies as statements

The body of a definition is written in one pass over the code, which counts open brackets and remembers
whether the line is empty and whether a gap is pending. What the pass writes can be told without it. The code
is cut at the commas in front of which as many brackets are opened as closed (`statements`), each statement
becomes a line of its own (`Rule.statementText`), and the lines make up the body (`Rule.bodyText`).

Behind any symbols, the cursor of the pass is determined by these symbols and by those of them that are in the
current statement (`BodyCursor.behind`), which carries the induction (`Rule.bodyFromIn_behind`).
-/

namespace YeccDefr

open Naming Guarded

/-! ## Statements -/

namespace Symbol

/-- Whether a symbol opens a bracket. -/
def opens (s : Symbol) : Bool := s.kind == .reservedSymbol && s.text ∈ ["\x7b", "(", "["]

/-- Whether a symbol closes a bracket. -/
def closes (s : Symbol) : Bool := s.kind == .reservedSymbol && s.text ∈ ["\x7d", ")", "]"]

/-- Whether a symbol is the mark of a macro, which leaves no text. -/
def isMark (s : Symbol) : Bool := s.is .reservedSymbol "?"

/-- The text of a symbol in a body where it stands for no other symbol. -/
def ownText (s : Symbol) : String :=
  if s.is .reservedSymbol "$" then "?"
  else if s.is .atom "do" then ":do"
  else if s.isQuotedAtom then codeAtom s.text
  else s.text

/-- A test of a symbol compares its class and its text. -/
lemma is_iff {s : Symbol} {kind : Kind} {text : String} :
    s.is kind text = true ↔ s.kind = kind ∧ s.text = text := by
  rw [Symbol.is, Bool.and_eq_true, beq_iff_eq, beq_iff_eq]

end Symbol

/-- Whether a symbol of code, given with its index, ends a statement: it is a comma in front of which as many
brackets are opened as closed, whatever their kinds and order. -/
def endsStatement (code : List Symbol) (p : Symbol × Nat) : Bool :=
  p.1.is .reservedSymbol ","
    && (code.take p.2).countP Symbol.opens == (code.take p.2).countP Symbol.closes

/-- The statements of code: what stands between the commas that end statements. -/
def statements (code : List Symbol) : List (List Symbol) :=
  (code.zipIdx.splitOnP (endsStatement code)).map fun part => part.map Prod.fst

/-- Whether a space stands in front of the text of a symbol of a statement, given with its index: the symbol
is not the first one that leaves a text, and there is a gap in front of it or in front of one of the marks
right before it. -/
def spaceBefore (statement : List Symbol) (p : Symbol × Nat) : Bool :=
  let before := statement.take p.2
  !before.all Symbol.isMark && (p.1.spaced || (before.rtakeWhile Symbol.isMark).any Symbol.spaced)

namespace Rule

/-- The name that the symbol at a position has among the given ones. -/
def identifier (r : Rule) (names : Names) (position : Nat) : String :=
  match r.symbols[position - 1]? with
  | some s => names.nameFor s.text
  | none => ""

/-- The text of a symbol of the code: the identifier of the position that it stands for, and else its own. -/
def textOf (r : Rule) (identifier : Nat → String) (s : Symbol) : String :=
  match s.placeholder? with
  | some position => if position ≤ r.symbols.length then identifier position else s.ownText
  | none => s.ownText

/-- What a symbol of a statement, given with its index, adds to the text of the statement. -/
def pieceText (r : Rule) (identifier : Nat → String) (statement : List Symbol) (p : Symbol × Nat) :
    String :=
  if p.1.isMark then ""
  else (if spaceBefore statement p then " " else "") ++ r.textOf identifier p.1

/-- The text of a statement. -/
def statementText (r : Rule) (identifier : Nat → String) (statement : List Symbol) : String :=
  String.join (statement.zipIdx.map (r.pieceText identifier statement))

/-- The statements of a rule, each on a line. -/
def bodyText (r : Rule) (identifier : Nat → String) : String :=
  "\n".intercalate ((statements r.code).map (r.statementText identifier))

end Rule

/-! ## The pass with identifiers at hand -/

namespace Rule

/-- What becomes of a symbol, with the identifiers of positions at hand. -/
def replacementIn (r : Rule) (identifier : Nat → String) (depth : Int) (s : Symbol) : Replacement :=
  match s.placeholder? with
  | some position =>
    if position ≤ r.symbols.length then .piece (identifier position) else s.replacement depth
  | none => s.replacement depth

/-- The body from a place in the code on, with the identifiers of positions at hand. -/
def bodyFromIn (r : Rule) (identifier : Nat → String) (c : BodyCursor) : List Symbol → String
  | [] => ""
  | s :: code =>
    let replacement := r.replacementIn identifier c.depth s
    c.added s.spaced replacement
      ++ r.bodyFromIn identifier (c.after s.nesting s.spaced replacement) code

/-- Where the pass stands behind some code. -/
def cursorAfter (r : Rule) (identifier : Nat → String) (c : BodyCursor) (code : List Symbol) : BodyCursor :=
  code.foldl (fun c s => c.after s.nesting s.spaced (r.replacementIn identifier c.depth s)) c

/-- Behind some code, the pass goes on from the cursor there. -/
lemma bodyFromIn_append (r : Rule) (identifier : Nat → String) (c : BodyCursor) (front back : List Symbol) :
    r.bodyFromIn identifier c (front ++ back) = r.bodyFromIn identifier c front
      ++ r.bodyFromIn identifier (r.cursorAfter identifier c front) back := by
  induction front generalizing c with
  | nil => exact (String.empty_append).symm
  | cons s front ih =>
    rw [List.cons_append, bodyFromIn, bodyFromIn, ih, String.append_assoc]
    rfl

/-- The replacement of a symbol is the one under all later names. -/
lemma replacement_ensures (r : Rule) (depth : Int) (s : Symbol) :
    Ensures (r.replacement depth s) fun replacement later =>
      replacement = r.replacementIn (r.identifier later) depth s := by
  cases placeholder : s.placeholder? with
  | none =>
    simp only [replacement_eq, replacementIn, placeholder]
    exact .pure fun _ => rfl
  | some position =>
    have counted := Symbol.placeholder?_pos placeholder
    cases found : r.symbols[position - 1]? with
    | some referenced =>
      have within : position ≤ r.symbols.length := by
        have := (List.getElem?_eq_some_iff.1 found).1
        omega
      simp only [replacement_eq, replacementIn, placeholder, found, if_pos within]
      refine (bindingName_ensures referenced.text).bind fun name => .pure fun later known => ?_
      rw [identifier, found]
      exact congrArg _ (Names.nameFor_of_nameOf? known).symm
    | none =>
      have past : ¬ position ≤ r.symbols.length := by
        have := List.getElem?_eq_none_iff.1 found
        omega
      simp only [replacement_eq, replacementIn, placeholder, found, if_neg past]
      exact (Settles.report _).ensures.bind fun _ => .pure fun _ _ => rfl

/-- The pass looks up names that are kept, so its text can be read off the names at any later time. -/
lemma bodyFrom_ensures (r : Rule) (c : BodyCursor) (code : List Symbol) :
    Ensures (r.bodyFrom c code) fun text later =>
      text = r.bodyFromIn (r.identifier later) c code := by
  induction code generalizing c with
  | nil => exact .pure fun _ => rfl
  | cons s code ih =>
    rw [bodyFrom_cons]
    refine (r.replacement_ensures c.depth s).bind fun replacement => ?_
    refine (ih _).bind fun text => .pure fun later => ?_
    rintro rfl rfl
    rfl

end Rule

/-! ## The cursor behind symbols -/

/-- How many more brackets are opened than closed. -/
def balance (symbols : List Symbol) : Int :=
  (symbols.countP Symbol.opens : Int) - symbols.countP Symbol.closes

/-- A symbol changes the balance by the bracket that it opens or closes. -/
lemma Symbol.nesting_eq (s : Symbol) :
    s.nesting = (if s.opens then 1 else 0) - (if s.closes then 1 else 0) := by
  by_cases reserved : s.kind = .reservedSymbol
  · by_cases opening : s.text ∈ ["\x7b", "(", "["]
    · have closing : s.text ∉ ["\x7d", ")", "]"] := by
        intro mem
        revert opening
        simp only [List.mem_cons, List.not_mem_nil, or_false] at mem
        rcases mem with e | e | e <;> rw [e] <;> decide
      simp [nesting, opens, closes, reserved, opening, closing]
    · by_cases closing : s.text ∈ ["\x7d", ")", "]"] <;>
        simp [nesting, opens, closes, reserved, opening, closing]
  · simp [nesting, opens, closes, reserved]

/-- The balance of two parts is the sum of theirs. -/
lemma balance_append (before later : List Symbol) :
    balance (before ++ later) = balance before + balance later := by
  rw [balance, balance, balance, List.countP_append, List.countP_append]
  omega

/-- The balance of one symbol is what it opens and closes. -/
lemma balance_singleton (s : Symbol) : balance [s] = s.nesting := by
  rw [balance, s.nesting_eq, List.countP_singleton, List.countP_singleton]
  split <;> split <;> rfl

/-- A last symbol adds to the balance. -/
lemma balance_concat (before : List Symbol) (s : Symbol) :
    balance (before ++ [s]) = balance before + s.nesting := by
  rw [balance_append, balance_singleton]

/-- A first symbol adds to the balance. -/
lemma balance_cons (s : Symbol) (later : List Symbol) : balance (s :: later) = s.nesting + balance later := by
  rw [← List.singleton_append, balance_append, balance_singleton]

/-- The depth of the cursor grows by the balance of the code it has passed. -/
lemma Rule.cursorAfter_depth (r : Rule) (identifier : Nat → String) (c : BodyCursor) (code : List Symbol) :
    (r.cursorAfter identifier c code).depth = c.depth + balance code := by
  induction code generalizing c with
  | nil => exact (Int.add_zero _).symm
  | cons s code ih =>
    rw [cursorAfter, List.foldl_cons, ← cursorAfter, ih, BodyCursor.after_depth, balance_cons, Int.add_assoc]

/-- A comma ends a statement where the symbols before it are in balance. -/
lemma endsStatement_eq (before : List Symbol) (s : Symbol) (later : List Symbol) :
    endsStatement (before ++ s :: later) (s, before.length) =
      (s.is .reservedSymbol "," && decide (balance before = 0)) := by
  rw [endsStatement, List.take_left, balance]
  congr 1
  rw [Bool.eq_iff_iff, beq_iff_eq, decide_eq_true_eq]
  omega

namespace BodyCursor

/-- The cursor behind the given symbols, with those of them that are in the current statement. -/
def behind (before current : List Symbol) : BodyCursor :=
  ⟨balance before, current.all Symbol.isMark, (current.rtakeWhile Symbol.isMark).any Symbol.spaced⟩

section
variable {before current : List Symbol} {s : Symbol}

/-- Behind the end of a statement the cursor has nothing of the next one. -/
lemma after_lineEnd : (behind before current).after s.nesting s.spaced .lineEnd =
    behind (before ++ [s]) [] := by
  rw [behind, behind, balance_concat]
  rfl

/-- Behind a mark the cursor has the mark in its statement. -/
lemma after_nothing (mark : s.isMark = true) :
    (behind before current).after s.nesting s.spaced .nothing =
      behind (before ++ [s]) (current ++ [s]) := by
  rw [behind, behind, balance_concat, List.rtakeWhile_concat_pos _ _ _ mark, List.all_append,
    List.any_append]
  simp [after, mark]

/-- Behind a symbol that is shown the cursor has it in its statement. -/
lemma after_piece (text : String) (shown : s.isMark = false) :
    (behind before current).after s.nesting s.spaced (.piece text) =
      behind (before ++ [s]) (current ++ [s]) := by
  have unmarked : ¬ s.isMark = true := by simp [shown]
  rw [behind, behind, balance_concat, List.rtakeWhile_concat_neg _ _ _ unmarked, List.all_append]
  simp [after, shown]

/-- The cursor adds a text behind the space that its statement has there. -/
lemma added_piece (text : String) (later : List Symbol) :
    (behind before current).added s.spaced (.piece text) =
      (if spaceBefore (current ++ s :: later) (s, current.length) then " " else "") ++ text := by
  rw [behind, added, spaceBefore, List.take_left]
  dsimp only
  split
  · rfl
  · rw [String.empty_append]

end

end BodyCursor

/-! ## The pass writes the statements -/

/-- What becomes of a symbol that stands for no other one. -/
lemma Symbol.replacement_eq (s : Symbol) (depth : Int) : s.replacement depth =
    if s.is .reservedSymbol "," && decide (depth = 0) then .lineEnd
    else if s.isMark then .nothing
    else .piece s.ownText := by
  rw [replacement_cases, isMark, ownText]
  repeat' split
  all_goals rfl

namespace Rule

/-- What becomes of a symbol where `depth` brackets are open. -/
lemma replacementIn_eq (r : Rule) (identifier : Nat → String) (depth : Int) (s : Symbol) :
    r.replacementIn identifier depth s =
      if s.is .reservedSymbol "," && decide (depth = 0) then .lineEnd
      else if s.isMark then .nothing
      else .piece (r.textOf identifier s) := by
  have own := s.replacement_eq depth
  cases placeholder : s.placeholder? with
  | none => simp only [replacementIn, textOf, placeholder, own]
  | some position =>
    -- a placeholder is an atom, and so neither a comma nor a mark
    have atom := Symbol.kind_of_placeholder? placeholder
    have noComma : s.is .reservedSymbol "," = false := by simp [Symbol.is, atom]
    have noMark : s.isMark = false := by simp [Symbol.isMark, Symbol.is, atom]
    rw [noComma, noMark] at own ⊢
    simp only [replacementIn, textOf, placeholder, own]
    split <;> rfl

/-- What a symbol is replaced with, told by its place in the code. -/
lemma replacementIn_behind (r : Rule) (identifier : Nat → String) (before : List Symbol) (s : Symbol)
    (later : List Symbol) : r.replacementIn identifier (balance before) s =
      if endsStatement (before ++ s :: later) (s, before.length) then .lineEnd
      else if s.isMark then .nothing
      else .piece (r.textOf identifier s) := by
  rw [endsStatement_eq, replacementIn_eq]

/-- The statements of the code behind some symbols, the first of them from where it goes on. -/
def statementsBehind (before later : List Symbol) : List (List Symbol) :=
  ((later.zipIdx before.length).splitOnP (endsStatement (before ++ later))).map fun part =>
    part.map Prod.fst

/-- There is always a statement, be it an empty one. -/
lemma statementsBehind_eq_cons (before later : List Symbol) :
    ∃ first others, statementsBehind before later = first :: others :=
  List.exists_cons_of_ne_nil (by simp [statementsBehind, List.splitOnP_ne_nil])

/-- A symbol starts the first statement, or ends one that is empty. -/
lemma statementsBehind_cons (before : List Symbol) (s : Symbol) (later : List Symbol) :
    statementsBehind before (s :: later) =
      if endsStatement (before ++ s :: later) (s, before.length) then
        [] :: statementsBehind (before ++ [s]) later
      else (statementsBehind (before ++ [s]) later).modifyHead (s :: ·) := by
  have code : before ++ [s] ++ later = before ++ s :: later := by simp
  have index : (before ++ [s]).length = before.length + 1 := by simp
  rw [statementsBehind, statementsBehind, List.zipIdx_cons, List.splitOnP_cons_eq_if_modifyHead, code,
    index]
  split
  · rfl
  · cases (later.zipIdx (before.length + 1)).splitOnP (endsStatement (before ++ s :: later)) <;> rfl

/-- The text of a statement from where it goes on behind symbols of it. -/
def statementTextBehind (r : Rule) (identifier : Nat → String) (current later : List Symbol) :
    String :=
  String.join ((later.zipIdx current.length).map (r.pieceText identifier (current ++ later)))

/-- The text of a statement starts with that of its first symbol. -/
lemma statementTextBehind_cons (r : Rule) (identifier : Nat → String) (current : List Symbol)
    (s : Symbol) (later : List Symbol) :
    r.statementTextBehind identifier current (s :: later) =
      r.pieceText identifier (current ++ s :: later) (s, current.length)
        ++ r.statementTextBehind identifier (current ++ [s]) later := by
  have statement : current ++ [s] ++ later = current ++ s :: later := by simp
  have index : (current ++ [s]).length = current.length + 1 := by simp
  rw [statementTextBehind, statementTextBehind, List.zipIdx_cons, List.map_cons, String.join_cons,
    statement, index]

/-- The pass writes the rest of the current statement and then the other ones. -/
lemma bodyFromIn_behind (r : Rule) (identifier : Nat → String) (later : List Symbol)
    {before current first : List Symbol} {others : List (List Symbol)}
    (cut : statementsBehind before later = first :: others) :
    r.bodyFromIn identifier (.behind before current) later =
      "\n".intercalate (r.statementTextBehind identifier current first
        :: others.map (r.statementText identifier)) := by
  induction later generalizing before current first others with
  | nil =>
    cases cut
    rfl
  | cons s later ih =>
    rw [statementsBehind_cons] at cut
    rw [bodyFromIn, BodyCursor.behind, r.replacementIn_behind identifier before s later,
      ← BodyCursor.behind]
    obtain ⟨next, others', rest⟩ := statementsBehind_eq_cons (before ++ [s]) later
    split at cut
    case isTrue ends =>
      cases cut
      rw [if_pos ends, BodyCursor.after_lineEnd, ih rest, rest, List.map_cons,
        String.intercalate_cons_cons]
      rfl
    case isFalse goesOn =>
      rw [rest] at cut
      cases cut
      rw [if_neg goesOn, statementTextBehind_cons, String.intercalate_cons_append]
      cases mark : s.isMark with
      | true =>
        rw [if_pos rfl, BodyCursor.after_nothing mark, ih rest, pieceText, if_pos mark]
        rfl
      | false =>
        have unmarked : ¬ s.isMark = true := by simp [mark]
        rw [if_neg Bool.false_ne_true, BodyCursor.after_piece _ mark, ih rest, pieceText,
          if_neg unmarked, BodyCursor.added_piece _ next]

/-- The body from the start is the text of the statements. -/
lemma bodyFromIn_start (r : Rule) (identifier : Nat → String) :
    r.bodyFromIn identifier .start r.code = r.bodyText identifier := by
  obtain ⟨first, others, cut⟩ := statementsBehind_eq_cons [] r.code
  have pass : r.bodyFromIn identifier (.behind [] []) r.code = _ :=
    r.bodyFromIn_behind identifier r.code cut
  rw [bodyText, show statements r.code = first :: others from cut, List.map_cons]
  exact pass

/-- The body of a rule is its statements, whatever names are in use before. -/
lemma body_ensures (r : Rule) :
    Ensures r.body fun text later => text = r.bodyText (r.identifier later) := by
  have pass := r.bodyFrom_ensures .start r.code
  simp only [bodyFromIn_start] at pass
  exact pass

/-- The identifiers of positions in the body of a rule that is written with the given names in use. -/
def identifiersIn (r : Rule) (names : Names) : Nat → String := r.identifier (r.body.run names).value.2

/-- The body of a rule is the one with the names of its positions. -/
lemma body_value (r : Rule) (names : Names) :
    (r.body.run names).value.1 = r.bodyFromIn (r.identifiersIn names) .start r.code :=
  (r.bodyFrom_ensures .start r.code).holds names _ .refl

/-- The body of a rule that can be written is written without a failed check: a line for each of its
statements, in which placeholders of the rule's own symbols are replaced by the names that these symbols have
afterwards. -/
theorem body_of_statements {r : Rule} (writable : r.Writable) (names : Names) :
    (r.bodyFrom? .start r.code).run = some <$> r.body
      ∧ (r.body.run names).value.1 = r.bodyText (r.identifier (r.body.run names).value.2) := by
  constructor
  · exact Rule.body?_does writable
  · exact r.body_ensures.holds names _ .refl

/-- Brackets that do not match, a comma where more brackets are closed than opened, marks in front of and
between other symbols, and a placeholder past the symbols. -/
theorem body_of_statements_unbalanced :
    let symbol (kind : Symbol.Kind) (text : String) (spaced : Bool) : Symbol := ⟨kind, text, default, spaced⟩
    let r : Rule := ⟨symbol .atom "s" false, [symbol .atom "'+'" true], some
      [symbol .reservedSymbol "\x7d" true, symbol .reservedSymbol "," false, symbol .reservedSymbol "(" false,
        symbol .reservedSymbol "," true, symbol .reservedSymbol "?" true, symbol .var "X" true,
        symbol .reservedSymbol "?" true, symbol .atom "'$1'" false, symbol .reservedSymbol "," false,
        symbol .atom "'$2'" false]⟩
    r.Writable ∧ (r.body.run .empty).value.1 = "\x7d,(\nX variable_1\n:\"$2\"" := by
  intro symbol r
  have writable : r.Writable := by decide +kernel
  refine ⟨writable, ?_⟩
  rw [(body_of_statements writable .empty).2]
  decide +kernel

end Rule

end YeccDefr
