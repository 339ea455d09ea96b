import YeccDefr.Proofs.Safety.Translation
import YeccDefr.Proofs.Output.Pairing

/-!
# Character literals

In code, a mark `$` and the single character right behind it are a character literal, which the body writes
with the mark `?`. The pass over the code knows no literals: it replaces the mark and then goes on with the
character as with any symbol. So a literal survives unless its character is a symbol that the pass treats in a
special way (`Symbol.isSpecial`, `Rule.keepsCharacter_iff`): a bracket, which is counted, a mark, which is
dropped or replaced, and a comma outside of all brackets, which ends a statement. Where all literals survive,
the body is that of the code with each of them taken as one symbol (`Rule.body_withCharacters`).
-/

namespace YeccDefr

open Naming

/-! ## Code with literals -/

/-- A part of code: a single symbol, or a mark with the character that belongs to it. -/
inductive CodePart where
  | symbol (s : Symbol)
  | character (mark c : Symbol)
  deriving DecidableEq

namespace CodePart

/-- The parts of code from left to right. A mark takes the symbol behind it if there is no gap in between and
the symbol is one character. -/
def ofCode : List Symbol → List CodePart
  | mark :: c :: code =>
    if mark.is .reservedSymbol "$" && !c.spaced && c.text.length == 1 then .character mark c :: ofCode code
    else .symbol mark :: ofCode (c :: code)
  | [s] => [.symbol s]
  | [] => []

/-- The symbols of a part. -/
def symbols : CodePart → List Symbol
  | symbol s => [s]
  | character mark c => [mark, c]

/-- A part as one symbol, a character literal with the mark that it has in a body. -/
def merged : CodePart → Symbol
  | symbol s => s
  | character mark c => ⟨.char, "?" ++ c.text, ⟨mark.region.start, c.region.stop⟩, mark.spaced⟩

/-- The symbols of parts in order. -/
abbrev flat (parts : List CodePart) : List Symbol := parts.flatMap symbols

/-- The parts of code hold its symbols in order. -/
lemma flat_ofCode (code : List Symbol) : flat (ofCode code) = code := by
  induction code using ofCode.induct with
  | case1 mark c code literal ih =>
    rw [ofCode, if_pos literal, flat, List.flatMap_cons, ← flat, ih]
    rfl
  | case2 mark c code other ih =>
    rw [ofCode, if_neg other, flat, List.flatMap_cons, ← flat, ih]
    rfl
  | case3 s => rfl
  | case4 => rfl

/-- A literal is a mark and an unspaced character. -/
structure IsLiteral (mark c : Symbol) : Prop where
  mark : mark.is .reservedSymbol "$" = true
  unspaced : c.spaced = false
  single : c.text.length = 1

/-- A pair among the parts of code is a literal. -/
lemma isLiteral_of_mem {code : List Symbol} {mark c : Symbol} (mem : .character mark c ∈ ofCode code) :
    IsLiteral mark c := by
  induction code using ofCode.induct with
  | case1 mark' c' code literal ih =>
    rw [ofCode, if_pos literal] at mem
    rcases List.mem_cons.1 mem with same | later
    · cases same
      simp only [Bool.and_eq_true, Bool.not_eq_true', beq_iff_eq] at literal
      exact ⟨literal.1.1, literal.1.2, literal.2⟩
    · exact ih later
  | case2 mark' c' code other ih =>
    rw [ofCode, if_neg other] at mem
    rcases List.mem_cons.1 mem with same | later
    · cases same
    · exact ih later
  | case3 s => cases List.mem_singleton.1 mem
  | case4 => cases mem

end CodePart

/-- The rule with each character literal of its code taken as one symbol. -/
def Rule.withCharacters (r : Rule) : Rule :=
  { r with code? := r.code?.map fun code => (CodePart.ofCode code).map CodePart.merged }

/-- Whether the pass over code treats a symbol in a special way where `depth` brackets are open, so that it is
lost as the character of a literal. -/
def Symbol.isSpecial (s : Symbol) (depth : Int) : Bool :=
  s.isMark || s.is .reservedSymbol "$" || s.opens || s.closes || (s.is .reservedSymbol "," && depth = 0)

/-! ## The pass over a literal -/

namespace Symbol
variable {s : Symbol}

/-- A closed symbol of one character is no quoted atom. -/
lemma isQuotedAtom_of_single (single : s.text.length = 1) (closed : s.Closed) : s.isQuotedAtom = false := by
  by_contra quoted
  obtain ⟨u, text⟩ := closed (by simpa using quoted)
  rw [← String.length_toList, text] at single
  simp at single

/-- A single character stands for itself, except for the mark of a literal. -/
lemma ownText_of_single (single : s.text.length = 1) (closed : s.Closed) :
    s.ownText = if s.is .reservedSymbol "$" then "?" else s.text := by
  have noDo : s.is .atom "do" = false := by
    have : s.text ≠ "do" := by
      intro e
      rw [e] at single
      cases single
    simp [Symbol.is, this]
  simp only [ownText, noDo, isQuotedAtom_of_single single closed, Bool.false_eq_true, if_false]

/-- A symbol keeps the number of open brackets if it is no bracket. -/
lemma nesting_eq_zero_iff (s : Symbol) : s.nesting = 0 ↔ s.opens = false ∧ s.closes = false := by
  rw [nesting, opens, closes]
  by_cases reserved : s.kind = .reservedSymbol
  · rw [if_pos reserved, reserved]
    split
    · simp_all
    · split <;> simp_all
  · simp [reserved]

/-- A single character is special unless it is written as it is and is no bracket. -/
lemma isSpecial_iff (single : s.text.length = 1) (closed : s.Closed) (depth : Int) :
    s.isSpecial depth = false ↔ s.replacement depth = .piece s.text ∧ s.nesting = 0 := by
  rw [replacement_eq, ownText_of_single single closed, nesting_eq_zero_iff, isSpecial]
  split
  case isTrue ends => simp [ends]
  case isFalse goesOn =>
    split
    case isTrue dropped => simp [dropped]
    case isFalse shown =>
      split
      case isTrue dollar =>
        have text := (is_iff.1 dollar).2
        simp [dollar, text]
      case isFalse other =>
        simp only [Bool.not_eq_true] at goesOn shown other
        simp [goesOn, shown, other]

/-- The mark of a character literal is replaced, wherever it stands. -/
lemma of_dollar (dollar : s.is .reservedSymbol "$" = true) (depth : Int) :
    s.placeholder? = none ∧ s.replacement depth = .piece "?" ∧ s.nesting = 0 := by
  obtain ⟨kind, text⟩ := is_iff.1 dollar
  refine ⟨?_, ?_, ?_⟩
  · simp [placeholder?, kind]
  · simp [replacement_cases, Symbol.is, kind, text]
  · simp [nesting, kind, text]

end Symbol

namespace BodyCursor

/-- What a piece adds goes on with what follows the piece. -/
lemma added_piece_append (c : BodyCursor) (spaced : Bool) (text more : String) :
    c.added spaced (.piece (text ++ more)) = c.added spaced (.piece text) ++ more := by
  rw [added, added]
  split
  · rw [String.append_assoc]
  · rfl

/-- Behind a piece that is no bracket, as many brackets are open as before. -/
lemma after_piece_of_level (c : BodyCursor) {nesting : Int} (level : nesting = 0) (spaced : Bool)
    (text : String) : c.after nesting spaced (.piece text) = ⟨c.depth, false, false⟩ := by
  rw [level, after, Int.add_zero]

/-- Within a line, only a piece adds its text and leaves the cursor in place. -/
lemma inPlace_iff {depth nesting : Int} {replacement : Replacement} {text : String} (nonempty : text ≠ "") :
    added ⟨depth, false, false⟩ false replacement = text
        ∧ after ⟨depth, false, false⟩ nesting false replacement = ⟨depth, false, false⟩ ↔
      replacement = .piece text ∧ nesting = 0 := by
  cases replacement with
  | lineEnd =>
    refine iff_of_false ?_ ?_
    · rintro ⟨_, cursor⟩
      cases congrArg lineStart cursor
    · rintro ⟨same, _⟩
      cases same
  | nothing =>
    refine iff_of_false ?_ ?_
    · rintro ⟨empty, _⟩
      exact nonempty empty.symm
    · rintro ⟨same, _⟩
      cases same
  | piece own =>
    rw [Replacement.piece.injEq]
    refine and_congr_right fun _ => ?_
    rw [after, mk.injEq]
    constructor
    · rintro ⟨level, _⟩
      exact Int.add_left_cancel (level.trans (Int.add_zero depth).symm)
    · rintro rfl
      exact ⟨Int.add_zero _, rfl, rfl⟩

end BodyCursor

namespace Rule

/-- The pass writes the mark of characters and then the character of a literal, and goes on in the same
statement with as many open brackets as before. -/
structure KeepsCharacter (r : Rule) (identifier : Nat → String) (c : BodyCursor) (mark ch : Symbol) :
    Prop where
  text : r.bodyFromIn identifier c [mark, ch] = c.added mark.spaced (.piece ("?" ++ ch.text))
  cursor : r.cursorAfter identifier c [mark, ch] = c.after 0 mark.spaced (.piece ("?" ++ ch.text))

section
variable (r : Rule) (identifier : Nat → String) (c : BodyCursor) {mark ch : Symbol}

/-- The pass replaces the mark of a literal, and then the character as it would elsewhere. -/
lemma pass_literal (literal : CodePart.IsLiteral mark ch) (closed : ch.Closed) :
    r.bodyFromIn identifier c [mark, ch] = c.added mark.spaced (.piece "?")
        ++ BodyCursor.added ⟨c.depth, false, false⟩ false (ch.replacement c.depth)
      ∧ r.cursorAfter identifier c [mark, ch] =
        BodyCursor.after ⟨c.depth, false, false⟩ ch.nesting false (ch.replacement c.depth) := by
  obtain ⟨refers, replaced, level⟩ := Symbol.of_dollar literal.mark c.depth
  have becomes : r.replacementIn identifier c.depth mark = .piece "?" := by
    rw [replacementIn, refers]
    exact replaced
  have behind : c.after mark.nesting mark.spaced (r.replacementIn identifier c.depth mark) =
      ⟨c.depth, false, false⟩ := by
    rw [becomes, c.after_piece_of_level level]
  have own : r.replacementIn identifier c.depth ch = ch.replacement c.depth := by
    have bare := Symbol.isQuotedAtom_of_single literal.single closed
    rw [replacementIn, Symbol.placeholder?_of_bare bare]
  constructor
  · rw [bodyFromIn, bodyFromIn, bodyFromIn, behind, becomes, own, literal.unspaced, String.append_empty]
  · rw [cursorAfter, List.foldl_cons, List.foldl_cons, List.foldl_nil, behind, own, literal.unspaced]

/-- A literal is kept exactly if its character is not treated in a special way. -/
lemma keepsCharacter_iff (literal : CodePart.IsLiteral mark ch) (closed : ch.Closed) :
    r.KeepsCharacter identifier c mark ch ↔ ch.isSpecial c.depth = false := by
  obtain ⟨text, cursor⟩ := r.pass_literal identifier c literal closed
  have keeps : r.KeepsCharacter identifier c mark ch ↔
      BodyCursor.added ⟨c.depth, false, false⟩ false (ch.replacement c.depth) = ch.text
        ∧ BodyCursor.after ⟨c.depth, false, false⟩ ch.nesting false (ch.replacement c.depth) =
          ⟨c.depth, false, false⟩ := by
    have behind := c.after_piece_of_level rfl mark.spaced ("?" ++ ch.text)
    constructor
    · rintro ⟨text', cursor'⟩
      rw [text, BodyCursor.added_piece_append, String.append_right_inj] at text'
      rw [cursor, behind] at cursor'
      exact ⟨text', cursor'⟩
    · rintro ⟨text', cursor'⟩
      exact ⟨by rw [text, text', BodyCursor.added_piece_append], by rw [cursor, cursor', behind]⟩
  have nonempty : ch.text ≠ "" := by
    intro e
    have single := literal.single
    rw [e] at single
    cases single
  rw [keeps, BodyCursor.inPlace_iff nonempty, Symbol.isSpecial_iff literal.single closed]

end

/-! ## The body with its literals taken as symbols -/

/-- A symbol that stands for no other one is replaced without asking for a name. -/
lemma bodyFrom_cons_of_none (r : Rule) (c : BodyCursor) {s : Symbol} (refers : s.placeholder? = none)
    (code : List Symbol) : r.bodyFrom c (s :: code) =
      (c.added s.spaced (s.replacement c.depth) ++ ·) <$>
        r.bodyFrom (c.after s.nesting s.spaced (s.replacement c.depth)) code := by
  rw [bodyFrom_cons, replacement_eq, refers]
  simp

/-- A literal that was taken as one symbol is written as its text and changes nothing else. -/
lemma bodyFrom_cons_merged (r : Rule) (c : BodyCursor) (mark ch : Symbol) (code : List Symbol) :
    r.bodyFrom c ((CodePart.character mark ch).merged :: code) =
      (c.added mark.spaced (.piece ("?" ++ ch.text)) ++ ·) <$> r.bodyFrom ⟨c.depth, false, false⟩ code := by
  have refers : (CodePart.character mark ch).merged.placeholder? = none := rfl
  have becomes : (CodePart.character mark ch).merged.replacement c.depth = .piece ("?" ++ ch.text) := rfl
  have level : (CodePart.character mark ch).merged.nesting = 0 := rfl
  rw [r.bodyFrom_cons_of_none c refers, becomes, c.after_piece_of_level level]
  rfl

/-- So is a literal of two symbols if its character is not special. -/
lemma bodyFrom_cons_literal (r : Rule) (c : BodyCursor) {mark ch : Symbol}
    (literal : CodePart.IsLiteral mark ch) (closed : ch.Closed) (plain : ch.isSpecial c.depth = false)
    (code : List Symbol) : r.bodyFrom c (mark :: ch :: code) =
      (c.added mark.spaced (.piece ("?" ++ ch.text)) ++ ·) <$> r.bodyFrom ⟨c.depth, false, false⟩ code := by
  obtain ⟨refers, becomes, level⟩ := Symbol.of_dollar literal.mark c.depth
  obtain ⟨own, level'⟩ := (Symbol.isSpecial_iff literal.single closed c.depth).1 plain
  have bare := Symbol.isQuotedAtom_of_single literal.single closed
  have added' : BodyCursor.added ⟨c.depth, false, false⟩ ch.spaced (.piece ch.text) = ch.text := by
    rw [literal.unspaced]
    rfl
  rw [r.bodyFrom_cons_of_none c refers, becomes, c.after_piece_of_level level,
    r.bodyFrom_cons_of_none _ (Symbol.placeholder?_of_bare bare), own, BodyCursor.after_piece_of_level _ level',
    added', Functor.map_map]
  simp only [BodyCursor.added_piece_append, String.append_assoc]

/-- Where no literal has a special character, the pass writes the same as over the code with each literal taken
as one symbol. -/
lemma bodyFrom_merged (r : Rule) (c : BodyCursor) {parts : List CodePart}
    (literals : ∀ mark ch, .character mark ch ∈ parts → CodePart.IsLiteral mark ch ∧ ch.Closed)
    (plain : ∀ front mark ch back, parts = front ++ .character mark ch :: back →
      ch.isSpecial (c.depth + balance (CodePart.flat front)) = false) :
    r.bodyFrom c (parts.map CodePart.merged) = r.bodyFrom c (CodePart.flat parts) := by
  induction parts generalizing c with
  | nil => rfl
  | cons part parts ih =>
    have later (c' : BodyCursor) (depth : c'.depth = c.depth + balance part.symbols) :
        r.bodyFrom c' (parts.map CodePart.merged) = r.bodyFrom c' (CodePart.flat parts) := by
      refine ih c' (fun mark ch mem => literals mark ch (List.mem_cons_of_mem _ mem)) ?_
      rintro front mark ch back rfl
      have there := plain (part :: front) mark ch back rfl
      rwa [CodePart.flat, List.flatMap_cons, balance_append, ← Int.add_assoc, ← depth] at there
    rw [List.map_cons, CodePart.flat, List.flatMap_cons, ← CodePart.flat]
    cases part with
    | symbol s =>
      have goesOn (replacement : Replacement) :
          r.bodyFrom (c.after s.nesting s.spaced replacement) (parts.map CodePart.merged) =
            r.bodyFrom (c.after s.nesting s.spaced replacement) (CodePart.flat parts) :=
        later _ (by rw [BodyCursor.after_depth, CodePart.symbols, balance_singleton])
      rw [CodePart.merged, CodePart.symbols, List.singleton_append, bodyFrom_cons, bodyFrom_cons]
      simp only [goesOn]
    | character mark ch =>
      obtain ⟨literal, closed⟩ := literals mark ch List.mem_cons_self
      have here : ch.isSpecial c.depth = false := by
        have first := plain [] mark ch parts rfl
        have level : balance (CodePart.flat []) = 0 := rfl
        rwa [level, Int.add_zero] at first
      have depth : c.depth = c.depth + balance [mark, ch] := by
        have bracket := (Symbol.isSpecial_iff literal.single closed c.depth).1 here
        have dollar := (Symbol.of_dollar literal.mark c.depth).2.2
        rw [balance_cons, balance_singleton, dollar, bracket.2]
        omega
      rw [r.bodyFrom_cons_merged, later ⟨c.depth, false, false⟩ depth]
      exact (r.bodyFrom_cons_literal c literal closed here _).symm

/-- The code of a rule with its characters merged is that of its parts, each merged. -/
lemma code_withCharacters (r : Rule) :
    r.withCharacters.code = (CodePart.ofCode r.code).map CodePart.merged := by
  rw [code, code, withCharacters]
  cases r.code? <;> rfl

/-- What is written of some code depends on the symbols of the rule only. -/
lemma bodyFrom_withCharacters (r : Rule) (c : BodyCursor) (code : List Symbol) :
    r.withCharacters.bodyFrom c code = r.bodyFrom c code := by
  induction code generalizing c with
  | nil => rfl
  | cons s code ih =>
    rw [bodyFrom_cons, bodyFrom_cons]
    simp only [ih]
    rfl

/-- Where the literals of a rule have no special characters, the body is that of the rule with each literal
taken as one symbol, down to the names that are asked for. -/
lemma body_withCharacters {r : Rule} (closed : ∀ s ∈ r.code, s.Closed)
    (plain : ∀ front mark ch back, CodePart.ofCode r.code = front ++ .character mark ch :: back →
      ch.isSpecial (balance (CodePart.flat front)) = false) : r.withCharacters.body = r.body := by
  rw [body_eq, body_eq, bodyFrom_withCharacters, code_withCharacters, bodyFrom_merged, CodePart.flat_ofCode]
  · intro mark ch mem
    refine ⟨CodePart.isLiteral_of_mem mem, closed ch ?_⟩
    rw [← CodePart.flat_ofCode r.code]
    exact List.mem_flatMap.2 ⟨_, mem, List.mem_cons_of_mem _ List.mem_cons_self⟩
  · intro front mark ch back split
    rw [BodyCursor.start, Int.zero_add]
    exact plain front mark ch back split

/-! ## The literals of a rule -/

/-- Where the pass stands behind some parts of the code. -/
def cursorBehind (r : Rule) (names : Names) (front : List CodePart) : BodyCursor :=
  r.cursorAfter (r.identifiersIn names) .start (CodePart.flat front)

/-- What the body that is written with the given names in use makes of a literal between parts of the code. -/
structure WritesCharacter (r : Rule) (names : Names) (front : List CodePart) (mark ch : Symbol)
    (back : List CodePart) : Prop where
  /-- Its text stands between what is written of the code around it, and the code behind it is written from
  where it leaves the pass. -/
  between : (r.body.run names).value.1 =
    r.bodyFromIn (r.identifiersIn names) .start (CodePart.flat front)
      ++ r.bodyFromIn (r.identifiersIn names) (r.cursorBehind names front) [mark, ch]
      ++ r.bodyFromIn (r.identifiersIn names)
        (r.cursorAfter (r.identifiersIn names) (r.cursorBehind names front) [mark, ch]) (CodePart.flat back)
  /-- The mark is written, and then the character is replaced as it would be elsewhere. -/
  text : r.bodyFromIn (r.identifiersIn names) (r.cursorBehind names front) [mark, ch] =
    (r.cursorBehind names front).added mark.spaced (.piece "?")
      ++ BodyCursor.added ⟨balance (CodePart.flat front), false, false⟩ false
        (ch.replacement (balance (CodePart.flat front)))
  cursor : r.cursorAfter (r.identifiersIn names) (r.cursorBehind names front) [mark, ch] =
    BodyCursor.after ⟨balance (CodePart.flat front), false, false⟩ ch.nesting false
      (ch.replacement (balance (CodePart.flat front)))
  /-- So the literal is kept exactly if its character is not special where it stands. -/
  kept_iff : r.KeepsCharacter (r.identifiersIn names) (r.cursorBehind names front) mark ch ↔
    ch.isSpecial (balance (CodePart.flat front)) = false

/-- What the body that is written with the given names in use makes of the literals in the code. -/
structure WritesCharacters (r : Rule) (names : Names) : Prop where
  each : ∀ front mark ch back, CodePart.ofCode r.code = front ++ .character mark ch :: back →
    r.WritesCharacter names front mark ch back
  /-- Where all literals are kept, the body is that of the code with each of them taken as one symbol. -/
  merged : (∀ front mark ch back, CodePart.ofCode r.code = front ++ .character mark ch :: back →
    ch.isSpecial (balance (CodePart.flat front)) = false) → r.withCharacters.body = r.body

/-- The body treats every literal of its code so, as long as the quoted atoms in it are closed. -/
lemma writesCharacter {r : Rule} (closed : ∀ s ∈ r.code, s.Closed) (names : Names)
    {front : List CodePart} {mark ch : Symbol} {back : List CodePart}
    (split : CodePart.ofCode r.code = front ++ .character mark ch :: back) :
    r.WritesCharacter names front mark ch back := by
  have code : r.code = CodePart.flat front ++ ([mark, ch] ++ CodePart.flat back) := by
    rw [← CodePart.flat_ofCode r.code, split, CodePart.flat, List.flatMap_append, List.flatMap_cons]
    rfl
  have literal : CodePart.IsLiteral mark ch := CodePart.isLiteral_of_mem (by rw [split]; simp)
  have own : ch.Closed := closed ch (by rw [code]; simp)
  have depth : (r.cursorBehind names front).depth = balance (CodePart.flat front) := by
    rw [cursorBehind, cursorAfter_depth, BodyCursor.start, Int.zero_add]
  have pass := r.pass_literal (r.identifiersIn names) (r.cursorBehind names front) literal own
  have kept := r.keepsCharacter_iff (r.identifiersIn names) (r.cursorBehind names front) literal own
  rw [depth] at pass kept
  refine ⟨?_, pass.1, pass.2, kept⟩
  rw [body_value, code, bodyFromIn_append, bodyFromIn_append, String.append_assoc]
  rfl

/-- In the body of a rule of a text, a character literal is written with its mark, changes the number of open
brackets by nothing and ends no statement exactly if its character is none of those that the pass treats in a
special way, whatever stands around it. -/
theorem character_literals {text : String} {g : Grammar} (read : (readGrammar text).value = .ok g) {r : Rule}
    (mem : r ∈ g.rules) (names : Names) : r.WritesCharacters names := by
  have closed := Grammar.closed_of_mem_code (readGrammar_eq_ok.1 read).2 mem
  exact ⟨fun _ _ _ _ split => writesCharacter closed names split, body_withCharacters closed⟩

/-- A comma inside brackets is not special. -/
theorem character_literals_comma :
    ∃ g, (readGrammar "c -> x : [$,].").value = .ok g ∧ ∃ r ∈ g.rules, ∃ front mark ch back,
      CodePart.ofCode r.code = front ++ .character mark ch :: back
        ∧ r.KeepsCharacter (r.identifiersIn .empty) (r.cursorBehind .empty front) mark ch
        ∧ (r.body.run .empty).value.1 = "[?,]" := by
  let g := (readGrammar "c -> x : [$,].").value.toOption.getD ⟨[]⟩
  have read : (readGrammar "c -> x : [$,].").value = .ok g := by decide +kernel
  let r := g.rules.get ⟨0, by decide +kernel⟩
  have mem : r ∈ g.rules := List.get_mem _ _
  let front := (CodePart.ofCode r.code).take 1
  let back := (CodePart.ofCode r.code).drop 2
  let mark := r.code.get ⟨1, by decide +kernel⟩
  let ch := r.code.get ⟨2, by decide +kernel⟩
  have split : CodePart.ofCode r.code = front ++ .character mark ch :: back := by decide +kernel
  have plain : ch.isSpecial (balance (CodePart.flat front)) = false := by decide +kernel
  have kept := ((character_literals read mem .empty).each front mark ch back split).kept_iff.2 plain
  exact ⟨g, read, r, mem, front, mark, ch, back, split, kept, by decide +kernel⟩

/-- The comma of a literal outside of all brackets ends a statement. -/
theorem comma_of_literal :
    translation "c -> x : $,." = .ok "defr c(:x) do\n?\n\nend"
      ∧ ¬ ∀ (text : String) (g : Grammar), (readGrammar text).value = .ok g → ∀ r ∈ g.rules,
        ∀ (names : Names) (front : List CodePart) (mark ch : Symbol) (back : List CodePart),
          CodePart.ofCode r.code = front ++ .character mark ch :: back →
            r.KeepsCharacter (r.identifiersIn names) (r.cursorBehind names front) mark ch := by
  refine ⟨by decide +kernel, fun kept => ?_⟩
  let g := (readGrammar "c -> x : $,.").value.toOption.getD ⟨[]⟩
  have read : (readGrammar "c -> x : $,.").value = .ok g := by decide +kernel
  let r := g.rules.get ⟨0, by decide +kernel⟩
  let mark := r.code.get ⟨0, by decide +kernel⟩
  let ch := r.code.get ⟨1, by decide +kernel⟩
  have split : CodePart.ofCode r.code = [] ++ .character mark ch :: [] := by decide +kernel
  have text := (kept _ g read r (List.get_mem _ _) .empty [] mark ch [] split).text
  exact absurd text (by decide +kernel)

end Rule

end YeccDefr
