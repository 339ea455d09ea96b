import Mathlib.Data.String.Basic
import YeccDefr.Proofs.Lexing.Language
import YeccDefr.Token.Scan

/-!
# The table of lexing rules

The classes of tokens come from a table of regular expressions (`LexingRule.table`). A rule takes what its
expression prefers, and among the rules the one that takes most bytes wins, the last one of equals
(`LexingRule.bestMatch?`). The rules overlap: a float rule takes integers, a dash starts an arrow, a quote
is punctuation and opens an atom or a string.

The best match is the lexeme that the first character opens (`LexingRule.bestMatch?_cons`), so a scan
follows the table (`LexingRule.cut_eq`), and it is maximal munch over disjoint languages
(`Scan.maximal_munch`).
-/

namespace YeccDefr

open FirstChar

/-- The regular expressions of the rules. -/
inductive Pattern where
  /-- One character that satisfies a test. -/
  | one (test : Char → Bool)
  /-- A pattern and another one after it. -/
  | seq (p q : Pattern)
  /-- A pattern or nothing, the pattern preferred. -/
  | optional (p : Pattern)
  /-- Characters that satisfy a test, many preferred. -/
  | many (test : Char → Bool)
  /-- Characters that satisfy a test, few preferred. -/
  | few (test : Char → Bool)

namespace Pattern

/-- The ways to take characters that satisfy a test from a text, the longest first. -/
def longestFirst (test : Char → Bool) : List Char → List (List Char × List Char)
  | [] => [([], [])]
  | c :: cs =>
    if test c then ((longestFirst test cs).map fun way => (c :: way.1, way.2)) ++ [([], c :: cs)]
    else [([], c :: cs)]

/-- The ways to take characters that satisfy a test from a text, the shortest first. -/
def shortestFirst (test : Char → Bool) : List Char → List (List Char × List Char)
  | [] => [([], [])]
  | c :: cs =>
    ([], c :: cs) ::
      if test c then (shortestFirst test cs).map fun way => (c :: way.1, way.2) else []

/-- The ways a pattern matches at the start of a text, what it takes and what it leaves, the preferred
ones first. -/
def ways : Pattern → List Char → List (List Char × List Char)
  | one test, c :: cs => if test c then [([c], cs)] else []
  | one _, [] => []
  | seq p q, cs =>
    (p.ways cs).flatMap fun way => (q.ways way.2).map fun next => (way.1 ++ next.1, next.2)
  | optional p, cs => p.ways cs ++ [([], cs)]
  | many test, cs => longestFirst test cs
  | few test, cs => shortestFirst test cs

/-- What a pattern matches at the start of a text. -/
def find? (p : Pattern) (cs : List Char) : Option (List Char) := (p.ways cs).head?.map Prod.fst

/-- One character that passes a test, and all that do behind it if possible. -/
def oneOrMore (test : Char → Bool) : Pattern := seq (one test) (many test)

/-- A quote, and the shortest way to the next one on the same line. -/
def quoted (q : Char) : Pattern := seq (one (· = q)) (seq (few (· ≠ '\n')) (one (· = q)))

/-- Digits, and a dot and digits after them if there are. -/
def number : Pattern :=
  seq (oneOrMore Text.isDecimalDigit) (optional (seq (one (· = '.')) (oneOrMore Text.isDecimalDigit)))

end Pattern

open Pattern

/-- A pattern and the class of the tokens it stands for. -/
structure LexingRule where
  pattern : Pattern
  kind : Token.Kind

namespace LexingRule

/-- The lexing rules. -/
def table : List LexingRule :=
  [⟨oneOrMore Text.isWhiteSpace, .whiteSpace⟩,
    ⟨seq (one (· = '%')) (many (· ≠ '\n')), .comment⟩,
    ⟨one (· ∈ reservedChars), .reservedSymbol⟩,
    ⟨number, .float⟩,
    ⟨oneOrMore Text.isDecimalDigit, .integer⟩,
    ⟨one (· = '.'), .dot⟩,
    ⟨seq (one (· = '-')) (one (· = '>')), .arrow⟩,
    ⟨one (· = ':'), .colon⟩,
    ⟨seq (one Char.isUpper) (many isWordChar), .var⟩,
    ⟨seq (one Char.isLower) (many isWordChar), .atom⟩,
    ⟨quoted '\'', .atom⟩,
    ⟨quoted '"', .stringLiteral⟩]

/-- What a rule takes from the start of a text. -/
def take? (cs : List Char) (r : LexingRule) : Option Lexeme := (r.pattern.find? cs).map (Lexeme.mk r.kind)

/-- The lexeme with more bytes, the later one of equals. -/
def longer (best? : Option Lexeme) (l : Lexeme) : Option Lexeme :=
  match best? with
  | none => some l
  | some best => if l.text.utf8ByteSize < best.text.utf8ByteSize then some best else some l

/-- What the best rule takes from the start of a text. -/
def bestMatch? (cs : List Char) : Option Lexeme :=
  ((table.filterMap (take? cs)).filter (·.chars ≠ [])).foldl longer none

end LexingRule

namespace Pattern

/-! ## What the patterns prefer -/

/-- The preferred way to match many is to take all that pass. -/
lemma longestFirst_head (test : Char → Bool) (cs : List Char) :
    ((many test).ways cs).head? = some (cs.takeWhile test, cs.dropWhile test) := by
  rw [ways]
  induction cs with
  | nil => rfl
  | cons c cs ih =>
    rw [longestFirst]
    split
    · rename_i h
      simp [ih, h]
    · rename_i h
      simp [h]

/-- Many are matched as all that pass. -/
lemma find?_many {test : Char → Bool} {cs} : (many test).find? cs = some (cs.takeWhile test) := by
  rw [find?, longestFirst_head]
  rfl

/-- One is matched if it passes. -/
lemma find?_one {test : Char → Bool} {c cs} :
    (one test).find? (c :: cs) = if test c then some [c] else none := by
  rw [find?, ways]
  split <;> rfl

/-- A pattern behind one character is matched behind it. -/
lemma find?_seq_one {test : Char → Bool} {p c cs} :
    (seq (one test) p).find? (c :: cs) = if test c then (p.find? cs).map (c :: ·) else none := by
  rw [find?, ways, ways]
  split
  · simp [find?, Option.map_map, Function.comp_def]
  · rfl

/-- An option is taken where it can be. -/
lemma find?_optional {p cs} : (optional p).find? cs = some ((p.find? cs).getD []) := by
  rw [find?, find?, ways]
  cases p.ways cs with
  | nil => rfl
  | cons way later => rfl

/-- Two patterns are matched one behind the other where the second one goes on with the first choice. -/
lemma find?_seq_of_find? {p q cs u v w} (first : (p.ways cs).head? = some (u, v))
    (next : q.find? v = some w) : (seq p q).find? cs = some (u ++ w) := by
  rw [find?] at next ⊢
  rw [ways]
  obtain ⟨later, e⟩ := List.head?_eq_some_iff.1 first
  obtain ⟨way, found, rfl⟩ := Option.map_eq_some_iff.1 next
  obtain ⟨others, e'⟩ := List.head?_eq_some_iff.1 found
  simp [e, e']

/-- The preferred way to match one or more is to take all that pass. -/
lemma oneOrMore_head {test : Char → Bool} {c cs} (h : test c) :
    ((oneOrMore test).ways (c :: cs)).head? = some (c :: cs.takeWhile test, cs.dropWhile test) := by
  obtain ⟨later, e⟩ := List.head?_eq_some_iff.1 (longestFirst_head test cs)
  rw [oneOrMore, ways, ways, if_pos h]
  simp [e]

/-- There is no fraction where no digit follows a dot. -/
lemma find?_fraction_of_not {cs} (h : ∀ d rest, cs = '.' :: d :: rest → ¬ Text.isDecimalDigit d) :
    (seq (one (· = '.')) (oneOrMore Text.isDecimalDigit)).find? cs = none := by
  cases cs with
  | nil => rfl
  | cons c cs =>
    rw [find?_seq_one]
    split
    · rename_i dot
      cases cs with
      | nil => rfl
      | cons d rest =>
        have digit := h d rest (by rw [of_decide_eq_true dot])
        rw [oneOrMore, find?_seq_one, if_neg digit]
        rfl
    · rfl

/-- The pattern of numbers takes what the scanner finishes as a number. -/
lemma find?_number {c cs} (h : Text.isDecimalDigit c) :
    number.find? (c :: cs) = some (Opening.finishNumber c cs).1.chars := by
  rw [number, find?_seq_of_find? (oneOrMore_head h) find?_optional, Opening.finishNumber]
  split
  · rename_i d rest e
    rw [e]
    split
    · rename_i digit
      rw [find?_seq_one, oneOrMore, find?_seq_one, find?_many, if_pos digit]
      rfl
    · rename_i digit
      rw [find?_fraction_of_not]
      · simp
      · rintro _ _ ⟨⟩
        exact digit
  · rename_i other
    rw [find?_fraction_of_not]
    · simp
    · exact fun d rest e => absurd e (other d rest)

/-- Few characters are taken before a pattern as long as the pattern does not match. -/
lemma find?_few {test : Char → Bool} {p c cs} :
    (seq (few test) p).find? (c :: cs) =
      (p.find? (c :: cs)).or
        (if test c then ((seq (few test) p).find? cs).map (c :: ·) else none) := by
  simp only [find?, ways, shortestFirst, List.flatMap_cons, List.head?_append, Option.map_or]
  congr 1
  · simp
  · split
    · rw [← List.head?_map, ← List.head?_map, ← List.head?_map]
      simp [List.flatMap_map, List.map_flatMap, Function.comp_def]
    · rfl

/-- The shortest way to the next quote is the only one on its line without a quote inside. -/
lemma find?_quoted {q : Char} {cs} :
    (seq (few (· ≠ '\n')) (one (· = q))).find? cs =
      match cs.dropWhile fun c => c ≠ q && c ≠ '\n' with
      | c :: _ => if c = q then some ((cs.takeWhile fun c => c ≠ q && c ≠ '\n') ++ [q]) else none
      | [] => none := by
  induction cs with
  | nil => rfl
  | cons c cs ih =>
    rw [find?_few, find?_one, ih]
    -- the pattern behind the few characters fails as long as the quote does not come
    by_cases closes : c = q
    · simp [closes]
    by_cases ends : c = '\n'
    · have apart : '\n' ≠ q := fun e => closes (ends.trans e)
      simp [ends, apart]
    · simp only [closes, ends, decide_false, decide_true, Bool.false_eq_true, if_false, if_true,
        Option.none_or, ne_eq, not_false_eq_true, Bool.and_self, List.dropWhile_cons_of_pos,
        List.takeWhile_cons_of_pos]
      split
      · split <;> rfl
      · rfl

end Pattern

/-- Whether a pattern can start with a character. -/
def Pattern.starts : Pattern → Char → Bool
  | one test, c => test c
  | seq p _, c => p.starts c
  | optional _, _ | many _, _ | few _, _ => true

/-- A pattern has no way to match a text that it cannot start. -/
lemma Pattern.ways_of_not_starts {p : Pattern} {c cs} (h : ¬ p.starts c) : p.ways (c :: cs) = [] := by
  induction p with
  | one test => exact if_neg h
  | seq p q ihp _ =>
    rw [ways, ihp h]
    rfl
  | optional | many | few => exact absurd rfl h

namespace LexingRule

/-! ## The best match -/

/-- The rules for the lexemes that start with a character of a class. -/
def startingWith : FirstChar → List LexingRule
  | whiteSpace => [⟨oneOrMore Text.isWhiteSpace, .whiteSpace⟩]
  | percent => [⟨seq (one (· = '%')) (many (· ≠ '\n')), .comment⟩]
  | digit => [⟨number, .float⟩, ⟨oneOrMore Text.isDecimalDigit, .integer⟩]
  | dot => [⟨one (· = '.'), .dot⟩]
  | dash => [⟨one (· ∈ reservedChars), .reservedSymbol⟩,
      ⟨seq (one (· = '-')) (one (· = '>')), .arrow⟩]
  | colon => [⟨one (· = ':'), .colon⟩]
  | upper => [⟨seq (one Char.isUpper) (many isWordChar), .var⟩]
  | lower => [⟨seq (one Char.isLower) (many isWordChar), .atom⟩]
  | apostrophe => [⟨one (· ∈ reservedChars), .reservedSymbol⟩, ⟨quoted '\'', .atom⟩]
  | quotationMark => [⟨one (· ∈ reservedChars), .reservedSymbol⟩, ⟨quoted '"', .stringLiteral⟩]
  | reserved => [⟨one (· ∈ reservedChars), .reservedSymbol⟩]
  | other => []

section
variable {c : Char} {cs : List Char}

/-- The rules that a character starts are those for its class. -/
lemma filter_table : table.filter (fun r => r.pattern.starts c) = startingWith (of c) := by
  have space : Text.isWhiteSpace c = decide (of c = .whiteSpace) := by simp [of_eq_whiteSpace]
  have percent : decide (c = '%') = decide (of c = .percent) := by simp [of_eq_percent]
  have mark : decide (c ∈ reservedChars) =
      decide (of c ∈ [.apostrophe, .quotationMark, .dash, .reserved]) := by
    simp [mem_reservedChars]
  have digit : Text.isDecimalDigit c = decide (of c = .digit) := by simp [of_eq_digit]
  have dot : decide (c = '.') = decide (of c = .dot) := by simp [of_eq_dot]
  have dash : decide (c = '-') = decide (of c = .dash) := by simp [of_eq_dash]
  have colon : decide (c = ':') = decide (of c = .colon) := by simp [of_eq_colon]
  have upper : c.isUpper = decide (of c = .upper) := by simp [of_eq_upper]
  have lower : c.isLower = decide (of c = .lower) := by simp [of_eq_lower]
  have apostrophe : decide (c = '\'') = decide (of c = .apostrophe) := by simp [of_eq_apostrophe]
  have quotation : decide (c = '"') = decide (of c = .quotationMark) := by
    simp [of_eq_quotationMark]
  simp only [table, List.filter_cons, List.filter_nil, starts, oneOrMore, quoted, number, space, percent,
    mark, digit, dot, dash, colon, upper, lower, apostrophe, quotation]
  cases of c <;> rfl

/-- Only the rules that the class of the first character can start matter. -/
lemma bestMatch?_cons_eq : bestMatch? (c :: cs) =
    (((startingWith (of c)).filterMap (take? (c :: cs))).filter (·.chars ≠ [])).foldl longer none := by
  -- a rule that cannot start with the character takes nothing
  have skipped : table.filterMap (take? (c :: cs)) =
      (table.filter fun r => r.pattern.starts c).filterMap (take? (c :: cs)) := by
    rw [List.filterMap_filter]
    refine List.filterMap_congr fun r _ => ?_
    split
    · rfl
    · rename_i h
      rw [take?, find?, ways_of_not_starts h]
      rfl
  rw [bestMatch?, skipped, filter_table]

/-- A run of characters is taken as long as it goes on. -/
lemma take?_run {test goesOn : Char → Bool} {kind} (h : test c) :
    take? (c :: cs) ⟨seq (one test) (many goesOn), kind⟩ = some ⟨kind, c :: cs.takeWhile goesOn⟩ := by
  simp [take?, find?_seq_one, find?_many, h]

/-- A single character is taken. -/
lemma take?_one {test : Char → Bool} {kind} (h : test c) :
    take? (c :: cs) ⟨one test, kind⟩ = some ⟨kind, [c]⟩ := by
  simp [take?, find?_one, h]

/-- The rule of floats takes what the scanner finishes as a number. -/
lemma take?_number (h : Text.isDecimalDigit c) :
    take? (c :: cs) ⟨number, .float⟩ = some ⟨.float, (Opening.finishNumber c cs).1.chars⟩ := by
  simp [take?, find?_number h]

end

/-- A rule that takes as much as an earlier one, or more, is preferred. -/
lemma longer_append (k k' : Token.Kind) (u v : List Char) :
    longer (some ⟨k, u⟩) ⟨k', u ++ v⟩ = some ⟨k', u ++ v⟩ := by
  simp only [longer, Lexeme.text, String.ofList_append, String.utf8ByteSize_append]
  rw [if_neg (by omega)]

/-- The longer one of two lexemes is kept. -/
lemma longer_of_append {k k' : Token.Kind} {u v} (h : v ≠ []) :
    longer (some ⟨k, u ++ v⟩) ⟨k', u⟩ = some ⟨k, u ++ v⟩ := by
  have bytes : (String.ofList v).utf8ByteSize ≠ 0 := by
    rw [ne_eq, String.utf8ByteSize_eq_zero_iff]
    intro e
    exact h (String.ofList_eq_empty_iff.1 e)
  simp only [longer, Lexeme.text, String.ofList_append, String.utf8ByteSize_append]
  rw [if_pos (by omega)]

section
variable {c : Char} {cs : List Char}

/-- The float rule takes as much as the integer rule, or more where the number is a float. -/
lemma longer_number :
    longer (some ⟨.float, (Opening.finishNumber c cs).1.chars⟩)
      ⟨.integer, c :: cs.takeWhile Text.isDecimalDigit⟩ =
      some (Opening.finishNumber c cs).1 := by
  -- without a fraction both rules take the same digits, and the later one wins
  have tie {u} : longer (some ⟨.float, u⟩) ⟨.integer, u⟩ = some ⟨.integer, u⟩ := by
    have := longer_append .float .integer u []
    rwa [List.append_nil] at this
  rw [Opening.finishNumber]
  split
  · split
    · apply longer_of_append
      intro e
      cases e
    · exact tie
  · exact tie

/-- A quote is taken with what it encloses, or not at all where it is not closed on its line. -/
lemma take?_quoted (q : Char) (kind : Token.Kind) (cs : List Char) :
    (take? (q :: cs) ⟨quoted q, kind⟩ = none ∧
      Opening.finishQuote kind q cs = (⟨.reservedSymbol, [q]⟩, cs)) ∨
    ∃ u rest, take? (q :: cs) ⟨quoted q, kind⟩ = some ⟨kind, [q] ++ u⟩ ∧
      Opening.finishQuote kind q cs = (⟨kind, [q] ++ u⟩, rest) := by
  rw [take?, quoted, find?_seq_one, if_pos (decide_eq_true rfl), find?_quoted, Opening.finishQuote]
  cases cs.dropWhile fun c => c ≠ q && c ≠ '\n' with
  | nil => exact .inl ⟨rfl, rfl⟩
  | cons c rest =>
    by_cases closes : c = q
    · simp only [if_pos closes]
      exact .inr ⟨_, _, rfl, rfl⟩
    · exact .inl ⟨by simp [closes], by simp [closes]⟩

/-- At a quote the best match is what the scanner finishes there. -/
lemma bestMatch?_quote {q : Char} {kind} (reserved : q ∈ reservedChars)
    (rules : startingWith (of q) = [⟨one (· ∈ reservedChars), .reservedSymbol⟩, ⟨quoted q, kind⟩]) :
    bestMatch? (q :: cs) = some (Opening.finishQuote kind q cs).1 := by
  rw [bestMatch?_cons_eq, rules, List.filterMap_cons, take?_one (by simpa using reserved)]
  rcases take?_quoted q kind cs with ⟨unclosed, lone⟩ | ⟨u, rest, closed, e⟩
  · simp [unclosed, lone, longer]
  · simp only [List.filterMap_cons, closed, e]
    exact longer_append _ _ _ _

/-- The best match is the lexeme that the first character opens. -/
theorem bestMatch?_cons :
    bestMatch? (c :: cs) = (Opening.of? c).map fun o => (o.finish c cs).1 := by
  rw [opening?_of]
  cases h : of c with
  | whiteSpace =>
    rw [bestMatch?_cons_eq, h, startingWith, oneOrMore, List.filterMap_cons,
      take?_run (of_eq_whiteSpace.1 h)]
    rfl
  | percent =>
    rw [bestMatch?_cons_eq, h, startingWith, List.filterMap_cons,
      take?_run (by simp [of_eq_percent.1 h])]
    rfl
  | digit =>
    have first := of_eq_digit.1 h
    rw [bestMatch?_cons_eq, h, startingWith, List.filterMap_cons, take?_number first, oneOrMore,
      List.filterMap_cons, take?_run first]
    have taken : (Opening.finishNumber c cs).1.chars ≠ [] := Opening.finish_ne_nil c cs .number
    rw [List.filterMap_nil, List.filter_cons_of_pos (by simpa using taken)]
    exact longer_number
  | dot =>
    rw [bestMatch?_cons_eq, h, startingWith, List.filterMap_cons,
      take?_one (by simp [of_eq_dot.1 h])]
    rfl
  | colon =>
    rw [bestMatch?_cons_eq, h, startingWith, List.filterMap_cons,
      take?_one (by simp [of_eq_colon.1 h])]
    rfl
  | dash =>
    cases of_eq_dash.1 h
    rw [bestMatch?_cons_eq, h, startingWith, List.filterMap_cons, take?_one (by decide)]
    cases cs with
    | nil => rfl
    | cons d cs =>
      by_cases next : d = '>'
      · rw [next]
        exact longer_append .reservedSymbol .arrow ['-'] ['>']
      · simp [take?, find?_seq_one, find?_one, opening?, Opening.finish, longer, next]
  | upper =>
    rw [bestMatch?_cons_eq, h, startingWith, List.filterMap_cons, take?_run (of_eq_upper.1 h)]
    rfl
  | lower =>
    rw [bestMatch?_cons_eq, h, startingWith, List.filterMap_cons, take?_run (of_eq_lower.1 h)]
    rfl
  | apostrophe =>
    cases of_eq_apostrophe.1 h
    exact bestMatch?_quote (by decide) (by rw [h, startingWith])
  | quotationMark =>
    cases of_eq_quotationMark.1 h
    exact bestMatch?_quote (by decide) (by rw [h, startingWith])
  | reserved =>
    have mark : c ∈ reservedChars := holds_of h
    rw [bestMatch?_cons_eq, h, startingWith, List.filterMap_cons, take?_one (by simpa using mark)]
    rfl
  | other =>
    rw [bestMatch?_cons_eq, h]
    rfl

end

/-- The best match is the longest word at the start of the text. -/
theorem bestMatch?_eq_some_iff {cs l} : bestMatch? cs = some l ↔ l.Longest cs := by
  cases cs with
  | nil =>
    refine ⟨nofun, fun h => ?_⟩
    exact absurd h.starts (Lexeme.noWord_nil h.word)
  | cons c cs =>
    rw [bestMatch?_cons]
    constructor
    · intro e
      obtain ⟨o, opens, rfl⟩ := Option.map_eq_some_iff.1 e
      exact Lexeme.longest_finish opens cs
    · intro longest
      cases opens : Opening.of? c with
      | none => exact absurd longest.starts (Lexeme.noWord_of_none opens cs longest.word)
      | some o => exact congrArg some ((Lexeme.longest_finish opens cs).unique longest)

/-- No rule matches where no word starts the text. -/
theorem bestMatch?_eq_none_iff {cs} : bestMatch? cs = none ↔ NoWord cs := by
  cases cs with
  | nil => exact ⟨fun _ => Lexeme.noWord_nil, fun _ => rfl⟩
  | cons c cs =>
    rw [bestMatch?_cons, Option.map_eq_none_iff]
    constructor
    · exact fun e => Lexeme.noWord_of_none e cs
    · intro none
      cases opens : Opening.of? c with
      | none => rfl
      | some o =>
        have longest := Lexeme.longest_finish opens cs
        exact absurd longest.starts (none longest.word)

/-- Cutting takes the best match away again and again. -/
theorem cut_eq (cs : List Char) :
    Lexeme.cut cs =
      match bestMatch? cs with
      | none => ([], cs)
      | some l =>
        let later := Lexeme.cut (cs.drop l.chars.length)
        (l :: later.1, later.2) := by
  cases cs with
  | nil =>
    rw [Lexeme.cut]
    rfl
  | cons c cs =>
    rw [Lexeme.cut, bestMatch?_cons]
    cases Opening.of? c with
    | none => rfl
    | some o =>
      have left : (c :: cs).drop (o.finish c cs).1.chars.length = (o.finish c cs).2 := by
        conv_lhs => rw [← o.finish_append c cs]
        exact List.drop_left
      simp only [Option.map_some, left]

end LexingRule

/-- Lexemes that are taken are words of their classes. -/
lemma MaximalMunch.word {cs ls rest} (h : MaximalMunch cs ls rest) :
    ∀ l ∈ ls, l.chars ∈ l.kind.words := by
  induction h with
  | stop => nofun
  | next longest _ ih => exact List.forall_mem_cons.2 ⟨longest.word, ih⟩

namespace Scan

/-- A token with its place is one of the lexemes. -/
lemma mem_placed {p ls} {t : Token} (h : t ∈ placed p ls) :
    ∃ l ∈ ls, t.kind = l.kind ∧ t.text = l.text := by
  induction ls generalizing p with
  | nil => cases h
  | cons l ls ih =>
    cases h with
    | head => exact ⟨l, List.mem_cons_self, rfl, rfl⟩
    | tail _ h =>
      obtain ⟨l', mem, same⟩ := ih h
      exact ⟨l', List.mem_cons_of_mem l mem, same⟩

/-- A word is cut as one lexeme. -/
lemma cut_word {k : Token.Kind} {w} (h : w ∈ k.words) : Lexeme.cut w = ([⟨k, w⟩], []) := by
  have longest : Lexeme.Longest w ⟨k, w⟩ := ⟨h, List.prefix_rfl, fun _ => List.IsPrefix.length_le⟩
  have munch : MaximalMunch (w ++ []) [⟨k, w⟩] [] :=
    .next (l := ⟨k, w⟩) (by rwa [List.append_nil]) (.stop Lexeme.noWord_nil)
  rw [List.append_nil] at munch
  exact Lexeme.cut_eq_iff.2 munch

/-- A text is one token exactly when it is a word of that class. -/
theorem ofText_eq_single_iff {text : String} {k : Token.Kind} :
    ofText text = ⟨[⟨k, text, Region.ofText Point.origin text⟩], none⟩ ↔
      ¬ k.isIgnored ∧ text.toList ∈ k.words := by
  constructor
  · intro e
    have single := congrArg Scan.tokens e
    have mem : ⟨k, text, Region.ofText Point.origin text⟩ ∈ (ofText text).tokens := by
      rw [single]
      exact List.mem_singleton_self _
    obtain ⟨placed, kept⟩ := List.mem_filter.1 mem
    obtain ⟨l, cut, rfl, same⟩ := mem_placed placed
    refine ⟨by simpa [Token.isIgnored] using kept, ?_⟩
    have word := (Lexeme.cut_munches text.toList).word l cut
    have chars : text.toList = l.chars := by rw [show text = l.text from same, Lexeme.text,
      String.toList_ofList]
    rwa [chars]
  · rintro ⟨kept, word⟩
    simp [ofText, cut_word word, placed, Lexeme.text, Token.isIgnored, kept]

/-- Scanning by the table of rules is maximal munch. The languages of words are disjoint, the best match
is the longest word at the start of a text and is missing only where no word starts it, and a scan
has the tokens of the longest words taken one after the other, and an error where a text is left. A
text is one single token exactly when it is a word of a class that is not ignored. -/
theorem maximal_munch :
    (∀ (w : List Char) (k k' : Token.Kind), w ∈ k.words → w ∈ k'.words → k = k') ∧
    (∀ cs l, LexingRule.bestMatch? cs = some l ↔ l.Longest cs) ∧
    (∀ cs, LexingRule.bestMatch? cs = none ↔ NoWord cs) ∧
    (∀ text : String, ∃ ls rest, MaximalMunch text.toList ls rest ∧
      ofText text =
        { tokens := (placed Point.origin ls).filter fun token => token.kind ∉ [.comment, .whiteSpace]
          error? :=
            if rest = [] then none else some (.ofRest (placeAfter Point.origin ls) rest) }) ∧
    (∀ (text : String) (k : Token.Kind),
      ofText text = ⟨[⟨k, text, Region.ofText Point.origin text⟩], none⟩ ↔
        k ∉ [.comment, .whiteSpace] ∧ text.toList ∈ k.words) := by
  refine ⟨fun w k k' => Token.Kind.words_disjoint, fun cs l => LexingRule.bestMatch?_eq_some_iff,
    fun cs => LexingRule.bestMatch?_eq_none_iff, fun text => ?_,
    fun text k => ?_⟩
  · refine ⟨_, _, Lexeme.cut_munches text.toList, ?_⟩
    simp [ofText, Token.not_isIgnored]
  · rw [ofText_eq_single_iff, Token.Kind.isIgnored_iff]

end Scan

end YeccDefr
