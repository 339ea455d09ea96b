import YeccDefr.Proofs.Lexing.Placement
import YeccDefr.Translation

/-!
# Unrecognized text

A scanner hands out the tokens of a text one by one (`Scanner.next`). Its answers are the tokens of the
scan, then the error if there is one, then nothing (`Scanner.answer_start`).

An error is found where no word starts, that is at a character of no class of its own (`noWord_cons_iff`).
The lexemes in front of it were cut off before the error was seen, some of them with a look at the text
behind it, and yet they are the lexemes of the text in front of it (`Scan.ofText_front`). What the error
shows is as much of the first line as it may show (`ScanError.greatest_ofRest`).
-/

namespace YeccDefr

/-! ## One token at a time -/

/-- A scan under way: the place it has come to, the text from there on, and whether it has found an error.
-/
structure Scanner where
  place : Point
  rest : List Char
  failed : Bool

namespace Scanner

/-- The scanner at the start of a text. -/
def start (text : String) : Scanner := ⟨.origin, text.toList, false⟩

/-- The scanner behind a lexeme. -/
def past (s : Scanner) (l : Lexeme) : Scanner :=
  ⟨s.place.advance l.text, s.rest.drop l.chars.length, s.failed⟩

/-- The next token that is not ignored, or the error where no rule matches, and the scanner after it.
There is nothing at the end of the text and after an error. -/
def next (s : Scanner) : Option (Except ScanError Token) × Scanner :=
  if s.failed ∨ s.rest = [] then (none, s)
  else
    match _ : LexingRule.bestMatch? s.rest with
    | none => (some (.error (.ofRest s.place s.rest)), { s with failed := true })
    | some l =>
      let token : Token := ⟨l.kind, l.text, .ofText s.place l.text⟩
      if token.isIgnored then (s.past l).next else (some (.ok token), s.past l)
  termination_by s.rest.length
  decreasing_by
    have longest := LexingRule.bestMatch?_eq_some_iff.1 ‹LexingRule.bestMatch? s.rest = some l›
    have taken := List.length_pos_iff.2 longest.ne_nil
    have fits := longest.starts.length_le
    simp only [past, List.length_drop]
    omega

/-- What the calls of `next` answer, by their number from 0 on. -/
def answer (s : Scanner) : Nat → Option (Except ScanError Token)
  | 0 => s.next.1
  | n + 1 => s.next.2.answer n

end Scanner

/-- The tokens of a scan and then its error. -/
def Scan.answers (s : Scan) : List (Except ScanError Token) :=
  s.tokens.map .ok ++ s.error?.toList.map .error

namespace Scanner

/-- A scanner that is done has no more answers. -/
lemma answer_of_done {s : Scanner} (done : s.next = (none, s)) (n : Nat) : s.answer n = none := by
  induction n with
  | zero => rw [answer, done]
  | succ n ih => rw [answer, done, ih]

/-- A scanner that has failed answers nothing. -/
lemma next_of_failed (p : Point) (cs : List Char) :
    (Scanner.mk p cs true).next = (none, ⟨p, cs, true⟩) := by
  rw [next, if_pos (.inl rfl)]

/-- A scanner at the end of its text answers nothing. -/
lemma next_nil (p : Point) : (Scanner.mk p [] false).next = (none, ⟨p, [], false⟩) := by
  rw [next, if_pos (.inr rfl)]

/-- A scanner answers with the error where no word starts, and has failed then. -/
lemma next_of_noWord {cs : List Char} (none : NoWord cs) (left : cs ≠ []) (p : Point) :
    (Scanner.mk p cs false).next = (some (.error (.ofRest p cs)), ⟨p, cs, true⟩) := by
  have unmatched := LexingRule.bestMatch?_eq_none_iff.2 none
  rw [next, if_neg (by simp [left])]
  split
  · rfl
  · rename_i found
    rw [unmatched] at found
    cases found

/-- A scanner answers with the longest lexeme, and passes those that are ignored. -/
lemma next_of_longest {l : Lexeme} {cs : List Char} (longest : l.Longest (l.chars ++ cs)) (p : Point) :
    (Scanner.mk p (l.chars ++ cs) false).next =
      if l.kind.isIgnored then (Scanner.mk (p.advance l.text) cs false).next
      else (some (.ok ⟨l.kind, l.text, .ofText p l.text⟩), ⟨p.advance l.text, cs, false⟩) := by
  have matched := LexingRule.bestMatch?_eq_some_iff.2 longest
  have behind : (Scanner.mk p (l.chars ++ cs) false).past l = ⟨p.advance l.text, cs, false⟩ := by
    rw [past, List.drop_left]
  conv_lhs => rw [next, if_neg (by simp [longest.ne_nil])]
  split
  · rename_i found
    rw [matched] at found
    cases found
  · rename_i l' found
    rw [matched] at found
    cases found
    rw [behind]
    rfl

/-- From any point on, a scanner hands out what the scan from there on consists of. -/
lemma answer_of_munch {cs rest : List Char} {ls : List Lexeme} (munch : MaximalMunch cs ls rest)
    (p : Point) (n : Nat) : (Scanner.mk p cs false).answer n = (Scan.ofChars p cs).answers[n]? := by
  induction munch generalizing p n with
  | @stop cs none =>
    have cut : Lexeme.cut cs = ([], cs) := Lexeme.cut_eq_iff.2 (.stop none)
    cases cs with
    | nil =>
      rw [answer_of_done (next_nil p), Scan.ofChars, cut]
      rfl
    | cons c cs =>
      have stops := next_of_noWord none (List.cons_ne_nil c cs) p
      rw [Scan.ofChars, cut]
      cases n with
      | zero =>
        rw [answer, stops]
        rfl
      | succ n =>
        rw [answer, stops, answer_of_done (next_of_failed p _)]
        rfl
  | @next l ls cs rest longest _ ih =>
    have step := next_of_longest longest p
    rw [Scan.ofChars_longest longest]
    by_cases ignored : l.kind.isIgnored
    · -- the scanner goes on to the next lexeme within one call
      have skipped : Scan.shown p l = [] := List.filter_eq_nil_iff.2 (by simp [Token.isIgnored, ignored])
      rw [if_pos ignored] at step
      rw [skipped, Scan.after_nil, ← ih]
      cases n with
      | zero => rw [answer, answer, step]
      | succ n => rw [answer, answer, step]
    · have kept : Scan.shown p l = [⟨l.kind, l.text, .ofText p l.text⟩] :=
        List.filter_eq_self.2 (by simp [Token.isIgnored, ignored])
      rw [if_neg ignored] at step
      rw [kept]
      cases n with
      | zero =>
        rw [answer, step]
        rfl
      | succ n =>
        rw [answer, step, ih]
        rfl

/-- A scanner hands out the tokens of a text, then the error of its scan if there is one, then nothing. -/
theorem answer_start (text : String) (n : Nat) :
    (start text).answer n = (Scan.ofText text).answers[n]? :=
  answer_of_munch (Lexeme.cut_munches text.toList) .origin n

end Scanner

/-! ## Characters that no token starts with -/

/-- A character that is no white space, digit, letter or punctuation. -/
structure Unrecognized (c : Char) : Prop where
  noSpace : ¬ Text.isWhiteSpace c
  noDigit : ¬ Text.isDecimalDigit c
  noLetter : ¬ c.isAlpha
  noPunctuation : c ∉ ['%', '.', ':'] ++ reservedChars

/-- The characters of no other class are those that are not recognized. -/
lemma FirstChar.of_eq_other {c : Char} : of c = other ↔ Unrecognized c := by
  have alpha : c.isAlpha = (c.isUpper || c.isLower) := rfl
  have letter : c.isAlpha ↔ of c = upper ∨ of c = lower := by
    rw [of_eq_upper, of_eq_lower, alpha, Bool.or_eq_true]
  have punctuation : c ∈ ['%', '.', ':'] ++ reservedChars ↔
      of c = percent ∨ of c = dot ∨ of c = colon ∨
        of c ∈ [apostrophe, quotationMark, dash, reserved] := by
    rw [List.mem_append, mem_reservedChars, of_eq_percent, of_eq_dot, of_eq_colon]
    simp [or_assoc]
  constructor
  · intro e
    have differs {k} (h : of c = k) (apart : k ≠ other) : False := apart (h.symm.trans e)
    refine ⟨fun space => ?_, fun isDigit => ?_, fun isLetter => ?_, fun mem => ?_⟩
    · exact differs (of_eq_whiteSpace.2 space) (by decide)
    · exact differs (of_eq_digit.2 isDigit) (by decide)
    · rcases letter.1 isLetter with h | h
      · exact differs h (by decide)
      · exact differs h (by decide)
    · rw [punctuation, e] at mem
      simp at mem
  · rintro ⟨noSpace, noDigit, noLetter, noPunctuation⟩
    rw [← of_eq_whiteSpace] at noSpace
    rw [← of_eq_digit] at noDigit
    rw [letter] at noLetter
    rw [punctuation] at noPunctuation
    cases e : of c <;> simp_all

/-- Where a munch ends no word starts. -/
lemma MaximalMunch.noWord {cs rest : List Char} {ls : List Lexeme} (h : MaximalMunch cs ls rest) :
    NoWord rest := by
  induction h with
  | stop none => exact none
  | next _ _ ih => exact ih

/-- No word starts a text just if none starts with its first character. -/
theorem noWord_cons_iff {c : Char} {cs : List Char} : NoWord (c :: cs) ↔ Unrecognized c := by
  rw [← FirstChar.of_eq_other, ← LexingRule.bestMatch?_eq_none_iff, LexingRule.bestMatch?_cons,
    Option.map_eq_none_iff, FirstChar.opening?_of]
  cases FirstChar.of c <;> simp [FirstChar.opening?]

/-! ## What an error shows -/

namespace ScanError

/-- A line of a text ends behind the given part of it, in a line feed or in a carriage return and a line
feed. -/
def EndsLine (cs line : List Char) : Prop :=
  ∃ later, cs = line ++ '\n' :: later ∨ cs = line ++ '\r' :: '\n' :: later

/-- A line that ends does so with a character more in front. -/
lemma EndsLine.cons {cs line : List Char} (h : EndsLine cs line) (c : Char) :
    EndsLine (c :: cs) (c :: line) := by
  obtain ⟨later, rfl | rfl⟩ := h
  · exact ⟨later, .inl rfl⟩
  · exact ⟨later, .inr rfl⟩

/-- A part that an error may show of the text it was found in: the start of its first line, and not too
long. -/
structure Excerpt (cs shown : List Char) : Prop where
  starts : shown <+: cs
  short : shown.length ≤ 16
  oneLine : ∀ line, EndsLine cs line → shown.length ≤ line.length

/-- The first line starts the text. -/
lemma firstLine_starts (cs : List Char) : firstLine cs <+: cs := by
  induction cs using firstLine.induct with
  | case1 => exact List.prefix_rfl
  | case2 => exact List.nil_prefix
  | case3 => exact List.nil_prefix
  | case4 c cs _ _ ih =>
    rw [firstLine]
    · exact List.cons_prefix_cons.2 ⟨rfl, ih⟩
    all_goals assumption

/-- The first line is no longer than any that ends. -/
lemma firstLine_length_le {cs line : List Char} (h : EndsLine cs line) :
    (firstLine cs).length ≤ line.length := by
  induction cs using firstLine.induct generalizing line with
  | case1 | case2 | case3 => exact Nat.zero_le _
  | case4 c cs noFeed noReturn ih =>
    rw [firstLine]
    · obtain ⟨later, e⟩ := h
      cases line with
      | nil =>
        rcases e with e | e
        · cases e
          exact absurd rfl noFeed
        · cases e
          exact absurd rfl (noReturn later rfl)
      | cons d line =>
        have tail : EndsLine cs line :=
          ⟨later, e.imp (fun e => (List.cons.inj e).2) fun e => (List.cons.inj e).2⟩
        exact Nat.succ_le_succ (ih tail)
    all_goals assumption

/-- What starts a text and crosses no end of a line starts its first line. -/
lemma prefix_firstLine {cs shown : List Char} (starts : shown <+: cs)
    (oneLine : ∀ line, EndsLine cs line → shown.length ≤ line.length) : shown <+: firstLine cs := by
  induction cs using firstLine.induct generalizing shown with
  | case1 => exact starts
  | case2 later =>
    have none := oneLine [] ⟨later, .inl rfl⟩
    rw [List.length_nil, Nat.le_zero, List.length_eq_zero_iff] at none
    exact none ▸ List.nil_prefix
  | case3 later =>
    have none := oneLine [] ⟨later, .inr rfl⟩
    rw [List.length_nil, Nat.le_zero, List.length_eq_zero_iff] at none
    exact none ▸ List.nil_prefix
  | case4 c cs noFeed noReturn ih =>
    rw [firstLine]
    · cases shown with
      | nil => exact List.nil_prefix
      | cons d shown =>
        obtain ⟨rfl, starts'⟩ := List.cons_prefix_cons.1 starts
        refine List.cons_prefix_cons.2 ⟨rfl, ih starts' fun line ends => ?_⟩
        exact Nat.le_of_succ_le_succ (oneLine (d :: line) (ends.cons d))
    all_goals assumption

/-- What an error shows is the greatest excerpt. -/
lemma excerpt_ofRest (p : Point) (cs : List Char) : Excerpt cs (ofRest p cs).found.toList := by
  rw [ofRest, String.toList_ofList]
  have part : (firstLine cs).take shownLength <+: firstLine cs := List.take_prefix _ _
  exact ⟨part.trans (firstLine_starts cs), List.length_take_le _ _,
    fun line ends => part.length_le.trans (firstLine_length_le ends)⟩

/-- An error shows all that it may show. -/
lemma greatest_ofRest {cs shown : List Char} (h : Excerpt cs shown) (p : Point) :
    shown <+: (ofRest p cs).found.toList := by
  rw [ofRest, String.toList_ofList, List.prefix_take_iff]
  exact ⟨prefix_firstLine h.starts h.oneLine, h.short⟩

/-- A line does not end in front of an unrecognized character, so that an error shows it. -/
lemma excerpt_singleton {c : Char} (h : Unrecognized c) (cs : List Char) : Excerpt (c :: cs) [c] := by
  refine ⟨⟨cs, rfl⟩, Nat.one_le_iff_ne_zero.2 nofun, fun line ends => ?_⟩
  cases line with
  | nil =>
    obtain ⟨later, e | e⟩ := ends
    · cases e
      exact absurd (by decide +kernel) h.noSpace
    · cases e
      exact absurd (by decide +kernel) h.noSpace
  | cons d line => exact Nat.succ_le_succ (Nat.zero_le _)

/-- An error at a character that is not recognized shows something. -/
lemma found_ne_empty {c : Char} (h : Unrecognized c) (p : Point) (cs : List Char) :
    (ofRest p (c :: cs)).found ≠ "" := by
  intro empty
  have first := greatest_ofRest (excerpt_singleton h cs) p
  rw [empty] at first
  cases List.prefix_nil.1 first

end ScanError

/-! ## Errors are exact and final -/

namespace Scan

/-- The text in front of the place where the cutting ends has the same tokens, and no error. -/
lemma ofText_front (text : String) :
    ofText (Lexeme.joined (Lexeme.cut text.toList).1) = ⟨(ofText text).tokens, none⟩ := by
  have munch := Lexeme.cut_munches text.toList
  rw [← List.append_nil (Lexeme.cut text.toList).1] at munch
  exact ofText_joined munch.take

/-- An error is that of the text where the cutting ends, which starts with an unrecognized character. -/
lemma rest_of_error {text : String} {e : ScanError} (h : (ofText text).error? = some e) :
    ∃ c after, (Lexeme.cut text.toList).2 = c :: after ∧ Unrecognized c
      ∧ e = .ofRest (.behind (Lexeme.joined (Lexeme.cut text.toList).1)) (c :: after) := by
  have point := error_point h
  have stopped : NoWord (Lexeme.cut text.toList).2 := (Lexeme.cut_munches text.toList).noWord
  simp only [ofText] at h
  cases rest : (Lexeme.cut text.toList).2 with
  | nil =>
    rw [rest] at h
    cases h
  | cons c after =>
    rw [rest] at h stopped
    cases h
    exact ⟨c, after, rfl, noWord_cons_iff.1 stopped, congrArg (ScanError.mk · _) point⟩

/-- What the error of a scan says about the text, with the text in front of the error, the character it was
found at, and the text behind that. -/
structure Stops (text : String) (e : ScanError) (before : String) (c : Char) (after : List Char) : Prop where
  whole : text = before ++ String.ofList (c :: after)
  /-- Line, column and index are those of the character. -/
  point : e.point = .behind before
  index : e.point.index = before.utf8ByteSize
  /-- The text in front of the error has the tokens found so far, and no error. -/
  tokens : ofText before = ⟨(ofText text).tokens, none⟩
  unrecognized : Unrecognized c
  nonempty : e.found ≠ ""
  excerpt : ScanError.Excerpt (c :: after) e.found.toList
  greatest : ∀ shown, ScanError.Excerpt (c :: after) shown → shown <+: e.found.toList
  /-- A scanner hands out the tokens and the error. -/
  answers : ∀ n,
    (Scanner.start text).answer n = ((ofText text).tokens.map .ok ++ [.error e])[n]?
  final : ∀ n > (ofText text).tokens.length, (Scanner.start text).answer n = none
  /-- The error comes before all errors of the grammar. -/
  read : (readGrammar text).value = .error (.scan e)

/-- The error of a scan is exact and final. -/
theorem error_exact {text : String} {e : ScanError} (h : (ofText text).error? = some e) :
    ∃ before c after, Stops text e before c after := by
  have answers (n : Nat) : (Scanner.start text).answer n =
      ((ofText text).tokens.map .ok ++ [.error e])[n]? := by
    rw [Scanner.answer_start, Scan.answers, h]
    rfl
  obtain ⟨c, after, rest, unrecognized, found⟩ := rest_of_error h
  have whole := eq_joined_append text
  rw [rest] at whole
  refine ⟨Lexeme.joined (Lexeme.cut text.toList).1, c, after, ?_⟩
  exact {
    whole := whole
    point := error_point h
    index := congrArg Point.index (error_point h)
    tokens := ofText_front text
    unrecognized := unrecognized
    nonempty := found ▸ ScanError.found_ne_empty unrecognized _ after
    excerpt := found ▸ ScanError.excerpt_ofRest _ _
    greatest := fun shown excerpt => found ▸ ScanError.greatest_ofRest excerpt _
    answers := answers
    final := fun n late => by
      rw [answers, List.getElem?_eq_none]
      simpa using Nat.succ_le_of_lt late
    read := by rw [readGrammar_value, h] }

/-- The tokens in front of the error are no grammar, one of them is a quote that is not closed on its line,
and a carriage return by itself ends no line. -/
theorem error_exact_second_line :
    (ofText "-> 'a\n§\r b\r\n'").error? = some ⟨⟨2, 1, 6⟩, "§\r b"⟩
      ∧ ∃ before c after, Stops "-> 'a\n§\r b\r\n'" ⟨⟨2, 1, 6⟩, "§\r b"⟩ before c after := by
  have h : (ofText "-> 'a\n§\r b\r\n'").error? = some ⟨⟨2, 1, 6⟩, "§\r b"⟩ := by decide +kernel
  exact ⟨h, error_exact h⟩

end Scan

end YeccDefr
