import Mathlib.Data.String.Basic
import YeccDefr.Error
import YeccDefr.Proofs.Lexing.Language

/-!
# Scans of texts below each other

White space is the only class whose words contain line feeds, so no lexeme reaches over a line feed
but white space, which is left out. A text that is scanned without an error can therefore be put on
top of any other one: the tokens of the upper text stay as they are, and those of the lower one only
move down (`Scan.ofText_append_line`).
-/

namespace YeccDefr

/-! ## Points -/

namespace Point

/-- The last line of two texts is that of the second one if it has a line feed. -/
lemma lastLine_append_of_mem {a b : List Char} (h : '\n' ∈ b) : lastLine (a ++ b) = lastLine b := by
  have stops : (b.reverse.takeWhile (· ≠ '\n')).length ≠ b.reverse.length := by
    intro whole
    have all := List.takeWhile_eq_self_iff.1 ((List.takeWhile_prefix _).eq_of_length whole)
    simpa using all '\n' (List.mem_reverse.2 h)
  rw [lastLine, List.reverse_append, List.takeWhile_append, if_neg stops, lastLine]

/-- A second text without a line feed goes on with the last line of the first one. -/
lemma lastLine_append_of_notMem {a b : List Char} (h : '\n' ∉ b) :
    lastLine (a ++ b) = lastLine a ++ b := by
  have all : ∀ c ∈ b.reverse, decide (c ≠ '\n') = true := by
    intro c mem
    rw [List.mem_reverse] at mem
    exact decide_eq_true fun e => h (e ▸ mem)
  rw [lastLine, List.reverse_append, List.takeWhile_append_of_pos all, List.reverse_append,
    List.reverse_reverse, lastLine]

/-- Advancing over one text after the other is advancing over both. -/
theorem advance_append (p : Point) (a b : String) : (p.advance a).advance b = p.advance (a ++ b) := by
  simp only [advance, String.toList_append, List.count_append, List.mem_append,
    String.utf8ByteSize_append, List.length_append, Point.mk.injEq]
  refine ⟨by omega, ?_, by omega⟩
  by_cases inB : '\n' ∈ b.toList
  · rw [if_pos inB, if_pos (.inr inB), lastLine_append_of_mem inB]
  · rw [if_neg inB, lastLine_append_of_notMem inB, List.length_append]
    by_cases inA : '\n' ∈ a.toList
    · rw [if_pos inA, if_pos (.inl inA)]
      omega
    · rw [if_neg inA, if_neg (by simp [inA, inB])]
      omega

/-- An empty text leads nowhere. -/
@[simp]
lemma advance_empty (p : Point) : p.advance "" = p := by
  simp [advance]

/-- Where a point of a text stands after the text is put below another one. -/
def below (upper : String) (p : Point) : Point where
  line := p.line + upper.toList.count '\n' + 1
  column := p.column
  index := p.index + upper.utf8ByteSize + 1

/-- A text leads to the same place below another text, but below it. -/
lemma advance_below {upper text : String} {p : Point} :
    (p.below upper).advance text = (p.advance text).below upper := by
  simp only [advance, below, Point.mk.injEq]
  exact ⟨by omega, trivial, by omega⟩

/-- Behind a line a text starts below it. -/
lemma origin_advance_line (upper : String) :
    origin.advance (upper ++ "\n") = origin.below upper := by
  have bytes : "\n".utf8ByteSize = 1 := rfl
  rw [← advance_append]
  simp [advance, below, origin, lastLine, bytes]

end Point

/-- A region below a text. -/
def Region.below (upper : String) (r : Region) : Region := ⟨r.start.below upper, r.stop.below upper⟩

/-- A token below a text. -/
def Token.below (upper : String) (t : Token) : Token := { t with region := t.region.below upper }

/-- An error of a scan below a text. -/
def ScanError.below (upper : String) (e : ScanError) : ScanError :=
  { e with point := e.point.below upper }

/-- The scan of a text after the text is put below another one. -/
def Scan.below (upper : String) (s : Scan) : Scan :=
  ⟨s.tokens.map (·.below upper), s.error?.map (·.below upper)⟩

/-- A scan with tokens in front of it. -/
def Scan.after (tokens : List Token) (s : Scan) : Scan := ⟨tokens ++ s.tokens, s.error?⟩

/-! ## White space and line feeds -/

/-- A text is white space. -/
def Blank (cs : List Char) : Prop := ∀ c ∈ cs, Text.isWhiteSpace c

/-- A line feed is blank. -/
lemma blank_newline : Blank ['\n'] := by
  rw [Blank, List.forall_mem_singleton]
  decide +kernel

/-- Two blank texts are blank together. -/
lemma Blank.append {a b} (ha : Blank a) (hb : Blank b) : Blank (a ++ b) := by
  intro c mem
  cases List.mem_append.1 mem with
  | inl h => exact ha c h
  | inr h => exact hb c h

/-- A line feed is no digit. -/
lemma newline_not_digit : Text.isDecimalDigit '\n' = false := by decide +kernel

/-- Only white space contains line feeds. -/
theorem Token.Kind.eq_whiteSpace_of_newline {w} {k : Kind} (word : w ∈ k.words) (h : '\n' ∈ w) :
    k = whiteSpace := by
  cases k with
  | whiteSpace => rfl
  | integer =>
    have digit := word.2 _ h
    rw [newline_not_digit] at digit
    cases digit
  | float =>
    obtain ⟨u, ⟨_, allU⟩, v, ⟨_, allV⟩, rfl⟩ := word
    have digit : Text.isDecimalDigit '\n' := by
      simp only [List.mem_append, List.mem_cons, Char.reduceEq, false_or] at h
      exact h.elim (allU _) (allV _)
    rw [newline_not_digit] at digit
    cases digit
  | comment =>
    obtain ⟨u, rfl, all⟩ := word
    simp only [List.mem_cons, Char.reduceEq, false_or] at h
    exact absurd rfl (all _ h)
  | dot | arrow | colon =>
    cases word
    simp at h
  | var =>
    obtain ⟨c, u, rfl, first, all⟩ := word
    rcases List.mem_cons.1 h with rfl | h
    · cases first
    · cases all _ h
  | atom =>
    rcases word with ⟨c, u, rfl, first, all⟩ | ⟨u, rfl, all⟩
    · rcases List.mem_cons.1 h with rfl | h
      · cases first
      · cases all _ h
    · simp only [List.mem_append, List.mem_cons, Char.reduceEq, false_or, List.not_mem_nil,
        or_false] at h
      exact absurd rfl (all _ h).2
  | stringLiteral =>
    obtain ⟨u, rfl, all⟩ := word
    simp only [List.mem_append, List.mem_cons, Char.reduceEq, false_or, List.not_mem_nil,
      or_false] at h
    exact absurd rfl (all _ h).2
  | reservedSymbol =>
    obtain ⟨c, mem, rfl⟩ := word
    cases List.mem_singleton.1 h
    exact absurd mem (by decide)

namespace Lexeme

/-- White space is the longest lexeme in front of all that is none. -/
lemma longest_blank {w v} (nonempty : w ≠ []) (blank : Blank w)
    (stops : ∀ c ∈ v.head?, ¬ Text.isWhiteSpace c) : Longest (w ++ v) ⟨.whiteSpace, w⟩ := by
  obtain ⟨c, u, rfl⟩ := List.exists_cons_of_ne_nil nonempty
  have both := List.forall_mem_cons.1 blank
  have opens := Opening.of?_of (FirstChar.of_eq_whiteSpace.2 both.1) rfl
  have longest := longest_finish opens (u ++ v)
  rw [Opening.finish, (Opening.takeWhile_of_stops both.2 stops).1] at longest
  exact longest

/-- A line feed ends every lexeme but white space. -/
lemma Longest.append_line {cs ds l} (h : Longest cs l) (visible : ¬ Blank cs) :
    Longest (cs ++ '\n' :: ds) l where
  word := h.word
  starts := h.starts.trans (List.prefix_append _ _)
  longest := by
    intro k w word starts
    by_cases inside : w.length ≤ cs.length
    · exact h.longest word (List.prefix_of_prefix_length_le starts (List.prefix_append _ _) inside)
    · -- a longer word would contain the line feed
      exfalso
      have reaches : cs ++ ['\n'] <+: w := by
        refine List.prefix_of_prefix_length_le ⟨ds, by simp⟩ starts ?_
        rw [List.length_append, List.length_singleton]
        omega
      have space := Token.Kind.eq_whiteSpace_of_newline word (reaches.subset (by simp))
      subst space
      exact visible fun c mem => word.2 c (reaches.subset (List.mem_append_left _ mem))

end Lexeme

namespace Scan

/-! ## Scans from any point on -/

/-- The scan of a text that starts at a point. -/
def ofChars (p : Point) (cs : List Char) : Scan where
  tokens := (placed p (Lexeme.cut cs).1).filter fun token => !token.isIgnored
  error? :=
    if (Lexeme.cut cs).2.isEmpty then none
    else some (.ofRest (placeAfter p (Lexeme.cut cs).1) (Lexeme.cut cs).2)

/-- A text is scanned from its first character on. -/
lemma ofText_eq (text : String) : ofText text = ofChars Point.origin text.toList := rfl

/-- The token of a lexeme at a place, unless it is ignored. -/
def shown (p : Point) (l : Lexeme) : List Token :=
  [⟨l.kind, l.text, Region.ofText p l.text⟩].filter fun token => !token.isIgnored

/-- A scan goes on behind the longest word. -/
lemma ofChars_longest {l : Lexeme} {cs} (h : l.Longest (l.chars ++ cs)) (p : Point) :
    ofChars p (l.chars ++ cs) = (ofChars (p.advance l.text) cs).after (shown p l) := by
  have cut : Lexeme.cut (l.chars ++ cs) = (l :: (Lexeme.cut cs).1, (Lexeme.cut cs).2) :=
    Lexeme.cut_eq_iff.2 (.next h (Lexeme.cut_munches cs))
  have tokens : ((placed p (l :: (Lexeme.cut cs).1)).filter fun token => !token.isIgnored) =
      shown p l ++ (ofChars (p.advance l.text) cs).tokens := by
    rw [placed, List.filter_cons, shown, List.filter_cons]
    split <;> rfl
  rw [ofChars, cut]
  exact congrArg (Scan.mk · _) tokens

/-- White space in front of all that is none only moves the place. -/
lemma ofChars_blank_of_stops {w v} (blank : Blank w) (stops : ∀ c ∈ v.head?, ¬ Text.isWhiteSpace c)
    (p : Point) : ofChars p (w ++ v) = ofChars (p.advance (String.ofList w)) v := by
  cases w with
  | nil => rw [List.nil_append, String.ofList_nil, Point.advance_empty]
  | cons c u =>
    have longest := Lexeme.longest_blank (w := c :: u) nofun blank stops
    exact ofChars_longest (l := ⟨.whiteSpace, c :: u⟩) longest p

/-- White space in front of a text only moves the scan on. -/
lemma ofChars_blank {w} (blank : Blank w) (p : Point) (cs : List Char) :
    ofChars p (w ++ cs) = ofChars (p.advance (String.ofList w)) cs := by
  have stops : ∀ c ∈ (cs.dropWhile Text.isWhiteSpace).head?, ¬ Text.isWhiteSpace c := by
    intro c first
    have := List.head?_dropWhile_not Text.isWhiteSpace cs
    rw [first] at this
    simpa using this
  have more : Blank (cs.takeWhile Text.isWhiteSpace) := Opening.takeWhile_all
  -- the white space in front of `cs` joins that at its start
  rw [← List.takeWhile_append_dropWhile (p := Text.isWhiteSpace) (l := cs), ← List.append_assoc,
    ofChars_blank_of_stops (blank.append more) stops, ofChars_blank_of_stops more stops,
    Point.advance_append, String.ofList_append]

/-- A blank text has no tokens and no error. -/
lemma ofChars_of_blank {w} (blank : Blank w) (p : Point) : ofChars p w = ⟨[], none⟩ := by
  have nothing (q : Point) : ofChars q [] = ⟨[], none⟩ := by
    simp [ofChars, Lexeme.cut, placed]
  rw [← List.append_nil w, ofChars_blank blank, nothing]

/-- No tokens change nothing in front of a scan. -/
lemma after_nil (s : Scan) : s.after [] = s := rfl

/-- Tokens in front of a scan can be put there in two steps. -/
lemma after_after (s : Scan) (a b : List Token) : (s.after b).after a = s.after (a ++ b) := by
  simp [after]

/-! ## The scan goes on behind a line feed -/

/-- Behind a text without an error and a line feed the scan goes on as at the start of a text. -/
lemma ofChars_append_line {cs ls rest} (h : MaximalMunch cs ls rest) (all : rest = []) (p : Point)
    (ds : List Char) :
    ofChars p (cs ++ '\n' :: ds) =
      (ofChars (p.advance (String.ofList (cs ++ ['\n']))) ds).after (ofChars p cs).tokens := by
  -- by induction on the lexemes of the upper text; white space at its end takes in the line feed
  induction h generalizing p with
  | stop =>
    subst all
    rw [ofChars_of_blank (w := []) nofun p, after_nil]
    exact ofChars_blank blank_newline p ds
  | @next l ls cs rest longest munch ih =>
    by_cases blank : Blank (l.chars ++ cs)
    · rw [ofChars_of_blank blank, after_nil, List.append_cons]
      exact ofChars_blank (blank.append blank_newline) p ds
    · have longest' : l.Longest (l.chars ++ (cs ++ '\n' :: ds)) := by
        rw [← List.append_assoc]
        exact longest.append_line blank
      have line : l.text ++ String.ofList (cs ++ ['\n']) = String.ofList (l.chars ++ cs ++ ['\n']) := by
        simp only [Lexeme.text, String.ofList_append, String.append_assoc]
      rw [List.append_assoc, ofChars_longest longest', ih all _, ofChars_longest longest, after_after,
        Point.advance_append, line]
      rfl

/-- Lexemes have their places below a text. -/
lemma placed_below {upper p ls} :
    placed (p.below upper) ls = (placed p ls).map (·.below upper) := by
  induction ls generalizing p with
  | nil => rfl
  | cons l ls ih =>
    simp only [placed, Region.ofText, Point.advance_below, ih]
    rfl

/-- The place behind lexemes is below a text. -/
lemma placeAfter_below {upper p ls} :
    placeAfter (p.below upper) ls = (placeAfter p ls).below upper := by
  induction ls generalizing p with
  | nil => rfl
  | cons l ls ih =>
    have next := ih (p := p.advance l.text)
    rwa [← Point.advance_below] at next

/-- A scan below a text is the scan, below it. -/
lemma ofChars_below {upper p cs} : ofChars (p.below upper) cs = (ofChars p cs).below upper := by
  rw [ofChars, placed_below, placeAfter_below, List.filter_map]
  unfold below ofChars
  congr 1
  split <;> rfl

/-- A text without a scan error keeps its tokens on top of another text, and the scan of the other
one moves down. -/
theorem ofText_append_line {a b : String} (h : (ofText a).error? = none) :
    ofText (a ++ "\n" ++ b) = ((ofText b).below a).after (ofText a).tokens := by
  have munch := Lexeme.cut_munches a.toList
  have all : (Lexeme.cut a.toList).2 = [] := by simpa [ofText] using h
  have chars : (a ++ "\n" ++ b).toList = a.toList ++ '\n' :: b.toList := by simp
  have upper : String.ofList (a.toList ++ ['\n']) = a ++ "\n" := by
    rw [String.ofList_append, String.ofList_toList]
  rw [ofText_eq, chars, ofChars_append_line munch all, upper, Point.origin_advance_line,
    ofChars_below, ← ofText_eq, ← ofText_eq]

end Scan

end YeccDefr
