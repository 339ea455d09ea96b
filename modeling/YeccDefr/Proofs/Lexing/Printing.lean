import YeccDefr.Proofs.Lexing.Lines
import YeccDefr.Proofs.Lexing.RuleTable

/-!
# Printed lexemes

Lexemes that stand in one line can run into each other: two lone quotes enclose an atom, a dash and a
bracket are an arrow, and digits around a dot are a float. No lexeme that a scan shows reaches over a line
feed, so lexemes that are printed one below the other are scanned as what they are
(`Scan.reproduces_printed`).
-/

namespace YeccDefr

/-- A token without its place. -/
def Token.lexeme (t : Token) : Lexeme := ⟨t.kind, t.text.toList⟩

/-- The tokens of a scan without their places. -/
def Scan.lexemes (s : Scan) : List Lexeme := s.tokens.map Token.lexeme

namespace Lexeme

/-- A lexeme is a word of its class, and scans show the class. -/
structure Visible (l : Lexeme) : Prop where
  word : l.chars ∈ l.kind.words
  kept : l.kind ∉ [.comment, .whiteSpace]

/-- Texts one below the other. -/
def lines (texts : List String) : String := "\n".intercalate texts

/-- The text of a lexeme has its characters. -/
@[simp]
lemma toList_text (l : Lexeme) : l.text.toList = l.chars := String.toList_ofList

/-- One text is one line. -/
lemma lines_singleton (text : String) : lines [text] = text := by
  simp [lines]

/-- The first text has a line feed between it and the next one. -/
lemma lines_cons_cons (text next : String) (texts : List String) :
    lines (text :: next :: texts) = text ++ "\n" ++ lines (next :: texts) := by
  simp [lines, String.intercalate_cons_cons]

end Lexeme

open Lexeme

namespace Scan

/-- Lexemes are scanned again from a text, without an error. -/
structure Reproduces (text : String) (ls : List Lexeme) : Prop where
  shown : (ofText text).lexemes = ls
  complete : (ofText text).error? = none

/-- Tokens in front of a scan add their lexemes. -/
lemma lexemes_after (tokens : List Token) (s : Scan) :
    (s.after tokens).lexemes = tokens.map Token.lexeme ++ s.lexemes := List.map_append

/-- A scan has the same lexemes below a text. -/
lemma lexemes_below (upper : String) (s : Scan) : (s.below upper).lexemes = s.lexemes := by
  rw [lexemes, below, List.map_map]
  rfl

/-- An empty text has no lexemes. -/
lemma Reproduces.empty : Reproduces "" [] := by
  have blank : Blank [] := fun _ mem => absurd mem List.not_mem_nil
  have nothing : ofText "" = ⟨[], none⟩ := ofChars_of_blank blank Point.origin
  exact ⟨congrArg lexemes nothing, congrArg error? nothing⟩

/-- A visible lexeme is scanned again from its text. -/
lemma Reproduces.single {l : Lexeme} (h : l.Visible) : Reproduces l.text [l] := by
  have single := ofText_eq_single_iff.2 ⟨mt Token.Kind.isIgnored_iff.1 h.kept, by rw [toList_text]; exact h.word⟩
  refine ⟨?_, congrArg error? single⟩
  simp [single, lexemes, Token.lexeme]

/-- Below each other two texts are scanned as each of them is. -/
lemma Reproduces.append_line {a b : String} {ls ls' : List Lexeme} (ha : Reproduces a ls)
    (hb : Reproduces b ls') : Reproduces (a ++ "\n" ++ b) (ls ++ ls') where
  shown := by
    rw [ofText_append_line ha.complete, lexemes_after, lexemes_below, hb.shown, ← ha.shown]
    rfl
  complete := by
    rw [ofText_append_line ha.complete, after, below, hb.complete]
    rfl

/-- Visible lexemes are scanned again from their lines. -/
lemma reproduces_lines {ls : List Lexeme} (h : ∀ l ∈ ls, l.Visible) :
    Reproduces (lines (ls.map Lexeme.text)) ls := by
  induction ls with
  | nil => exact .empty
  | cons l ls ih =>
    rw [List.forall_mem_cons] at h
    have first := Reproduces.single h.1
    cases ls with
    | nil =>
      rw [List.map_singleton, lines_singleton]
      exact first
    | cons l' ls =>
      rw [List.map_cons, List.map_cons, lines_cons_cons, ← List.map_cons]
      exact first.append_line (ih h.2)

/-- What a scan shows are words of classes that are not ignored. -/
lemma visible_of_mem {text : String} {l : Lexeme} (mem : l ∈ (ofText text).lexemes) : l.Visible := by
  obtain ⟨t, shown, rfl⟩ := List.mem_map.1 mem
  obtain ⟨placed, kept⟩ := List.mem_filter.1 shown
  obtain ⟨l, cut, kind, same⟩ := mem_placed placed
  refine ⟨?_, by simpa [Token.not_isIgnored, Token.lexeme] using kept⟩
  have word := (cut_munches text.toList).word l cut
  rw [Token.lexeme, same, toList_text, kind]
  exact word

/-- The texts of lexemes are those of the tokens. -/
lemma map_text_lexemes (s : Scan) : s.lexemes.map Lexeme.text = s.tokens.map (·.text) := by
  rw [lexemes, List.map_map]
  refine List.map_congr_left fun t _ => ?_
  exact String.ofList_toList

/-- Scanning undoes printing: words of classes that are not ignored are scanned again from their lines,
whatever they are. So are the tokens of any text, up to the error of its scan if there is one. -/
theorem reproduces_printed :
    (∀ ls : List Lexeme, (∀ l ∈ ls, l.Visible) → Reproduces (lines (ls.map Lexeme.text)) ls)
    ∧ ∀ text, Reproduces (lines ((ofText text).tokens.map (·.text))) (ofText text).lexemes := by
  refine ⟨fun ls => reproduces_lines, fun text => ?_⟩
  rw [← map_text_lexemes]
  exact reproduces_lines fun l => visible_of_mem

/-- Two lone quotes, the parts of an arrow and those of a float stay apart on their lines. -/
theorem reproduces_printed_apart :
    let ls : List Lexeme := [⟨.reservedSymbol, ['\'']⟩, ⟨.reservedSymbol, ['-']⟩,
      ⟨.reservedSymbol, ['>']⟩, ⟨.integer, ['1']⟩, ⟨.dot, ['.']⟩, ⟨.integer, ['5']⟩,
      ⟨.reservedSymbol, ['\'']⟩]
    (∀ l ∈ ls, l.Visible) ∧ Reproduces "'\n-\n>\n1\n.\n5\n'" ls := by
  intro ls
  have reserved {c} (mem : c ∈ reservedChars) : Visible ⟨.reservedSymbol, [c]⟩ := ⟨⟨c, mem, rfl⟩, by simp⟩
  have digit {c} (h : Text.isDecimalDigit c) : Visible ⟨.integer, [c]⟩ :=
    ⟨⟨nofun, List.forall_mem_singleton.2 h⟩, by simp⟩
  have dot : Visible ⟨.dot, ['.']⟩ := ⟨rfl, by simp⟩
  have visible : ∀ l ∈ ls, l.Visible := by
    simp only [ls, List.forall_mem_cons]
    exact ⟨reserved (by decide), reserved (by decide), reserved (by decide), digit (by decide +kernel),
      dot, digit (by decide +kernel), reserved (by decide), nofun⟩
  exact ⟨visible, reproduces_printed.1 ls visible⟩

/-- With a blank in place of the line feed two lone quotes enclose an atom. -/
example : (ofText "' '").lexemes = [⟨.atom, ['\'', ' ', '\'']⟩] := by decide +kernel

end Scan

end YeccDefr
