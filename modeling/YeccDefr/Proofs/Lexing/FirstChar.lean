import Mathlib.Tactic.Lemma
import Mathlib.Tactic.SplitIfs
import YeccDefr.Token.Lexeme

/-!
# Classes of first characters

The tests of `Opening.of?` are made one after the other. No two of them hold of one character, so the
order does not matter: a character belongs to exactly one class (`FirstChar.of`), and each test is
membership in one of the classes.
-/

namespace YeccDefr

namespace CodeRanges

/-- No run of one table meets a run of the other. -/
def apart (a b : CodeRanges) : Bool :=
  a.all fun r => b.all fun s => decide (r.2 < s.1) || decide (s.2 < r.1)

/-- A character is in some runs if it lies in one of them. -/
lemma has_iff {ranges : CodeRanges} {c} :
    ranges.has c ↔ ∃ run ∈ ranges, run.1 ≤ c.toNat ∧ c.toNat ≤ run.2 := by
  simp [has]

/-- No character is in two sets that are apart. -/
lemma not_has_of_apart {a b : CodeRanges} {c} (h : a.apart b) (ha : a.has c) : ¬ b.has c := by
  rw [has_iff] at ha ⊢
  rintro ⟨s, hs, ls, us⟩
  obtain ⟨r, hr, lr, ur⟩ := ha
  have far := List.all_eq_true.1 (List.all_eq_true.1 h r hr) s hs
  simp only [Bool.or_eq_true, decide_eq_true_eq] at far
  omega

end CodeRanges

/-- The classes of characters that lexemes are opened with. -/
inductive FirstChar where
  | whiteSpace
  | digit
  | upper
  | lower
  | percent
  | apostrophe
  | quotationMark
  | dot
  | colon
  | dash
  | reserved
  | other
  deriving DecidableEq

namespace FirstChar

/-- The class of a character. -/
def of (c : Char) : FirstChar :=
  if Text.isWhiteSpace c then whiteSpace
  else if Text.isDecimalDigit c then digit
  else if c.isUpper then upper
  else if c.isLower then lower
  else if c = '%' then percent
  else if c = '\'' then apostrophe
  else if c = '"' then quotationMark
  else if c = '.' then dot
  else if c = ':' then colon
  else if c = '-' then dash
  else if c ∈ reservedChars then reserved
  else other

/-- How a lexeme goes on after a character of a class. -/
def opening? : FirstChar → Option Opening
  | whiteSpace => some (.run .whiteSpace Text.isWhiteSpace)
  | digit => some .number
  | upper => some (.run .var isWordChar)
  | lower => some (.run .atom isWordChar)
  | percent => some (.run .comment (· ≠ '\n'))
  | apostrophe => some (.quote .atom)
  | quotationMark => some (.quote .stringLiteral)
  | dot => some (.single .dot)
  | colon => some (.single .colon)
  | dash => some .dash
  | reserved => some (.single .reservedSymbol)
  | other => none

/-- The class of its first character decides how a lexeme goes on. -/
lemma opening?_of (c : Char) : Opening.of? c = (of c).opening? := by
  rw [of]
  simp only [apply_ite opening?]
  rfl

/-- What a class says of its characters. -/
def Holds (c : Char) : FirstChar → Prop
  | whiteSpace => Text.isWhiteSpace c
  | digit => Text.isDecimalDigit c
  | upper => c.isUpper
  | lower => c.isLower
  | percent => c = '%'
  | apostrophe => c = '\''
  | quotationMark => c = '"'
  | dot => c = '.'
  | colon => c = ':'
  | dash => c = '-'
  | reserved => c ∈ reservedChars
  | other => c ∉ reservedChars

/-- What a class says of its characters holds of them. -/
lemma holds_of {c : Char} {k} (e : of c = k) : Holds c k := by
  subst e
  rw [of]
  iterate 11 refine iteInduction (motive := Holds c) (fun h => h) fun _ => ?_
  assumption

/-! ## No two tests hold of one character -/

/-- The capital letters are a run of code points. -/
lemma isUpper_iff {c : Char} : c.isUpper ↔ CodeRanges.has [(65, 90)] c := by
  have test : c.isUpper = decide ('A'.val ≤ c.val ∧ c.val ≤ 'Z'.val) := rfl
  simp [CodeRanges.has_iff, test, UInt32.le_iff_toNat_le]

/-- The small letters are a run of code points. -/
lemma isLower_iff {c : Char} : c.isLower ↔ CodeRanges.has [(97, 122)] c := by
  have test : c.isLower = (decide ('a'.val ≤ c.val) && decide (c.val ≤ 'z'.val)) := rfl
  simp [CodeRanges.has_iff, test, UInt32.le_iff_toNat_le]

/-- Characters apart from white space and digits pass neither test. -/
lemma tests_of_apart {ranges : CodeRanges} {c} (h : ranges.has c)
    (space : ranges.apart Text.whiteSpaceRanges) (digit : ranges.apart Text.decimalDigitRanges) :
    ¬ Text.isWhiteSpace c ∧ ¬ Text.isDecimalDigit c :=
  ⟨CodeRanges.not_has_of_apart space h, CodeRanges.not_has_of_apart digit h⟩

section
variable {c : Char}

/-- The class of white space is decided by its test. -/
lemma of_eq_whiteSpace : of c = whiteSpace ↔ Text.isWhiteSpace c :=
  ⟨holds_of, fun h => if_pos h⟩

/-- The class of a digit is decided by its test. -/
lemma of_eq_digit : of c = digit ↔ Text.isDecimalDigit c := by
  refine ⟨holds_of, fun h => ?_⟩
  have space : ¬ Text.isWhiteSpace c := CodeRanges.not_has_of_apart (by decide +kernel) h
  rw [of, if_neg space, if_pos h]

/-- The class of a capital letter is decided by its test. -/
lemma of_eq_upper : of c = upper ↔ c.isUpper := by
  refine ⟨holds_of, fun h => ?_⟩
  obtain ⟨space, digit⟩ :=
    tests_of_apart (isUpper_iff.1 h) (by decide +kernel) (by decide +kernel)
  rw [of, if_neg space, if_neg digit, if_pos h]

/-- The class of a small letter is decided by its test. -/
lemma of_eq_lower : of c = lower ↔ c.isLower := by
  refine ⟨holds_of, fun h => ?_⟩
  obtain ⟨space, digit⟩ :=
    tests_of_apart (isLower_iff.1 h) (by decide +kernel) (by decide +kernel)
  have upper : ¬ c.isUpper := by
    rw [isUpper_iff]
    exact CodeRanges.not_has_of_apart (by decide) (isLower_iff.1 h)
  rw [of, if_neg space, if_neg digit, if_neg upper, if_pos h]

/-- The percent sign has a class of its own. -/
lemma of_eq_percent : of c = percent ↔ c = '%' :=
  ⟨holds_of, fun h => by rw [h]; decide +kernel⟩

/-- The single quote has a class of its own. -/
lemma of_eq_apostrophe : of c = apostrophe ↔ c = '\'' :=
  ⟨holds_of, fun h => by rw [h]; decide +kernel⟩

/-- The double quote has a class of its own. -/
lemma of_eq_quotationMark : of c = quotationMark ↔ c = '"' :=
  ⟨holds_of, fun h => by rw [h]; decide +kernel⟩

/-- The dot has a class of its own. -/
lemma of_eq_dot : of c = dot ↔ c = '.' :=
  ⟨holds_of, fun h => by rw [h]; decide +kernel⟩

/-- The colon has a class of its own. -/
lemma of_eq_colon : of c = colon ↔ c = ':' :=
  ⟨holds_of, fun h => by rw [h]; decide +kernel⟩

/-- The dash has a class of its own. -/
lemma of_eq_dash : of c = dash ↔ c = '-' :=
  ⟨holds_of, fun h => by rw [h]; decide +kernel⟩

/-- The punctuation characters are those of four classes. -/
lemma mem_reservedChars :
    c ∈ reservedChars ↔ of c ∈ [apostrophe, quotationMark, dash, reserved] := by
  constructor
  · intro h
    have all : (reservedChars.all fun d => of d ∈ [apostrophe, quotationMark, dash, reserved]) := by
      decide +kernel
    exact of_decide_eq_true (List.all_eq_true.1 all c h)
  · intro h
    simp only [List.mem_cons, List.not_mem_nil, or_false] at h
    rcases h with h | h | h | h
    · rw [of_eq_apostrophe.1 h]
      decide
    · rw [of_eq_quotationMark.1 h]
      decide
    · rw [of_eq_dash.1 h]
      decide
    · exact holds_of h

end

end FirstChar

end YeccDefr
