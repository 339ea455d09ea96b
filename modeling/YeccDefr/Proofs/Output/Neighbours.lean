import YeccDefr.Proofs.Output.Pairing
import YeccDefr.Proofs.Safety.Translation
import YeccDefr.Proofs.Translation.Keywords

/-!
# Neighbours in bodies

Spaces in a body come from gaps in the code only. Where two symbols stand side by side, the texts that they
leave do so, too, although quotes or marks may have kept the symbols apart before. `Rule.traced` is the body
with each character traced back to its symbol, and `Rule.Fuses` says that word characters of two symbols are
neighbours in it. That is the case exactly if no gap and nothing but marks stand between the two symbols and
the texts that they leave face each other with word characters (`Rule.fuses_iff`).
-/

namespace YeccDefr

open Naming

/-! ## Traced bodies -/

/-- Whether a text starts with a word character. -/
def startsWithWord (text : String) : Bool := text.toList.head?.any isWordChar

/-- Whether a text ends with a word character. -/
def endsWithWord (text : String) : Bool := text.toList.getLast?.any isWordChar

/-- A text starts with a word exactly if it has a first character and this belongs to words. -/
lemma startsWithWord_iff {text : String} :
    startsWithWord text ↔ ∃ c cs, text.toList = c :: cs ∧ isWordChar c := by
  rw [startsWithWord]
  cases text.toList <;> simp

/-- A text ends with a word exactly if it has a last character and this belongs to words. -/
lemma endsWithWord_iff {text : String} :
    endsWithWord text ↔ ∃ cs c, text.toList = cs ++ [c] ∧ isWordChar c := by
  rw [endsWithWord]
  rcases List.eq_nil_or_concat text.toList with empty | ⟨cs, c, chars⟩
  · simp [empty]
  · simp [chars]

namespace BodyCursor

/-- What a replacement adds to the body, with the index of its symbol at each character. A space in front of
it and a line end belong to no symbol. -/
def traced (c : BodyCursor) (k : Nat) (spaced : Bool) : Replacement → List (Option Nat × Char)
  | .lineEnd => [(none, '\n')]
  | .nothing => []
  | .piece text =>
    (if !c.lineStart && (spaced || c.pendingSpace) then [(none, ' ')] else [])
      ++ text.toList.map (Prod.mk (some k))

section
variable (c : BodyCursor) {k i : Nat} (spaced : Bool) {replacement : Replacement} {a : Char}

/-- The characters of a trace are those of the body. -/
lemma map_snd_traced (k : Nat) (replacement : Replacement) :
    (c.traced k spaced replacement).map Prod.snd = (c.added spaced replacement).toList := by
  cases replacement with
  | lineEnd => simp [traced, added]
  | nothing => rfl
  | piece text =>
    rw [traced, added, List.map_append, List.map_map]
    split <;> simp [Function.comp_def]

/-- A piece that ends with a word character leaves it at the end. -/
lemma traced_of_endsWithWord (k : Nat) {text : String} (ends : endsWithWord text) :
    ∃ before a, c.traced k spaced (.piece text) = before ++ [(some k, a)] ∧ isWordChar a := by
  obtain ⟨inner, a, chars, word⟩ := endsWithWord_iff.1 ends
  rw [traced, chars, List.map_append, ← List.append_assoc]
  exact ⟨_, a, rfl, word⟩

/-- A piece that starts with a word character leaves it at the start, if no space is due. -/
lemma traced_of_startsWithWord (depth : Int) (k : Nat) {text : String} (starts : startsWithWord text) :
    ∃ b after, traced ⟨depth, false, false⟩ k false (.piece text) = (some k, b) :: after ∧ isWordChar b := by
  obtain ⟨b, rest, chars, word⟩ := startsWithWord_iff.1 starts
  rw [traced, chars, List.map_cons]
  exact ⟨b, _, rfl, word⟩

/-- What the cursor adds at a symbol is traced to this symbol. -/
lemma index_of_mem_traced (mem : (some i, a) ∈ c.traced k spaced replacement) : i = k := by
  cases replacement with
  | lineEnd => simp [traced] at mem
  | nothing => cases mem
  | piece text =>
    rcases List.mem_append.1 mem with space | own
    · split at space <;> simp at space
    · obtain ⟨_, _, e⟩ := List.mem_map.1 own
      cases e
      rfl

/-- The last character traced to a symbol is the last one of its text. -/
lemma getLast?_of_traced {text : String}
    (last : (c.traced k spaced (.piece text)).getLast? = some (some i, a)) : text.toList.getLast? = some a := by
  rcases List.eq_nil_or_concat text.toList with empty | ⟨front, b, chars⟩
  · rw [traced, empty, List.map_nil, List.append_nil] at last
    split at last <;> cases last
  · rw [traced, chars, List.concat_eq_append, List.map_append, ← List.append_assoc, List.map_singleton,
      List.getLast?_concat] at last
    cases last
    rw [chars, List.concat_eq_append, List.getLast?_concat]

end

end BodyCursor

namespace Rule

/-- The body from a place in the code on, with the index of its symbol at each character, the first symbol
having the given index. -/
def tracedFrom (r : Rule) (identifier : Nat → String) (k : Nat) (c : BodyCursor) :
    List Symbol → List (Option Nat × Char)
  | [] => []
  | s :: code =>
    let replacement := r.replacementIn identifier c.depth s
    c.traced k s.spaced replacement
      ++ r.tracedFrom identifier (k + 1) (c.after s.nesting s.spaced replacement) code

/-- The body that is written with the given names in use, with the index of its symbol at each character. -/
def traced (r : Rule) (names : Names) : List (Option Nat × Char) :=
  r.tracedFrom (r.identifiersIn names) 0 .start r.code

/-- In the body, a word character of the symbol at index `i` of the code stands right in front of a word
character of another symbol, the one at index `j`. -/
def Fuses (r : Rule) (names : Names) (i j : Nat) : Prop :=
  i ≠ j ∧ ∃ a b, [(some i, a), (some j, b)] <:+: r.traced names ∧ isWordChar a ∧ isWordChar b

/-- Nothing but marks and no gap stands between two symbols, and the texts that they leave face each other with
word characters. -/
structure Glued (r : Rule) (identifier : Nat → String) (s : Symbol) (marks : List Symbol) (t : Symbol) :
    Prop where
  marks : ∀ m ∈ marks, m.isMark = true ∧ m.spaced = false
  unspaced : t.spaced = false
  ends : endsWithWord (r.textOf identifier s)
  starts : startsWithWord (r.textOf identifier t)

section
variable (r : Rule) (identifier : Nat → String) (k : Nat) (c : BodyCursor)

/-- Without the traces, the traced characters are those of the body. -/
lemma map_snd_tracedFrom (code : List Symbol) :
    (r.tracedFrom identifier k c code).map Prod.snd = (r.bodyFromIn identifier c code).toList := by
  induction code generalizing k c with
  | nil => rfl
  | cons s code ih =>
    rw [tracedFrom, bodyFromIn, List.map_append, String.toList_append, ih, BodyCursor.map_snd_traced]

/-- The traced characters of a rule are those of its body. -/
lemma map_snd_traced (names : Names) :
    (r.traced names).map Prod.snd = (r.body.run names).value.1.toList := by
  rw [traced, map_snd_tracedFrom, body_value]

/-- The trace of code goes on behind its first part from where the cursor is then. -/
lemma tracedFrom_append (front back : List Symbol) :
    r.tracedFrom identifier k c (front ++ back) = r.tracedFrom identifier k c front
      ++ r.tracedFrom identifier (k + front.length) (r.cursorAfter identifier c front) back := by
  induction front generalizing k c with
  | nil => rfl
  | cons s front ih =>
    rw [List.cons_append, tracedFrom, tracedFrom, ih, List.append_assoc, List.length_cons,
      Nat.add_right_comm, Nat.add_assoc]
    rfl

end

/-! ## Which symbols fuse -/

section
variable (r : Rule) (identifier : Nat → String) {s t : Symbol}

/-- A symbol ends a statement, leaves nothing or leaves its text, and then its text is no comma or mark. -/
lemma replacementIn_cases (s : Symbol) (depth : Int) :
    (s.is .reservedSymbol "," = true ∧ r.replacementIn identifier depth s = .lineEnd)
      ∨ (s.isMark = true ∧ r.replacementIn identifier depth s = .nothing)
      ∨ r.replacementIn identifier depth s = .piece (r.textOf identifier s) := by
  rw [replacementIn_eq]
  split
  case isTrue ends =>
    rw [Bool.and_eq_true] at ends
    exact .inl ⟨ends.1, rfl⟩
  case isFalse =>
    split
    case isTrue mark => exact .inr (.inl ⟨mark, rfl⟩)
    case isFalse => exact .inr (.inr rfl)

/-- A reserved symbol other than the dollar sign is written as it is. -/
lemma textOf_of_reserved {text : String} (is : s.is .reservedSymbol text = true) (other : text ≠ "$") :
    r.textOf identifier s = text := by
  obtain ⟨kind, rfl⟩ := Symbol.is_iff.1 is
  have bare : s.isQuotedAtom = false := by simp [Symbol.isQuotedAtom, kind]
  rw [textOf, Symbol.placeholder?_of_bare bare]
  simp [Symbol.ownText, Symbol.is, bare, kind, other]

/-- A symbol whose text has a word character at one of its ends is written, wherever it stands. -/
lemma replacementIn_of_word (depth : Int)
    (word : startsWithWord (r.textOf identifier s) ∨ endsWithWord (r.textOf identifier s)) :
    r.replacementIn identifier depth s = .piece (r.textOf identifier s) := by
  rcases r.replacementIn_cases identifier s depth with ⟨comma, _⟩ | ⟨mark, _⟩ | written
  · rw [r.textOf_of_reserved identifier comma (by decide)] at word
    exact absurd word (by decide)
  · rw [r.textOf_of_reserved identifier mark (by decide)] at word
    exact absurd word (by decide)
  · exact written

/-- A mark is written as nothing, and opens and closes no bracket. -/
lemma replacementIn_of_isMark (mark : s.isMark = true) (depth : Int) :
    r.replacementIn identifier depth s = .nothing ∧ s.nesting = 0 := by
  obtain ⟨kind, text⟩ := Symbol.is_iff.1 mark
  have noComma : s.is .reservedSymbol "," = false := by simp [Symbol.is, text]
  constructor
  · rw [replacementIn_eq, noComma, mark]
    rfl
  · simp [Symbol.nesting, kind, text]

/-- Unspaced marks leave nothing, and nothing changes behind them within a line. -/
lemma tracedFrom_marks (k : Nat) (depth : Int) {marks : List Symbol}
    (dropped : ∀ m ∈ marks, m.isMark = true ∧ m.spaced = false) (later : List Symbol) :
    r.tracedFrom identifier k ⟨depth, false, false⟩ (marks ++ later) =
      r.tracedFrom identifier (k + marks.length) ⟨depth, false, false⟩ later := by
  induction marks generalizing k with
  | nil => rfl
  | cons m marks ih =>
    obtain ⟨⟨mark, unspaced⟩, others⟩ := List.forall_mem_cons.1 dropped
    obtain ⟨becomes, level⟩ := r.replacementIn_of_isMark identifier mark depth
    rw [List.cons_append, tracedFrom, becomes, level, unspaced, BodyCursor.traced, List.nil_append,
      BodyCursor.after, Int.add_zero, Bool.or_false, ih _ others, List.length_cons, Nat.add_right_comm,
      Nat.add_assoc]

/-- Symbols that are glued fuse. -/
lemma tracedFrom_glued (k : Nat) (c : BodyCursor) (front back : List Symbol) {marks : List Symbol}
    (glued : r.Glued identifier s marks t) :
    ∃ a b, [(some (k + front.length), a), (some (k + front.length + marks.length + 1), b)] <:+:
        r.tracedFrom identifier k c (front ++ s :: (marks ++ t :: back)) ∧ isWordChar a ∧ isWordChar b := by
  have index : k + front.length + 1 + marks.length = k + front.length + marks.length + 1 := by omega
  rw [tracedFrom_append, tracedFrom, r.replacementIn_of_word identifier _ (.inr glued.ends), BodyCursor.after,
    r.tracedFrom_marks identifier _ _ glued.marks, tracedFrom,
    r.replacementIn_of_word identifier _ (.inl glued.starts), glued.unspaced, index]
  obtain ⟨before, a, last, wordA⟩ := BodyCursor.traced_of_endsWithWord
    (r.cursorAfter identifier c front) s.spaced (k + front.length) glued.ends
  obtain ⟨b, after, first, wordB⟩ := BodyCursor.traced_of_startsWithWord
    ((r.cursorAfter identifier c front).depth + s.nesting) (k + front.length + marks.length + 1) glued.starts
  rw [last, first]
  refine ⟨a, b, ?_, wordA, wordB⟩
  generalize r.tracedFrom identifier _ _ back = rest
  exact ⟨r.tracedFrom identifier k c front ++ before, after ++ rest, by simp⟩

/-- The first character of a body from a place on within a line belongs to the first symbol that is no
mark. -/
lemma of_head?_tracedFrom {k j : Nat} {depth : Int} {pending : Bool} {code : List Symbol} {b : Char}
    (filled : ∀ s ∈ code, r.textOf identifier s ≠ "")
    (head : (r.tracedFrom identifier k ⟨depth, false, pending⟩ code).head? = some (some j, b)) :
    pending = false ∧ ∃ marks t back, code = marks ++ t :: back ∧ j = k + marks.length
      ∧ (∀ m ∈ marks, m.isMark = true ∧ m.spaced = false) ∧ t.spaced = false
      ∧ (r.textOf identifier t).toList.head? = some b := by
  induction code generalizing k depth pending with
  | nil => cases head
  | cons s code ih =>
    obtain ⟨own, others⟩ := List.forall_mem_cons.1 filled
    rw [tracedFrom] at head
    rcases r.replacementIn_cases identifier s depth with ⟨_, ends⟩ | ⟨mark, dropped⟩ | written
    · rw [ends] at head
      cases head
    · rw [dropped, BodyCursor.traced, List.nil_append, BodyCursor.after] at head
      obtain ⟨quiet, marks, t, back, rfl, rfl, unspaced, rest⟩ := ih others head
      rw [Bool.or_eq_false_iff] at quiet
      have index : k + 1 + marks.length = k + (s :: marks).length := by
        rw [List.length_cons]
        omega
      exact ⟨quiet.1, s :: marks, t, back, rfl, index, List.forall_mem_cons.2 ⟨⟨mark, quiet.2⟩, unspaced⟩, rest⟩
    · obtain ⟨c, cs, chars⟩ := List.exists_cons_of_ne_nil fun e => own (String.toList_eq_nil_iff.1 e)
      rw [written, BodyCursor.traced, chars] at head
      split at head
      case isTrue gap => cases head
      case isFalse close =>
        cases head
        simp only [Bool.not_false, Bool.true_and, Bool.not_eq_true, Bool.or_eq_false_iff] at close
        exact ⟨close.2, [], s, code, rfl, rfl, List.forall_mem_nil _, close.1, congrArg List.head? chars⟩

end

/-- Two neighbours in a list of two parts stand in one of the parts, or where the parts meet. -/
lemma pair_infix_append {α : Type} {x y : α} {l l' : List α} (h : [x, y] <:+: l ++ l') :
    [x, y] <:+: l ∨ (l.getLast? = some x ∧ l'.head? = some y) ∨ [x, y] <:+: l' := by
  obtain ⟨u, v, e⟩ := h
  have whole : u ++ [x] ++ y :: v = l ++ l' := by simpa using e
  rcases List.append_eq_append_iff.1 whole with ⟨m, first, second⟩ | ⟨m, first, second⟩
  · cases m with
    | nil =>
      rw [List.nil_append] at second
      exact .inr (.inl (by simp [first, ← second]))
    | cons _ m =>
      cases second
      exact .inl ⟨u, m, by simp [first]⟩
  · rcases List.eq_nil_or_concat m with rfl | ⟨m, x', rfl⟩
    · rw [List.append_nil] at first
      exact .inr (.inl (by simp [← first, second]))
    · rw [List.concat_eq_append, ← List.append_assoc] at first
      obtain ⟨_, same⟩ := List.append_inj' first rfl
      cases same
      exact .inr (.inr ⟨m, v, by simp [second]⟩)

/-- Symbols that fuse are glued. -/
lemma glued_of_infix (r : Rule) (identifier : Nat → String) {k i j : Nat} {c : BodyCursor} {code : List Symbol}
    {a b : Char} (filled : ∀ s ∈ code, r.textOf identifier s ≠ "") (apart : i ≠ j)
    (wordA : isWordChar a) (wordB : isWordChar b)
    (h : [(some i, a), (some j, b)] <:+: r.tracedFrom identifier k c code) :
    ∃ front s marks t back, code = front ++ s :: (marks ++ t :: back) ∧ i = k + front.length
      ∧ j = i + marks.length + 1 ∧ r.Glued identifier s marks t := by
  induction code generalizing k c with
  | nil =>
    obtain ⟨u, v, e⟩ := h
    simp [tracedFrom] at e
  | cons s code ih =>
    obtain ⟨own, others⟩ := List.forall_mem_cons.1 filled
    rw [tracedFrom] at h
    rcases pair_infix_append h with inside | ⟨last, first⟩ | later
    · -- all characters of one replacement have the same index
      have memA : (some i, a) ∈ [(some i, a), (some j, b)] := List.mem_cons_self
      have memB : (some j, b) ∈ [(some i, a), (some j, b)] := List.mem_cons_of_mem _ List.mem_cons_self
      have indexA := BodyCursor.index_of_mem_traced c s.spaced (inside.subset memA)
      have indexB := BodyCursor.index_of_mem_traced c s.spaced (inside.subset memB)
      exact absurd (indexA.trans indexB.symm) apart
    · have index := BodyCursor.index_of_mem_traced c s.spaced (List.mem_of_getLast? last)
      rcases r.replacementIn_cases identifier s c.depth with ⟨_, ends⟩ | ⟨_, dropped⟩ | written
      · rw [ends] at last
        cases last
      · rw [dropped] at last
        cases last
      · rw [written] at last first
        have ends := BodyCursor.getLast?_of_traced c s.spaced last
        obtain ⟨_, marks, t, back, rfl, rfl, dropped, unspaced, starts⟩ :=
          r.of_head?_tracedFrom identifier others first
        refine ⟨[], s, marks, t, back, rfl, index, by omega, dropped, unspaced, ?_, ?_⟩
        · rw [endsWithWord, ends]
          exact wordA
        · rw [startsWithWord, starts]
          exact wordB
    · obtain ⟨front, s', marks, t, back, rfl, rfl, index, glued⟩ := ih others later
      exact ⟨s :: front, s', marks, t, back, rfl, by rw [List.length_cons]; omega, index, glued⟩

/-- Word characters of two symbols are neighbours in the body exactly if the symbols are glued. -/
lemma fuses_iff {r : Rule} {names : Names} (filled : ∀ s ∈ r.code, r.textOf (r.identifiersIn names) s ≠ "")
    {i j : Nat} : r.Fuses names i j ↔ ∃ front s marks t back, r.code = front ++ s :: (marks ++ t :: back)
      ∧ i = front.length ∧ j = i + marks.length + 1 ∧ r.Glued (r.identifiersIn names) s marks t := by
  constructor
  · rintro ⟨apart, a, b, h, wordA, wordB⟩
    have found := r.glued_of_infix _ filled apart wordA wordB h
    simpa only [Nat.zero_add] using found
  · rintro ⟨front, s, marks, t, back, code, rfl, rfl, glued⟩
    have found := r.tracedFrom_glued _ 0 .start front back glued
    rw [Nat.zero_add, ← code] at found
    exact ⟨by omega, found⟩

end Rule

/-! ## Texts of symbols -/

/-- Exchanging quotes leaves a text that is not empty so. -/
lemma requoted_ne_empty {text : String} (h : text ≠ "") : requoted text ≠ "" := by
  rwa [ne_eq, ← String.toList_eq_nil_iff, requoted, String.toList_ofList, List.map_eq_nil_iff,
    String.toList_eq_nil_iff]

/-- No fixed name is empty. -/
lemma Names.fixed_ne_empty {quoted name : String} (h : (quoted, name) ∈ wellKnownNames) : name ≠ "" := by
  have filled : ∀ entry ∈ wellKnownNames, entry.2 ≠ "" := by decide +kernel
  exact filled _ h

/-- A symbol that is not empty has a name that is not. -/
lemma Names.nameFor_ne_empty (names : Names) {text : String} (h : text ≠ "") : names.nameFor text ≠ "" := by
  by_cases quoted : Quoted (requoted text)
  · rcases names.nameFor_of_quoted quoted with known | ⟨k, e⟩
    · exact fixed_ne_empty known
    · intro empty
      have first := head?_numbered k
      rw [← e, empty] at first
      cases first
  · rw [names.nameFor_of_bare quoted]
    exact requoted_ne_empty h

namespace Symbol
variable {s : Symbol}

/-- A symbol that is not empty is written as something in code. -/
lemma ownText_ne_empty (h : s.text ≠ "") : s.ownText ≠ "" := by
  have atom (text : String) : codeAtom text ≠ "" := by
    rw [codeAtom, ne_eq, ← String.toList_eq_nil_iff]
    split <;> simp
  rw [ownText]
  repeat' split
  · decide
  · decide
  · exact atom _
  · exact h

end Symbol

/-- Every symbol of the code is written as something, with the names of a rule. -/
lemma Rule.textOf_ne_empty {r : Rule} (names : Names) (symbols : ∀ s ∈ r.symbols, s.text ≠ "") {s : Symbol}
    (own : s.text ≠ "") : r.textOf (r.identifier names) s ≠ "" := by
  rw [textOf]
  cases refers : s.placeholder? with
  | none => exact s.ownText_ne_empty own
  | some position =>
    have counted := Symbol.placeholder?_pos refers
    dsimp only
    split
    case isTrue within =>
      have inside : position - 1 < r.symbols.length := by omega
      rw [identifier, List.getElem?_eq_getElem inside]
      exact names.nameFor_ne_empty (symbols _ (List.getElem_mem inside))
    case isFalse past => exact s.ownText_ne_empty own

/-- The text of a symbol that is read is not empty. -/
lemma Grammar.text_ne_empty_of_read {text : String} {g : Grammar}
    (read : ofTokens (Scan.ofText text).tokens = .ok g) {s : Symbol} (mem : .symbol s ∈ g.pieces) :
    s.text ≠ "" := by
  obtain ⟨k, _, word⟩ := word_of_read read mem
  intro empty
  rw [empty] at word
  exact Token.Kind.nil_notMem_words word

namespace Rule
variable {r : Rule} {identifier : Nat → String} {s t : Symbol}

/-- A symbol that is no quoted atom is written as its own text. -/
lemma textOf_of_bare (bare : s.isQuotedAtom = false) : r.textOf identifier s = s.ownText := by
  rw [textOf, Symbol.placeholder?_of_bare bare]

/-- Its own text is its text, but for the dollar sign and the word `do`. -/
lemma ownText_of_bare (bare : s.isQuotedAtom = false) :
    s.ownText = "?" ∨ (s.text = "do" ∧ s.ownText = ":do") ∨ s.ownText = s.text := by
  rw [Symbol.ownText, bare]
  split
  · exact .inl rfl
  · split
    case isTrue word => exact .inr (.inl ⟨(Symbol.is_iff.1 word).2, rfl⟩)
    case isFalse => exact .inr (.inr rfl)

/-- A symbol that leaves a word character at the end ends with one itself, unless it is a quoted atom. -/
lemma endsWithWord_text (closed : s.Closed) (ends : endsWithWord (r.textOf identifier s)) :
    endsWithWord s.text ↔ s.isQuotedAtom = false := by
  constructor
  · intro own
    by_contra quoted
    obtain ⟨u, text⟩ := closed (by simpa using quoted)
    rw [endsWithWord, text, List.getLast?_concat] at own
    cases own
  · intro bare
    rw [textOf_of_bare bare] at ends
    rcases ownText_of_bare bare with e | ⟨text, _⟩ | e
    · rw [e] at ends
      cases ends
    · rw [text]
      rfl
    · rwa [e] at ends

/-- A symbol that leaves a word character at the start starts with one itself, unless it is a quoted atom. -/
lemma startsWithWord_text (starts : startsWithWord (r.textOf identifier t)) :
    startsWithWord t.text ↔ t.isQuotedAtom = false := by
  constructor
  · intro own
    by_contra quoted
    rw [Bool.not_eq_false, Symbol.isQuotedAtom_iff] at quoted
    rw [startsWithWord, quoted.2] at own
    cases own
  · intro bare
    rw [textOf_of_bare bare] at starts
    rcases ownText_of_bare bare with e | ⟨_, e⟩ | e
    · rw [e] at starts
      cases starts
    · rw [e] at starts
      cases starts
    · rwa [e] at starts

end Rule

/-! ## Where symbols stand in their text -/

/-- A symbol stands in a text right behind the given part of it. -/
def Symbol.StandsBehind (text before : String) (s : Symbol) : Prop :=
  ∃ after, text = before ++ s.text ++ after ∧ s.region = ⟨.behind before, .behind (before ++ s.text)⟩

/-- A symbol stands in a text right in front of another one, and they face each other with word characters. -/
structure Symbol.FacesIn (text : String) (s t : Symbol) : Prop where
  behind : ∃ before, s.StandsBehind text before ∧ t.StandsBehind text (before ++ s.text)
  ends : endsWithWord s.text
  starts : startsWithWord t.text

/-- First parts of a text are equal if they have the same number of bytes. -/
lemma eq_of_utf8ByteSize {before before' after after' : String} (text : before ++ after = before' ++ after')
    (bytes : before.utf8ByteSize = before'.utf8ByteSize) : before = before' := by
  have arrays := congrArg String.toByteArray text
  rw [String.toByteArray_append, String.toByteArray_append] at arrays
  exact String.toByteArray_inj.1 (ByteArray.append_inj_left arrays bytes)

/-- A symbol stands behind one part of a text only. -/
lemma Symbol.StandsBehind.unique {text before before' : String} {s : Symbol} (h : s.StandsBehind text before)
    (h' : s.StandsBehind text before') : before = before' := by
  obtain ⟨after, whole, region⟩ := h
  obtain ⟨after', whole', region'⟩ := h'
  rw [String.append_assoc] at whole whole'
  refine eq_of_utf8ByteSize (whole.symm.trans whole') ?_
  exact congrArg (fun place : Region => place.start.index) (region.symm.trans region')

namespace Grammar
variable {text : String} {g : Grammar} {s t : Symbol} {before : String}

/-- A symbol of a tree stands somewhere in the text that is read. -/
lemma standsBehind_of_read (read : (readGrammar text).value = .ok g) (mem : .symbol s ∈ g.pieces) :
    ∃ before, s.StandsBehind text before := by
  obtain ⟨k, piece⟩ := List.mem_iff_getElem?.1 mem
  obtain ⟨token, found, own, place, _⟩ := notesGaps_of_read read k s piece
  obtain ⟨before, after, whole, region⟩ := (Scan.exact_ofText text).places token (List.mem_of_getElem? found)
  exact ⟨before, after, by rw [own, whole], by rw [own, place, region]⟩

/-- An unspaced symbol starts where the one before it ends. -/
lemma stop_eq_start (read : (readGrammar text).value = .ok g)
    (pair : [.symbol s, .symbol t] <:+: g.pieces) (unspaced : t.spaced = false) :
    s.region.stop.index = t.region.start.index := by
  obtain ⟨u, v, e⟩ := pair
  have piece : g.pieces[u.length]? = some (.symbol s) := by simp [← e]
  have piece' : g.pieces[u.length + 1]? = some (.symbol t) := by simp [← e]
  obtain ⟨token, found, _, place, _⟩ := notesGaps_of_read read _ s piece
  obtain ⟨token', found', _, place', gap⟩ := notesGaps_of_read read _ t piece'
  have order : token.region.stop.index ≤ token'.region.start.index := by
    obtain ⟨first, rfl⟩ := List.getElem?_eq_some_iff.1 found
    obtain ⟨second, rfl⟩ := List.getElem?_eq_some_iff.1 found'
    exact List.pairwise_iff_getElem.1 (Scan.exact_ofText text).increasing _ _ first second (Nat.lt_succ_self _)
  have close : ¬ token.region.stop.index < token'.region.start.index := by
    intro lt
    have separated := gap.2 ⟨_, token, rfl, found, (Scan.lt_iff_separated found found').1 lt⟩
    simp [unspaced] at separated
  rw [place, place']
  omega

/-- So it stands right behind that symbol. -/
lemma standsBehind_next (read : (readGrammar text).value = .ok g)
    (pair : [.symbol s, .symbol t] <:+: g.pieces) (unspaced : t.spaced = false)
    (behind : s.StandsBehind text before) : t.StandsBehind text (before ++ s.text) := by
  have meet := stop_eq_start read pair unspaced
  obtain ⟨before', own⟩ := standsBehind_of_read read (pair.subset (List.mem_cons_of_mem _ List.mem_cons_self))
  obtain ⟨after, whole, region⟩ := behind
  obtain ⟨after', whole', region'⟩ := own
  rw [region, region'] at meet
  have same : before ++ s.text = before' := by
    rw [String.append_assoc] at whole'
    exact eq_of_utf8ByteSize (whole.symm.trans whole') meet
  rw [same]
  exact ⟨after', whole', region'⟩

/-- Behind a symbol, unspaced ones stand one after the other. -/
lemma standsBehind_run (read : (readGrammar text).value = .ok g) {marks : List Symbol}
    (run : (s :: (marks ++ [t])).map .symbol <:+: g.pieces) (unspaced : ∀ m ∈ marks, m.spaced = false)
    (last : t.spaced = false) (behind : s.StandsBehind text before) :
    t.StandsBehind text (before ++ s.text ++ String.join (marks.map (·.text))) := by
  induction marks generalizing s before with
  | nil =>
    rw [List.map_nil, String.join_nil, String.append_empty]
    exact standsBehind_next read run last behind
  | cons m marks ih =>
    obtain ⟨first, others⟩ := List.forall_mem_cons.1 unspaced
    have pair : [.symbol s, .symbol m] <:+: g.pieces :=
      List.IsInfix.trans (List.prefix_append _ _).isInfix run
    have rest : (m :: (marks ++ [t])).map .symbol <:+: g.pieces :=
      List.IsInfix.trans (List.suffix_cons _ _).isInfix run
    have next := ih rest others (standsBehind_next read pair first behind)
    rwa [List.map_cons, String.join_cons, ← String.append_assoc]

end Grammar

namespace Rule

/-- Where the body that is written with the given names in use joins words of a rule of a text. -/
structure JoinsWords (r : Rule) (text : String) (names : Names) : Prop where
  traced : (r.traced names).map Prod.snd = (r.body.run names).value.1.toList
  fuses_iff : ∀ i j, r.Fuses names i j ↔ ∃ front s marks t back, r.code = front ++ s :: (marks ++ t :: back)
    ∧ i = front.length ∧ j = i + marks.length + 1 ∧ r.Glued (r.identifiersIn names) s marks t
  /-- In the text, nothing but the marks stands between two symbols that are glued. -/
  between : ∀ front s marks t back, r.code = front ++ s :: (marks ++ t :: back) →
    r.Glued (r.identifiersIn names) s marks t → ∃ before, s.StandsBehind text before
      ∧ t.StandsBehind text (before ++ s.text ++ String.join (marks.map (·.text)))
  /-- They face each other there, too, unless there is a mark or one of them is a quoted atom. -/
  faces_iff : ∀ front s marks t back, r.code = front ++ s :: (marks ++ t :: back) →
    r.Glued (r.identifiersIn names) s marks t →
      (s.FacesIn text t ↔ marks = [] ∧ s.isQuotedAtom = false ∧ t.isQuotedAtom = false)

section
variable {text : String} {g : Grammar} {r : Rule} {names : Names}

/-- So nothing that a body writes for a symbol is empty. -/
lemma textOf_ne_empty_of_read (read : Grammar.ofTokens (Scan.ofText text).tokens = .ok g) (mem : r ∈ g.rules)
    (names : Names) : ∀ s ∈ r.code, r.textOf (r.identifiersIn names) s ≠ "" := by
  have inText {p : Piece} (inside : p ∈ r.pieces) : p ∈ g.pieces :=
    List.mem_flatMap.2 ⟨_, Grammar.mem_rules.1 mem, inside⟩
  intro s inCode
  refine textOf_ne_empty _ (fun s' inSymbols => ?_) ?_
  · exact Grammar.text_ne_empty_of_read read (inText (by simp [pieces, inSymbols]))
  · exact Grammar.text_ne_empty_of_read read (inText (r.code_infix_pieces.subset (List.mem_map_of_mem inCode)))

variable {front : List Symbol} {s : Symbol} {marks : List Symbol} {t : Symbol} {back : List Symbol}

/-- Symbols whose texts join stand in the text with nothing but marks in between. -/
lemma standsBehind_of_glued (read : (readGrammar text).value = .ok g) (mem : r ∈ g.rules)
    (code : r.code = front ++ s :: (marks ++ t :: back)) (glued : r.Glued (r.identifiersIn names) s marks t) :
    ∃ before, s.StandsBehind text before
      ∧ t.StandsBehind text (before ++ s.text ++ String.join (marks.map (·.text))) := by
  have run : s :: (marks ++ [t]) <:+: r.code := ⟨front, back, by simp [code]⟩
  have inText := (run.map Piece.symbol).trans (Grammar.code_infix_pieces (Grammar.mem_rules.1 mem))
  obtain ⟨before, behind⟩ := Grammar.standsBehind_of_read read (inText.subset List.mem_cons_self)
  have unspaced := fun m inMarks => (glued.marks m inMarks).2
  exact ⟨before, behind, Grammar.standsBehind_run read inText unspaced glued.unspaced behind⟩

/-- Marks leave something between the symbols in the text. -/
lemma Glued.marks_eq_nil {identifier : Nat → String} (glued : r.Glued identifier s marks t)
    (nothing : String.join (marks.map (·.text)) = "") : marks = [] := by
  cases marks with
  | nil => rfl
  | cons m marks =>
    obtain ⟨_, text⟩ := Symbol.is_iff.1 (glued.marks m List.mem_cons_self).1
    rw [List.map_cons, String.join_cons, text] at nothing
    simp at nothing

/-- Symbols whose texts join face each other in the text exactly if both are bare and have no marks in
between. -/
lemma facesIn_iff_of_glued (read : (readGrammar text).value = .ok g) (mem : r ∈ g.rules)
    (code : r.code = front ++ s :: (marks ++ t :: back)) (glued : r.Glued (r.identifiersIn names) s marks t) :
    s.FacesIn text t ↔ marks = [] ∧ s.isQuotedAtom = false ∧ t.isQuotedAtom = false := by
  obtain ⟨before, first, second⟩ := standsBehind_of_glued read mem code glued
  have closed := Grammar.closed_of_mem_code (readGrammar_eq_ok.1 read).2 mem s (by simp [code])
  have ends := endsWithWord_text closed glued.ends
  have starts := startsWithWord_text glued.starts
  constructor
  · rintro ⟨⟨before', first', second'⟩, own, own'⟩
    cases first.unique first'
    have same : before ++ s.text ++ "" = before ++ s.text ++ String.join (marks.map (·.text)) := by
      rw [String.append_empty]
      exact second'.unique second
    exact ⟨glued.marks_eq_nil ((String.append_right_inj _).1 same).symm, ends.1 own, starts.1 own'⟩
  · rintro ⟨rfl, bare, bare'⟩
    rw [List.map_nil, String.join_nil, String.append_empty] at second
    exact ⟨⟨before, first, second⟩, ends.2 bare, starts.2 bare'⟩

/-- The body of a rule of a text joins words of two symbols exactly if the symbols are glued. In the text, they
then stand side by side but for the marks, and face each other with word characters exactly if there is no mark
and neither of them is a quoted atom: the body joins words that a mark or a quote kept apart, and no others. -/
theorem joins_words (read : (readGrammar text).value = .ok g) (mem : r ∈ g.rules) (names : Names) :
    r.JoinsWords text names where
  traced := r.map_snd_traced names
  fuses_iff := fun _ _ => fuses_iff (textOf_ne_empty_of_read (readGrammar_eq_ok.1 read).2 mem names)
  between := fun _ _ _ _ _ => standsBehind_of_glued read mem
  faces_iff := fun _ _ _ _ _ => facesIn_iff_of_glued read mem

end

/-- A number and an atom right behind it. -/
theorem joins_words_number :
    ∃ g, (readGrammar "s -> x : 1a.").value = .ok g ∧ ∃ r ∈ g.rules, ∃ s t, r.code = [s, t]
      ∧ r.Fuses .empty 0 1 ∧ s.FacesIn "s -> x : 1a." t ∧ (r.body.run .empty).value.1 = "1a" := by
  let g := (readGrammar "s -> x : 1a.").value.toOption.getD ⟨[]⟩
  have read : (readGrammar "s -> x : 1a.").value = .ok g := by decide +kernel
  let r := g.rules.get ⟨0, by decide +kernel⟩
  have mem : r ∈ g.rules := List.get_mem _ _
  let s := r.code.get ⟨0, by decide +kernel⟩
  let t := r.code.get ⟨1, by decide +kernel⟩
  have code : r.code = [s, t] := by decide +kernel
  have glued : r.Glued (r.identifiersIn .empty) s [] t :=
    ⟨List.forall_mem_nil _, by decide +kernel, by decide +kernel, by decide +kernel⟩
  have joins := joins_words read mem .empty
  have fuses := (joins.fuses_iff 0 1).2 ⟨[], s, [], t, [], code, rfl, rfl, glued⟩
  have faces := (joins.faces_iff [] s [] t [] code glued).2 ⟨rfl, by decide +kernel, by decide +kernel⟩
  exact ⟨g, read, r, mem, s, t, code, fuses, faces, by decide +kernel⟩

/-- Two placeholders and an atom, which only the quotes kept apart, become one word. -/
theorem quotes_kept_apart :
    translation "s -> x y : '$1'and'$2'." = .ok "defr s(\x7b:x, x\x7d, \x7b:y, y\x7d), do: xandy"
      ∧ ¬ ∀ (text : String) (g : Grammar), (readGrammar text).value = .ok g → ∀ r ∈ g.rules,
        ∀ (names : Names) (i j : Nat), r.Fuses names i j → ∀ s t, r.code[i]? = some s → r.code[j]? = some t →
          s.FacesIn text t := by
  refine ⟨by decide +kernel, fun faces => ?_⟩
  let g := (readGrammar "s -> x y : '$1'and'$2'.").value.toOption.getD ⟨[]⟩
  have read : (readGrammar "s -> x y : '$1'and'$2'.").value = .ok g := by decide +kernel
  let r := g.rules.get ⟨0, by decide +kernel⟩
  have fuses : r.Fuses .empty 0 1 := ⟨by decide, 'x', 'a', by decide +kernel, by decide, by decide⟩
  have ends := (faces _ g read r (List.get_mem _ _) .empty 0 1 fuses (r.code.get ⟨0, by decide +kernel⟩)
    (r.code.get ⟨1, by decide +kernel⟩) (by decide +kernel) (by decide +kernel)).ends
  exact absurd ends (by decide +kernel)

end Rule

end YeccDefr
