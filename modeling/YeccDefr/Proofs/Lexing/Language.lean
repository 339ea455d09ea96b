import Mathlib.Computability.Language
import Mathlib.Data.List.TakeWhile
import YeccDefr.Proofs.Lexing.FirstChar

/-!
# The languages of lexemes

Each class of tokens has its language of words (`Token.Kind.words`). A word belongs to a language
exactly when its first character opens a lexeme and the others go on as the opening says
(`Token.Kind.cons_mem_words`), so the languages are disjoint (`Token.Kind.words_disjoint`), and the lexeme
that `Opening.finish` cuts off is the longest word at the start of the text
(`Opening.finish_longest`).

Cutting a text is therefore maximal munch (`MaximalMunch`): as long as some word starts the text, the
longest one is taken away (`Lexeme.cut_eq_iff`).
-/

namespace YeccDefr

namespace Token.Kind

/-- One or more characters that satisfy a test. -/
def runs (test : Char → Bool) : Language Char := {w | w ≠ [] ∧ ∀ c ∈ w, test c}

/-- A character that satisfies a test, and word characters after it. -/
def names (first : Char → Bool) : Language Char :=
  {w | ∃ c u, w = c :: u ∧ first c ∧ ∀ d ∈ u, isWordChar d}

/-- Characters between two quotes on one line. -/
def quotations (q : Char) : Language Char :=
  {w | ∃ u, w = q :: u ++ [q] ∧ ∀ c ∈ u, c ≠ q ∧ c ≠ '\n'}

/-- The words that are lexemes of a class. -/
def words : Kind → Language Char
  | whiteSpace => runs Text.isWhiteSpace
  | comment => {w | ∃ u, w = '%' :: u ∧ ∀ c ∈ u, c ≠ '\n'}
  | integer => runs Text.isDecimalDigit
  | float => {w | ∃ u ∈ runs Text.isDecimalDigit, ∃ v ∈ runs Text.isDecimalDigit, w = u ++ '.' :: v}
  | dot => {['.']}
  | arrow => {['-', '>']}
  | colon => {[':']}
  | var => names Char.isUpper
  | atom => names Char.isLower + quotations '\''
  | stringLiteral => quotations '"'
  | reservedSymbol => {w | ∃ c ∈ reservedChars, w = [c]}

end Token.Kind

open Token.Kind FirstChar

namespace Opening

/-- The characters of a lexeme after the first one go on as its opening says. -/
inductive Makes (c : Char) : Opening → Token.Kind → List Char → Prop where
  | run {kind goesOn u} :
    (∀ d ∈ u, goesOn d) →
    Makes c (.run kind goesOn) kind u
  | integer {u} :
    (∀ d ∈ u, Text.isDecimalDigit d) →
    Makes c .number .integer u
  | float {u d v} :
    (∀ e ∈ u, Text.isDecimalDigit e) →
    (∀ e ∈ d :: v, Text.isDecimalDigit e) →
    Makes c .number .float (u ++ '.' :: d :: v)
  | quoted {kind u} :
    (∀ d ∈ u, d ≠ c ∧ d ≠ '\n') →
    Makes c (.quote kind) kind (u ++ [c])
  | lone {kind} : Makes c (.quote kind) .reservedSymbol []
  | arrow : Makes c .dash .arrow ['>']
  | minus : Makes c .dash .reservedSymbol []
  | single {kind} : Makes c (.single kind) kind []

/-- A character opens what characters of its class open. -/
lemma of?_eq_some {c o} (h : Opening.of? c = some o) : ∃ k, of c = k ∧ k.opening? = some o :=
  ⟨of c, rfl, by rw [← opening?_of, h]⟩

/-- What a class of characters opens, its characters open. -/
lemma of?_of {c k o} (h : of c = k) (h' : k.opening? = some o) : Opening.of? c = some o := by
  rw [opening?_of, h, h']

end Opening

namespace Token.Kind

/-- No word is empty. -/
lemma nil_notMem_words {k : Kind} : [] ∉ k.words := by
  cases k with
  | whiteSpace | integer => exact fun h => h.1 rfl
  | float =>
    rintro ⟨u, _, v, _, e⟩
    simp at e
  | dot | arrow | colon => exact fun h => by cases h
  | atom =>
    rintro (⟨c, u, e, _⟩ | ⟨u, e, _⟩)
    · cases e
    · cases e
  | var =>
    rintro ⟨c, u, e, _⟩
    cases e
  | comment | stringLiteral =>
    rintro ⟨u, e, _⟩
    cases e
  | reservedSymbol =>
    rintro ⟨c, _, e⟩
    cases e

/-- The first character of a word opens lexemes of its class. -/
lemma makes_of_mem_words {c u} {k : Kind} (h : c :: u ∈ k.words) :
    ∃ o, Opening.of? c = some o ∧ o.Makes c k u := by
  cases k with
  | whiteSpace =>
    obtain ⟨_, all⟩ := h
    rw [List.forall_mem_cons] at all
    exact ⟨_, Opening.of?_of (of_eq_whiteSpace.2 all.1) rfl, .run all.2⟩
  | integer =>
    obtain ⟨_, all⟩ := h
    rw [List.forall_mem_cons] at all
    exact ⟨_, Opening.of?_of (of_eq_digit.2 all.1) rfl, .integer all.2⟩
  | float =>
    obtain ⟨u', ⟨nonempty, all⟩, v, ⟨nonempty', all'⟩, e⟩ := h
    obtain ⟨c, u', rfl⟩ := List.exists_cons_of_ne_nil nonempty
    obtain ⟨d, v, rfl⟩ := List.exists_cons_of_ne_nil nonempty'
    cases e
    rw [List.forall_mem_cons] at all
    exact ⟨_, Opening.of?_of (of_eq_digit.2 all.1) rfl, .float all.2 all'⟩
  | comment =>
    obtain ⟨u, e, all⟩ := h
    cases e
    exact ⟨_, Opening.of?_of (of_eq_percent.2 rfl) rfl, .run (by simpa using all)⟩
  | dot =>
    cases h
    exact ⟨_, Opening.of?_of (of_eq_dot.2 rfl) rfl, .single⟩
  | arrow =>
    cases h
    exact ⟨_, Opening.of?_of (of_eq_dash.2 rfl) rfl, .arrow⟩
  | colon =>
    cases h
    exact ⟨_, Opening.of?_of (of_eq_colon.2 rfl) rfl, .single⟩
  | var =>
    obtain ⟨c, u, e, first, all⟩ := h
    cases e
    exact ⟨_, Opening.of?_of (of_eq_upper.2 first) rfl, .run all⟩
  | atom =>
    rcases h with ⟨c, u, e, first, all⟩ | ⟨u, e, all⟩
    · cases e
      exact ⟨_, Opening.of?_of (of_eq_lower.2 first) rfl, .run all⟩
    · cases e
      exact ⟨_, Opening.of?_of (of_eq_apostrophe.2 rfl) rfl, .quoted all⟩
  | stringLiteral =>
    obtain ⟨u, e, all⟩ := h
    cases e
    exact ⟨_, Opening.of?_of (of_eq_quotationMark.2 rfl) rfl, .quoted all⟩
  | reservedSymbol =>
    obtain ⟨c, mem, e⟩ := h
    cases e
    have class_ := mem_reservedChars.1 mem
    simp only [List.mem_cons, List.not_mem_nil, or_false] at class_
    rcases class_ with h | h | h | h
    · exact ⟨_, Opening.of?_of h rfl, .lone⟩
    · exact ⟨_, Opening.of?_of h rfl, .lone⟩
    · exact ⟨_, Opening.of?_of h rfl, .minus⟩
    · exact ⟨_, Opening.of?_of h rfl, .single⟩

/-- What an opening makes behind its character is a word. -/
lemma mem_words_of_makes {c u o} {k : Kind} (h : Opening.of? c = some o) (makes : o.Makes c k u) :
    c :: u ∈ k.words := by
  obtain ⟨first, e, opens⟩ := Opening.of?_eq_some h
  have holds := holds_of e
  cases first <;> cases opens <;> cases makes
  case whiteSpace.refl.run all => exact ⟨nofun, List.forall_mem_cons.2 ⟨holds, all⟩⟩
  case digit.refl.integer all => exact ⟨nofun, List.forall_mem_cons.2 ⟨holds, all⟩⟩
  case digit.refl.float u d v all all' =>
    exact ⟨c :: u, ⟨nofun, List.forall_mem_cons.2 ⟨holds, all⟩⟩, d :: v, ⟨nofun, all'⟩, rfl⟩
  case upper.refl.run all => exact ⟨c, u, rfl, holds, all⟩
  case lower.refl.run all => exact .inl ⟨c, u, rfl, holds, all⟩
  case percent.refl.run all =>
    cases holds
    exact ⟨u, rfl, by simpa using all⟩
  case apostrophe.refl.quoted u all =>
    cases holds
    exact .inr ⟨u, rfl, all⟩
  case apostrophe.refl.lone =>
    cases holds
    exact ⟨_, by decide, rfl⟩
  case quotationMark.refl.quoted u all =>
    cases holds
    exact ⟨u, rfl, all⟩
  case quotationMark.refl.lone =>
    cases holds
    exact ⟨_, by decide, rfl⟩
  case dot.refl.single =>
    cases holds
    rfl
  case colon.refl.single =>
    cases holds
    rfl
  case dash.refl.arrow =>
    cases holds
    rfl
  case dash.refl.minus =>
    cases holds
    exact ⟨_, by decide, rfl⟩
  case reserved.refl.single => exact ⟨c, holds, rfl⟩

/-- The words are what their first characters open. -/
theorem cons_mem_words {c u} {k : Kind} :
    c :: u ∈ k.words ↔ ∃ o, Opening.of? c = some o ∧ o.Makes c k u :=
  ⟨makes_of_mem_words, fun ⟨_, opens, makes⟩ => mem_words_of_makes opens makes⟩

end Token.Kind

namespace Opening

/-- A dot is no digit. -/
lemma dot_not_digit : Text.isDecimalDigit '.' = false := by decide +kernel

/-- What a lexeme is made of tells its class. -/
lemma Makes.unique {c o k k' u} (h : Makes c o k u) (h' : Makes c o k' u) : k = k' := by
  -- only numbers and quotes leave a choice: for the dot inside, and for the closing quote
  cases h with
  | run => cases h'; rfl
  | integer all =>
    generalize e : u = w at h'
    cases h' with
    | integer => rfl
    | float =>
      subst e
      have dot := all '.' (by simp)
      rw [dot_not_digit] at dot
      cases dot
  | @float u d v all all' =>
    generalize e : u ++ '.' :: d :: v = w at h'
    cases h' with
    | integer all =>
      subst e
      have dot := all '.' (by simp)
      rw [dot_not_digit] at dot
      cases dot
    | float => rfl
  | @quoted kind u =>
    generalize e : u ++ [c] = w at h'
    cases h' with
    | quoted => rfl
    | lone => simp at e
  | lone =>
    generalize e : [] = w at h'
    cases h' with
    | quoted => simp at e
    | lone => rfl
  | arrow => cases h'; rfl
  | minus => cases h'; rfl
  | single => cases h'; rfl

end Opening

namespace Token.Kind

/-- No word belongs to two languages. -/
theorem words_disjoint {w} {k k' : Kind} (h : w ∈ k.words) (h' : w ∈ k'.words) : k = k' := by
  cases w with
  | nil => exact absurd h nil_notMem_words
  | cons c u =>
    obtain ⟨o, opens, makes⟩ := cons_mem_words.1 h
    obtain ⟨o', opens', makes'⟩ := cons_mem_words.1 h'
    rw [opens] at opens'
    cases opens'
    exact makes.unique makes'

end Token.Kind

namespace Opening

/-! ## The longest word -/

/-- All characters taken pass the test. -/
lemma takeWhile_all {test : Char → Bool} {cs : List Char} : ∀ c ∈ cs.takeWhile test, test c :=
  fun _ => List.mem_takeWhile_imp

/-- Characters that pass are taken up to the first one that does not. -/
lemma takeWhile_of_stops {test : Char → Bool} {u v : List Char} (all : ∀ c ∈ u, test c)
    (stops : ∀ c ∈ v.head?, ¬ test c) :
    (u ++ v).takeWhile test = u ∧ (u ++ v).dropWhile test = v := by
  rw [List.takeWhile_append_of_pos all, List.dropWhile_append_of_pos all]
  cases v with
  | nil => simp
  | cons c v => simp [stops c rfl]

/-- No fewer characters are taken than pass at the start. -/
lemma length_le_takeWhile {test : Char → Bool} {u v : List Char} (all : ∀ c ∈ u, test c) :
    u.length ≤ ((u ++ v).takeWhile test).length := by
  rw [List.takeWhile_append_of_pos all, List.length_append]
  omega

/-- What is finished behind an opening is something that it makes. -/
lemma finish_makes (c : Char) (cs : List Char) (o : Opening) :
    ∃ u, (o.finish c cs).1.chars = c :: u ∧ o.Makes c (o.finish c cs).1.kind u := by
  cases o with
  | run kind goesOn => exact ⟨_, rfl, .run takeWhile_all⟩
  | number =>
    simp only [finish, finishNumber]
    split
    · rename_i d rest _
      split
      · rename_i digit
        exact ⟨_, rfl, .float takeWhile_all (List.forall_mem_cons.2 ⟨digit, takeWhile_all⟩)⟩
      · exact ⟨_, rfl, .integer takeWhile_all⟩
    · exact ⟨_, rfl, .integer takeWhile_all⟩
  | quote kind =>
    simp only [finish, finishQuote]
    split
    · split
      · refine ⟨_, rfl, .quoted fun d mem => ?_⟩
        simpa using takeWhile_all d mem
      · exact ⟨_, rfl, .lone⟩
    · exact ⟨_, rfl, .lone⟩
  | dash =>
    simp only [finish]
    split
    · rename_i next
      exact ⟨_, rfl, .arrow⟩
    · exact ⟨_, rfl, .minus⟩
  | single kind => exact ⟨_, rfl, .single⟩

/-- Nothing longer could be made of the same text. -/
lemma finish_longest {c : Char} {u v : List Char} {o : Opening} {k} (h : o.Makes c k u) :
    (c :: u).length ≤ (o.finish c (u ++ v)).1.chars.length := by
  cases h with
  | run all =>
    have := length_le_takeWhile (v := v) all
    simp only [finish, List.length_cons]
    omega
  | integer all =>
    have := length_le_takeWhile (v := v) all
    simp only [finish, finishNumber]
    split
    · split
      · simp only [List.cons_append, List.length_cons, List.length_append]
        omega
      · simp only [List.length_cons]
        omega
    · simp only [List.length_cons]
      omega
  | @float u d w all all' =>
    -- the digits stop at the dot, and the dot is followed by a digit
    rw [List.forall_mem_cons] at all'
    have stops : ∀ e ∈ ('.' :: d :: (w ++ v)).head?, ¬ Text.isDecimalDigit e := by
      rintro e ⟨⟩
      simp [dot_not_digit]
    obtain ⟨taken, dropped⟩ := takeWhile_of_stops all stops
    have := length_le_takeWhile (v := v) all'.2
    simp only [finish, finishNumber, List.append_assoc, List.cons_append, taken, dropped, all'.1,
      if_true, List.length_cons, List.length_append]
    omega
  | @quoted kind u all =>
    -- the closing quote is the first quote or line feed after the opening one
    have inside : ∀ d ∈ u, (d ≠ c && d ≠ '\n') = true := by simpa using all
    have stops : ∀ d ∈ (c :: v).head?, ¬ (d ≠ c && d ≠ '\n') = true := by simp
    obtain ⟨taken, dropped⟩ := takeWhile_of_stops inside stops
    simp only [finish, finishQuote, List.append_assoc, List.cons_append, List.nil_append, taken,
      dropped, if_true, List.length_cons, List.length_append]
    omega
  | lone => exact List.length_pos_iff.2 (finish_ne_nil _ _ _)
  | arrow => simp [finish]
  | minus => exact List.length_pos_iff.2 (finish_ne_nil _ _ _)
  | single => exact List.length_pos_iff.2 (finish_ne_nil _ _ _)

end Opening

/-- A lexeme is the longest word at the start of a text. -/
structure Lexeme.Longest (cs : List Char) (l : Lexeme) : Prop where
  word : l.chars ∈ l.kind.words
  starts : l.chars <+: cs
  longest : ∀ {k : Token.Kind} {w}, w ∈ k.words → w <+: cs → w.length ≤ l.chars.length

/-- No word starts a text. -/
def NoWord (cs : List Char) : Prop := ∀ {k : Token.Kind} {w}, w ∈ k.words → ¬ w <+: cs

/-- The longest word is taken away from a text again and again, until no word starts the text. -/
inductive MaximalMunch : List Char → List Lexeme → List Char → Prop where
  | stop {cs} :
    NoWord cs →
    MaximalMunch cs [] cs
  | next {l ls cs rest} :
    l.Longest (l.chars ++ cs) →
    MaximalMunch cs ls rest →
    MaximalMunch (l.chars ++ cs) (l :: ls) rest

namespace Lexeme

/-- A text has one longest lexeme at its start. -/
lemma Longest.unique {cs l l'} (h : Longest cs l) (h' : Longest cs l') : l = l' := by
  have length : l.chars.length = l'.chars.length :=
    Nat.le_antisymm (h'.longest h.word h.starts) (h.longest h'.word h'.starts)
  have chars : l.chars = l'.chars :=
    (List.prefix_of_prefix_length_le h.starts h'.starts length.le).eq_of_length length
  have word := h.word
  rw [chars] at word
  have kind := words_disjoint word h'.word
  cases l
  cases l'
  cases chars
  cases kind
  rfl

/-- What the first character opens is the longest word. -/
theorem longest_finish {c o} (h : Opening.of? c = some o) (cs : List Char) :
    Longest (c :: cs) (o.finish c cs).1 where
  word := by
    obtain ⟨u, e, makes⟩ := o.finish_makes c cs
    rw [e]
    exact cons_mem_words.2 ⟨o, h, makes⟩
  starts := ⟨_, o.finish_append c cs⟩
  longest := by
    rintro k w word ⟨v, e⟩
    cases w with
    | nil => exact absurd word nil_notMem_words
    | cons d u =>
      cases e
      obtain ⟨o', opens, makes⟩ := cons_mem_words.1 word
      rw [h] at opens
      cases opens
      exact Opening.finish_longest makes

/-- No word starts with a character that opens nothing. -/
theorem noWord_of_none {c} (h : Opening.of? c = none) (cs : List Char) : NoWord (c :: cs) := by
  rintro k w word ⟨v, e⟩
  cases w with
  | nil => exact nil_notMem_words word
  | cons d u =>
    cases e
    obtain ⟨o, opens, _⟩ := cons_mem_words.1 word
    rw [h] at opens
    cases opens

/-- No word starts an empty text. -/
lemma noWord_nil : NoWord [] := by
  rintro k w word starts
  cases List.prefix_nil.1 starts
  exact nil_notMem_words word

/-- Cutting takes the longest lexeme again and again. -/
lemma cut_munches (cs : List Char) : MaximalMunch cs (cut cs).1 (cut cs).2 := by
  induction cs using cut.induct with
  | case1 =>
    rw [cut]
    exact .stop noWord_nil
  | case2 c cs h =>
    rw [cut, h]
    exact .stop (noWord_of_none h cs)
  | case3 c cs o h ih =>
    rw [cut, h]
    have longest := longest_finish h cs
    rw [← o.finish_append c cs] at longest
    have munch := MaximalMunch.next longest ih
    rwa [o.finish_append] at munch

end Lexeme

/-- There is one way to take the longest lexeme again and again. -/
lemma MaximalMunch.unique {cs ls ls' rest rest'} (h : MaximalMunch cs ls rest)
    (h' : MaximalMunch cs ls' rest') : ls = ls' ∧ rest = rest' := by
  induction h generalizing ls' with
  | stop none =>
    cases h' with
    | stop => exact ⟨rfl, rfl⟩
    | next longest => exact absurd longest.starts (none longest.word)
  | @next l ls cs rest longest munch ih =>
    generalize e : l.chars ++ cs = text at h'
    cases h' with
    | stop none =>
      subst e
      exact absurd longest.starts (none longest.word)
    | @next l' ls' cs' _ longest' munch' =>
      rw [e] at longest
      cases longest.unique longest'
      cases List.append_cancel_left e
      obtain ⟨rfl, rfl⟩ := ih munch'
      exact ⟨rfl, rfl⟩

/-- A text is cut into lexemes by maximal munch over the languages of words. -/
theorem Lexeme.cut_eq_iff {cs ls rest} : cut cs = (ls, rest) ↔ MaximalMunch cs ls rest := by
  constructor
  · intro e
    have munch := cut_munches cs
    rwa [e] at munch
  · intro munch
    obtain ⟨lexemes, left⟩ := (cut_munches cs).unique munch
    exact Prod.ext lexemes left

end YeccDefr
