import Mathlib.Order.Monotone.Defs
import YeccDefr.Proofs.Grammar.Sequence

/-!
# Reading on after an error

A reader that fails keeps the tokens it has not taken, and a later reading goes on with them
(`Reader.leftAfter`). Where a reading has stopped decides all later ones (`Reader.rereads`): at the end of
the tokens they find nothing, and at a token that is no symbol they stay. Only behind the strings of a
declaration can a reading stop at a symbol (`Stage.eq_strings_of_stuck`), and there the next one starts as if
nothing had been in front (`Reader.grammar_sameUpToGap`).
-/

namespace YeccDefr

open Token.Kind

namespace Stage

/-- The last class leads on from where the classes before it lead. -/
lemma after?_concat {s r : Stage} {v : List Token.Kind} {k} :
    s.after? (v ++ [k]) = some r ↔ ∃ q, s.after? v = some q ∧ q.next? k = some r := by
  rw [after?_append, Option.bind_eq_some_iff]
  simp

/-- No stage but the one behind strings is stuck at a symbol. -/
lemma eq_strings_of_stuck {q : Stage} {k : Token.Kind} (stuck : q.next? k = none)
    (symbol : k.isGrammarSymbol) : q = strings := by
  cases q with
  | strings => rfl
  | colon | code =>
    have isCode := Reader.isCode_of_isGrammarSymbol k symbol
    simp [next?, isCode] at stuck
  | start | head | symbols | arrow | rightSide => simp [next?, symbol] at stuck

/-- Only a symbol at the start of an item is a head. -/
lemma next?_eq_head {q : Stage} {k : Token.Kind} (h : q.next? k = some head) :
    q = start ∧ k.isGrammarSymbol := by
  cases q with
  | start =>
    rw [next?] at h
    split at h
    · exact ⟨rfl, ‹_›⟩
    · cases h
  | _ =>
    simp only [next?] at h
    split_ifs at h <;> cases h

/-- Only a string behind a head or a string is one of the strings of a declaration. -/
lemma next?_eq_strings {q : Stage} {k : Token.Kind} (h : q.next? k = some strings) :
    (q = head ∨ q = strings) ∧ k = .stringLiteral := by
  cases q with
  | head =>
    simp only [next?] at h
    split_ifs at h
    · cases h
    · exact ⟨.inl rfl, ‹_›⟩
    · cases h
  | strings =>
    simp only [next?] at h
    split_ifs at h
    · exact ⟨.inr rfl, ‹_›⟩
    · cases h
  | _ =>
    simp only [next?] at h
    split_ifs at h <;> cases h

/-- In front of a head stand whole items. -/
lemma after?_eq_head {w : List Token.Kind} (h : start.after? w = some head) :
    ∃ items k, w = items ++ [k] ∧ items ∈ grammarWords ∧ k.isGrammarSymbol := by
  induction w using List.reverseRecOn with
  | nil => cases h
  | append_singleton v k _ =>
    obtain ⟨q, before, next⟩ := after?_concat.1 h
    obtain ⟨rfl, symbol⟩ := next?_eq_head next
    exact ⟨v, k, rfl, after?_eq_start_iff.1 before, symbol⟩

/-- In front of the strings of a declaration stand whole items and its head. -/
lemma after?_eq_strings {w : List Token.Kind} (h : start.after? w = some strings) :
    ∃ items k texts, w = items ++ k :: texts ∧ items ∈ grammarWords ∧ k.isGrammarSymbol
      ∧ texts ≠ [] ∧ ∀ k ∈ texts, k = .stringLiteral := by
  induction w using List.reverseRecOn with
  | nil => cases h
  | append_singleton v k ih =>
    obtain ⟨q, before, next⟩ := after?_concat.1 h
    obtain ⟨rfl | rfl, rfl⟩ := next?_eq_strings next
    · obtain ⟨items, k, rfl, whole, symbol⟩ := after?_eq_head before
      exact ⟨items, k, [.stringLiteral], by simp, whole, symbol, nofun, by simp⟩
    · obtain ⟨items, k, texts, rfl, whole, symbol, _, all⟩ := ih before
      refine ⟨items, k, texts ++ [.stringLiteral], by simp, whole, symbol, by simp, ?_⟩
      rw [List.forall_mem_append]
      exact ⟨all, by simp⟩

end Stage

namespace SpacedToken

/-- Noting the gaps keeps the number of tokens. -/
lemma length_ofTokens (before? : Option Token) (tokens : List Token) :
    (ofTokens before? tokens).length = tokens.length := by
  conv_rhs => rw [← ofTokens_token before? tokens, List.length_map]

/-- Behind some tokens the gaps of the others are noted as behind the last of them. -/
lemma drop_ofTokens (before? : Option Token) (tokens : List Token) (k : Nat) :
    ∃ before'?, (ofTokens before? tokens).drop k = ofTokens before'? (tokens.drop k) := by
  induction k generalizing before? tokens with
  | zero => exact ⟨before?, rfl⟩
  | succ k ih =>
    cases tokens with
    | nil => exact ⟨none, rfl⟩
    | cons t ts => exact ih (some t) ts

end SpacedToken

namespace Reader
open Stage

/-- The tokens that are left after a reading. -/
def left {α : Type} : EStateM.Result Error (List SpacedToken) α → List SpacedToken
  | .ok _ rest => rest
  | .error _ rest => rest

/-- The tokens that are left after the given number of readings of a grammar, one after the other. -/
def leftAfter (tokens : List Token) : Nat → List SpacedToken
  | 0 => SpacedToken.ofTokens none tokens
  | n + 1 => left (grammar (leftAfter tokens n))

/-- The reading after the given number of other ones. -/
def reading (tokens : List Token) (n : Nat) : EStateM.Result Error (List SpacedToken) Grammar :=
  grammar (leftAfter tokens n)

/-- How many tokens have been taken after the given number of readings. -/
def position (tokens : List Token) (n : Nat) : Nat := tokens.length - (leftAfter tokens n).length

/-- A reading fails at a token, or at the end of the tokens. -/
def FailsAt {α : Type} (r : EStateM.Result Error (List SpacedToken) α) (found? : Option Token) : Prop :=
  ∃ e, r = .error (.unexpected e) (left r) ∧ e.found? = found?

/-- Two readings of a grammar end in the same way, up to the gap in front of its first symbol. -/
inductive SameUpToGap : EStateM.Result Error (List SpacedToken) Grammar →
    EStateM.Result Error (List SpacedToken) Grammar → Prop where
  | ok {is rest} (spaced : Bool) : SameUpToGap (.ok ⟨is⟩ rest) (.ok ⟨withGap spaced is⟩ rest)
  | error {e rest} : SameUpToGap (.error e rest) (.error e rest)

/-! ## One reading -/

/-- No tokens are a grammar without items. -/
lemma grammar_nil : grammar [] = .ok ⟨[]⟩ [] := grammar_of_ok items_nil

/-- A reading of a grammar takes all tokens, or stops where the stages are stuck. -/
lemma grammar_cases (tokens : List SpacedToken) : (∃ g, grammar tokens = .ok g [])
    ∨ ∃ q taken rest, tokens = taken ++ rest ∧ start.after? (SpacedToken.kinds taken) = some q
      ∧ q.Stuck rest
      ∧ grammar tokens = .error (.unexpected ⟨rest.head?.map (·.token), q.expected⟩) rest := by
  by_cases word : SpacedToken.kinds tokens ∈ grammarWords
  · obtain ⟨is, read⟩ := items_ok_iff.2 word
    exact .inl ⟨_, grammar_of_ok read⟩
  · obtain ⟨q, taken, rest, split, after, stuck, failed⟩ := items_error word
    exact .inr ⟨q, taken, rest, split, after, stuck, grammar_of_error failed⟩

/-- A reading leaves tokens at the end. -/
lemma left_grammar_suffix (tokens : List SpacedToken) : left (grammar tokens) <:+ tokens := by
  rcases grammar_cases tokens with ⟨g, read⟩ | ⟨q, taken, rest, split, _, _, failed⟩
  · rw [read]
    exact List.nil_suffix
  · rw [failed, split]
    exact List.suffix_append taken rest

/-- No reading is stuck in front of a symbol that it could start with. -/
lemma ne_nil_of_stuck {q : Stage} {taken rest ts : List SpacedToken} {t : SpacedToken}
    (split : t :: ts = taken ++ rest) (after : start.after? (SpacedToken.kinds taken) = some q)
    (stuck : q.Stuck rest) (h : t.token.kind.isGrammarSymbol) : taken ≠ [] := by
  rintro rfl
  cases split
  cases after
  simp [Stuck, next?, h] at stuck

/-- A reading fails at once where no symbol is next. -/
lemma grammar_of_other {t : SpacedToken} {ts} (h : ¬ t.token.kind.isGrammarSymbol) :
    grammar (t :: ts) = .error (.unexpected ⟨some t.token, .symbol⟩) (t :: ts) := by
  have stuck : Stage.start.Stuck (t :: ts) := if_neg h
  exact grammar_of_error (@items_of_stuck [] _ _ rfl stuck)

/-- A symbol is taken. -/
lemma left_grammar_lt {t : SpacedToken} {ts} (h : t.token.kind.isGrammarSymbol) :
    (left (grammar (t :: ts))).length < (t :: ts).length := by
  rcases grammar_cases (t :: ts) with ⟨g, read⟩ | ⟨q, taken, rest, split, after, stuck, failed⟩
  · rw [read]
    exact Nat.succ_pos _
  · have taken := List.length_pos_iff.2 (ne_nil_of_stuck split after stuck h)
    rw [failed, split, left, List.length_append]
    omega

/-- The gap in front of the first symbol is noted and does not change anything else. -/
lemma grammar_sameUpToGap {t : Token} {ts} (spaced spaced' : Bool) (h : t.kind.isGrammarSymbol) :
    SameUpToGap (grammar (⟨t, spaced⟩ :: ts)) (grammar (⟨t, spaced'⟩ :: ts)) := by
  by_cases word : SpacedToken.kinds (⟨t, spaced⟩ :: ts) ∈ grammarWords
  · obtain ⟨is, read⟩ := items_ok_iff.2 word
    obtain ⟨_, wf, noted⟩ := items_eq_ok.1 read
    have read' : items (⟨t, spaced'⟩ :: ts) = .ok (withGap spaced' is) [] :=
      items_eq_ok.2 ⟨rfl, Grammar.wellFormed_withGap spaced' wf, noted_withGap noted⟩
    rw [grammar_of_ok read, grammar_of_ok read']
    exact .ok spaced'
  · obtain ⟨q, taken, rest, split, after, stuck, failed⟩ := items_error word
    obtain ⟨u, us, rfl⟩ := List.exists_cons_of_ne_nil (ne_nil_of_stuck split after stuck h)
    rw [List.cons_append] at split
    obtain ⟨rfl, rfl⟩ := List.cons.inj split
    have failed' := @items_of_stuck (⟨t, spaced'⟩ :: us) _ _ after stuck
    rw [List.cons_append] at failed'
    rw [grammar_of_error failed, grammar_of_error failed']
    exact .error

/-! ## Many readings -/

section
variable (tokens : List Token) (n : Nat)

/-- The next reading leaves tokens at the end of those left. -/
lemma leftAfter_succ_suffix : leftAfter tokens (n + 1) <:+ leftAfter tokens n :=
  left_grammar_suffix _

/-- All readings leave tokens at the end. -/
lemma leftAfter_suffix : leftAfter tokens n <:+ SpacedToken.ofTokens none tokens := by
  induction n with
  | zero => exact List.suffix_rfl
  | succ n ih => exact (leftAfter_succ_suffix tokens n).trans ih

/-- What is left are the tokens behind the position. -/
lemma leftAfter_eq_drop :
    leftAfter tokens n = (SpacedToken.ofTokens none tokens).drop (position tokens n) := by
  have suffix := List.suffix_iff_eq_drop.1 (leftAfter_suffix tokens n)
  rwa [SpacedToken.length_ofTokens] at suffix

/-- The same without the gaps. -/
lemma leftAfter_map_token :
    (leftAfter tokens n).map (·.token) = tokens.drop (position tokens n) := by
  rw [leftAfter_eq_drop, List.map_drop, SpacedToken.ofTokens_token]

/-- The tokens left have the gaps that are noted behind some token. -/
lemma leftAfter_eq_ofTokens : ∃ before?,
    leftAfter tokens n = SpacedToken.ofTokens before? (tokens.drop (position tokens n)) := by
  rw [leftAfter_eq_drop]
  exact SpacedToken.drop_ofTokens none tokens _

/-- No more tokens are left than there are. -/
lemma length_leftAfter_le : (leftAfter tokens n).length ≤ tokens.length := by
  have le := (leftAfter_suffix tokens n).length_le
  rwa [SpacedToken.length_ofTokens] at le

end

section
variable {tokens : List Token} {n : Nat}

/-- Where a reading has taken nothing, no later one takes anything. -/
lemma leftAfter_of_le (stays : leftAfter tokens (n + 1) = leftAfter tokens n) {m : Nat} (le : n ≤ m) :
    leftAfter tokens m = leftAfter tokens n := by
  induction m, le using Nat.le_induction with
  | base => rfl
  | succ m _ ih => rw [leftAfter, ih, ← leftAfter, stays]

/-- As long as each reading takes a token, there are no more readings than tokens. -/
lemma stays_or_shrinks (tokens : List Token) (n : Nat) : leftAfter tokens (n + 1) = leftAfter tokens n
    ∨ (leftAfter tokens n).length + n ≤ tokens.length := by
  induction n with
  | zero => exact .inr (length_leftAfter_le tokens 0)
  | succ n ih =>
    have again (stays : leftAfter tokens (n + 1) = leftAfter tokens n) :
        leftAfter tokens (n + 2) = leftAfter tokens (n + 1) :=
      (leftAfter_of_le stays (Nat.le_add_right n 2)).trans stays.symm
    have suffix := leftAfter_succ_suffix tokens n
    rcases suffix.length_le.eq_or_lt with same | less
    · exact .inl (again (suffix.eq_of_length same))
    · rcases ih with stays | shrinks
      · exact .inl (again stays)
      · exact .inr (by omega)

/-- Where nothing is left nothing changes. -/
lemma stays_of_nil (nothing : leftAfter tokens n = []) : leftAfter tokens (n + 1) = leftAfter tokens n := by
  rw [leftAfter, nothing, grammar_nil]
  rfl

/-- After as many readings as there are tokens nothing changes. -/
lemma stays_after_length : leftAfter tokens (tokens.length + 1) = leftAfter tokens tokens.length := by
  rcases stays_or_shrinks tokens tokens.length with stays | shrinks
  · exact stays
  · exact stays_of_nil (List.length_eq_zero_iff.1 (by omega))

/-- Readings are the same from where nothing changes. -/
lemma reading_of_le (stays : leftAfter tokens (n + 1) = leftAfter tokens n) {m : Nat} (le : n ≤ m) :
    reading tokens m = reading tokens n := by
  rw [reading, leftAfter_of_le stays le, reading]

/-- A reading takes all tokens, or fails at the first token that is left, where the stages are stuck. -/
lemma reading_cases (tokens : List Token) (n : Nat) :
    (∃ g, reading tokens n = .ok g [] ∧ leftAfter tokens (n + 1) = [])
    ∨ ∃ q taken, leftAfter tokens n = taken ++ leftAfter tokens (n + 1)
      ∧ start.after? (SpacedToken.kinds taken) = some q ∧ q.Stuck (leftAfter tokens (n + 1))
      ∧ reading tokens n = .error (.unexpected
        ⟨(leftAfter tokens (n + 1)).head?.map (·.token), q.expected⟩) (leftAfter tokens (n + 1)) := by
  rcases grammar_cases (leftAfter tokens n) with
    ⟨g, read⟩ | ⟨q, taken, rest, split, after, stuck, failed⟩
  · exact .inl ⟨g, read, by rw [leftAfter, read, left]⟩
  · have left_eq : leftAfter tokens (n + 1) = rest := by rw [leftAfter, failed, left]
    rw [left_eq]
    exact .inr ⟨q, taken, split, after, stuck, failed⟩

/-- The token that a reading fails at is the first one that is left. -/
lemma head?_of_failsAt {found? : Option Token} (h : FailsAt (reading tokens n) found?) :
    (leftAfter tokens (n + 1)).head?.map (·.token) = found? := by
  obtain ⟨e, failed, rfl⟩ := h
  rcases reading_cases tokens n with ⟨g, read, _⟩ | ⟨q, _, _, _, _, failed'⟩
  · rw [read] at failed
    cases failed
  · rw [failed'] at failed
    cases failed
    rfl

/-- A token at which a reading fails is the first one left. -/
lemma eq_cons_of_failsAt {t : Token} (h : FailsAt (reading tokens n) (some t)) :
    ∃ spaced ts, leftAfter tokens (n + 1) = ⟨t, spaced⟩ :: ts := by
  have first := head?_of_failsAt h
  cases e : leftAfter tokens (n + 1) with
  | nil =>
    rw [e] at first
    cases first
  | cons u ts =>
    rw [e] at first
    cases first
    exact ⟨u.spaced, ts, rfl⟩

end

/-- What a reading that fails at a symbol says about the tokens around it. -/
structure ResumesAt (tokens : List Token) (n : Nat) : Prop where
  /-- Whole items have been taken, and the head and the strings of a declaration. -/
  taken : ∃ items head texts, SpacedToken.kinds (leftAfter tokens n) =
      items ++ head :: texts ++ SpacedToken.kinds (leftAfter tokens (n + 1))
    ∧ items ∈ grammarWords ∧ head ∈ [.var, .atom, .integer]
    ∧ texts ≠ [] ∧ ∀ k ∈ texts, k = .stringLiteral
  /-- The next reading starts as if there were no tokens before. -/
  fresh : SameUpToGap
    (grammar (SpacedToken.ofTokens none (tokens.drop (position tokens (n + 1)))))
    (reading tokens (n + 1))
  takes : position tokens (n + 1) < position tokens (n + 2)

/-- The law of repeated readings of a grammar from one list of tokens. -/
structure Rereads (tokens : List Token) : Prop where
  /-- What is left are the tokens behind a position, which never moves back nor beyond the end. -/
  cursor : ∀ n, leftAfter tokens n = (SpacedToken.ofTokens none tokens).drop (position tokens n)
  forward : Monotone (position tokens)
  inside : ∀ n, position tokens n ≤ tokens.length
  /-- A reading succeeds at the end of the tokens, or fails at the token behind its position. -/
  outcome : ∀ n, (∃ g, reading tokens n = .ok g [] ∧ position tokens (n + 1) = tokens.length)
    ∨ FailsAt (reading tokens n) tokens[position tokens (n + 1)]?
  /-- At the end of the tokens nothing more is found. -/
  atEnd : ∀ n, (∃ g rest, reading tokens n = .ok g rest) ∨ FailsAt (reading tokens n) none →
    ∀ m > n, reading tokens m = .ok ⟨[]⟩ []
  /-- All readings stay at a token that is no symbol. -/
  atOther : ∀ n t, FailsAt (reading tokens n) (some t) → t.kind ∉ [.var, .atom, .integer] → ∀ m > n,
    reading tokens m = .error (.unexpected ⟨some t, .symbol⟩) (leftAfter tokens (n + 1))
  /-- Readings that fail at a symbol resume there. -/
  atSymbol : ∀ n t, FailsAt (reading tokens n) (some t) → t.kind ∈ [.var, .atom, .integer] →
    ResumesAt tokens n
  /-- After one reading more than there are tokens nothing changes any more. -/
  settles : ∀ m ≥ tokens.length, reading tokens m = reading tokens tokens.length

section
variable {tokens : List Token} {n : Nat}

/-- The position never moves back. -/
lemma position_monotone : Monotone (position tokens) := by
  refine monotone_nat_of_le_succ fun n => ?_
  have shorter := (leftAfter_succ_suffix tokens n).length_le
  rw [position, position]
  omega

/-- The token at the position is the first one that is left. -/
lemma getElem?_position (n : Nat) :
    tokens[position tokens n]? = (leftAfter tokens n).head?.map (·.token) := by
  rw [← List.head?_map, leftAfter_map_token, List.head?_drop]

/-- A reading takes all tokens, or fails at the token behind its position. -/
lemma outcome_of_reading (n : Nat) :
    (∃ g, reading tokens n = .ok g [] ∧ position tokens (n + 1) = tokens.length)
      ∨ FailsAt (reading tokens n) tokens[position tokens (n + 1)]? := by
  rw [getElem?_position]
  rcases reading_cases tokens n with ⟨g, read, all⟩ | ⟨q, _, _, _, _, failed⟩
  · exact .inl ⟨g, read, by rw [position, all, List.length_nil, Nat.sub_zero]⟩
  · exact .inr ⟨_, failed, rfl⟩

/-- At the end of the tokens further readings find nothing. -/
lemma reading_of_end
    (h : (∃ g rest, reading tokens n = .ok g rest) ∨ FailsAt (reading tokens n) none) {m : Nat}
    (later : m > n) : reading tokens m = .ok ⟨[]⟩ [] := by
  have nothing : leftAfter tokens (n + 1) = [] := by
    rcases h with ⟨g, rest, read⟩ | failed
    · rcases reading_cases tokens n with ⟨_, _, all⟩ | ⟨_, _, _, _, _, failed⟩
      · exact all
      · rw [read] at failed
        cases failed
    · simpa using head?_of_failsAt failed
  rw [reading_of_le (stays_of_nil nothing) later, reading, nothing, grammar_nil]

/-- At a token that is no symbol further readings fail. -/
lemma reading_of_other {t : Token} (h : FailsAt (reading tokens n) (some t))
    (other : ¬ t.kind.isGrammarSymbol) {m : Nat} (later : m > n) :
    reading tokens m = .error (.unexpected ⟨some t, .symbol⟩) (leftAfter tokens (n + 1)) := by
  obtain ⟨spaced, ts, rest⟩ := eq_cons_of_failsAt h
  have again := @grammar_of_other ⟨t, spaced⟩ ts other
  have stays : leftAfter tokens (n + 1 + 1) = leftAfter tokens (n + 1) := by
    rw [leftAfter, rest, again]
    rfl
  rw [reading_of_le stays later, reading, rest, again]

/-- A reading that fails at a symbol is resumed there. -/
lemma resumesAt_of_failsAt {t : Token} (h : FailsAt (reading tokens n) (some t))
    (symbol : t.kind.isGrammarSymbol) : ResumesAt tokens n := by
  obtain ⟨spaced, ts, rest⟩ := eq_cons_of_failsAt h
  have here := leftAfter_map_token tokens (n + 1)
  rw [rest, List.map_cons] at here
  refine ⟨?_, ?_, ?_⟩
  · rcases reading_cases tokens n with ⟨_, _, all⟩ | ⟨q, taken, split, after, stuck, _⟩
    · rw [rest] at all
      cases all
    · rw [rest] at stuck
      cases eq_strings_of_stuck stuck symbol
      obtain ⟨items, head, texts, word, whole, isHead, facts⟩ := after?_eq_strings after
      refine ⟨items, head, texts, ?_, whole, isGrammarSymbol_iff.1 isHead, facts⟩
      rw [split, SpacedToken.kinds, List.map_append, ← SpacedToken.kinds, word, SpacedToken.kinds]
  · -- both readings go on with the same tokens behind the first one
    obtain ⟨before?, noted⟩ := leftAfter_eq_ofTokens tokens (n + 1)
    rw [reading, noted, ← here, SpacedToken.ofTokens, SpacedToken.ofTokens]
    exact grammar_sameUpToGap _ _ symbol
  · have shorter := @left_grammar_lt ⟨t, spaced⟩ ts symbol
    rw [← rest] at shorter
    change (leftAfter tokens (n + 2)).length < _ at shorter
    have bounded := length_leftAfter_le tokens (n + 1)
    rw [position, position]
    omega

end

/-- Repeated readings of a grammar from one list of tokens follow one law. -/
theorem rereads (tokens : List Token) : Rereads tokens where
  cursor := leftAfter_eq_drop tokens
  forward := position_monotone
  inside := fun _ => Nat.sub_le _ _
  outcome := outcome_of_reading
  atEnd := fun _ h _ => reading_of_end h
  atOther := fun _ _ h other _ => reading_of_other h (mt isGrammarSymbol_iff.1 other)
  atSymbol := fun _ _ h symbol => resumesAt_of_failsAt h (isGrammarSymbol_iff.2 symbol)
  settles := fun _ => reading_of_le stays_after_length

end Reader

end YeccDefr
