import YeccDefr.Proofs.Grammar.Gaps
import YeccDefr.Proofs.Grammar.Sequence

/-!
# Reading by positions

A reader that keeps all tokens and a position (`Cursor`) looks at the token before the position to note a
gap, and that is where it can go wrong: there has to be such a token. The cursor checks this, and has no
value where a check fails, or where a loop takes more rounds than there are tokens. It is a `Lector`, and
what it reads of a production is what is read from the tokens behind the position (`Cursor.Reads`), so it
always has a value (`Grammar.ofTokens?_eq`).
-/

namespace YeccDefr

/-- A reader that keeps a position in a list of tokens, and that has no value where a check fails. -/
abbrev Cursor := ReaderT (List Token) (ExceptT Error (StateT Nat Option))

namespace Cursor

/-- Reads the tokens of a list from a position on. -/
def runAt {α : Type} (x : Cursor α) (tokens : List Token) (position : Nat) :
    Option (Except Error α × Nat) := (x.run tokens).run.run position

/-- A value that has to be there. -/
def check {α : Type} (a? : Option α) : Cursor α := fun _ position => a?.map fun a => (.ok a, position)

/-- The next token. -/
def next? : Cursor (Option Token) := do
  return (← read)[← get]?

/-- The class of the next token, if there is one. -/
def nextKind? : Cursor (Option Token.Kind) := do
  return (← next?).map (·.kind)

/-- Fails at the next token. -/
def fail {α : Type} (expected : Expected) : Cursor α := do
  throw (.unexpected ⟨← next?, expected⟩)

/-- Takes the next token. -/
def skip : Cursor Unit := modify (· + 1)

/-- Whether a token starts after the end of the one before it, which has to be there unless the token is the
first one. -/
def spaced (token : Token) : Nat → Cursor Bool
  | 0 => return false
  | k + 1 => do
    let before ← check (← read)[k]?
    return before.region.stop.index < token.region.start.index

/-- Takes the next token as a symbol where its class is accepted. -/
def one (accepts : Token.Kind → Bool) (expected : Expected) : Cursor Symbol := do
  match ← next? with
  | none => fail expected
  | some token =>
    if accepts token.kind then
      match Symbol.classify token (← spaced token (← get)) with
      | .ok s =>
        skip
        return s
      | .error e => throw (.unclassified e)
    else fail expected

/-- The loop that takes tokens as symbols, with fewer than the given number of rounds. -/
def manyIn (accepts : Token.Kind → Bool) (expected : Expected) :
    (rounds : Nat) → Cursor (List Symbol)
  | 0 => check none
  | rounds + 1 => do
    if (← nextKind?).any accepts then
      let s ← one accepts expected
      let ss ← manyIn accepts expected rounds
      return s :: ss
    else
      return []

/-- Takes tokens as symbols as long as their classes are accepted, in at most one round for each token. -/
def many (accepts : Token.Kind → Bool) (expected : Expected) : Cursor (List Symbol) := do
  manyIn accepts expected ((← read).length + 1)

/-- Reading from the position on. -/
def lector : Lector Cursor where
  nextKind? := nextKind?
  skip := skip
  fail := fail
  one := one
  many := many

/-- The loop that reads items, with fewer than the given number of rounds. -/
def itemsIn : (rounds : Nat) → Cursor (List Item)
  | 0 => check none
  | rounds + 1 => do
    if (← nextKind?).isSome then
      let i ← lector.item
      let is ← itemsIn rounds
      return i :: is
    else
      return []

/-- All items up to the end of the tokens, in at most one round for each token. -/
def items : Cursor (List Item) := do
  itemsIn ((← read).length + 1)

end Cursor

/-- The grammar that a list of tokens forms, read by positions. -/
def Grammar.ofTokens? (tokens : List Token) : Option (Except Error Grammar) :=
  (Cursor.items.runAt tokens 0).map fun r => r.1.map Grammar.mk

/-! ## What a cursor reads -/

/-- The tokens from a position on, with the gaps noted. -/
def SpacedToken.behind (tokens : List Token) (position : Nat) : List SpacedToken :=
  (ofTokens none tokens).drop position

namespace Cursor
open SpacedToken

section
variable {α β : Type} {tokens : List Token} {position : Nat}

/-- From a position on, a cursor reads what a reader reads from the tokens behind the position. -/
def ReadsAt (tokens : List Token) (position : Nat) (x : Cursor α) (r : Reader α) : Prop :=
  match r (behind tokens position) with
  | .ok a rest => ∃ next, x.runAt tokens position = some (.ok a, next) ∧ rest = behind tokens next
  | .error e _ => ∃ next, x.runAt tokens position = some (.error e, next)

/-- A cursor reads what a reader reads, from every position on. -/
def Reads (x : Cursor α) (r : Reader α) : Prop := ∀ tokens position, ReadsAt tokens position x r

/-- Two steps run one after the other, unless the first one fails or goes wrong. -/
lemma runAt_bind (x : Cursor α) (f : α → Cursor β) :
    (x >>= f).runAt tokens position = (x.runAt tokens position).bind fun r =>
      match r.1 with
      | .ok a => (f a).runAt tokens r.2
      | .error e => some (.error e, r.2) := by
  simp only [runAt, ReaderT.run_bind, ExceptT.run_bind, StateT.run_bind]
  refine congrArg _ (funext fun r => ?_)
  obtain ⟨result, next⟩ := r
  cases result <;> rfl

/-- The tokens can be asked for. -/
lemma runAt_read : (read : Cursor (List Token)).runAt tokens position = some (.ok tokens, position) := rfl

/-- The position can be asked for. -/
lemma runAt_get : (get : Cursor Nat).runAt tokens position = some (.ok position, position) := rfl

/-- The next token is the one at the position. -/
lemma runAt_next? : next?.runAt tokens position = some (.ok tokens[position]?, position) := rfl

/-- Readers that do the same at some tokens are read by the same cursor there. -/
lemma ReadsAt.congr {x : Cursor α} {r r' : Reader α} (h : ReadsAt tokens position x r)
    (e : r' (behind tokens position) = r (behind tokens position)) :
    ReadsAt tokens position x r' := by
  rw [ReadsAt, e]
  exact h

/-- The next cursor goes on where the first one stopped. -/
lemma ReadsAt.bind {x : Cursor α} {r : Reader α} {f : α → Cursor β} {g : α → Reader β}
    (h : ReadsAt tokens position x r)
    (h' : ∀ a next, r (behind tokens position) = .ok a (behind tokens next) →
      ReadsAt tokens next (f a) (g a)) : ReadsAt tokens position (x >>= f) (r >>= g) := by
  unfold ReadsAt at h ⊢
  cases read : r (behind tokens position) with
  | ok a rest =>
    rw [read] at h
    obtain ⟨next, run, rfl⟩ := h
    have goesOn : (r >>= g) (behind tokens position) = g a (behind tokens next) := by
      simp only [Bind.bind, EStateM.bind, read]
    have moved : (x >>= f).runAt tokens position = (f a).runAt tokens next := by
      rw [runAt_bind, run]
      rfl
    rw [goesOn, moved]
    exact h' a next read
  | error e rest =>
    rw [read] at h
    obtain ⟨next, run⟩ := h
    have failed : (r >>= g) (behind tokens position) = .error e rest := by
      simp only [Bind.bind, EStateM.bind, read]
    rw [failed]
    exact ⟨next, by rw [runAt_bind, run]; rfl⟩

/-- Two steps read what two readers do, if each of them does. -/
lemma Reads.bind {x : Cursor α} {r : Reader α} {f : α → Cursor β} {g : α → Reader β}
    (h : Reads x r) (h' : ∀ a, Reads (f a) (g a)) : Reads (x >>= f) (r >>= g) :=
  fun tokens position => (h tokens position).bind fun a next _ => h' a tokens next

/-- A value alone reads nothing. -/
lemma Reads.pure (a : α) : Reads (Pure.pure a) (Pure.pure a) :=
  fun _ position => ⟨position, rfl, rfl⟩

/-- At the end nothing is behind the position. -/
lemma behind_nil (h : tokens[position]? = none) : behind tokens position = [] := by
  rw [List.getElem?_eq_none_iff] at h
  rw [behind, List.drop_eq_nil_iff, ← List.length_map (·.token), ofTokens_token]
  exact h

/-- Where there is a next token, there is one before it unless it is the first, and the gap between the two
is noted. -/
lemma behind_cons {t : Token} (h : tokens[position]? = some t) :
    ∃ gap, behind tokens position = ⟨t, gap⟩ :: behind tokens (position + 1)
      ∧ (spaced t position).runAt tokens position = some (.ok gap, position) := by
  have split {noted} (h : (ofTokens none tokens)[position]? = some noted) :
      behind tokens position = noted :: behind tokens (position + 1) := by
    obtain ⟨inside, rfl⟩ := List.getElem?_eq_some_iff.1 h
    exact List.drop_eq_getElem_cons inside
  cases position with
  | zero => exact ⟨false, split (ofTokens_getElem?_zero none h), rfl⟩
  | succ k =>
    obtain ⟨inside, _⟩ := List.getElem?_eq_some_iff.1 h
    have before : tokens[k]? = some tokens[k] := List.getElem?_eq_getElem (by omega)
    refine ⟨_, split (ofTokens_getElem?_succ none before h), ?_⟩
    have looked : (check tokens[k]?).runAt tokens (k + 1) = some (.ok tokens[k], k + 1) := by
      rw [before]
      rfl
    rw [spaced, runAt_bind, runAt_read, Option.bind_some]
    dsimp only
    rw [runAt_bind, looked]
    rfl

/-- There is a round for every token behind the position. -/
lemma length_behind_lt : (behind tokens position).length < tokens.length + 1 := by
  have all := congrArg List.length (ofTokens_token none tokens)
  rw [List.length_map] at all
  rw [behind, List.length_drop]
  omega

/-- The token at the position is the first one behind it. -/
lemma head?_behind : (behind tokens position).head?.map (·.token) = tokens[position]? := by
  cases h : tokens[position]? with
  | none => rw [behind_nil h]; rfl
  | some t =>
    obtain ⟨gap, split, _⟩ := behind_cons h
    rw [split]
    rfl

/-- The class of the next token is read by its position. -/
lemma nextKind?_reads : Reads nextKind? Reader.nextKind? := by
  intro tokens position
  refine ⟨position, ?_, rfl⟩
  have kind : (behind tokens position).head?.map (·.token.kind) = tokens[position]?.map (·.kind) := by
    rw [← head?_behind, Option.map_map]
    rfl
  rw [nextKind?, runAt_bind, runAt_next?, kind]
  rfl

/-- An error shows the token at the position. -/
lemma fail_reads (expected : Expected) :
    Reads (fail expected : Cursor α) (Reader.fail expected) := by
  intro tokens position
  refine ⟨position, ?_⟩
  rw [fail, runAt_bind, runAt_next?, head?_behind]
  rfl

/-- A step forward skips a token. -/
lemma skip_reads : Reads skip Reader.skip := by
  intro tokens position
  exact ⟨position + 1, rfl, by rw [behind, behind, List.tail_drop]⟩

/-- One symbol is read by its position. -/
lemma one_reads (accepts : Token.Kind → Bool) (expected : Expected) :
    Reads (one accepts expected) (Reader.one accepts expected) := by
  intro tokens position
  have failed : ReadsAt tokens position (fail expected : Cursor Symbol) (Reader.fail expected) :=
    fail_reads expected tokens position
  cases h : tokens[position]? with
  | none =>
    have run : (one accepts expected).runAt tokens position =
        (fail expected : Cursor Symbol).runAt tokens position := by
      rw [one, runAt_bind, runAt_next?, h]
      rfl
    rw [ReadsAt, behind_nil h] at failed ⊢
    rw [run]
    exact failed
  | some t =>
    obtain ⟨gap, split, noted⟩ := behind_cons h
    by_cases accepted : accepts t.kind
    · rw [ReadsAt, split, Reader.one, if_pos accepted]
      have run : (one accepts expected).runAt tokens position =
          (match Symbol.classify t gap with
            | .ok s => some (.ok s, position + 1)
            | .error e => some (.error (.unclassified e), position)) := by
        rw [one, runAt_bind, runAt_next?, h, Option.bind_some]
        dsimp only
        rw [if_pos accepted, runAt_bind, runAt_get, Option.bind_some]
        dsimp only
        rw [runAt_bind, noted, Option.bind_some]
        dsimp only
        cases Symbol.classify t gap <;> rfl
      dsimp only
      rw [run]
      cases Symbol.classify t gap with
      | ok s => exact ⟨position + 1, rfl, rfl⟩
      | error e => exact ⟨position, rfl⟩
    · have run : (one accepts expected).runAt tokens position =
          (fail expected : Cursor Symbol).runAt tokens position := by
        rw [one, runAt_bind, runAt_next?, h, Option.bind_some]
        dsimp only
        rw [if_neg accepted]
      rw [ReadsAt, split] at failed ⊢
      rw [run, Reader.one, if_neg accepted]
      exact failed

/-- The loop of the reader, written with one token of look-ahead. -/
lemma many_eq (accepts : Token.Kind → Bool) (expected : Expected) (ts : List SpacedToken) :
    Reader.many accepts ts = (do
      if (← Reader.nextKind?).any accepts then
        let s ← Reader.one accepts expected
        let ss ← Reader.many accepts
        return s :: ss
      else
        return []) ts := by
  cases ts with
  | nil => rfl
  | cons t ts =>
    simp only [Bind.bind, EStateM.bind, Reader.nextKind?, List.head?_cons, Option.map_some,
      Option.any_some]
    rw [Reader.many]
    by_cases accepted : accepts t.token.kind
    · simp only [if_pos accepted, Reader.one, EStateM.bind]
      cases Symbol.classify t.token t.spaced with
      | error e => rfl
      | ok s =>
        dsimp only
        cases Reader.many accepts ts <;> rfl
    · simp only [if_neg accepted]
      rfl

/-- A symbol that is taken leaves fewer tokens. -/
lemma manyIn_reads (accepts : Token.Kind → Bool) (expected : Expected) {rounds : Nat}
    (enough : (behind tokens position).length < rounds) :
    ReadsAt tokens position (manyIn accepts expected rounds) (Reader.many accepts) := by
  induction rounds generalizing position with
  | zero => exact absurd enough (Nat.not_lt_zero _)
  | succ rounds ih =>
    refine .congr ?_ (many_eq accepts expected _)
    refine (nextKind?_reads tokens position).bind fun kind? next looked => ?_
    injection looked with _ same
    split
    · refine (one_reads _ _ tokens next).bind fun s rest taken => ?_
      have shorter := Reader.one_length taken
      rw [← same] at shorter
      exact (ih (by omega)).bind fun ss last _ => Reads.pure _ tokens last
    · exact Reads.pure _ tokens next

/-- Symbols are read by their positions. -/
lemma many_reads (accepts : Token.Kind → Bool) (expected : Expected) :
    Reads (many accepts expected) (Reader.many accepts) :=
  fun _ _ => manyIn_reads accepts expected length_behind_lt

/-- All steps are read by their positions. -/
lemma lector_reads : Lector.Matches (fun _ => Reads) lector Reader.lector where
  pure := .pure
  bind := Reads.bind
  nextKind? := nextKind?_reads
  skip := skip_reads
  fail := fail_reads
  one := one_reads
  many := many_reads

/-- An item is read by its positions. -/
lemma item_reads : Reads lector.item Reader.item := Lector.item_matches lector_reads

/-- Items are read one after the other up to the end. -/
lemma items_eq (ts : List SpacedToken) : Reader.items ts = (do
      if (← Reader.nextKind?).isSome then
        let i ← Reader.item
        let is ← (Reader.items : Reader (List Item))
        return i :: is
      else
        return []) ts := by
  cases ts with
  | nil => exact Reader.items_nil
  | cons t ts =>
    simp only [Bind.bind, EStateM.bind, Reader.nextKind?, List.head?_cons, Option.map_some,
      Option.isSome_some, if_true]
    cases read : Reader.item (t :: ts) with
    | ok i rest =>
      rw [Reader.items_of_ok read]
      dsimp only
      cases Reader.items rest <;> rfl
    | error e rest => exact Reader.items_of_error read

/-- An item that is read leaves fewer tokens. -/
lemma itemsIn_reads {rounds : Nat} (enough : (behind tokens position).length < rounds) :
    ReadsAt tokens position (itemsIn rounds) Reader.items := by
  induction rounds generalizing position with
  | zero => exact absurd enough (Nat.not_lt_zero _)
  | succ rounds ih =>
    refine .congr ?_ (items_eq _)
    refine (nextKind?_reads tokens position).bind fun kind? next looked => ?_
    injection looked with _ same
    split
    · refine (item_reads tokens next).bind fun i rest taken => ?_
      have shorter := Reader.item_length_lt taken
      rw [← same] at shorter
      exact (ih (by omega)).bind fun is last _ => Reads.pure _ tokens last
    · exact Reads.pure _ tokens next

/-- All items are read by their positions, in at most as many rounds as there are tokens. -/
lemma items_reads : Reads items Reader.items := fun _ _ => itemsIn_reads length_behind_lt

end

end Cursor

/-- Reading by positions never fails a check, and it is reading. -/
theorem Grammar.ofTokens?_eq (tokens : List Token) : ofTokens? tokens = some (ofTokens tokens) := by
  have read : Cursor.ReadsAt tokens 0 Cursor.items Reader.items := Cursor.items_reads tokens 0
  unfold Cursor.ReadsAt at read
  rw [SpacedToken.behind, List.drop_zero] at read
  rw [ofTokens?, ofTokens]
  cases e : Reader.items (SpacedToken.ofTokens none tokens) with
  | ok is rest =>
    rw [e] at read
    obtain ⟨last, run, _⟩ := read
    rw [run, Reader.grammar_of_ok e]
    rfl
  | error e' rest =>
    rw [e] at read
    obtain ⟨last, run⟩ := read
    rw [run, Reader.grammar_of_error e]
    rfl

end YeccDefr
